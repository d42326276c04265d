import SuiteScript.Diagnostic
import SuiteScript.Sql.Identifier

/-! # Names of observer functions

    An observer is named `function` or `schema.function`, each part a word
    of at most 63 bytes.  The empty name asks for no observer. -/

namespace SuiteScript.Callback

/-- Bytes of an identifier that the database keeps. -/
def maxIdentifierBytes : Nat := 63

/-- What is wrong with one part of `name`, if anything: emptiness is
    reported before length, and length before wrong characters. -/
def checkPart (name : String) (part : List Char) : Except CallbackError Unit :=
  if part.isEmpty then .error (.emptyIdentifier name)
  else if (String.ofList part).utf8ByteSize > maxIdentifierBytes then
    .error (.identifierTooLong name (String.ofList part) maxIdentifierBytes)
  else if !Sql.isWord part then .error (.invalidIdentifier name (String.ofList part))
  else .ok ()

/-- Checks parts from left to right and reports the first that is wrong. -/
def checkParts (name : String) : List (List Char) → Except CallbackError Unit
  | [] => .ok ()
  | part :: rest =>
    match checkPart name part with
    | .ok () => checkParts name rest
    | .error e => .error e

/-- Accepts the empty name and every name of one or two good parts. -/
def validate (name : String) : Except CallbackError Unit :=
  if name.isEmpty then .ok ()
  else if (Sql.nameParts name).length > 2 then .error (.tooManyParts name)
  else checkParts name (Sql.nameParts name)

end SuiteScript.Callback
