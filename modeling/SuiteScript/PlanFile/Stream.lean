import SuiteScript.PlanFile.Field
import SuiteScript.Text.Quoted

/-! # Steps read from left to right

    This reader takes a step's fields as they come and stops at the first
    problem: a fault in the text, a repeated field, or a value that does not
    fit.  Members with other keys are skipped, as long as they are free of
    faults.  Missing fields are reported when the object has ended.  A step
    may also be an array of its fields in order, whose absent script and
    depth take their defaults. -/

namespace SuiteScript

/-! ### Errors -/

/-- What a value should have been. -/
inductive Expected where
  /-- A whole number below 2 ^ 32. -/
  | word
  /-- A string. -/
  | text
  /-- A step, as an object or as an array. -/
  | step
  /-- An array of steps. -/
  | steps
deriving DecidableEq, Repr

/-- What was expected, in a message. -/
def Expected.description : Expected → String
  | word => "u32"
  | text => "a string"
  | step => "struct Step"
  | steps => "a sequence"

/-- Why well-formed text is not a step. -/
inductive Mismatch where
  /-- The object ends without a field that has to be there. -/
  | missingField (field : StepField)
  /-- A field is given a second time, under any of its keys. -/
  | duplicateField (field : StepField)
  /-- A value of another kind; `found` describes it. -/
  | wrongType (found : String) (expected : Expected)
  /-- A whole number that is negative or too large. -/
  | wordOutOfRange (n : Int)
  /-- An array that ends in front of the field with the given index. -/
  | wrongLength (length : Nat)
  /-- A string that is no spelling of a step kind. -/
  | unknownKind (name : String)
deriving DecidableEq, Repr

/-- The mismatch in words. -/
def Mismatch.message : Mismatch → String
  | missingField field => "missing field `" ++ field.key ++ "`"
  | duplicateField field => "duplicate field `" ++ field.key ++ "`"
  | wrongType found expected =>
    "invalid type: " ++ found ++ ", expected " ++ expected.description
  | wordOutOfRange n =>
    "invalid value: integer `" ++ toString n ++ "`, expected " ++ Expected.word.description
  | wrongLength length =>
    "invalid length " ++ toString length ++ ", expected struct Step with 5 elements"
  | unknownKind name =>
    "unknown step kind " ++ Text.quoted name ++ " (expected fixture, test or teardown)"

/-- Why a text is not a step. -/
inductive DecodeError where
  /-- The text has a fault. -/
  | malformed
  /-- The text is good so far, but what it says is no step. -/
  | mismatch (cause : Mismatch)
deriving DecidableEq, Repr

namespace Json.Reading

/-- What a value is, in a message.  What has a fault is nothing yet; an
    array or object is known by its first character. -/
def description? : Reading → Option String
  | .null => some "null"
  | .bool b => some ("boolean `" ++ toString b ++ "`")
  | .number (some (.real isNegative magnitude)) =>
    some ("floating point `" ++ (Number.real isNegative magnitude).render ++ "`")
  | .number (some n) => some ("integer `" ++ n.render ++ "`")
  | .number none => none
  | .text (some s) => some ("string " ++ Text.quoted s)
  | .text none => none
  | .array .. => some "sequence"
  | .object .. => some "map"
  | .broken => none

/-- The error for a value that is not what was expected. -/
def unexpected (r : Reading) (expected : Expected) : DecodeError :=
  match r.description? with
  | some found => .mismatch (.wrongType found expected)
  | none => .malformed

/-! ### Values of fields -/

/-- A whole number below 2 ^ 32. -/
def asWord : Reading → Except DecodeError UInt32
  | .number (some (.natural n)) =>
    if n < UInt32.size then .ok (UInt32.ofNat n) else .error (.mismatch (.wordOutOfRange n))
  | .number (some (.negative n)) => .error (.mismatch (.wordOutOfRange (-n)))
  | r => .error (r.unexpected .word)

/-- A string. -/
def asText : Reading → Except DecodeError String
  | .text (some s) => .ok s
  | r => .error (r.unexpected .text)

/-- A string, or null for an absent one. -/
def asOptionalText : Reading → Except DecodeError (Option String)
  | .null => .ok none
  | r => r.asText.map some

/-- A spelling of a step kind. -/
def asKind (r : Reading) : Except DecodeError StepKind :=
  match r.asText with
  | .error e => .error e
  | .ok name =>
    match StepKind.ofName? name with
    | some kind => .ok kind
    | none => .error (.mismatch (.unknownKind name))

end Json.Reading

/-! ### Objects -/

open Json (Reading)

/-- The fields of a step that have been read. -/
structure PartialStep where
  /-- The ordinal, once it has been read. -/
  ordinal : Option UInt32 := none
  /-- The kind, once it has been read. -/
  kind : Option StepKind := none
  /-- The script, once it has been read; it may be absent. -/
  scriptPath : Option (Option String) := none
  /-- The directory, once it has been read. -/
  directory : Option String := none
  /-- The depth, once it has been read. -/
  depth : Option UInt32 := none
deriving DecidableEq, Repr

namespace PartialStep

/-- Has the field been read? -/
def has (p : PartialStep) : StepField → Bool
  | .ordinal => p.ordinal.isSome
  | .kind => p.kind.isSome
  | .scriptPath => p.scriptPath.isSome
  | .directory => p.directory.isSome
  | .depth => p.depth.isSome

/-- Reads the value of a field. -/
def put (p : PartialStep) (r : Reading) : StepField → Except DecodeError PartialStep
  | .ordinal => do return { p with ordinal := some (← r.asWord) }
  | .kind => do return { p with kind := some (← r.asKind) }
  | .scriptPath => do return { p with scriptPath := some (← r.asOptionalText) }
  | .directory => do return { p with directory := some (← r.asText) }
  | .depth => do return { p with depth := some (← r.asWord) }

/-- Reads a member: a field that has not been read, or a value to skip. -/
def readMember (p : PartialStep) (m : Reading.Member) : Except DecodeError PartialStep :=
  match m.1 with
  | none => .error .malformed
  | some key =>
    match StepField.ofKey? key with
    | some field =>
      if p.has field then .error (.mismatch (.duplicateField field)) else p.put m.2 field
    | none => if m.2.isIntact then .ok p else .error .malformed

/-- A field that has to be there. -/
def require {α : Type} (field : StepField) : Option α → Except DecodeError α
  | some a => .ok a
  | none => .error (.mismatch (.missingField field))

/-- The step, once all of its members have been read. -/
def finish (p : PartialStep) : Except DecodeError Step := do
  let ordinal ← require .ordinal p.ordinal
  let kind ← require .kind p.kind
  let directory ← require .directory p.directory
  return ⟨ordinal, kind, p.scriptPath.getD none, ⟨directory, p.depth.getD 0⟩⟩

end PartialStep

/-- Reads the members of a step. -/
def Step.readMembers (members : List Reading.Member) (isClosed : Bool) :
    Except DecodeError Step := do
  let p ← members.foldlM PartialStep.readMember {}
  if isClosed then p.finish else .error .malformed

/-! ### Arrays -/

/-- The elements of an array that have not been read. -/
structure Elements where
  /-- They, in order. -/
  items : List Reading
  /-- Does the array end behind them, and not in a fault? -/
  isClosed : Bool

namespace Elements

/-- Reads the next element; `absent` is the answer of an array that has
    ended. -/
def next {α : Type} (e : Elements) (read : Reading → Except DecodeError α)
    (absent : Except DecodeError α) : Except DecodeError (α × Elements) :=
  match e.items with
  | r :: rest => do return (← read r, { e with items := rest })
  | [] => if e.isClosed then do return (← absent, e) else .error .malformed

/-- The error of an array that ends in front of its `n`-th element. -/
def tooShort {α : Type} (n : Nat) : Except DecodeError α := .error (.mismatch (.wrongLength n))

/-- Ends the array, which may hold nothing else. -/
def finish (e : Elements) : Except DecodeError Unit :=
  if e.items.isEmpty && e.isClosed then .ok () else .error .malformed

end Elements

/-- Reads the elements of a step. -/
def Step.readElements (elements : Elements) : Except DecodeError Step := do
  let (ordinal, e) ← elements.next Reading.asWord (Elements.tooShort 0)
  let (kind, e) ← e.next Reading.asKind (Elements.tooShort 1)
  let (scriptPath, e) ← e.next Reading.asOptionalText (.ok none)
  let (directory, e) ← e.next Reading.asText (Elements.tooShort 3)
  let (depth, e) ← e.next Reading.asWord (.ok 0)
  e.finish
  return ⟨ordinal, kind, scriptPath, ⟨directory, depth⟩⟩

/-! ### Steps and lists of steps -/

/-- Reads a step, which is an object or an array. -/
def Step.ofReading : Reading → Except DecodeError Step
  | .object members isClosed => Step.readMembers members isClosed
  | .array items isClosed => Step.readElements ⟨items, isClosed⟩
  | r => .error (r.unexpected .step)

/-- Reads an array of steps. -/
def Step.listOfReading : Reading → Except DecodeError (List Step)
  | .array items isClosed => do
    let steps ← items.mapM Step.ofReading
    if isClosed then .ok steps else .error .malformed
  | r => .error (r.unexpected .steps)

/-- Reads a whole text with `readRoot`. -/
def decodeWith {α : Type} (readRoot : Reading → Except DecodeError α) (text : String) :
    Except DecodeError α := do
  let doc := Json.read text
  let a ← readRoot doc.root
  if doc.isClean then .ok a else .error .malformed

/-- The step that a text consists of. -/
def Step.decode (text : String) : Except DecodeError Step := decodeWith Step.ofReading text

/-- The steps of the array that a text consists of. -/
def Step.decodeList (text : String) : Except DecodeError (List Step) :=
  decodeWith Step.listOfReading text

end SuiteScript
