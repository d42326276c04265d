import SuiteScript.Step
import SuiteScript.Text.Quoted

/-! # Errors and what they say

    Each error is a cause with its data.  Its diagnostic has a stable code,
    a message and, for most causes, a hint. -/

namespace SuiteScript

/-- What is shown for an error. -/
structure Diagnostic where
  /-- A stable name, for tools. -/
  code : String
  /-- What is wrong, in words. -/
  message : String
  /-- What to do about it. -/
  help : Option String
deriving DecidableEq, Repr

/-! ### Errors of a plan -/

/-- Why a plan cannot be compiled. -/
inductive PlanError where
  /-- A teardown names another place than the innermost open one. -/
  | unmatchedTeardown (ordinal : UInt32) (target innermost : Place)
  /-- A teardown comes while nothing is open. -/
  | teardownWithoutScope (ordinal : UInt32) (target : Place)
  /-- A fixture or test has no script. -/
  | missingScriptPath (ordinal : UInt32) (kind : StepKind)
  /-- An ordinal is not above the one before it. -/
  | ordinalOutOfOrder (ordinal previous : UInt32)
  /-- The block tag of the settings cannot make a delimiter. -/
  | invalidBlockTag (tag : String)
deriving DecidableEq, Repr

namespace PlanError

/-- The step that makes the plan invalid; settings have none. -/
def ordinal? : PlanError → Option UInt32
  | unmatchedTeardown ordinal _ _ => some ordinal
  | teardownWithoutScope ordinal _ => some ordinal
  | missingScriptPath ordinal _ => some ordinal
  | ordinalOutOfOrder ordinal _ => some ordinal
  | invalidBlockTag _ => none

/-- A place in a message. -/
def shownPlace (p : Place) : String :=
  "'" ++ p.directory ++ "' (depth " ++ toString p.depth.toNat ++ ")"

/-- The start of both messages about a teardown. -/
def shownTeardown (ordinal : UInt32) (target : Place) : String :=
  "teardown at ordinal " ++ toString ordinal.toNat ++ " targets " ++ shownPlace target

/-- The error in words. -/
def message : PlanError → String
  | unmatchedTeardown ordinal target innermost =>
    shownTeardown ordinal target ++ ", but the innermost open scope is " ++ shownPlace innermost
  | teardownWithoutScope ordinal target =>
    shownTeardown ordinal target ++ ", but no directory scope is open"
  | missingScriptPath ordinal kind =>
    kind.name ++ " step at ordinal " ++ toString ordinal.toNat ++ " has no script path"
  | ordinalOutOfOrder ordinal previous =>
    "step ordinal " ++ toString ordinal.toNat ++ " does not follow " ++
      toString previous.toNat ++ "; plan steps must be sorted by strictly increasing ordinal"
  | invalidBlockTag tag =>
    "block tag " ++ Text.quoted tag ++ " cannot delimit a dollar-quoted string"

/-- The stable name of the cause. -/
def code : PlanError → String
  | unmatchedTeardown .. => "pgmi::plan::unmatched_teardown"
  | teardownWithoutScope .. => "pgmi::plan::teardown_without_scope"
  | missingScriptPath .. => "pgmi::plan::missing_script_path"
  | ordinalOutOfOrder .. => "pgmi::plan::ordinal_out_of_order"
  | invalidBlockTag .. => "pgmi::config::invalid_block_tag"

/-- What to do about the error, where that is not plain from its message. -/
def help : PlanError → Option String
  | unmatchedTeardown .. =>
    some "teardown steps must close directory scopes in reverse order of opening"
  | teardownWithoutScope .. =>
    some "a teardown needs a fixture or test in the same directory before it"
  | missingScriptPath .. => none
  | ordinalOutOfOrder .. => none
  | invalidBlockTag .. =>
    some ("block tags contain only ASCII letters, digits and underscores, " ++
      "and do not start with a digit")

/-- What is shown for the error. -/
def diagnostic (e : PlanError) : Diagnostic := ⟨e.code, e.message, e.help⟩

end PlanError

/-! ### Errors of a callback name -/

/-- Why a name is not a `function` or `schema.function` reference. -/
inductive CallbackError where
  /-- More than one dot. -/
  | tooManyParts (name : String)
  /-- Nothing before, between or after dots. -/
  | emptyIdentifier (name : String)
  /-- A part has more bytes than the database keeps of an identifier. -/
  | identifierTooLong (name part : String) (limit : Nat)
  /-- A part is not a word. -/
  | invalidIdentifier (name part : String)
deriving DecidableEq, Repr

namespace CallbackError

/-- The name at fault. -/
def name : CallbackError → String
  | tooManyParts name => name
  | emptyIdentifier name => name
  | identifierTooLong name _ _ => name
  | invalidIdentifier name _ => name

/-- What is wrong with the name. -/
def reason : CallbackError → String
  | tooManyParts _ => "expected [schema.]function format"
  | emptyIdentifier _ => "empty identifier"
  | identifierTooLong _ part limit =>
    "identifier " ++ Text.quoted part ++ " exceeds " ++ toString limit ++ " character limit"
  | invalidIdentifier _ part => Text.quoted part ++ " is not a valid identifier"

/-- The error in words. -/
def message (e : CallbackError) : String :=
  "invalid callback " ++ Text.quoted e.name ++ ": " ++ e.reason

/-- The stable name of the cause. -/
def code : CallbackError → String
  | tooManyParts _ => "pgmi::callback::too_many_parts"
  | emptyIdentifier _ => "pgmi::callback::empty_identifier"
  | identifierTooLong .. => "pgmi::callback::identifier_too_long"
  | invalidIdentifier .. => "pgmi::callback::invalid_identifier"

/-- What to do about the error, where that is not plain from its message. -/
def help : CallbackError → Option String
  | invalidIdentifier .. =>
    some ("identifiers start with a letter or underscore and contain only letters, " ++
      "digits and underscores")
  | _ => none

/-- What is shown for the error. -/
def diagnostic (e : CallbackError) : Diagnostic := ⟨e.code, e.message, e.help⟩

end CallbackError

end SuiteScript
