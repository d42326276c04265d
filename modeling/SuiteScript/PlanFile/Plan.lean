import SuiteScript.PlanFile.Field

/-! # Plan files

    A plan file is one JSON value, which is read as a whole and matched
    against the shapes of a plan afterwards: an array of steps, or an object
    whose member `steps` holds one.  A fault anywhere in the value therefore
    comes before a wrong shape anywhere, and a wrong shape comes before
    whatever follows the value. -/

namespace SuiteScript

/-- Why a file is not a plan. -/
inductive PlanFileError where
  /-- It does not start with a JSON value, or a plan is not all it holds. -/
  | notJson
  /-- It starts with a JSON value of another shape. -/
  | wrongShape
deriving DecidableEq, Repr

open Json (Value)

/-! ### Values of fields -/

namespace Json.Value

/-- A whole number below 2 ^ 32. -/
def toWord? : Value → Option UInt32
  | .number (.natural n) => if n < UInt32.size then some (UInt32.ofNat n) else none
  | _ => none

/-- A string. -/
def toText? : Value → Option String
  | .text s => some s
  | _ => none

/-- A string, or null for an absent one. -/
def toOptionalText? : Value → Option (Option String)
  | .null => some none
  | .text s => some (some s)
  | _ => none

/-- A spelling of a step kind. -/
def toKind? (v : Value) : Option StepKind := v.toText?.bind StepKind.ofName?

end Json.Value

/-! ### Steps -/

/-- The value of the only member that `isWanted`, if there is one; nothing
    at all if there are several. -/
def onlyMember? (isWanted : String → Bool) (members : List (String × Value)) :
    Option (Option Value) :=
  match members.filter fun m => isWanted m.1 with
  | [] => some none
  | [m] => some (some m.2)
  | _ => none

/-- The value of a field, if it is given once; nothing at all if it is given
    twice. -/
def StepField.in? (field : StepField) (members : List (String × Value)) :
    Option (Option Value) :=
  onlyMember? (StepField.ofKey? · = some field) members

namespace Step

/-- The step with exactly these fields. -/
def ofFields? (ordinal kind scriptPath directory depth : Value) : Option Step := do
  return {
    ordinal := ← ordinal.toWord?
    kind := ← kind.toKind?
    scriptPath := ← scriptPath.toOptionalText?
    place := { directory := ← directory.toText?, depth := ← depth.toWord? } }

/-- The step with the given members, each field given at most once. -/
def ofMembers? (members : List (String × Value)) : Option Step := do
  let ordinal ← StepField.ordinal.in? members
  let kind ← StepField.kind.in? members
  let scriptPath ← StepField.scriptPath.in? members
  let directory ← StepField.directory.in? members
  let depth ← StepField.depth.in? members
  ofFields? (← ordinal) (← kind) (scriptPath.getD .null) (← directory) (depth.getD (.ofNat 0))

/-- The step with the given fields, in order; the depth may be left out. -/
def ofItems? : List Value → Option Step
  | [ordinal, kind, scriptPath, directory] =>
    ofFields? ordinal kind scriptPath directory (.ofNat 0)
  | [ordinal, kind, scriptPath, directory, depth] =>
    ofFields? ordinal kind scriptPath directory depth
  | _ => none

/-- The step that a value stands for. -/
def ofValue? : Value → Option Step
  | .object members => ofMembers? members
  | .array items => ofItems? items
  | _ => none

/-- The steps that an array stands for. -/
def listOfValue? : Value → Option (List Step)
  | .array items => items.mapM ofValue?
  | _ => none

end Step

/-! ### Plans -/

namespace PlanFile

/-- The key of an object's steps. -/
def stepsKey : String := "steps"

/-- The steps that a value stands for, in an array or under their key. -/
def ofValue? : Value → Option (List Step)
  | .array items => items.mapM Step.ofValue?
  | .object members => do
    let steps ← onlyMember? (· = stepsKey) members
    Step.listOfValue? (← steps)
  | _ => none

/-- The steps of a plan file.  The shape of its value comes first, whatever
    stands behind the value second. -/
def parse (text : String) : Except PlanFileError (List Step) :=
  let doc := Json.read text
  match doc.root.toValue? Json.maxDepth with
  | none => .error .notJson
  | some v =>
    match ofValue? v with
    | none => .error .wrongShape
    | some steps => if doc.isClean then .ok steps else .error .notJson

end PlanFile

end SuiteScript
