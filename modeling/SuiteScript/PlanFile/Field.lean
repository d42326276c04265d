import SuiteScript.Json.Value
import SuiteScript.Step

/-! # Steps as JSON

    A step is written as an object with a member for each field.  Two fields
    are also read under a second key. -/

namespace SuiteScript

/-- A field of a written step. -/
inductive StepField where
  /-- The position in the plan. -/
  | ordinal
  /-- What the step is for. -/
  | kind
  /-- The script to execute. -/
  | scriptPath
  /-- The directory of the step. -/
  | directory
  /-- The nesting level of the directory. -/
  | depth
deriving DecidableEq, Repr

namespace StepField

/-- The key under which the field is written. -/
def key : StepField → String
  | ordinal => "ordinal"
  | kind => "kind"
  | scriptPath => "script_path"
  | directory => "directory"
  | depth => "depth"

/-- The keys of all fields, in the order in which they are written. -/
def vocabulary : Vocabulary StepField := [
  ⟨ordinal, ordinal.key, [], "Position in the plan."⟩,
  ⟨kind, kind.key, ["step_type"], "What the step is for."⟩,
  ⟨scriptPath, scriptPath.key, ["path"], "Script to execute."⟩,
  ⟨directory, directory.key, [], "Directory of the step."⟩,
  ⟨depth, depth.key, [], "Nesting level of the directory."⟩]

/-- The field that a key stands for. -/
def ofKey? (key : String) : Option StepField := vocabulary.resolve key

theorem ofKey?_key (f : StepField) : ofKey? f.key = some f := by
  cases f <;> rfl

end StepField

/-! ### Writing -/

/-- A whole number as a value. -/
def Json.Value.ofNat (n : Nat) : Json.Value := .number (.natural n)

/-- A string, or null for an absent one. -/
def Json.Value.ofText? : Option String → Json.Value
  | some s => .text s
  | none => .null

/-- The object of a step. -/
def Step.toValue (step : Step) : Json.Value := .object [
  (StepField.ordinal.key, .ofNat step.ordinal.toNat),
  (StepField.kind.key, .text step.kind.name),
  (StepField.scriptPath.key, .ofText? step.scriptPath),
  (StepField.directory.key, .text step.place.directory),
  (StepField.depth.key, .ofNat step.place.depth.toNat)]

/-- A step as text, without any space. -/
def Step.encode (step : Step) : String := String.ofList step.toValue.compact

end SuiteScript
