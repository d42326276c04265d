import SuiteScript.Vocabulary

/-! # Plan steps

    A plan is a list of steps in the order of their ordinals.  A fixture
    prepares a directory, a test runs in it, and a teardown closes it. -/

namespace SuiteScript

/-- A directory at a nesting level: the unit that fixtures and tests of a
    plan share and that a teardown closes. -/
structure Place where
  /-- The directory, as the plan names it. -/
  directory : String
  /-- How deep it is nested; 0 for the root. -/
  depth : UInt32
deriving DecidableEq, Repr

/-! ### Kinds -/

/-- What a step is for. -/
inductive StepKind where
  /-- Runs a script whose effects stay for the directory's tests. -/
  | fixture
  /-- Runs a script whose effects are discarded. -/
  | test
  /-- Runs no script and closes the innermost directory. -/
  | teardown
deriving DecidableEq, Repr

namespace StepKind

/-- The canonical spelling. -/
def name : StepKind → String
  | fixture => "fixture"
  | test => "test"
  | teardown => "teardown"

/-- The heading in a listing. -/
def label : StepKind → String
  | fixture => "Fixture"
  | test => "Test"
  | teardown => "Teardown"

/-- Do steps of this kind execute a script? -/
def runsScript : StepKind → Bool
  | fixture => true
  | test => true
  | teardown => false

/-- The kinds of a step; `setup` is read as a fixture. -/
def vocabulary : Vocabulary StepKind := [
  ⟨fixture, fixture.name, ["setup"],
    "Directory-level setup script; its effects are visible to every test in the directory."⟩,
  ⟨test, test.name, [], "Test script; runs in a disposable savepoint."⟩,
  ⟨teardown, teardown.name, [], "Marker closing the innermost directory scope."⟩]

/-- The kind that a spelling stands for. -/
def ofName? (name : String) : Option StepKind :=
  vocabulary.resolve name

theorem ofName?_name (k : StepKind) : ofName? k.name = some k := by
  cases k <;> rfl

end StepKind

/-! ### Steps -/

/-- One unit of work of a plan. -/
structure Step where
  /-- The position in the plan; it increases from step to step. -/
  ordinal : UInt32
  /-- What the step is for. -/
  kind : StepKind
  /-- The script to execute; fixtures and tests need one. -/
  scriptPath : Option String
  /-- The directory that the step belongs to. -/
  place : Place
deriving DecidableEq, Repr

end SuiteScript
