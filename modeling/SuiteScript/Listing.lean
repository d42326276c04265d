import SuiteScript.Step

/-! # Listings

    A listing shows a plan without compiling it: a line for each step and a
    line of totals. -/

namespace SuiteScript

/-- The counts of a plan. -/
structure PlanSummary where
  /-- How many fixtures it has. -/
  fixtures : Nat
  /-- How many tests it has. -/
  tests : Nat
  /-- How many teardowns it has. -/
  teardowns : Nat
  /-- Distinct places that hold a fixture or a test. -/
  places : Nat
deriving DecidableEq, Repr

namespace PlanSummary

/-- How many steps are of the given kind? -/
def count (kind : StepKind) (steps : List Step) : Nat :=
  steps.countP (·.kind = kind)

/-- The places of fixtures and tests, each once. -/
def usedPlaces (steps : List Step) : List Place :=
  ((steps.filter (·.kind.runsScript)).map (·.place)).eraseDups

/-- The counts of a list of steps. -/
def ofSteps (steps : List Step) : PlanSummary where
  fixtures := count .fixture steps
  tests := count .test steps
  teardowns := count .teardown steps
  places := (usedPlaces steps).length

/-- The last line of a listing. -/
def totalLine (s : PlanSummary) : String :=
  "Total: " ++ toString s.tests ++ " tests (with " ++ toString s.fixtures ++ " fixtures, " ++
    toString s.teardowns ++ " teardowns)"

end PlanSummary

namespace Listing

/-- Columns of a step's heading. -/
def labelWidth : Nat := 9

/-- A step's heading, filled up with spaces. -/
def heading (kind : StepKind) : String :=
  let label := kind.label ++ ":"
  label ++ String.ofList (List.replicate (labelWidth - label.length) ' ')

/-- The line of a step: its ordinal, its heading and its script, or its
    directory if it has no script. -/
def line (step : Step) : String :=
  toString step.ordinal.toNat ++ ". " ++ heading step.kind ++ " " ++
    step.scriptPath.getD step.place.directory

/-- The steps, a blank line if there are any, and the totals. -/
def render (steps : List Step) : String :=
  let blank := if steps.isEmpty then [] else [""]
  "\n".intercalate (steps.map line ++ blank ++ [(PlanSummary.ofSteps steps).totalLine])

end Listing

end SuiteScript
