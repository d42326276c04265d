import SuiteScript.Event
import SuiteScript.Scope

/-! # Schedules

    A schedule is what a script does, action by action, before it is put
    into words.  It depends on the steps alone: whether an observer listens,
    and how statements are written, is decided when the actions are
    rendered.

    * A fixture or test first opens its place, unless it is open.
    * A test runs between its own savepoint and the roll-back to it.
    * A teardown releases the innermost place.
    * The two events of a step stand around everything it does, apart from
      the opening of its place and the release of a teardown. -/

namespace SuiteScript

/-! ### Actions -/

/-- One statement of a script, or what stands in its place. -/
inductive Action where
  /-- Fails unless the observer exists. -/
  | checkObserver
  /-- Delivers an event to the observer. -/
  | notify (event : Event)
  /-- Opens a savepoint. -/
  | openSavepoint (savepoint : Savepoint)
  /-- Undoes all changes since a savepoint and keeps it. -/
  | rollBackTo (savepoint : Savepoint)
  /-- Forgets a savepoint and keeps all changes. -/
  | release (savepoint : Savepoint)
  /-- Executes a fixture's script. -/
  | runFixture (step : Step) (path : String)
  /-- Executes a test's script and survives its failure. -/
  | runTest (step : Step) (path : String)
deriving DecidableEq, Repr

/-- The step whose script an action executes, with the script's path. -/
def Action.run? : Action → Option (Step × String)
  | .runFixture step path => some (step, path)
  | .runTest step path => some (step, path)
  | _ => none

/-- What has to be done to enter a place: its savepoint is opened, unless
    the place is open already. -/
def ScopeEntry.actions : ScopeEntry → List Action
  | opened savepoint => [.openSavepoint savepoint]
  | alreadyOpen _ => []

/-! ### One step -/

namespace Step

/-- The script of a step that has to have one. -/
def requirePath (step : Step) : Except PlanError String :=
  match step.scriptPath with
  | some path => .ok path
  | none => .error (.missingScriptPath step.ordinal step.kind)

/-- What a fixture does, with the script at `path`. -/
def fixtureActions (step : Step) (path : String) (scopes : ScopeStack) :
    List Action × ScopeStack :=
  let (entry, entered) := scopes.enter step.place
  (entry.actions ++ [
    .notify (.ofStep .fixtureStart step),
    .runFixture step path,
    .notify (.ofStep .fixtureEnd step)], entered)

/-- What a test does, with the script at `path`. -/
def testActions (step : Step) (path : String) (scopes : ScopeStack) :
    List Action × ScopeStack :=
  let (entry, entered) := scopes.enter step.place
  let (savepoint, after) := entered.isolateTest
  (entry.actions ++ [
    .notify (.ofStep .testStart step),
    .openSavepoint savepoint,
    .runTest step path,
    .rollBackTo savepoint,
    .notify (.ofStep .testEnd step)], after)

/-- What a teardown does once it has closed `scope`. -/
def teardownActions (step : Step) (scope : Scope) : List Action := [
  .release scope.savepoint,
  .notify (.ofStep .teardownStart step),
  .notify (.ofStep .teardownEnd step)]

/-- What a step does when the open scopes are `scopes`. -/
def actions (step : Step) (scopes : ScopeStack) : Except PlanError (List Action × ScopeStack) :=
  match step.kind with
  | .fixture => do return step.fixtureActions (← step.requirePath) scopes
  | .test => do return step.testActions (← step.requirePath) scopes
  | .teardown => do
    let (scope, after) ← scopes.exit step.ordinal step.place
    return (step.teardownActions scope, after)

/-- Refuses a step whose ordinal is not above that of the step before it. -/
def checkOrder (step : Step) (previous : Option UInt32) : Except PlanError Unit :=
  match previous with
  | none => .ok ()
  | some p => if step.ordinal ≤ p then .error (.ordinalOutOfOrder step.ordinal p) else .ok ()

end Step

/-! ### A whole plan -/

namespace Schedule

/-- What steps do after a step with ordinal `previous` has left the open
    scopes at `scopes`, and the scopes that they leave open. -/
def ofStepsFrom (previous : Option UInt32) (scopes : ScopeStack) :
    List Step → Except PlanError (List Action × ScopeStack)
  | [] => .ok ([], scopes)
  | step :: rest => do
    step.checkOrder previous
    let (first, after) ← step.actions scopes
    let (others, final) ← ofStepsFrom (some step.ordinal) after rest
    return (first ++ others, final)

/-- The ordinal of the last step, or 0 without steps. -/
def lastOrdinal (steps : List Step) : UInt32 :=
  match steps.getLast? with
  | some step => step.ordinal
  | none => 0

/-- What a plan does, from the check of the observer to the end of the
    suite. -/
def ofSteps (steps : List Step) : Except PlanError (List Action) := do
  let (actions, _) ← ofStepsFrom none {} steps
  return .checkObserver :: .notify (.suite .suiteStart 0) :: actions ++
    [.notify (.suite .suiteEnd (lastOrdinal steps))]

end Schedule

end SuiteScript
