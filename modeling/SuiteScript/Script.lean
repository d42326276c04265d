import SuiteScript.Observer
import SuiteScript.Schedule
import SuiteScript.SourceMap

/-! # Scripts

    A script is a schedule put into words.  Every action becomes some whole
    lines; an action that concerns an observer becomes none when there is no
    observer.  Line numbers count these lines, so the source map of a script
    is read off the number of lines of each action. -/

namespace SuiteScript

/-- How the actions of one script are written. -/
structure Wording where
  /-- The settings. -/
  config : Config
  /-- Who receives the events, if anyone does. -/
  observer : Option Observer
deriving DecidableEq, Repr

namespace Wording

/-- The wording for settings and the name of an observer. -/
def ofCallback (config : Config) (callback : String) : Wording :=
  ⟨config, Observer.ofCallback? callback config⟩

/-! ### Blocks -/

/-- The conditions that a test's failure handler catches.  `OTHERS` leaves
    out failed assertions. -/
def failureConditions : List String := ["OTHERS", "assert_failure"]

/-- Fetches the script at `path` and executes it. -/
def execute (w : Wording) (path : String) : String :=
  "EXECUTE (SELECT content FROM " ++ Sql.escapeQualifiedName w.config.sourceTable ++
    " WHERE path = " ++ Sql.quoteLiteral path ++ ");"

/-- The block that executes a fixture, on one line. -/
def fixtureBlock (w : Wording) (path : String) : String :=
  Sql.doBlock w.config.blockTag (" BEGIN " ++ w.execute path ++ " END ")

/-- Reports to the observer, if there is one, that a test failed. -/
def reportFailure (w : Wording) (step : Step) : List String :=
  w.observer.toList.map fun o => o.handlerInvocation (.ofStep .rollback step)

/-- Raises a warning for a failed test, if the settings ask for it. -/
def warnOfFailure (w : Wording) (path : String) : List String :=
  if w.config.failureWarnings then
    ["RAISE WARNING 'pgmi: test % failed, rolling back: %', " ++
      Sql.quoteLiteral path ++ ", SQLERRM;"]
  else []

/-- What happens when a test fails: the observer is told, a warning is
    raised, and if neither is wanted, nothing. -/
def handler (w : Wording) (step : Step) (path : String) : List String :=
  match w.reportFailure step ++ w.warnOfFailure path with
  | [] => ["NULL;"]
  | statements => statements

/-- The delimiter of a test's block. -/
def testDelimiter (w : Wording) (step : Step) (path : String) : String :=
  -- The statements are searched without their indents and key words, which
  -- hold no dollar sign.
  Sql.chooseDelimiter
    ("\n".intercalate (w.execute path :: w.handler step path)) w.config.blockTag

/-- A line inside a block. -/
def indented (w : Wording) (line : String) : String :=
  String.ofList (List.replicate w.config.indentWidth ' ') ++ line

/-- The block that executes a test and catches its failure. -/
def testBlock (w : Wording) (step : Step) (path : String) : List String :=
  let mark := w.testDelimiter step path
  ["DO " ++ mark, "BEGIN", w.indented (w.execute path),
    "EXCEPTION WHEN " ++ " OR ".intercalate failureConditions ++ " THEN"] ++
  (w.handler step path).map w.indented ++
  ["END", mark ++ ";"]

/-! ### Actions -/

/-- The lines of an action.  A text that holds a line break still counts as
    one line. -/
def lines (w : Wording) : Action → List String
  | .checkObserver => w.observer.toList.map Observer.existenceCheck
  | .notify event => w.observer.toList.map (·.invocation event)
  | .openSavepoint savepoint => ["SAVEPOINT " ++ savepoint.name ++ ";"]
  | .rollBackTo savepoint => ["ROLLBACK TO SAVEPOINT " ++ savepoint.name ++ ";"]
  | .release savepoint => ["RELEASE SAVEPOINT " ++ savepoint.name ++ ";"]
  | .runFixture _ path => [w.fixtureBlock path]
  | .runTest step path => w.testBlock step path

/-- The text of a schedule, without a line break at the end. -/
def text (w : Wording) (actions : List Action) : String :=
  "\n".intercalate (actions.flatMap w.lines)

/-- The entries of a schedule whose next line is `line` and whose next entry
    stands at `position`. -/
def entriesFrom (w : Wording) (position line : Nat) : List Action → List SourceEntry
  | [] => []
  | action :: rest =>
    let next := line + (w.lines action).length
    match action.run? with
    | some (step, path) =>
      ⟨position, line, next - 1, step.kind, path, step.place, step.ordinal⟩ ::
        w.entriesFrom (position + 1) next rest
    | none => w.entriesFrom position next rest

/-- The source map of a schedule. -/
def sourceMap (w : Wording) (actions : List Action) : SourceMap :=
  ⟨w.entriesFrom 0 1 actions⟩

end Wording

/-! ### Compiling a plan -/

/-- A script with its source map. -/
structure CompiledPlan where
  /-- The script, without a line break at its end. -/
  sql : String
  /-- Which lines of the script execute which step. -/
  sourceMap : SourceMap
deriving DecidableEq, Repr

/-- Is there nothing to run? -/
def CompiledPlan.isEmpty (p : CompiledPlan) : Bool := p.sql.isEmpty

/-- Compiles a plan for an observer, which the empty name turns off.  A plan
    without steps is an empty script, whatever the settings. -/
def compile (config : Config) (callback : String) (steps : List Step) :
    Except PlanError CompiledPlan :=
  if steps.isEmpty then .ok ⟨"", {}⟩
  else if !Sql.isValidTag config.blockTag then .error (.invalidBlockTag config.blockTag)
  else do
    let actions ← Schedule.ofSteps steps
    let wording := Wording.ofCallback config callback
    return ⟨wording.text actions, wording.sourceMap actions⟩

end SuiteScript
