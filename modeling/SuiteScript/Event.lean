import SuiteScript.Step

/-! # Lifecycle events

    While a script runs it can report what it does: one event as the suite
    begins, two around each step, one when a test fails, and one as the
    suite ends. -/

namespace SuiteScript

/-! ### Kinds of events -/

/-- What an event reports. -/
inductive EventKind where
  /-- The first step is about to run. -/
  | suiteStart
  /-- The last step has run. -/
  | suiteEnd
  /-- A fixture is about to run. -/
  | fixtureStart
  /-- A fixture has run. -/
  | fixtureEnd
  /-- A test is about to run. -/
  | testStart
  /-- A test has run and its changes are undone. -/
  | testEnd
  /-- A test failed; this is reported from its failure handler. -/
  | rollback
  /-- A place has been closed and its teardown is reported. -/
  | teardownStart
  /-- The teardown is over. -/
  | teardownEnd
deriving DecidableEq, Repr

namespace EventKind

/-- The spelling of an event, the only one it has. -/
def name : EventKind → String
  | suiteStart => "suite_start"
  | suiteEnd => "suite_end"
  | fixtureStart => "fixture_start"
  | fixtureEnd => "fixture_end"
  | testStart => "test_start"
  | testEnd => "test_end"
  | rollback => "rollback"
  | teardownStart => "teardown_start"
  | teardownEnd => "teardown_end"

/-- When the event is sent. -/
def description : EventKind → String
  | suiteStart => "Emitted once before the first step."
  | suiteEnd => "Emitted once after the last step."
  | fixtureStart => "A directory fixture is about to run."
  | fixtureEnd => "A directory fixture finished."
  | testStart => "A test is about to run inside its own savepoint."
  | testEnd => "A test finished and its writes were discarded."
  | rollback => "A test raised; its writes are being rolled back."
  | teardownStart => "A directory scope is being retired."
  | teardownEnd => "A directory scope was retired."

/-- Does the event name a script?  Events of the whole suite and of a
    teardown do not. -/
def carriesScriptPath : EventKind → Bool
  | fixtureStart | fixtureEnd | testStart | testEnd | rollback => true
  | suiteStart | suiteEnd | teardownStart | teardownEnd => false

/-- All kinds, in the order in which they can first occur. -/
def all : List EventKind :=
  [suiteStart, suiteEnd, fixtureStart, fixtureEnd, testStart, testEnd, rollback,
    teardownStart, teardownEnd]

/-- The kinds of an event; none has an alias. -/
def vocabulary : Vocabulary EventKind :=
  all.map fun k => ⟨k, k.name, [], k.description⟩

/-- The kind that a spelling stands for. -/
def ofName? (name : String) : Option EventKind :=
  vocabulary.resolve name

theorem ofName?_name (k : EventKind) : ofName? k.name = some k := by
  cases k <;> rfl

end EventKind

/-! ### Events -/

/-- An event with what it reports about its step. -/
structure Event where
  /-- What it reports. -/
  kind : EventKind
  /-- The script, for events that carry one. -/
  scriptPath : Option String
  /-- The place of the step. -/
  place : Place
  /-- The ordinal of the step. -/
  ordinal : UInt32
deriving DecidableEq, Repr

namespace Event

/-- The fields of the row that an observer receives, in their order.
    `context` is always null. -/
def fields : List String := ["event", "path", "directory", "depth", "ordinal", "context"]

/-- An event about a step.  The script path is kept only where the event
    carries one. -/
def ofStep (kind : EventKind) (step : Step) : Event where
  kind := kind
  scriptPath := if kind.carriesScriptPath then step.scriptPath else none
  place := step.place
  ordinal := step.ordinal

/-- An event about the whole suite: no script, no directory, depth 0. -/
def suite (kind : EventKind) (ordinal : UInt32) : Event where
  kind := kind
  scriptPath := none
  place := ⟨"", 0⟩
  ordinal := ordinal

end Event

end SuiteScript
