import SuiteScript.Proofs.EventRows

/-! # What an observer is told

    With an observer, a script begins with the check that it exists and then
    tells it what happens, in a fixed order: the start of the suite, the start
    and the end of each step, and the end of the suite.  What a step does
    stands between its two events, and only the failure handler of a test
    sends another.  Without an observer there is no check and no event
    (`compile_tells_observer`).

    The order is that of the actions, which is proved step by step.  That the
    statements of a script hold just the rows of these events is read off
    their text. -/

namespace SuiteScript

open Sql

/-! ### One step -/

/-- The event that an action delivers. -/
def Action.event? : Action → Option Event
  | .notify e => some e
  | _ => none

namespace Step

/-- The two events of a step.  Those of a teardown carry no path. -/
def events (step : Step) : List Event :=
  match step.kind with
  | .fixture => [⟨.fixtureStart, step.scriptPath, step.place, step.ordinal⟩,
      ⟨.fixtureEnd, step.scriptPath, step.place, step.ordinal⟩]
  | .test => [⟨.testStart, step.scriptPath, step.place, step.ordinal⟩,
      ⟨.testEnd, step.scriptPath, step.place, step.ordinal⟩]
  | .teardown => [⟨.teardownStart, none, step.place, step.ordinal⟩,
      ⟨.teardownEnd, none, step.place, step.ordinal⟩]

/-- The statements of a step with an observer.  In front of a fixture or test,
    the savepoint of its place may be opened. -/
inductive Tells (step : Step) : List Action → Prop
  /-- A fixture runs between its events. -/
  | fixture {path : String} {lead : List Action} (hkind : step.kind = .fixture)
      (hpath : step.scriptPath = some path)
      (hlead : lead = [] ∨ ∃ sp, lead = [.openSavepoint sp]) :
      Tells step (lead ++ [
        .notify ⟨.fixtureStart, some path, step.place, step.ordinal⟩,
        .runFixture step path,
        .notify ⟨.fixtureEnd, some path, step.place, step.ordinal⟩])
  /-- A test runs between its events, and so do its savepoint and the roll-back
      to it. -/
  | test {path : String} {lead : List Action} {sp : Savepoint} (hkind : step.kind = .test)
      (hpath : step.scriptPath = some path)
      (hlead : lead = [] ∨ ∃ sp, lead = [.openSavepoint sp]) :
      Tells step (lead ++ [
        .notify ⟨.testStart, some path, step.place, step.ordinal⟩,
        .openSavepoint sp,
        .runTest step path,
        .rollBackTo sp,
        .notify ⟨.testEnd, some path, step.place, step.ordinal⟩])
  /-- A teardown releases its place and then sends its events. -/
  | teardown {sp : Savepoint} (hkind : step.kind = .teardown) :
      Tells step [
        .release sp,
        .notify ⟨.teardownStart, none, step.place, step.ordinal⟩,
        .notify ⟨.teardownEnd, none, step.place, step.ordinal⟩]

variable {step : Step} {s s' : ScopeStack} {actions : List Action}

theorem tells_of_actions (h : step.actions s = .ok (actions, s')) : step.Tells actions := by
  have hlead : (s.enter step.place).1.actions = [] ∨
      ∃ sp, (s.enter step.place).1.actions = [.openSavepoint sp] := by
    cases (s.enter step.place).1 with
    | opened sp => exact .inr ⟨sp, rfl⟩
    | alreadyOpen sp => exact .inl rfl
  -- the events of a fixture or test carry the path that it executes
  have hevent : ∀ {path kind}, step.scriptPath = some path → EventKind.carriesScriptPath kind →
      Event.ofStep kind step = ⟨kind, some path, step.place, step.ordinal⟩ := by
    intro path kind hpath hkind
    rw [Event.ofStep, if_pos hkind, hpath]
  rcases actions_cases h with ⟨path, hkind, hpath, hactions⟩ | ⟨path, hkind, hpath, hactions⟩ |
    ⟨scope, outer, hkind, _, _, hactions, _⟩
  · have hlist : actions = (step.fixtureActions path s).1 := congrArg Prod.fst hactions
    rw [hlist, fixtureActions_fst, hevent hpath rfl, hevent hpath rfl, List.append_assoc]
    exact .fixture hkind hpath hlead
  · have hlist : actions = (step.testActions path s).1 := congrArg Prod.fst hactions
    rw [hlist, testActions_fst, hevent hpath rfl, hevent hpath rfl, List.append_assoc]
    exact .test hkind hpath hlead
  · rw [hactions]
    exact .teardown hkind

/-- Its events are delivered in their order. -/
theorem Tells.filterMap_event? (h : step.Tells actions) :
    actions.filterMap Action.event? = step.events := by
  have hsilent : ∀ lead : List Action, (lead = [] ∨ ∃ sp, lead = [.openSavepoint sp]) →
      lead.filterMap Action.event? = [] := by
    intro lead hlead
    rcases hlead with rfl | ⟨sp, rfl⟩
    · rfl
    · rfl
  cases h with
  | fixture hkind hpath hlead =>
    rw [List.filterMap_append, hsilent _ hlead, events, hkind, hpath]
    rfl
  | test hkind hpath hlead =>
    rw [List.filterMap_append, hsilent _ hlead, events, hkind, hpath]
    rfl
  | teardown hkind =>
    rw [events, hkind]
    rfl

end Step

/-! ### All steps -/

theorem Schedule.tells_ofStepsFrom {previous : Option UInt32} {s s' : ScopeStack}
    {steps : List Step} {actions : List Action}
    (h : ofStepsFrom previous s steps = .ok (actions, s')) :
    ∃ blocks, List.Forall₂ Step.Tells steps blocks ∧ actions = blocks.flatten := by
  induction steps generalizing previous s actions with
  | nil =>
    cases h
    exact ⟨[], .nil, rfl⟩
  | cons step rest ih =>
    obtain ⟨_, first, after, others, hstep, hrest, rfl⟩ := ofStepsFrom_cons_eq_ok.mp h
    obtain ⟨blocks, hblocks, rfl⟩ := ih hrest
    exact ⟨first :: blocks, .cons (Step.tells_of_actions hstep) hblocks, rfl⟩

theorem Step.filterMap_event?_flatten {steps : List Step} {blocks : List (List Action)}
    (h : List.Forall₂ Step.Tells steps blocks) :
    blocks.flatten.filterMap Action.event? = steps.flatMap Step.events := by
  induction h with
  | nil => rfl
  | cons hstep _ ih =>
    rw [List.flatten_cons, List.filterMap_append, hstep.filterMap_event?, ih, List.flatMap_cons]

/-! ### Whole scripts -/

variable {config : Config} {callback : String} {steps : List Step} {plan : CompiledPlan}
  {script : List Action}

/-- What a script tells an observer that exists. -/
structure TellsObserver (config : Config) (callback : String) (steps : List Step)
    (plan : CompiledPlan) (script : List Action) : Prop where
  /-- The check comes first, then the start of the suite, the steps in their
      order, and last the end of the suite. -/
  statements_eq : ∃ blocks, List.Forall₂ Step.Tells steps blocks ∧
    script = .checkObserver :: .notify ⟨.suiteStart, none, ⟨"", 0⟩, 0⟩ :: blocks.flatten ++
      [.notify ⟨.suiteEnd, none, ⟨"", 0⟩, Schedule.lastOrdinal steps⟩]
  /-- So these are the events that are delivered. -/
  events_eq : script.filterMap Action.event? =
    ⟨.suiteStart, none, ⟨"", 0⟩, 0⟩ :: steps.flatMap Step.events ++
      [⟨.suiteEnd, none, ⟨"", 0⟩, Schedule.lastOrdinal steps⟩]
  /-- The statement of an event holds its row and no other. -/
  delivered : ∀ e, .notify e ∈ script →
    rowsOf ((Wording.ofCallback config callback).statementText (.notify e)) = some [e]
  /-- The block of a test holds the row of one roll-back, which stands in the
      failure handler. -/
  reported : ∀ step path, .runTest step path ∈ script →
    rowsOf ((Wording.ofCallback config callback).statementText (.runTest step path)) =
      some [⟨.rollback, some path, step.place, step.ordinal⟩] ∧
    ∃ front handler,
      readTokens 1 ((Wording.ofCallback config callback).statementText
        (.runTest step path)).toList = some (front ++ .word "EXCEPTION".toList :: handler) ∧
      .word "EXCEPTION".toList ∉ front ∧ rowsIn front = [] ∧
      rowsIn handler = [⟨.rollback, some path, step.place, step.ordinal⟩]
  /-- No other statement holds a row. -/
  silent : ∀ a ∈ script, (∀ e, a ≠ .notify e) → (∀ step path, a ≠ .runTest step path) →
    rowsOf ((Wording.ofCallback config callback).statementText a) = some []
  /-- The whole script holds these rows, in the order of its statements. -/
  rows_eq : rowsOf plan.sql = some (script.flatMap (Action.rows callback))

/-- What holds of a script without an observer. -/
structure TellsNoOne (config : Config) (plan : CompiledPlan) (script : List Action) : Prop where
  /-- Nothing is checked. -/
  unchecked : .checkObserver ∉ script
  /-- No event is delivered. -/
  unheard : ∀ e, .notify e ∉ script
  /-- No statement holds a row, -/
  silent : ∀ a ∈ script, rowsOf ((Wording.ofCallback config "").statementText a) = some []
  /-- and so neither does the script. -/
  rows_eq : rowsOf plan.sql = some []

/-- With an observer, all actions are written. -/
theorem statementsOf_of_ne_empty (hcallback : callback ≠ "") (hne : steps ≠ [])
    (h : statementsOf config callback steps = .ok script) :
    ∃ run scopes, Schedule.ofStepsFrom none {} steps = .ok (run, scopes) ∧
      script = Schedule.opening ++ run ++ Schedule.ending steps := by
  rcases statementsOf_eq_ok h with ⟨hnil, _⟩ | ⟨_, _, actions, hactions, rfl⟩
  · exact absurd hnil hne
  obtain ⟨run, scopes, hrun, rfl⟩ := Schedule.ofSteps_eq_ok hactions
  refine ⟨run, scopes, hrun, ?_⟩
  -- nothing is left out, since what could be is for the observer
  unfold Wording.statements
  rw [List.filter_eq_self]
  intro a _
  rw [Wording.writes_eq_of_shape, Wording.observer_ofCallback, if_neg hcallback]
  simp

/-- What is read in a statement of a script. -/
theorem rowsOf_of_mem_statementsOf (h : statementsOf config callback steps = .ok script)
    {a : Action} (ha : a ∈ script) :
    rowsOf ((Wording.ofCallback config callback).statementText a) = some (a.rows callback) := by
  rcases statementsOf_eq_ok h with ⟨_, rfl⟩ | ⟨_, htag, _⟩
  · cases ha
  · exact Wording.rowsOf_statementText htag (writes_of_mem_statementsOf h a ha)
      (ofPlan_of_mem_statementsOf h a ha).complete

theorem tellsObserver_of_compile (hcallback : callback ≠ "") (hne : steps ≠ [])
    (hscript : statementsOf config callback steps = .ok script)
    (hsql : plan.sql = (Wording.ofCallback config callback).text script) :
    TellsObserver config callback steps plan script := by
  obtain ⟨run, scopes, hrun, hlist⟩ := statementsOf_of_ne_empty hcallback hne hscript
  obtain ⟨blocks, hblocks, rfl⟩ := Schedule.tells_ofStepsFrom hrun
  constructor
  · exact ⟨blocks, hblocks, hlist⟩
  · rw [hlist, List.filterMap_append, List.filterMap_append,
      Step.filterMap_event?_flatten hblocks]
    rfl
  · intro e he
    rw [rowsOf_of_mem_statementsOf hscript he, Action.rows, if_neg hcallback]
  · intro step path ha
    have hcomplete := (ofPlan_of_mem_statementsOf hscript _ ha).complete
    have hpath : step.scriptPath = some path := hcomplete
    have hrows : (Action.runTest step path).rows callback =
        [⟨.rollback, some path, step.place, step.ordinal⟩] := by
      rw [Action.rows, if_neg hcallback, ← hpath]
      rfl
    refine ⟨by rw [rowsOf_of_mem_statementsOf hscript ha, hrows], ?_⟩
    obtain ⟨_, htag, _⟩ := (statementsOf_eq_ok hscript).resolve_left fun hnil => hne hnil.1
    have hwrites := writes_of_mem_statementsOf hscript _ ha
    obtain ⟨tag, _, hread⟩ := Wording.readTokens_statementText htag hwrites hcomplete 0
    obtain ⟨front, handler, htokens, hword, hfront, hhandler⟩ :=
      Action.tokens_runTest config callback hcomplete tag
    exact ⟨front, handler, hread.trans (congrArg some htokens), hword, hfront,
      hhandler.trans hrows⟩
  · intro a ha hnotify htest
    rw [rowsOf_of_mem_statementsOf hscript ha, Action.rows_eq_nil callback hnotify htest]
  · rw [hsql]
    exact rowsOf_statementsOf hscript

theorem tellsNoOne_of_compile (hscript : statementsOf config "" steps = .ok script)
    (hsql : plan.sql = (Wording.ofCallback config "").text script) :
    TellsNoOne config plan script := by
  have hrows : ∀ a : Action, a.rows "" = [] := fun _ => if_pos rfl
  have hwrites := writes_of_mem_statementsOf hscript
  constructor
  · intro ha
    have hunwritten := hwrites _ ha
    rw [Wording.writes_checkObserver] at hunwritten
    cases hunwritten
  · intro e ha
    have hunwritten := hwrites _ ha
    rw [Wording.writes_notify] at hunwritten
    cases hunwritten
  · intro a ha
    rw [rowsOf_of_mem_statementsOf hscript ha, hrows]
  · rw [hsql, rowsOf_statementsOf hscript, List.flatMap_eq_nil_iff.mpr fun a _ => hrows a]

/-- The script of a plan with steps tells an observer just what happens, in
    the order in which it happens, and without one it tells nothing. -/
theorem compile_tells_observer (config : Config) (callback : String) (steps : List Step)
    (hne : steps ≠ []) (plan : CompiledPlan) (h : compile config callback steps = .ok plan) :
    ∃ script, statementsOf config callback steps = .ok script ∧
      plan.sql =
        "\n".intercalate (script.map (Wording.ofCallback config callback).statementText) ∧
      (callback ≠ "" → TellsObserver config callback steps plan script) ∧
      (callback = "" → TellsNoOne config plan script) := by
  obtain ⟨script, hscript, hsql, _⟩ := compile_eq_ok_iff.mp h
  refine ⟨script, hscript, ?_, ?_, ?_⟩
  · rw [hsql]
    exact Wording.text_eq_intercalate_statementText (writes_of_mem_statementsOf hscript)
  · intro hcallback
    exact tellsObserver_of_compile hcallback hne hscript hsql
  · intro hcallback
    subst hcallback
    exact tellsNoOne_of_compile hscript hsql

/-- The hostile plan, with an observer whose name has to be resolved, and
    without one. -/
theorem hostilePlan_tells_observer :
    hostilePlan ≠ [] ∧
    (∃ plan script, compile hostileConfig "x'); DROP" hostilePlan = .ok plan ∧
      statementsOf hostileConfig "x'); DROP" hostilePlan = .ok script ∧
      TellsObserver hostileConfig "x'); DROP" hostilePlan plan script) ∧
    ∃ plan script, compile hostileConfig "" hostilePlan = .ok plan ∧
      statementsOf hostileConfig "" hostilePlan = .ok script ∧
      TellsNoOne hostileConfig plan script := by
  have hne : hostilePlan ≠ [] := by decide
  have hcompile : ∃ plan, compile hostileConfig "x'); DROP" hostilePlan = .ok plan := ⟨_, rfl⟩
  have hcompile' : ∃ plan, compile hostileConfig "" hostilePlan = .ok plan := ⟨_, rfl⟩
  obtain ⟨plan, hplan⟩ := hcompile
  obtain ⟨plan', hplan'⟩ := hcompile'
  obtain ⟨script, hscript, _, htells, _⟩ := compile_tells_observer _ _ _ hne plan hplan
  obtain ⟨script', hscript', _, _, hsilent⟩ := compile_tells_observer _ _ _ hne plan' hplan'
  exact ⟨hne, ⟨plan, script, hplan, hscript, htells (by decide)⟩,
    plan', script', hplan', hscript', hsilent rfl⟩

end SuiteScript
