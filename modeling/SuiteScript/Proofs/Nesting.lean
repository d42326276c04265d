import SuiteScript.Proofs.Statements

/-! # Schedules are well nested

    What the steps of a plan may do is said once, by a grammar of action
    lists: `Nested s actions s'` reads "the actions lead from the open
    scopes `s` to the open scopes `s'`, and between them

    * events may be delivered and fixtures executed at any place,
    * a directory's savepoint is opened only while its place is closed,
    * a test's savepoint is followed at once by the test's block and by the
      roll-back to it, and
    * only the innermost directory's savepoint is released."

    The schedule of every accepted plan is of this kind, and so are the
    statements of its script, with or without an observer.  Whatever is to
    be shown of all scripts is then an induction over this grammar. -/

namespace SuiteScript

/-- The savepoint that an action opens. -/
def Action.opened? : Action → Option Savepoint
  | .openSavepoint sp => some sp
  | _ => none

/-- Action lists that keep savepoints well nested, from the scopes that are
    open before them to those that are open after them. -/
inductive Nested : ScopeStack → List Action → ScopeStack → Prop where
  /-- Nothing is done. -/
  | nil (s : ScopeStack) : Nested s [] s
  /-- The observer is looked for. -/
  | check {s s' : ScopeStack} {rest : List Action} :
      Nested s rest s' → Nested s (.checkObserver :: rest) s'
  /-- An event is delivered. -/
  | notify {s s' : ScopeStack} {rest : List Action} (e : Event) :
      Nested s rest s' → Nested s (.notify e :: rest) s'
  /-- A fixture is executed. -/
  | fixture {s s' : ScopeStack} {rest : List Action} (step : Step) (path : String) :
      Nested s rest s' → Nested s (.runFixture step path :: rest) s'
  /-- A test is executed between its savepoint and the roll-back to it. -/
  | test {s s' : ScopeStack} {rest : List Action} (step : Step) (path : String) :
      Nested { s with nextSerial := s.nextSerial + 1 } rest s' →
      Nested s (.openSavepoint ⟨.test, s.nextSerial⟩ :: .runTest step path ::
        .rollBackTo ⟨.test, s.nextSerial⟩ :: rest) s'
  /-- A place is opened that is not open yet. -/
  | openScope {s s' : ScopeStack} {rest : List Action} (place : Place)
      (closed : s.find? place = none) :
      Nested ⟨⟨s.nextSerial, place, .opened⟩ :: s.scopes, s.nextSerial + 1⟩ rest s' →
      Nested s (.openSavepoint ⟨.directory, s.nextSerial⟩ :: rest) s'
  /-- The innermost place is closed. -/
  | closeScope {s' : ScopeStack} {rest : List Action} (scope : Scope) (outer : List Scope)
      (next : Nat) :
      Nested ⟨outer, next⟩ rest s' →
      Nested ⟨scope :: outer, next⟩ (.release scope.savepoint :: rest) s'

namespace Nested

variable {s s' s'' : ScopeStack} {actions others : List Action}

theorem append (h : Nested s actions s') (h' : Nested s' others s'') :
    Nested s (actions ++ others) s'' := by
  induction h with
  | nil s => exact h'
  | check _ ih => exact .check (ih h')
  | notify e _ ih => exact .notify e (ih h')
  | fixture step path _ ih => exact .fixture step path (ih h')
  | test step path _ ih => exact .test step path (ih h')
  | openScope place closed _ ih => exact .openScope place closed (ih h')
  | closeScope scope outer next _ ih => exact .closeScope scope outer next (ih h')

/-- Leaving out what has no line keeps a list well nested: only checks and
    events can be left out. -/
theorem statements (w : Wording) (h : Nested s actions s') :
    Nested s (w.statements actions) s' := by
  induction h with
  | nil s => exact .nil s
  | check _ ih =>
    rw [Wording.statements_cons]
    split
    · exact .check ih
    · exact ih
  | notify e _ ih =>
    rw [Wording.statements_cons]
    split
    · exact .notify e ih
    · exact ih
  | fixture step path _ ih =>
    simpa [Wording.statements_cons] using Nested.fixture step path ih
  | test step path _ ih =>
    simpa [Wording.statements_cons] using Nested.test step path ih
  | openScope place closed _ ih =>
    simpa [Wording.statements_cons] using Nested.openScope place closed ih
  | closeScope scope outer next _ ih =>
    simpa [Wording.statements_cons] using Nested.closeScope scope outer next ih

/-! ### Serial numbers -/

/-- A number goes in front of those that follow it. -/
theorem cons_range'_of_le {n last : Nat} (h : n + 1 ≤ last) :
    n :: List.range' (n + 1) (last - (n + 1)) = List.range' n (last - n) := by
  have hsub : last - n = last - (n + 1) + 1 := by omega
  rw [hsub, List.range'_succ]

/-- The savepoints that are opened bear the numbers from the counter before
    to the counter after, each once and in increasing order. -/
theorem opened_serials (h : Nested s actions s') :
    s.nextSerial ≤ s'.nextSerial ∧
      (actions.filterMap Action.opened?).map Savepoint.serial =
        List.range' s.nextSerial (s'.nextSerial - s.nextSerial) := by
  induction h with
  | nil s => simp
  | check _ ih => simpa [List.filterMap_cons, Action.opened?] using ih
  | notify e _ ih => simpa [List.filterMap_cons, Action.opened?] using ih
  | fixture step path _ ih => simpa [List.filterMap_cons, Action.opened?] using ih
  | closeScope scope outer next _ ih => simpa [List.filterMap_cons, Action.opened?] using ih
  | @test s s' rest step path _ ih =>
    obtain ⟨hle, hserials⟩ := ih
    simp only at hle hserials
    refine ⟨by omega, ?_⟩
    rw [← cons_range'_of_le hle, ← hserials]
    rfl
  | @openScope s s' rest place closed _ ih =>
    obtain ⟨hle, hserials⟩ := ih
    simp only at hle hserials
    refine ⟨by omega, ?_⟩
    rw [← cons_range'_of_le hle, ← hserials]
    rfl

theorem serial_bounds (h : Nested s actions s') {sp : Savepoint}
    (hmem : .openSavepoint sp ∈ actions) :
    s.nextSerial ≤ sp.serial ∧ sp.serial < s'.nextSerial := by
  obtain ⟨hle, hserials⟩ := h.opened_serials
  have hsp : sp.serial ∈ (actions.filterMap Action.opened?).map Savepoint.serial :=
    List.mem_map_of_mem (List.mem_filterMap.mpr ⟨_, hmem, rfl⟩)
  rw [hserials, List.mem_range'_1] at hsp
  omega

end Nested

/-! ### One step -/

theorem ScopeStack.find?_eq_none_or_some (s : ScopeStack) (place : Place) :
    (s.find? place = none ∧ s.enter place =
        (.opened ⟨.directory, s.nextSerial⟩,
          ⟨⟨s.nextSerial, place, .opened⟩ :: s.scopes, s.nextSerial + 1⟩)) ∨
      (∃ scope, s.find? place = some scope ∧
        s.enter place = (.alreadyOpen scope.savepoint, s)) := by
  unfold ScopeStack.enter
  cases h : s.find? place with
  | none => exact .inl ⟨rfl, rfl⟩
  | some scope => exact .inr ⟨scope, rfl, rfl⟩

/-- Entering a place is well nested, and takes at most one number. -/
theorem nested_enter (s : ScopeStack) (place : Place) :
    Nested s (s.enter place).1.actions (s.enter place).2 ∧
      (s.enter place).2.nextSerial ≤ s.nextSerial + 1 := by
  rcases s.find?_eq_none_or_some place with ⟨hnone, henter⟩ | ⟨scope, _, henter⟩
  · rw [henter]
    exact ⟨.openScope place hnone (.nil _), Nat.le_refl _⟩
  · rw [henter]
    exact ⟨.nil s, Nat.le_succ _⟩

namespace Step

variable {step : Step} {s s' : ScopeStack} {actions : List Action}

/-- All that a step can do. -/
theorem actions_cases (h : step.actions s = .ok (actions, s')) :
    (∃ path, step.kind = .fixture ∧ step.scriptPath = some path ∧
      (actions, s') = step.fixtureActions path s) ∨
    (∃ path, step.kind = .test ∧ step.scriptPath = some path ∧
      (actions, s') = step.testActions path s) ∨
    (∃ scope outer, step.kind = .teardown ∧ s.scopes = scope :: outer ∧
      scope.place = step.place ∧ actions = step.teardownActions scope.close ∧
      s' = { s with scopes := outer }) := by
  unfold Step.actions at h
  cases hkind : step.kind with
  | fixture =>
    left
    cases hpath : step.scriptPath with
    | none => simp [hkind, requirePath, hpath, bind, Except.bind] at h
    | some path =>
      simp only [hkind, requirePath, hpath, bind, Except.bind, pure, Except.pure,
        Except.ok.injEq] at h
      exact ⟨path, rfl, rfl, h.symm⟩
  | test =>
    right; left
    cases hpath : step.scriptPath with
    | none => simp [hkind, requirePath, hpath, bind, Except.bind] at h
    | some path =>
      simp only [hkind, requirePath, hpath, bind, Except.bind, pure, Except.pure,
        Except.ok.injEq] at h
      exact ⟨path, rfl, rfl, h.symm⟩
  | teardown =>
    right; right
    cases hscopes : s.scopes with
    | nil => simp [hkind, ScopeStack.exit, hscopes, bind, Except.bind] at h
    | cons scope outer =>
      by_cases hplace : scope.place = step.place
      · simp only [hkind, ScopeStack.exit, hscopes, hplace, if_true, bind, Except.bind, pure,
          Except.pure, Except.ok.injEq, Prod.mk.injEq] at h
        exact ⟨scope, outer, rfl, rfl, hplace, h.1.symm, h.2.symm⟩
      · simp [hkind, ScopeStack.exit, hscopes, hplace, bind, Except.bind] at h

/-- What a step does is well nested. -/
theorem nested_actions (h : step.actions s = .ok (actions, s')) : Nested s actions s' := by
  have henter := (nested_enter s step.place).1
  rcases actions_cases h with ⟨path, _, _, h⟩ | ⟨path, _, _, h⟩ | ⟨scope, outer, _, hs, _, rfl, rfl⟩
  · -- the events of a step stand around its script
    obtain ⟨rfl, rfl⟩ := Prod.mk.inj h
    exact henter.append (.notify _ (.fixture _ _ (.notify _ (.nil _))))
  · obtain ⟨rfl, rfl⟩ := Prod.mk.inj h
    exact henter.append (.notify _ (.test _ _ (.notify _ (.nil _))))
  · cases s with
    | mk scopes next =>
      simp only at hs
      subst hs
      exact .closeScope scope outer next (.notify _ (.notify _ (.nil _)))

/-- A step takes at most two numbers: one for its place and one for itself. -/
theorem nextSerial_le (h : step.actions s = .ok (actions, s')) :
    s'.nextSerial ≤ s.nextSerial + 2 := by
  have henter := (nested_enter s step.place).2
  rcases actions_cases h with ⟨path, _, _, h⟩ | ⟨path, _, _, h⟩ | ⟨scope, outer, _, _, _, _, rfl⟩
  · obtain ⟨_, rfl⟩ := Prod.mk.inj h
    exact Nat.le_succ_of_le henter
  · obtain ⟨_, rfl⟩ := Prod.mk.inj h
    exact Nat.succ_le_succ henter
  · exact Nat.le_add_right _ _

end Step

/-! ### A run of steps -/

namespace Schedule

variable {previous : Option UInt32} {s s' : ScopeStack} {steps : List Step} {actions : List Action}

theorem ofStepsFrom_cons_eq_ok {step : Step} {rest : List Step} :
    ofStepsFrom previous s (step :: rest) = .ok (actions, s') ↔
      step.checkOrder previous = .ok () ∧ ∃ first after others,
        step.actions s = .ok (first, after) ∧
        ofStepsFrom (some step.ordinal) after rest = .ok (others, s') ∧
        actions = first ++ others := by
  rw [ofStepsFrom]
  cases hcheck : step.checkOrder previous with
  | error e => simp [bind, Except.bind]
  | ok u =>
    cases hstep : step.actions s with
    | error e => simp [bind, Except.bind]
    | ok first =>
      obtain ⟨first, after⟩ := first
      cases hrest : ofStepsFrom (some step.ordinal) after rest with
      | error e => simp [bind, Except.bind, hrest]
      | ok others =>
        obtain ⟨others, final⟩ := others
        simp only [bind, Except.bind, hrest, pure, Except.pure, Except.ok.injEq, Prod.mk.injEq,
          true_and]
        constructor
        · intro h
          obtain ⟨rfl, rfl⟩ := h
          exact ⟨first, after, others, ⟨rfl, rfl⟩, ⟨by rw [hrest], rfl⟩⟩
        · intro h
          obtain ⟨_, _, others', ⟨rfl, rfl⟩, h, rfl⟩ := h
          rw [hrest] at h
          cases h
          exact ⟨rfl, rfl⟩

/-- A run of steps is a run of its first steps and, from the scopes that
    these leave open, a run of the others. -/
theorem ofStepsFrom_append_eq_ok {done rest : List Step}
    (h : ofStepsFrom previous s (done ++ rest) = .ok (actions, s')) :
    ∃ first after others,
      ofStepsFrom previous s done = .ok (first, after) ∧
      ofStepsFrom ((done.getLast?.map Step.ordinal).or previous) after rest = .ok (others, s') ∧
      actions = first ++ others := by
  induction done generalizing previous s actions with
  | nil => exact ⟨[], s, actions, rfl, h, rfl⟩
  | cons step done ih =>
    obtain ⟨hcheck, first, after, others, hstep, hrest, rfl⟩ := ofStepsFrom_cons_eq_ok.mp h
    obtain ⟨first', after', others', hdone, hrest', rfl⟩ := ih hrest
    refine ⟨first ++ first', after', others', ?_, ?_, (List.append_assoc ..).symm⟩
    · exact ofStepsFrom_cons_eq_ok.mpr ⟨hcheck, first, after, first', hstep, hdone, rfl⟩
    · -- the next ordinal is compared with that of the last step, or with
      -- `previous` if there has been none
      cases done with
      | nil => exact hrest'
      | cons d ds =>
        rw [List.getLast?_cons_cons]
        cases hlast : (d :: ds).getLast? with
        | none => simp at hlast
        | some last =>
          rw [hlast] at hrest'
          exact hrest'

/-- What a run of steps does is well nested. -/
theorem nested_ofStepsFrom (h : ofStepsFrom previous s steps = .ok (actions, s')) :
    Nested s actions s' := by
  induction steps generalizing previous s actions with
  | nil => cases h; exact .nil _
  | cons step rest ih =>
    obtain ⟨_, first, after, others, hstep, hrest, rfl⟩ := ofStepsFrom_cons_eq_ok.mp h
    exact (Step.nested_actions hstep).append (ih hrest)

/-- A run of steps takes at most two numbers a step. -/
theorem nextSerial_le (h : ofStepsFrom previous s steps = .ok (actions, s')) :
    s'.nextSerial ≤ s.nextSerial + 2 * steps.length := by
  induction steps generalizing previous s actions with
  | nil => cases h; simp
  | cons step rest ih =>
    obtain ⟨_, first, after, others, hstep, hrest, rfl⟩ := ofStepsFrom_cons_eq_ok.mp h
    have hfirst := Step.nextSerial_le hstep
    have hothers := ih hrest
    rw [List.length_cons]
    omega

/-- What is done before the first step. -/
def opening : List Action := [.checkObserver, .notify (.suite .suiteStart 0)]

/-- What is done after the last step. -/
def ending (steps : List Step) : List Action := [.notify (.suite .suiteEnd (lastOrdinal steps))]

/-- The schedule of a plan in terms of the run of its steps. -/
theorem ofSteps_eq_ok (h : ofSteps steps = .ok actions) :
    ∃ run s', ofStepsFrom none {} steps = .ok (run, s') ∧
      actions = opening ++ run ++ ending steps := by
  unfold ofSteps at h
  cases hrun : ofStepsFrom none {} steps with
  | error e => rw [hrun] at h; cases h
  | ok run =>
    rw [hrun] at h
    cases h
    exact ⟨run.1, run.2, rfl, rfl⟩

theorem nested_opening (s : ScopeStack) : Nested s opening s :=
  .check (.notify _ (.nil s))

theorem nested_ending (s : ScopeStack) (steps : List Step) : Nested s (ending steps) s :=
  .notify _ (.nil s)

end Schedule

/-! ### The statements of a plan -/

/-- A plan in which a test of an outer place runs while an inner place is
    open. -/
def nestedPlan : List Step := [
  ⟨1, .test, some "a/1.sql", ⟨"a/", 0⟩⟩,
  ⟨2, .fixture, some "a/b/0.sql", ⟨"a/b/", 1⟩⟩,
  ⟨3, .test, some "a/2.sql", ⟨"a/", 0⟩⟩,
  ⟨4, .teardown, none, ⟨"a/b/", 1⟩⟩]

variable {config : Config} {callback : String} {steps : List Step} {script : List Action}

/-- The statements of a compiled plan are well nested, and take at most two
    numbers a step. -/
theorem nested_statementsOf (h : statementsOf config callback steps = .ok script) :
    ∃ s', Nested {} script s' ∧ s'.nextSerial ≤ 2 * steps.length := by
  rcases statementsOf_eq_ok h with ⟨_, rfl⟩ | ⟨_, _, actions, hactions, rfl⟩
  · exact ⟨{}, .nil {}, Nat.zero_le _⟩
  · obtain ⟨run, s', hrun, rfl⟩ := Schedule.ofSteps_eq_ok hactions
    have hnested : Nested {} (Schedule.opening ++ run ++ Schedule.ending steps) s' :=
      ((Schedule.nested_opening {}).append (Schedule.nested_ofStepsFrom hrun)).append
        (Schedule.nested_ending s' steps)
    have hserial : s'.nextSerial ≤ 0 + 2 * steps.length := Schedule.nextSerial_le hrun
    exact ⟨s', hnested.statements _, by omega⟩

/-- A script starts with the opening and the statements of any first steps
    of its plan, and goes on with those of the other steps. -/
theorem statementsOf_append {done rest : List Step}
    (h : statementsOf config callback (done ++ rest) = .ok script) (hne : done ++ rest ≠ []) :
    ∃ first scopes others final,
      Schedule.ofStepsFrom none {} done = .ok (first, scopes) ∧
      Schedule.ofStepsFrom (done.getLast?.map Step.ordinal) scopes rest = .ok (others, final) ∧
      script = (Wording.ofCallback config callback).statements (Schedule.opening ++ first) ++
        (Wording.ofCallback config callback).statements
          (others ++ Schedule.ending (done ++ rest)) := by
  rcases statementsOf_eq_ok h with ⟨hnil, _⟩ | ⟨_, _, actions, hactions, rfl⟩
  · exact absurd hnil hne
  · obtain ⟨run, s', hrun, rfl⟩ := Schedule.ofSteps_eq_ok hactions
    obtain ⟨first, scopes, others, hdone, hrest, rfl⟩ := Schedule.ofStepsFrom_append_eq_ok hrun
    rw [Option.or_none] at hrest
    refine ⟨first, scopes, others, s', hdone, hrest, ?_⟩
    rw [← Wording.statements_append]
    simp only [List.append_assoc]

end SuiteScript
