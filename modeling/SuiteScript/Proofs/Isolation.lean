import SuiteScript.Proofs.Database

/-! # Tests are isolated

    Whatever a test does is undone before anything else can see it: in front
    of every statement that is not inside a test, the data is what the
    fixtures and the observer have made of it, as if no test had run.  Each
    test finds the data in that state, too.

    A test's savepoint is rolled back to but never released, and places may
    be opened and closed around it, so savepoints pile up.  They do not
    matter: the roll-back directly follows the test's block, when the
    savepoint is still on top. -/

namespace SuiteScript

/-- Is an effect of this statement meant to last?  Those of fixtures and
    observers are. -/
def Action.lasts : Action → Bool
  | .notify _ => true
  | .runFixture _ _ => true
  | _ => false

/-- The data after the lasting statements of a list, in their order and
    without any other; the first of the list is the `n`-th of its script. -/
def lastingData {δ : Type} (work : Nat → δ → δ) (n : Nat) (data : δ) : List Action → δ
  | [] => data
  | a :: rest => lastingData work (n + 1) (if a.lasts then work n data else data) rest

/-- After these statements, is a test's savepoint open that has not been
    rolled back to? -/
def InsideTest (before : List Action) : Prop :=
  ∃ serial, .openSavepoint ⟨.test, serial⟩ ∈ before ∧ .rollBackTo ⟨.test, serial⟩ ∉ before

instance (before : List Action) : Decidable (InsideTest before) :=
  decidable_of_iff
    (∃ sp ∈ before.filterMap Action.opened?, sp.cls = .test ∧ .rollBackTo sp ∉ before) <| by
    constructor
    · intro h
      obtain ⟨⟨cls, serial⟩, hmem, rfl, hback⟩ := h
      obtain ⟨a, ha, hopened⟩ := List.mem_filterMap.mp hmem
      cases a <;> cases hopened
      exact ⟨serial, ha, hback⟩
    · intro h
      obtain ⟨serial, hopen, hback⟩ := h
      exact ⟨_, List.mem_filterMap.mpr ⟨_, hopen, rfl⟩, rfl, hback⟩

/-- Is this a place where no test shows: outside of all tests, or right in
    front of a test's block? -/
def AtRest (before after : List Action) : Prop :=
  ¬ InsideTest before ∨ ∃ step path rest, after = .runTest step path :: rest

/-! ### Inside a test -/

/-- Only a roll-back ends a test, so any other statement can be taken off
    the front. -/
theorem AtRest.of_cons {a : Action} {before after : List Action} (h : AtRest (a :: before) after)
    (ha : ∀ sp, a ≠ .rollBackTo sp) : AtRest before after := by
  apply h.imp_left
  intro hout hin
  apply hout
  obtain ⟨serial, hopen, hback⟩ := hin
  refine ⟨serial, List.mem_cons_of_mem a hopen, ?_⟩
  intro hmem
  rcases List.mem_cons.mp hmem with heq | hmem
  · exact ha _ heq.symm
  · exact hback hmem

/-- A whole test can be taken off: its number is smaller than those of all
    later tests, so its roll-back ends none of them. -/
theorem AtRest.of_test {s s' : ScopeStack} {before after : List Action} {step : Step}
    {path : String} {serial : Nat} (hnested : Nested s (before ++ after) s')
    (hserial : serial < s.nextSerial)
    (h : AtRest (.openSavepoint ⟨.test, serial⟩ :: .runTest step path ::
      .rollBackTo ⟨.test, serial⟩ :: before) after) :
    AtRest before after := by
  apply h.imp_left
  intro hout hin
  apply hout
  obtain ⟨later, hopen, hback⟩ := hin
  have hlater : s.nextSerial ≤ later :=
    (hnested.serial_bounds (List.mem_append_left after hopen)).1
  refine ⟨later, by simp [hopen], ?_⟩
  simp only [List.mem_cons, Action.rollBackTo.injEq, Savepoint.mk.injEq, true_and, reduceCtorEq,
    false_or, not_or]
  exact ⟨by omega, hback⟩

/-- Behind a test's block and in front of the roll-back, the test shows. -/
theorem not_atRest_of_run {step : Step} {path : String} {serial : Nat} {sp : Savepoint}
    {rest : List Action} :
    ¬ AtRest [.openSavepoint ⟨.test, serial⟩, .runTest step path] (.rollBackTo sp :: rest) := by
  intro h
  rcases h with hout | ⟨_, _, _, hnext⟩
  · exact hout ⟨serial, by simp, by simp⟩
  · cases hnext

/-- Any other statement than a roll-back may stand in front of a run that
    leaves the lasting data. -/
theorem run_lastingData_cons {δ : Type} {work : Nat → δ → δ} {n : Nat} {db db₁ : Database δ}
    {a : Action} {rest before after : List Action} (hsplit : a :: rest = before ++ after)
    (hat : AtRest before after) (hback : ∀ sp, a ≠ .rollBackTo sp)
    (hexecute : db.execute (work n) a = some db₁)
    (hdata : db₁.data = if a.lasts then work n db.data else db.data)
    (hrest : ∀ before', rest = before' ++ after → AtRest before' after →
      ∃ db', Database.run work (n + 1) db₁ before' = some db' ∧
        db'.data = lastingData work (n + 1) db₁.data before') :
    ∃ db', Database.run work n db before = some db' ∧
      db'.data = lastingData work n db.data before := by
  cases before with
  | nil => exact ⟨db, rfl, rfl⟩
  | cons b before =>
    obtain ⟨rfl, htail⟩ := List.cons.inj hsplit
    obtain ⟨db', hrun, hlasting⟩ := hrest before htail (hat.of_cons hback)
    refine ⟨db', ?_, ?_⟩
    · rw [Database.run_cons, hexecute]
      exact hrun
    · rw [hlasting, hdata]
      rfl

namespace Nested

variable {δ : Type} {s s' : ScopeStack} {actions : List Action}

/-- Outside of tests, and where a test starts, well-nested statements have
    left the data as their lasting statements alone would have. -/
theorem run_lastingData (h : Nested s actions s') (work : Nat → δ → δ) (n : Nat)
    {db : Database δ} (hdb : Tracks s db) {before after : List Action}
    (hsplit : actions = before ++ after) (hat : AtRest before after) :
    ∃ db', Database.run work n db before = some db' ∧
      db'.data = lastingData work n db.data before := by
  -- In each case the first statement, or the first test, is taken off.
  induction h generalizing n db before with
  | nil s =>
    obtain ⟨rfl, _⟩ := List.append_eq_nil_iff.mp hsplit.symm
    exact ⟨db, rfl, rfl⟩
  | check _ ih =>
    apply run_lastingData_cons hsplit hat (by simp) rfl rfl
    intro before' hsplit' hat'
    exact ih (n + 1) hdb hsplit' hat'
  | notify e _ ih =>
    apply run_lastingData_cons hsplit hat (by simp) rfl rfl
    intro before' hsplit' hat'
    exact ih (n + 1) (hdb.with_data (work n db.data)) hsplit' hat'
  | fixture step path _ ih =>
    apply run_lastingData_cons hsplit hat (by simp) rfl rfl
    intro before' hsplit' hat'
    exact ih (n + 1) (hdb.with_data (work n db.data)) hsplit' hat'
  | @openScope s s' rest place closed _ ih =>
    apply run_lastingData_cons hsplit hat (by simp) rfl rfl
    intro before' hsplit' hat'
    exact ih (n + 1) (hdb.save_directory place s.nextSerial (s.nextSerial + 1)) hsplit' hat'
  | closeScope scope outer next _ ih =>
    obtain ⟨below, hrelease, htracks⟩ := hdb.release
    apply run_lastingData_cons hsplit hat (by simp) hrelease rfl
    intro before' hsplit' hat'
    exact ih (n + 1) htracks hsplit' hat'
  | @test s s' rest step path hrest ih =>
    -- Four places: in front of the savepoint, of the block and of the
    -- roll-back, and behind it.
    match before, hsplit with
    | [], _ => exact ⟨db, rfl, rfl⟩
    | [a], hsplit =>
      obtain ⟨rfl, _⟩ := List.cons.inj hsplit
      exact ⟨_, rfl, rfl⟩
    | [a, b], hsplit =>
      obtain ⟨rfl, hsplit₁⟩ := List.cons.inj hsplit
      obtain ⟨rfl, hafter⟩ := List.cons.inj hsplit₁
      have hafter' : _ = after := hafter
      rw [← hafter'] at hat
      exact absurd hat not_atRest_of_run
    | a :: b :: c :: before, hsplit =>
      obtain ⟨rfl, hsplit₁⟩ := List.cons.inj hsplit
      obtain ⟨rfl, hsplit₂⟩ := List.cons.inj hsplit₁
      obtain ⟨rfl, hsplit₃⟩ := List.cons.inj hsplit₂
      have hrest' : rest = before ++ after := hsplit₃
      rw [hrest'] at hrest
      have hat' := AtRest.of_test hrest (Nat.lt_succ_self _) hat
      have hsaved := hdb.save_test s.nextSerial (s.nextSerial + 1)
      obtain ⟨db', hrun, hdata⟩ := ih (n + 3) hsaved hrest' hat'
      refine ⟨db', ?_, hdata⟩
      simp only [Database.run_cons, Database.execute, Database.save, Option.bind_some,
        Database.rollBackTo?_top]
      exact hrun

end Nested

/-- Run against any database and whatever its statements do, the script of
    an accepted plan has at each place outside of tests, and in front of
    each test's block, the data that the fixtures and the observer alone
    would have produced from the data at the start. -/
theorem compile_isolatesTests {config : Config} {callback : String} {steps : List Step}
    {plan : CompiledPlan} (h : compile config callback steps = .ok plan) :
    ∃ script, statementsOf config callback steps = .ok script ∧
      plan.sql = (Wording.ofCallback config callback).text script ∧
      ∀ {δ : Type} (work : Nat → δ → δ) (start : δ) (before after : List Action),
        script = before ++ after → AtRest before after →
        ∃ db, Database.run work 0 (.begun start) before = some db ∧
          db.data = lastingData work 0 start before := by
  obtain ⟨script, hscript, hsql, _⟩ := compile_eq_ok_iff.mp h
  obtain ⟨final, hnested, _⟩ := nested_statementsOf hscript
  refine ⟨script, hscript, hsql, ?_⟩
  intro δ work start before after hsplit hat
  exact hnested.run_lastingData work 0 (Tracks.begun start) hsplit hat

/-- With statements that write their numbers down, the numbers at the end
    are those of the lasting statements: neither test (5 and 14) is there. -/
theorem nestedPlan_isolatesTests :
    ∃ plan script, compile {} "obs" nestedPlan = .ok plan ∧
      statementsOf {} "obs" nestedPlan = .ok script ∧ AtRest script [] ∧
      ∃ db, Database.run (fun i written => i :: written) 0 (.begun []) script = some db ∧
        db.data = [20, 19, 18, 16, 12, 11, 10, 9, 7, 3, 1] := by
  have hcompile : ∃ plan, compile {} "obs" nestedPlan = .ok plan := ⟨_, rfl⟩
  obtain ⟨plan, hplan⟩ := hcompile
  obtain ⟨script, hscript, _, hrun⟩ := compile_isolatesTests hplan
  have hat : ((statementsOf {} "obs" nestedPlan).toOption.map fun script =>
      decide (InsideTest script)) = some false := by decide +kernel
  have hlasting : ((statementsOf {} "obs" nestedPlan).toOption.map fun script =>
      lastingData (fun i written => i :: written) 0 [] script) =
      some [20, 19, 18, 16, 12, 11, 10, 9, 7, 3, 1] := by decide +kernel
  rw [hscript] at hat hlasting
  have hat' : AtRest script [] := .inl (of_decide_eq_false (Option.some.inj hat))
  obtain ⟨db, hdb, hdata⟩ := hrun (fun i written => i :: written) [] script []
    (List.append_nil script).symm hat'
  exact ⟨plan, script, hplan, hscript, hat', db, hdb, hdata.trans (Option.some.inj hlasting)⟩

end SuiteScript
