import Mathlib.Data.List.Perm.Basic
import SuiteScript.Proofs.MapOrder
import SuiteScript.Proofs.Openings
import SuiteScript.Proofs.SavepointSafety

/-! # What a listing promises

    The totals of a listing are counted over the steps, one by one.  They
    are the totals of the script as well: each test has one savepoint and is
    rolled back to it once, each teardown releases the savepoint of one
    directory, and what is not released is still open at the end
    (`compile_tallies`).

    That savepoints match is shown of all well-nested statements; how many
    there are of each kind is counted step by step. -/

namespace SuiteScript

/-! ### Statements on savepoints -/

namespace Action

/-- The savepoint that an action rolls back to. -/
def rolledBack? : Action → Option Savepoint
  | .rollBackTo sp => some sp
  | _ => none

/-- The savepoint that an action releases. -/
def released? : Action → Option Savepoint
  | .release sp => some sp
  | _ => none

end Action

/-- The savepoints of a class that a script opens, in order. -/
def savepointsOpened (cls : SavepointClass) (script : List Action) : List Savepoint :=
  (script.filterMap Action.opened?).filter (·.cls = cls)

/-- The savepoints that a script rolls back to, in order. -/
def savepointsRolledBack (script : List Action) : List Savepoint :=
  script.filterMap Action.rolledBack?

/-- The savepoints that a script releases, in order. -/
def savepointsReleased (script : List Action) : List Savepoint :=
  script.filterMap Action.released?

theorem savepointsOpened_append (cls : SavepointClass) (xs ys : List Action) :
    savepointsOpened cls (xs ++ ys) = savepointsOpened cls xs ++ savepointsOpened cls ys := by
  simp [savepointsOpened]

/-! ### Well-nested statements -/

namespace Nested

variable {s s' : ScopeStack} {actions : List Action}

theorem savepointsOpened_nodup (h : Nested s actions s') (cls : SavepointClass) :
    (savepointsOpened cls actions).Nodup :=
  h.opened_names_nodup.of_map.filter _

/-- Tests are rolled back in the order in which they are opened. -/
theorem savepointsRolledBack_eq (h : Nested s actions s') :
    savepointsRolledBack actions = savepointsOpened .test actions := by
  unfold savepointsRolledBack savepointsOpened
  induction h with
  | nil s => rfl
  | check _ ih => exact ih
  | notify e _ ih => exact ih
  | fixture step path _ ih => exact ih
  | test step path _ ih => exact congrArg _ ih
  | openScope place closed _ ih => exact ih
  | closeScope scope outer next _ ih => exact ih

/-- What is released or still open is what was open or is opened. -/
theorem released_append_perm (h : Nested s actions s') :
    (savepointsReleased actions ++ s'.scopes.map Scope.savepoint).Perm
      (s.scopes.map Scope.savepoint ++ savepointsOpened .directory actions) := by
  unfold savepointsReleased savepointsOpened
  induction h with
  | nil s => simp
  | check _ ih => exact ih
  | notify e _ ih => exact ih
  | fixture step path _ ih => exact ih
  | test step path _ ih => exact ih
  | openScope place closed _ ih =>
    -- the new scope moves from the open ones to those that are opened
    exact ih.trans List.perm_middle.symm
  | closeScope scope outer next _ ih => exact ih.cons _

/-- A list is cut at another member than its first, so its first member stands
    before the cut. -/
theorem eq_cons_of_cut {a b : Action} {rest before after : List Action}
    (hsplit : a :: rest = before ++ b :: after) (hne : a ≠ b) :
    ∃ before', before = a :: before' ∧ rest = before' ++ b :: after := by
  rcases List.cons_eq_append_iff.mp hsplit with ⟨_, hcut⟩ | hcut
  · exact absurd (List.cons.inj hcut).1.symm hne
  · exact hcut

/-- An action in front of the cut that neither releases a savepoint nor opens a
    directory's may be left out. -/
theorem mem_opened_of_cut {a : Action} {rest before after : List Action} {sp : Savepoint}
    {opened : List Savepoint} (hne : a ≠ .release sp)
    (hsilent : savepointsOpened .directory [a] = [])
    (hrest : ∀ before, rest = before ++ .release sp :: after →
      sp ∈ opened ++ savepointsOpened .directory before)
    (hsplit : a :: rest = before ++ .release sp :: after) :
    sp ∈ opened ++ savepointsOpened .directory before := by
  obtain ⟨before, rfl, hcut⟩ := eq_cons_of_cut hsplit hne
  have hfront : savepointsOpened .directory (a :: before) = savepointsOpened .directory before := by
    rw [← List.singleton_append, savepointsOpened_append, hsilent, List.nil_append]
  rw [hfront]
  exact hrest before hcut

/-- What is released was open or has been opened before. -/
theorem mem_of_released (h : Nested s actions s') {before after : List Action} {sp : Savepoint}
    (hsplit : actions = before ++ .release sp :: after) :
    sp ∈ s.scopes.map Scope.savepoint ++ savepointsOpened .directory before := by
  induction h generalizing before with
  | nil s => simp at hsplit
  | check _ ih => exact mem_opened_of_cut (by simp) rfl (fun _ => ih) hsplit
  | notify e _ ih => exact mem_opened_of_cut (by simp) rfl (fun _ => ih) hsplit
  | fixture step path _ ih => exact mem_opened_of_cut (by simp) rfl (fun _ => ih) hsplit
  | test step path _ ih =>
    -- the savepoint of a test is opened, used and rolled back to
    refine mem_opened_of_cut (by simp) rfl (fun _ hrun => ?_) hsplit
    refine mem_opened_of_cut (by simp) rfl (fun _ hrollBack => ?_) hrun
    exact mem_opened_of_cut (by simp) rfl (fun _ => ih) hrollBack
  | openScope place closed _ ih =>
    obtain ⟨before, rfl, hrest⟩ := eq_cons_of_cut hsplit (by simp)
    -- the scope on top of the stack is the one that has just been opened
    exact List.perm_middle.symm.subset (ih hrest)
  | closeScope scope outer next _ ih =>
    rcases List.cons_eq_append_iff.mp hsplit with ⟨rfl, hcut⟩ | ⟨before, rfl, hrest⟩
    · cases hcut
      exact List.mem_cons_self
    · have hmem := ih hrest
      exact List.mem_cons_of_mem _ hmem

end Nested

/-! ### Counting step by step -/

namespace Step

variable {step : Step} {s s' : ScopeStack} {actions : List Action}

/-- A test opens one test's savepoint, a teardown releases one savepoint, and
    no other step does either. -/
theorem length_savepoints (h : step.actions s = .ok (actions, s')) :
    (savepointsOpened .test actions).length = (if step.kind = .test then 1 else 0) ∧
      (savepointsReleased actions).length = if step.kind = .teardown then 1 else 0 := by
  -- to enter a place, only a directory's savepoint may have to be opened
  have henter : (s.enter step.place).1.actions = [] ∨
      (s.enter step.place).1.actions = [.openSavepoint ⟨.directory, s.nextSerial⟩] := by
    rcases s.find?_eq_none_or_some step.place with ⟨_, henter⟩ | ⟨scope, _, henter⟩
    · rw [henter]
      exact .inr rfl
    · rw [henter]
      exact .inl rfl
  rcases actions_cases h with ⟨path, hkind, _, h⟩ | ⟨path, hkind, _, h⟩ |
    ⟨scope, outer, hkind, _, _, rfl, _⟩
  · have hlist : actions = _ := (congrArg Prod.fst h).trans (fixtureActions_fst path)
    rw [hlist, hkind]
    rcases henter with henter | henter
    · rw [henter]
      exact ⟨rfl, rfl⟩
    · rw [henter]
      exact ⟨rfl, rfl⟩
  · have hlist : actions = _ := (congrArg Prod.fst h).trans (testActions_fst path)
    rw [hlist, hkind]
    rcases henter with henter | henter
    · rw [henter]
      exact ⟨rfl, rfl⟩
    · rw [henter]
      exact ⟨rfl, rfl⟩
  · rw [hkind]
    exact ⟨rfl, rfl⟩

end Step

namespace Schedule

variable {previous : Option UInt32} {s s' : ScopeStack} {steps : List Step} {actions : List Action}

/-- What each step of a kind does once, and other steps do not, is done as
    often as there are steps of the kind. -/
theorem length_eq_count {kind : StepKind} {f : List Action → List Savepoint} (hnil : f [] = [])
    (happend : ∀ xs ys, f (xs ++ ys) = f xs ++ f ys)
    (hstep : ∀ (step : Step) (s s' : ScopeStack) (own : List Action),
      step.actions s = .ok (own, s') → (f own).length = if step.kind = kind then 1 else 0)
    (h : ofStepsFrom previous s steps = .ok (actions, s')) :
    (f actions).length = PlanSummary.count kind steps := by
  induction steps generalizing previous s actions with
  | nil =>
    cases h
    rw [hnil]
    rfl
  | cons step rest ih =>
    obtain ⟨_, own, after, others, hown, hrest, rfl⟩ := ofStepsFrom_cons_eq_ok.mp h
    rw [happend, List.length_append, hstep step s after own hown, ih hrest, PlanSummary.count,
      PlanSummary.count, List.countP_cons, Nat.add_comm]
    simp

/-- The savepoints that are not those of tests are those of the places that
    are opened. -/
theorem length_opened_directory (h : ofStepsFrom previous s steps = .ok (actions, s')) :
    (savepointsOpened .directory actions).length = placesOpened s.places steps := by
  have htests : (savepointsOpened .test actions).length = steps.countP (·.kind = .test) :=
    length_eq_count rfl (savepointsOpened_append _)
      (fun _ _ _ _ h => (Step.length_savepoints h).1) h
  have hserials := congrArg List.length (nested_ofStepsFrom h).opened_serials.2
  have hnext := nextSerial_ofStepsFrom h
  rw [List.length_map, List.length_range'] at hserials
  have hsplit := (actions.filterMap Action.opened?).length_eq_length_filter_add
    fun sp => decide (sp.cls = .directory)
  have hother : ∀ sp : Savepoint, (!decide (sp.cls = .directory)) = decide (sp.cls = .test) := by
    intro sp
    cases sp.cls <;> rfl
  simp only [hother] at hsplit
  unfold savepointsOpened at htests ⊢
  omega

end Schedule

/-! ### The statements of a plan -/

/-- How the totals of a plan show in its script. -/
structure Tallies (steps : List Step) (plan : CompiledPlan) (script : List Action) : Prop where
  /-- The map has an entry for each fixture and test. -/
  entries : plan.sourceMap.length =
    (PlanSummary.ofSteps steps).fixtures + (PlanSummary.ofSteps steps).tests
  /-- Each test has a savepoint. -/
  tests : (savepointsOpened .test script).length = (PlanSummary.ofSteps steps).tests
  /-- There are as many roll-backs. -/
  rollBacks : (savepointsRolledBack script).length = (PlanSummary.ofSteps steps).tests
  /-- Each test's savepoint is rolled back to once. -/
  rolledBack_once : ∀ sp ∈ savepointsOpened .test script, (savepointsRolledBack script).count sp = 1
  /-- Each teardown releases a savepoint, -/
  releases : (savepointsReleased script).length = (PlanSummary.ofSteps steps).teardowns
  /-- which is that of a directory and was opened before, -/
  released_opened : ∀ before after sp, script = before ++ .release sp :: after →
    sp ∈ savepointsOpened .directory before
  /-- and no savepoint is released twice. -/
  released_once : (savepointsReleased script).Nodup
  /-- Directories are released or still open at the end. -/
  directories : ∃ actions final, Schedule.ofStepsFrom none {} steps = .ok (actions, final) ∧
    (savepointsOpened .directory script).length =
      (PlanSummary.ofSteps steps).teardowns + final.finish.length
  /-- A directory has a savepoint for each of its openings, -/
  places_le : (PlanSummary.ofSteps steps).places ≤ (savepointsOpened .directory script).length
  /-- of which there is one just if it is not entered behind its teardown. -/
  places_eq_iff : (savepointsOpened .directory script).length = (PlanSummary.ofSteps steps).places ↔
    NeverReentered steps

variable {config : Config} {callback : String} {steps : List Step} {script : List Action}

/-- The statements of a plan are well nested and on the same savepoints as
    what its steps do. -/
theorem exists_run_of_statementsOf (h : statementsOf config callback steps = .ok script) :
    ∃ actions final, Schedule.ofStepsFrom none {} steps = .ok (actions, final) ∧
      Nested {} script final ∧
      (∀ cls, savepointsOpened cls script = savepointsOpened cls actions) ∧
      savepointsReleased script = savepointsReleased actions := by
  rcases statementsOf_eq_ok h with ⟨rfl, rfl⟩ | ⟨_, _, schedule, hschedule, rfl⟩
  · exact ⟨[], {}, rfl, .nil {}, fun _ => rfl, rfl⟩
  · obtain ⟨actions, final, hrun, rfl⟩ := Schedule.ofSteps_eq_ok hschedule
    have hnested : Nested {} (Schedule.opening ++ actions ++ Schedule.ending steps) final :=
      ((Schedule.nested_opening {}).append (Schedule.nested_ofStepsFrom hrun)).append
        (Schedule.nested_ending final steps)
    -- what has no statement is not about savepoints
    have hsame : ∀ (f : Action → Option Savepoint), f .checkObserver = none →
        (∀ e, f (.notify e) = none) →
        ((Wording.ofCallback config callback).statements
          (Schedule.opening ++ actions ++ Schedule.ending steps)).filterMap f =
          actions.filterMap f := by
      intro f hcheck hnotify
      have hsilent : ∀ a : Action, (Wording.ofCallback config callback).writes a = false →
          f a = none := by
        intro a ha
        cases a with
        | checkObserver => exact hcheck
        | notify e => exact hnotify e
        | _ => simp at ha
      have hstatements : ∀ xs : List Action,
          ((Wording.ofCallback config callback).statements xs).filterMap f = xs.filterMap f := by
        intro xs
        induction xs with
        | nil => rfl
        | cons a xs ih =>
          rw [Wording.statements_cons]
          split
          · rw [List.filterMap_cons, List.filterMap_cons, ih]
          · next ha => rw [List.filterMap_cons_none (hsilent a (by simpa using ha)), ih]
      rw [hstatements]
      simp [Schedule.opening, Schedule.ending, hcheck, hnotify]
    refine ⟨actions, final, hrun, hnested.statements _, ?_, hsame _ rfl fun _ => rfl⟩
    intro cls
    exact congrArg (List.filter _) (hsame _ rfl fun _ => rfl)

theorem count_runsScript (steps : List Step) :
    (steps.filter (·.kind.runsScript)).length =
      (PlanSummary.ofSteps steps).fixtures + (PlanSummary.ofSteps steps).tests := by
  show _ = PlanSummary.count .fixture steps + PlanSummary.count .test steps
  unfold PlanSummary.count
  induction steps with
  | nil => rfl
  | cons step rest ih =>
    have hkind : step.kind.runsScript =
        (decide (step.kind = .fixture) || decide (step.kind = .test)) := by
      cases step.kind <;> rfl
    rw [List.filter_cons, List.countP_cons, List.countP_cons, hkind]
    by_cases hfixture : step.kind = .fixture
    · simp [hfixture, ih, Nat.add_right_comm]
    · by_cases htest : step.kind = .test
      · simp [htest, ih, Nat.add_assoc]
      · simp [hfixture, htest, ih]

/-- The totals of every accepted plan are those of its script. -/
theorem compile_tallies {plan : CompiledPlan} (h : compile config callback steps = .ok plan) :
    ∃ script, statementsOf config callback steps = .ok script ∧
      plan.sql = (Wording.ofCallback config callback).text script ∧ Tallies steps plan script := by
  have hformed := wellFormed_of_compile h
  have hmap := (mapsScripts_of_compile h).map_step
  obtain ⟨script, hscript, hsql, _⟩ := compile_eq_ok_iff.mp h
  obtain ⟨actions, final, hrun, hnested, hopened, hreleased⟩ := exists_run_of_statementsOf hscript
  have htests : (savepointsOpened .test script).length = (PlanSummary.ofSteps steps).tests := by
    rw [hopened]
    exact Schedule.length_eq_count rfl (savepointsOpened_append _)
      (fun _ _ _ _ h => (Step.length_savepoints h).1) hrun
  have hreleases : (savepointsReleased script).length =
      (PlanSummary.ofSteps steps).teardowns := by
    rw [hreleased]
    exact Schedule.length_eq_count rfl (fun _ _ => List.filterMap_append)
      (fun _ _ _ _ h => (Step.length_savepoints h).2) hrun
  have hdirectories : (savepointsOpened .directory script).length = (openings steps).length := by
    rw [hopened, Schedule.length_opened_directory hrun, openings, length_openingsFrom]
    rfl
  have hperm := hnested.released_append_perm
  have hnodup := hnested.savepointsOpened_nodup
  refine ⟨script, hscript, hsql, ?_, htests, ?_, ?_, hreleases, ?_, ?_, ?_, ?_, ?_⟩
  · rw [← count_runsScript, ← hmap, List.length_map]
    rfl
  · rw [hnested.savepointsRolledBack_eq, htests]
  · intro sp hsp
    rw [hnested.savepointsRolledBack_eq]
    exact List.count_eq_one_of_mem (hnodup .test) hsp
  · intro before after sp hsplit
    exact hnested.mem_of_released hsplit
  · exact (hperm.nodup_iff.mpr (hnodup .directory)).of_append_left
  · refine ⟨actions, final, hrun, ?_⟩
    rw [← hreleases, ScopeStack.finish, List.length_map, ← List.length_map Scope.savepoint,
      ← List.length_append, hperm.length_eq]
    rfl
  · rw [hdirectories]
    exact places_le_length_openings steps
  · rw [hdirectories]
    exact hformed.length_openings_eq_places_iff

/-- A plan that enters a place again behind its teardown and leaves it open. -/
def revisitingPlan : List Step := [
  ⟨1, .fixture, some "a/0.sql", ⟨"a/", 0⟩⟩,
  ⟨2, .test, some "a/b/1.sql", ⟨"a/b/", 1⟩⟩,
  ⟨3, .teardown, none, ⟨"a/b/", 1⟩⟩,
  ⟨4, .teardown, none, ⟨"a/", 0⟩⟩,
  ⟨5, .test, some "a/2.sql", ⟨"a/", 0⟩⟩]

/-- It has two places and opens three scopes. -/
theorem revisitingPlan_tallies :
    ∃ plan script, compile {} "obs" revisitingPlan = .ok plan ∧
      statementsOf {} "obs" revisitingPlan = .ok script ∧ Tallies revisitingPlan plan script ∧
      savepointsReleased script = [⟨.directory, 1⟩, ⟨.directory, 0⟩] ∧
      (savepointsOpened .directory script).length = 3 ∧
      (PlanSummary.ofSteps revisitingPlan).places = 2 ∧ ¬ NeverReentered revisitingPlan := by
  have hcompile : ∃ plan, compile {} "obs" revisitingPlan = .ok plan := ⟨_, rfl⟩
  obtain ⟨plan, hplan⟩ := hcompile
  obtain ⟨script, hscript, _, htallies⟩ := compile_tallies hplan
  have hopened : ((statementsOf {} "obs" revisitingPlan).toOption.map fun script =>
      (savepointsReleased script, (savepointsOpened .directory script).length)) =
      some ([⟨.directory, 1⟩, ⟨.directory, 0⟩], 3) := by decide +kernel
  rw [hscript] at hopened
  obtain ⟨hreleased, hlength⟩ := Prod.mk.inj (Option.some.inj hopened)
  have hplaces : (PlanSummary.ofSteps revisitingPlan).places = 2 := by decide +kernel
  refine ⟨plan, script, hplan, hscript, htallies, hreleased, hlength, hplaces, ?_⟩
  rw [← htallies.places_eq_iff, hplaces]
  show ¬ (savepointsOpened .directory script).length = 2
  omega

end SuiteScript
