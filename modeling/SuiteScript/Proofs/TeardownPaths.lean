import SuiteScript.Proofs.Openings
import SuiteScript.Proofs.PhysicalLines

/-! # The script of a teardown

    A teardown executes no script, but its step may name one all the same.
    Neither the compiler nor the counts of a plan look at that name: they
    give the same for the plan in which every teardown has been stripped of
    it (`compile_map_stripped`, `PlanSummary.ofSteps_map_stripped`).

    A listing does look.  It shows the script of any step that names one,
    and the directory only of a step that names none.  So two plans that
    differ in such names alone have the same listing just if each teardown
    shows the same in both (`stray_script_shown_by_listing_only`). -/

namespace SuiteScript

/-! ### Stripping a step -/

namespace Step

/-- The step without a script that it would not execute. -/
def stripped (step : Step) : Step :=
  if step.kind.runsScript then step else { step with scriptPath := none }

theorem stripped_of_runs {step : Step} (h : step.kind.runsScript = true) :
    step.stripped = step := if_pos h

theorem stripped_of_teardown {step : Step} (h : step.kind = .teardown) :
    step.stripped = { step with scriptPath := none } := by
  rw [stripped, h]
  rfl

@[simp] theorem ordinal_stripped (step : Step) : step.stripped.ordinal = step.ordinal := by
  unfold stripped
  split <;> rfl

@[simp] theorem kind_stripped (step : Step) : step.stripped.kind = step.kind := by
  unfold stripped
  split <;> rfl

@[simp] theorem place_stripped (step : Step) : step.stripped.place = step.place := by
  unfold stripped
  split <;> rfl

/-! ### Compiling -/

/-- A step does the same without such a script. -/
theorem actions_stripped (step : Step) (s : ScopeStack) :
    step.stripped.actions s = step.actions s := by
  cases hkind : step.kind with
  | fixture => rw [stripped_of_runs (by rw [hkind]; rfl)]
  | test => rw [stripped_of_runs (by rw [hkind]; rfl)]
  | teardown =>
    -- its events carry no script, whatever the step names
    rw [stripped_of_teardown hkind]
    unfold actions
    rw [hkind]
    rfl

theorem checkOrder_stripped (step : Step) (previous : Option UInt32) :
    step.stripped.checkOrder previous = step.checkOrder previous := by
  unfold checkOrder
  rw [ordinal_stripped]

end Step

namespace Schedule

theorem ofStepsFrom_map_stripped (previous : Option UInt32) (s : ScopeStack) (steps : List Step) :
    ofStepsFrom previous s (steps.map Step.stripped) = ofStepsFrom previous s steps := by
  induction steps generalizing previous s with
  | nil => rfl
  | cons step rest ih =>
    rw [List.map_cons]
    unfold ofStepsFrom
    simp only [Step.checkOrder_stripped, Step.actions_stripped, Step.ordinal_stripped, ih]

theorem lastOrdinal_map_stripped (steps : List Step) :
    lastOrdinal (steps.map Step.stripped) = lastOrdinal steps := by
  unfold lastOrdinal
  rw [List.getLast?_map]
  cases steps.getLast? with
  | none => rfl
  | some step => exact step.ordinal_stripped

theorem ofSteps_map_stripped (steps : List Step) :
    ofSteps (steps.map Step.stripped) = ofSteps steps := by
  unfold ofSteps
  rw [ofStepsFrom_map_stripped, lastOrdinal_map_stripped]

end Schedule

theorem compile_map_stripped (config : Config) (callback : String) (steps : List Step) :
    compile config callback (steps.map Step.stripped) = compile config callback steps := by
  unfold compile
  rw [List.isEmpty_map, Schedule.ofSteps_map_stripped]

/-! ### Counting -/

namespace PlanSummary

theorem count_map_stripped (kind : StepKind) (steps : List Step) :
    count kind (steps.map Step.stripped) = count kind steps := by
  unfold count
  rw [List.countP_map]
  apply List.countP_congr
  intro step _
  simp

theorem usedPlaces_map_stripped (steps : List Step) :
    usedPlaces (steps.map Step.stripped) = usedPlaces steps := by
  unfold usedPlaces
  simp only [List.filter_map, List.map_map, Function.comp_def, Step.kind_stripped,
    Step.place_stripped]

theorem ofSteps_map_stripped (steps : List Step) :
    ofSteps (steps.map Step.stripped) = ofSteps steps := by
  unfold ofSteps
  simp only [count_map_stripped, usedPlaces_map_stripped]

end PlanSummary

/-! ### Listing -/

namespace Listing

/-- What a listing shows of a step, behind its heading. -/
def target (step : Step) : String := step.scriptPath.getD step.place.directory

theorem line_eq_target (step : Step) :
    line step =
      toString step.ordinal.toNat ++ ". " ++ heading step.kind ++ " " ++ target step := rfl

theorem line_eq_line_iff {a b : Step} (h : a.stripped = b.stripped) :
    line a = line b ↔ target a = target b := by
  have hordinal : a.ordinal = b.ordinal := by simpa using congrArg Step.ordinal h
  have hkind : a.kind = b.kind := by simpa using congrArg Step.kind h
  rw [line_eq_target, line_eq_target, hordinal, hkind, String.append_right_inj]

/-- The line of a teardown shows its directory just if the step names nothing
    else. -/
theorem line_teardown_iff {step : Step} (h : step.kind = .teardown) :
    line step = toString step.ordinal.toNat ++ ". Teardown: " ++ step.place.directory ↔
      ∀ path ∈ step.scriptPath, path = step.place.directory := by
  have hheading : ". " ++ heading .teardown ++ " " = ". Teardown: " := by decide
  have hline : line step = toString step.ordinal.toNat ++ ". Teardown: " ++ target step := by
    rw [line_eq_target, h, ← hheading]
    simp only [String.append_assoc]
  rw [hline, String.append_right_inj, target]
  cases step.scriptPath with
  | none => simp
  | some path => simp

/-- What stands behind the lines of the steps depends on the stripped steps
    alone. -/
theorem render_eq_of_stripped {steps steps' : List Step}
    (h : steps.map Step.stripped = steps'.map Step.stripped) :
    ∃ footer, render steps = "\n".intercalate (steps.map line ++ footer) ∧
      render steps' = "\n".intercalate (steps'.map line ++ footer) := by
  have hsummary : PlanSummary.ofSteps steps = PlanSummary.ofSteps steps' := by
    rw [← PlanSummary.ofSteps_map_stripped, h, PlanSummary.ofSteps_map_stripped]
  have hempty : steps.isEmpty = steps'.isEmpty := by
    rw [← List.isEmpty_map (f := Step.stripped), h, List.isEmpty_map]
  refine ⟨(if steps.isEmpty then [] else [""]) ++ [(PlanSummary.ofSteps steps).totalLine], ?_, ?_⟩
  · rw [render, List.append_assoc]
  · rw [render, List.append_assoc, hsummary, hempty]

theorem oneLine_line {step : Step} : OneLine (line step) ↔ OneLine (target step) := by
  have hheading : OneLine (heading step.kind) := by cases step.kind <;> decide
  have hdot : OneLine ". " := by decide
  have hspace : OneLine " " := by decide
  rw [line_eq_target]
  simp only [oneLine_append, oneLine_number, hheading, hdot, hspace, true_and]

end Listing

/-! ### Telling listings apart -/

/-- Texts that break as often, one by one, are determined by the lines that
    they make up together. -/
theorem eq_of_intercalate_eq {xs ys : List String}
    (hbreaks : List.Forall₂ (fun x y => x.toList.count '\n' = y.toList.count '\n') xs ys)
    (h : "\n".intercalate xs = "\n".intercalate ys) : xs = ys := by
  by_cases hne : xs = []
  · subst hne
    cases hbreaks
    rfl
  have hne' : ys ≠ [] := by
    rintro rfl
    cases hbreaks
    exact hne rfl
  have hlines : xs.flatMap linesOf = ys.flatMap linesOf := by
    rw [← linesOf_intercalate hne, h, linesOf_intercalate hne']
  clear h hne hne'
  induction hbreaks with
  | nil => rfl
  | @cons x y xs ys hxy _ ih =>
    rw [List.flatMap_cons, List.flatMap_cons] at hlines
    obtain ⟨hfirst, hrest⟩ := List.append_inj hlines (by rw [length_linesOf, length_linesOf, hxy])
    have hsame : x = y := by rw [← intercalate_linesOf x, hfirst, intercalate_linesOf]
    rw [hsame, ih hrest]

namespace Listing

variable {steps steps' : List Step}

theorem map_line_eq_iff (h : steps.map Step.stripped = steps'.map Step.stripped) :
    steps.map line = steps'.map line ↔ steps.map target = steps'.map target := by
  induction steps generalizing steps' with
  | nil => simp [List.map_eq_nil_iff.mp h.symm]
  | cons a rest ih =>
    cases steps' with
    | nil => cases h
    | cons b rest' =>
      obtain ⟨hab, hrest⟩ := List.cons.inj h
      simp only [List.map_cons, List.cons.injEq, line_eq_line_iff hab, ih hrest]

/-- Steps that are the same when they are stripped have lines that break as
    often, unless a teardown shows a line break. -/
theorem forall₂_count_line (h : steps.map Step.stripped = steps'.map Step.stripped)
    (hsteps : ∀ step ∈ steps, step.kind = .teardown → OneLine (target step))
    (hsteps' : ∀ step ∈ steps', step.kind = .teardown → OneLine (target step)) :
    List.Forall₂ (fun x y : String => x.toList.count '\n' = y.toList.count '\n')
      (steps.map line) (steps'.map line) := by
  induction steps generalizing steps' with
  | nil =>
    rw [List.map_eq_nil_iff.mp h.symm]
    exact .nil
  | cons a rest ih =>
    cases steps' with
    | nil => cases h
    | cons b rest' =>
      obtain ⟨hab, hrest⟩ := List.cons.inj h
      obtain ⟨ha, hothers⟩ := List.forall_mem_cons.mp hsteps
      obtain ⟨hb, hothers'⟩ := List.forall_mem_cons.mp hsteps'
      refine .cons ?_ (ih hrest hothers hothers')
      have hkind : a.kind = b.kind := by simpa using congrArg Step.kind hab
      by_cases hruns : a.kind.runsScript = true
      · -- what executes its script is not stripped
        rw [Step.stripped_of_runs hruns, Step.stripped_of_runs (hkind ▸ hruns)] at hab
        rw [hab]
      · have hteardown : a.kind = .teardown := StepKind.eq_teardown_of_not_runsScript hruns
        rw [List.count_eq_zero.mpr (oneLine_line.mpr (ha hteardown)),
          List.count_eq_zero.mpr (oneLine_line.mpr (hb (hkind ▸ hteardown)))]

end Listing

/-- Two plans that differ at most in scripts that their teardowns name are
    compiled to the same, or refused for the same reason, and they have the
    same counts.  Their listings are the same if each teardown shows the same
    in both, and if none of them shows a line break, only then.  A teardown
    shows its directory just if it names no other script. -/
theorem stray_script_shown_by_listing_only {steps steps' : List Step}
    (h : steps.map Step.stripped = steps'.map Step.stripped) :
    (∀ config callback, compile config callback steps = compile config callback steps') ∧
    PlanSummary.ofSteps steps = PlanSummary.ofSteps steps' ∧
    (steps.map Listing.target = steps'.map Listing.target →
      Listing.render steps = Listing.render steps') ∧
    ((∀ step ∈ steps ++ steps', step.kind = .teardown → OneLine (Listing.target step)) →
      Listing.render steps = Listing.render steps' →
        steps.map Listing.target = steps'.map Listing.target) ∧
    ∀ step ∈ steps, step.kind = .teardown →
      (Listing.line step =
          toString step.ordinal.toNat ++ ". Teardown: " ++ step.place.directory ↔
        ∀ path ∈ step.scriptPath, path = step.place.directory) := by
  obtain ⟨footer, hrender, hrender'⟩ := Listing.render_eq_of_stripped h
  refine ⟨?_, ?_, ?_, ?_, ?_⟩
  · intro config callback
    rw [← compile_map_stripped, h, compile_map_stripped]
  · rw [← PlanSummary.ofSteps_map_stripped, h, PlanSummary.ofSteps_map_stripped]
  · intro htargets
    rw [hrender, hrender', (Listing.map_line_eq_iff h).mpr htargets]
  · intro hteardowns hsame
    obtain ⟨hsteps, hsteps'⟩ := List.forall_mem_append.mp hteardowns
    have hbreaks := List.rel_append (Listing.forall₂_count_line h hsteps hsteps')
      (List.forall₂_refl footer)
    rw [hrender, hrender'] at hsame
    exact (Listing.map_line_eq_iff h).mp
      (List.append_cancel_right (eq_of_intercalate_eq hbreaks hsame))
  · intro step _ hteardown
    exact Listing.line_teardown_iff hteardown

/-- A fixture and a teardown of its place, which names a script or none. -/
def strayPlan (path : Option String) : List Step := [
  ⟨1, .fixture, some "a/f.sql", ⟨"a/", 0⟩⟩,
  ⟨2, .teardown, path, ⟨"a/", 0⟩⟩]

/-- A script that the teardown names takes the place of the directory in the
    listing. -/
theorem strayPlan_shows_script :
    (strayPlan none).map Step.stripped = (strayPlan (some "a/t.sql")).map Step.stripped ∧
      Listing.render (strayPlan none) =
        "1. Fixture:  a/f.sql\n2. Teardown: a/\n\nTotal: 0 tests (with 1 fixtures, 1 teardowns)" ∧
      Listing.render (strayPlan (some "a/t.sql")) =
        "1. Fixture:  a/f.sql\n2. Teardown: a/t.sql\n\n" ++
          "Total: 0 tests (with 1 fixtures, 1 teardowns)" ∧
      Listing.render (strayPlan none) ≠ Listing.render (strayPlan (some "a/t.sql")) := by
  decide +kernel

/-- Nothing else comes of it, and a teardown may name its own directory. -/
theorem strayPlan_compiles_alike :
    (strayPlan none).map Step.stripped = (strayPlan (some "a/t.sql")).map Step.stripped ∧
      (strayPlan none).map Step.stripped = (strayPlan (some "a/")).map Step.stripped ∧
      (∀ config callback, compile config callback (strayPlan none) =
        compile config callback (strayPlan (some "a/t.sql"))) ∧
      Listing.render (strayPlan none) ≠ Listing.render (strayPlan (some "a/t.sql")) ∧
      Listing.render (strayPlan none) = Listing.render (strayPlan (some "a/")) := by
  have hscript : (strayPlan none).map Step.stripped =
    (strayPlan (some "a/t.sql")).map Step.stripped := rfl
  have hdirectory : (strayPlan none).map Step.stripped =
    (strayPlan (some "a/")).map Step.stripped := rfl
  obtain ⟨hcompile, -, -, honly, -⟩ := stray_script_shown_by_listing_only hscript
  obtain ⟨-, -, hlisting, -⟩ := stray_script_shown_by_listing_only hdirectory
  refine ⟨hscript, hdirectory, hcompile, ?_, hlisting rfl⟩
  intro hsame
  have htargets := honly (by decide) hsame
  exact absurd htargets (by decide)

end SuiteScript
