import SuiteScript.Proofs.Concatenation
import SuiteScript.Proofs.StatementForms

/-! # The first steps of a plan

    Nothing that is written for some steps is revised for the sake of later
    ones.  If the first steps of a plan are refused, the plan is refused for
    the same reason.  If the plan is accepted, so are its first steps, and
    all that is compiled for them stands at the beginning of what is
    compiled for the plan, with the same line numbers.  Only the event that
    ends the suite moves (`compile_append_extends`).

    Both scripts start with the same statements, those of the opening and of
    the first steps.  The scripts are compared from the end of these on. -/

namespace SuiteScript

open Sql

/-! ### What stands at the end of a script -/

theorem StatementForm.ne_empty {text : String} (h : StatementForm text) : text ≠ "" := by
  intro hempty
  have hlength := congrArg String.length hempty
  cases h <;> simp at hlength

namespace Wording

variable {w : Wording}

/-- A line break joins what is written for two schedules. -/
theorem text_append_of_writes {xs ys : List Action} (hxs : ∃ a ∈ xs, w.writes a = true)
    (hys : ∃ a ∈ ys, w.writes a = true) : w.text (xs ++ ys) = w.text xs ++ "\n" ++ w.text ys :=
  text_append (flatMap_lines_ne_nil_of_writes hxs) (flatMap_lines_ne_nil_of_writes hys)

/-- Later actions have later entries. -/
theorem entriesFrom_prefix (position line : Nat) (xs ys : List Action) :
    w.entriesFrom position line xs <+: w.entriesFrom position line (xs ++ ys) := by
  rw [entriesFrom_append]
  exact List.prefix_append ..

/-- The end of the suite has no entry. -/
theorem sourceMap_append_ending (actions : List Action) (steps : List Step) :
    w.sourceMap (actions ++ Schedule.ending steps) = w.sourceMap actions := by
  have hending : ∀ position line, w.entriesFrom position line (Schedule.ending steps) = [] := by
    intro position line
    rfl
  unfold sourceMap
  rw [entriesFrom_append, hending, List.append_nil]

theorem statementText_eq_text (a : Action) : w.statementText a = w.text [a] := by
  unfold statementText text
  rw [List.flatMap_singleton]

/-- The text of something that is written is not empty. -/
theorem text_ne_empty {config : Config} {callback : String}
    (htag : isValidTag config.blockTag = true) {actions : List Action}
    (h : ∃ a ∈ actions, (ofCallback config callback).writes a = true) :
    (ofCallback config callback).text actions ≠ "" := by
  obtain ⟨a, ha, hwrites⟩ := h
  have hmem : a ∈ (ofCallback config callback).statements actions :=
    List.mem_filter.mpr ⟨ha, hwrites⟩
  obtain ⟨first, others, hcons⟩ := List.exists_cons_of_ne_nil (List.ne_nil_of_mem hmem)
  have hfirst : first ∈ (ofCallback config callback).statements actions := by simp [hcons]
  have hform := statementText_form htag (writes_of_mem_statements hfirst)
  rw [← text_statements, text_eq_intercalate_statementText fun _ => writes_of_mem_statements,
    hcons, List.map_cons]
  -- the text is that of the first statement or goes on behind it
  cases others.map (ofCallback config callback).statementText with
  | nil =>
    rw [String.intercalate_singleton]
    exact hform.ne_empty
  | cons next texts =>
    intro hempty
    have hlength := congrArg String.length hempty
    rw [String.intercalate_cons_cons] at hlength
    simp at hlength

end Wording

/-! ### Plans and their first steps -/

variable {config : Config} {callback : String} {steps xs ys : List Step} {plan : CompiledPlan}

/-- A plan with steps is accepted if its tag is valid and its steps can be
    run; what they do is written between the opening and the ending. -/
theorem compile_eq_ok_iff_run (hne : steps ≠ []) :
    compile config callback steps = .ok plan ↔
      isValidTag config.blockTag = true ∧ ∃ run scopes,
        Schedule.ofStepsFrom none {} steps = .ok (run, scopes) ∧
        plan.sql = (Wording.ofCallback config callback).text
          (Schedule.opening ++ run ++ Schedule.ending steps) ∧
        plan.sourceMap =
          (Wording.ofCallback config callback).sourceMap (Schedule.opening ++ run) := by
  have hmap := fun run =>
    (Wording.ofCallback config callback).sourceMap_append_ending (Schedule.opening ++ run) steps
  unfold compile Schedule.ofSteps
  rw [if_neg (by simpa using hne)]
  by_cases htag : isValidTag config.blockTag = true
  · rw [if_neg (by simpa using htag), and_iff_right htag]
    cases Schedule.ofStepsFrom none {} steps with
    | error e => simp [bind, Except.bind]
    | ok run =>
      obtain ⟨actions, scopes⟩ := run
      cases plan with
      | mk sql sourceMap =>
        simp only [← hmap, bind, Except.bind, pure, Except.pure, Except.ok.injEq,
          CompiledPlan.mk.injEq, Prod.mk.injEq]
        constructor
        · intro h
          exact ⟨actions, scopes, ⟨rfl, rfl⟩, h.1.symm, h.2.symm⟩
        · intro h
          obtain ⟨_, _, ⟨rfl, rfl⟩, hsql, hentries⟩ := h
          exact ⟨hsql.symm, hentries.symm⟩
  · rw [if_pos (by simpa using htag)]
    simp [htag]

/-- If the tag is not valid, or the first steps cannot be run, the other steps
    are not looked at. -/
theorem compile_append_eq_error {e : PlanError} (hxs : xs ≠ [])
    (h : compile config callback xs = .error e) :
    compile config callback (xs ++ ys) = .error e := by
  have hne : xs ++ ys ≠ [] := List.append_ne_nil_of_left_ne_nil hxs ys
  unfold compile Schedule.ofSteps at h ⊢
  rw [if_neg (by simpa using hxs)] at h
  rw [if_neg (by simpa using hne)]
  by_cases htag : isValidTag config.blockTag = true
  · rw [if_neg (by simpa using htag)] at h ⊢
    rw [Schedule.ofStepsFrom_append]
    cases hfirst : Schedule.ofStepsFrom none {} xs with
    | ok run =>
      rw [hfirst] at h
      cases h
    | error e' =>
      rw [hfirst] at h
      exact h
  · rw [if_pos (by simpa using htag)] at h ⊢
    exact h

/-- Something is written for any steps. -/
theorem Schedule.exists_writes (w : Wording) {previous : Option UInt32} {s s' : ScopeStack}
    {run : List Action} (hne : steps ≠ []) (h : ofStepsFrom previous s steps = .ok (run, s')) :
    ∃ a ∈ run, w.writes a = true := by
  obtain ⟨step, rest, rfl⟩ := List.exists_cons_of_ne_nil hne
  obtain ⟨_, own, after, later, hstep, _, rfl⟩ := ofStepsFrom_cons_eq_ok.mp h
  obtain ⟨a, ha, hwrites⟩ := Step.exists_writes w hstep
  exact ⟨a, List.mem_append_left later ha, hwrites⟩

/-- A plan is refused as soon as its first steps are, and for the same
    reason.  If it is accepted, its first steps are accepted too, and their
    entries come first among its entries.  Their script without its last
    statement, the end of the suite, is a proper beginning of its script; if
    there is no observer, there is no such statement, and all of their script
    is. -/
theorem compile_append_extends (config : Config) (callback : String) (xs ys : List Step)
    (hxs : xs ≠ []) :
    (∀ e, compile config callback xs = .error e →
      compile config callback (xs ++ ys) = .error e) ∧
    ∀ plan, compile config callback (xs ++ ys) = .ok plan →
      ∃ planX, compile config callback xs = .ok planX ∧
        planX.sourceMap.entries <+: plan.sourceMap.entries ∧
        (callback = "" → ys ≠ [] → ∃ rest, rest ≠ "" ∧ plan.sql = planX.sql ++ "\n" ++ rest) ∧
        (callback ≠ "" → ∃ front rest,
          planX.sql = front ++ "\n" ++
            (Wording.ofCallback config callback).statementText
              (.notify (.suite .suiteEnd (Schedule.lastOrdinal xs))) ∧
          rest ≠ "" ∧ plan.sql = front ++ "\n" ++ rest) := by
  refine ⟨fun e => compile_append_eq_error hxs, ?_⟩
  intro plan hplan
  have hne : xs ++ ys ≠ [] := List.append_ne_nil_of_left_ne_nil hxs ys
  obtain ⟨htag, run, final, hrun, hsql, hmap⟩ := (compile_eq_ok_iff_run hne).mp hplan
  obtain ⟨first, scopes, others, hfirst, hothers, rfl⟩ := Schedule.ofStepsFrom_append_eq_ok hrun
  -- both scripts start with `Schedule.opening ++ first`
  have hwritten : ∃ a ∈ Schedule.opening ++ first,
      (Wording.ofCallback config callback).writes a = true := by
    obtain ⟨a, ha, hwrites⟩ := Schedule.exists_writes (.ofCallback config callback) hxs hfirst
    exact ⟨a, List.mem_append_right _ ha, hwrites⟩
  have hrest : Schedule.opening ++ (first ++ others) ++ Schedule.ending (xs ++ ys) =
      Schedule.opening ++ first ++ (others ++ Schedule.ending (xs ++ ys)) := by
    simp only [List.append_assoc]
  rw [hrest] at hsql
  have haccepted : ∃ planX, compile config callback xs = .ok planX ∧
      planX.sql = (Wording.ofCallback config callback).text
        (Schedule.opening ++ first ++ Schedule.ending xs) ∧
      planX.sourceMap = (Wording.ofCallback config callback).sourceMap
        (Schedule.opening ++ first) :=
    ⟨⟨_, _⟩, (compile_eq_ok_iff_run hxs).mpr ⟨htag, first, scopes, hfirst, rfl, rfl⟩, rfl, rfl⟩
  obtain ⟨planX, hplanX, hsqlX, hmapX⟩ := haccepted
  refine ⟨planX, hplanX, ?_, ?_, ?_⟩
  · rw [hmapX, hmap, ← List.append_assoc]
    exact Wording.entriesFrom_prefix ..
  · intro hcallback hys
    subst hcallback
    have hsilent : (Wording.ofCallback config "").text
        (Schedule.opening ++ first ++ Schedule.ending xs) =
        (Wording.ofCallback config "").text (Schedule.opening ++ first) := by
      have hending : (Wording.ofCallback config "").statements (Schedule.ending xs) = [] := rfl
      rw [← Wording.text_statements, Wording.statements_append, hending, List.append_nil,
        Wording.text_statements]
    have hlater : ∃ b ∈ others ++ Schedule.ending (xs ++ ys),
        (Wording.ofCallback config "").writes b = true := by
      obtain ⟨b, hb, hwrites⟩ := Schedule.exists_writes (.ofCallback config "") hys hothers
      exact ⟨b, List.mem_append_left _ hb, hwrites⟩
    refine ⟨_, Wording.text_ne_empty htag hlater, ?_⟩
    rw [hsql, hsqlX, hsilent]
    exact Wording.text_append_of_writes hwritten hlater
  · intro hcallback
    have htold : ∀ steps, ∃ a ∈ Schedule.ending steps,
        (Wording.ofCallback config callback).writes a = true := by
      intro steps
      refine ⟨_, List.mem_cons_self, ?_⟩
      rw [Wording.writes_notify, Wording.observer_ofCallback, if_neg hcallback]
      rfl
    have hlater : ∃ b ∈ others ++ Schedule.ending (xs ++ ys),
        (Wording.ofCallback config callback).writes b = true := by
      obtain ⟨b, hb, hwrites⟩ := htold (xs ++ ys)
      exact ⟨b, List.mem_append_right _ hb, hwrites⟩
    refine ⟨(Wording.ofCallback config callback).text (Schedule.opening ++ first), _, ?_,
      Wording.text_ne_empty htag hlater, ?_⟩
    · rw [hsqlX, Wording.statementText_eq_text]
      exact Wording.text_append_of_writes hwritten (htold xs)
    · rw [hsql]
      exact Wording.text_append_of_writes hwritten hlater

/-- Behind the first two steps of one example, its other steps change nothing
    of what is compiled for these.  The other example is refused at its third
    step, and its fourth makes no difference. -/
theorem nestedPlan_extends :
    nestedPlan.take 2 ≠ [] ∧ overlappingPlan.take 3 ≠ [] ∧
    (∃ planX plan, compile {} "obs" (nestedPlan.take 2) = .ok planX ∧
      compile {} "obs" nestedPlan = .ok plan ∧
      planX.sourceMap.entries <+: plan.sourceMap.entries ∧
      ∃ front rest, planX.sql = front ++ "\n" ++
          (Wording.ofCallback {} "obs").statementText (.notify (.suite .suiteEnd 2)) ∧
        rest ≠ "" ∧ plan.sql = front ++ "\n" ++ rest) ∧
    compile {} "obs" (overlappingPlan.take 3) =
      .error (.unmatchedTeardown 5 ⟨"a/", 0⟩ ⟨"a/b/", 1⟩) ∧
    compile {} "obs" overlappingPlan =
      .error (.unmatchedTeardown 5 ⟨"a/", 0⟩ ⟨"a/b/", 1⟩) := by
  have hne : nestedPlan.take 2 ≠ [] := by decide
  have hne' : overlappingPlan.take 3 ≠ [] := by decide
  have hcompile : ∃ plan, compile {} "obs" (nestedPlan.take 2 ++ nestedPlan.drop 2) = .ok plan :=
    ⟨_, rfl⟩
  have hrefused : compile {} "obs" (overlappingPlan.take 3) =
      .error (.unmatchedTeardown 5 ⟨"a/", 0⟩ ⟨"a/b/", 1⟩) := rfl
  obtain ⟨plan, hplan⟩ := hcompile
  obtain ⟨planX, hplanX, hentries, _, htexts⟩ :=
    (compile_append_extends {} "obs" _ (nestedPlan.drop 2) hne).2 plan hplan
  have hrefused' : compile {} "obs" (overlappingPlan.take 3 ++ overlappingPlan.drop 3) =
      .error (.unmatchedTeardown 5 ⟨"a/", 0⟩ ⟨"a/b/", 1⟩) :=
    (compile_append_extends {} "obs" _ (overlappingPlan.drop 3) hne').1 _ hrefused
  exact ⟨hne, hne', ⟨planX, plan, hplanX, hplan, hentries, htexts (by decide)⟩, hrefused, hrefused'⟩

end SuiteScript
