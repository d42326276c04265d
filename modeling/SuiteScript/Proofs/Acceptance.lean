import Mathlib.Data.List.Basic
import Mathlib.Data.List.Induction
import SuiteScript.Proofs.Nesting

/-! # Which plans are accepted

    A plan is well formed if its ordinals increase, its fixtures and tests
    have scripts, and its teardowns close places in the reverse order of
    their opening.  These are conditions on the list of steps alone, and so
    is what is wrong with a step, given the steps before it (`StepFault`).

    The compiler looks for faults while it writes.  All the same it accepts
    just the well-formed plans, and for any other plan it reports the fault
    of the first step that has one (`compile_accepts_iff_wellFormed`): what
    it knows of the steps behind it are their last ordinal and the places
    that they leave open. -/

namespace SuiteScript

/-! ### Well-formed plans -/

/-- The places that are open after a step, if `opened` are before it.  A
    fixture or test opens its place unless it is open, and a teardown closes
    its place. -/
def Step.openPlaces (opened : List Place) (step : Step) : List Place :=
  if step.kind.runsScript then
    if step.place ∈ opened then opened else step.place :: opened
  else opened.erase step.place

/-- The places that steps open and do not close, the last opened first. -/
def openPlaces (steps : List Step) : List Place := steps.foldl Step.openPlaces []

/-- The conditions on an accepted plan. -/
structure WellFormed (steps : List Step) : Prop where
  /-- Ordinals increase strictly. -/
  increasing : steps.Pairwise fun a b => a.ordinal < b.ordinal
  /-- Fixtures and tests have scripts. -/
  scripts : ∀ step ∈ steps, step.kind.runsScript = true → step.scriptPath ≠ none
  /-- A teardown closes the place that was opened last and is still open. -/
  teardowns : ∀ done step rest, steps = done ++ step :: rest → step.kind = .teardown →
    (openPlaces done).head? = some step.place

/-- What is wrong with a step, if the step before it has the ordinal
    `previous` and the places `opened` are open.  A wrong ordinal hides any
    other fault. -/
inductive StepFault (previous : Option UInt32) (opened : List Place) (step : Step) :
    PlanError → Prop
  /-- The ordinal is not above that of the step before. -/
  | outOfOrder {p : UInt32} (before : previous = some p) (notAbove : ¬ p < step.ordinal) :
      StepFault previous opened step (.ordinalOutOfOrder step.ordinal p)
  /-- A fixture or test has no script. -/
  | missingPath (inOrder : ∀ p ∈ previous, p < step.ordinal)
      (runs : step.kind.runsScript = true) (missing : step.scriptPath = none) :
      StepFault previous opened step (.missingScriptPath step.ordinal step.kind)
  /-- A teardown comes while nothing is open. -/
  | nothingOpen (inOrder : ∀ p ∈ previous, p < step.ordinal) (teardown : step.kind = .teardown)
      (nothing : opened = []) :
      StepFault previous opened step (.teardownWithoutScope step.ordinal step.place)
  /-- A teardown names another place than the one opened last. -/
  | otherOpen {innermost : Place} (inOrder : ∀ p ∈ previous, p < step.ordinal)
      (teardown : step.kind = .teardown) (last : opened.head? = some innermost)
      (other : innermost ≠ step.place) :
      StepFault previous opened step (.unmatchedTeardown step.ordinal step.place innermost)

/-- The fault of the first step that has one: the steps before it would be a
    plan of their own. -/
def FirstFault (steps : List Step) (e : PlanError) : Prop :=
  ∃ done step rest, steps = done ++ step :: rest ∧ WellFormed done ∧
    StepFault (done.getLast?.map Step.ordinal) (openPlaces done) step e

/-! ### One step more -/

theorem openPlaces_concat (steps : List Step) (step : Step) :
    openPlaces (steps ++ [step]) = step.openPlaces (openPlaces steps) := by
  simp [openPlaces]

theorem StepFault.forall_not_iff {previous : Option UInt32} {opened : List Place} {step : Step} :
    (∀ e, ¬ StepFault previous opened step e) ↔
      (∀ p ∈ previous, p < step.ordinal) ∧
      (step.kind.runsScript = true → step.scriptPath ≠ none) ∧
      (step.kind = .teardown → opened.head? = some step.place) := by
  constructor
  · intro h
    have horder : ∀ p ∈ previous, p < step.ordinal := by
      intro p hp
      by_contra hle
      exact h _ (.outOfOrder hp hle)
    refine ⟨horder, ?_, ?_⟩
    · intro hruns hnone
      exact h _ (.missingPath horder hruns hnone)
    · intro hkind
      cases hopen : opened with
      | nil => exact absurd (StepFault.nothingOpen horder hkind hopen) (h _)
      | cons innermost outer =>
        by_contra hne
        have hother : innermost ≠ step.place := by
          intro heq
          exact hne (congrArg some heq)
        exact h _ (.otherOpen horder hkind (congrArg List.head? hopen) hother)
  · intro h e hfault
    obtain ⟨horder, hscript, hteardown⟩ := h
    cases hfault with
    | outOfOrder before notAbove => exact notAbove (horder _ before)
    | missingPath _ runs missing => exact hscript runs missing
    | nothingOpen _ teardown nothing =>
      have hhead := hteardown teardown
      rw [nothing] at hhead
      cases hhead
    | otherOpen _ teardown last other =>
      have hhead := hteardown teardown
      rw [last] at hhead
      exact other (Option.some.inj hhead)

/-- A list with one more member at its end is split behind that end or
    inside of what was there before. -/
theorem concat_eq_append_cons {α : Type} {xs done rest : List α} {x a : α}
    (h : xs ++ [x] = done ++ a :: rest) :
    (done = xs ∧ a = x ∧ rest = []) ∨ ∃ rest', rest = rest' ++ [x] ∧ xs = done ++ a :: rest' := by
  rcases rest.eq_nil_or_concat' with rfl | ⟨rest', y, rfl⟩
  · obtain ⟨hdone, ha⟩ := List.append_inj' h rfl
    exact .inl ⟨hdone.symm, (List.cons.inj ha).1.symm, rfl⟩
  · have hsplit : xs ++ [x] = (done ++ a :: rest') ++ [y] := by simpa using h
    obtain ⟨hxs, hx⟩ := List.append_inj' hsplit rfl
    exact .inr ⟨rest', by rw [(List.cons.inj hx).1], hxs⟩

/-- In increasing steps all ordinals are at most the last one. -/
theorem forall_ordinal_lt_iff {steps : List Step}
    (h : steps.Pairwise fun a b => a.ordinal < b.ordinal) (bound : UInt32) :
    (∀ step ∈ steps, step.ordinal < bound) ↔
      ∀ p ∈ steps.getLast?.map Step.ordinal, p < bound := by
  rcases steps.eq_nil_or_concat' with rfl | ⟨front, last, rfl⟩
  · simp
  · rw [List.pairwise_append] at h
    have hlast : ∀ step ∈ front, step.ordinal < last.ordinal := by
      intro step hstep
      exact h.2.2 step hstep last (by simp)
    simp only [List.mem_append, List.mem_singleton, or_imp, forall_and, forall_eq,
      List.getLast?_concat, Option.map_some, Option.mem_some_iff, forall_eq', and_iff_right_iff_imp]
    intro hbound step hstep
    exact UInt32.lt_trans (hlast step hstep) hbound

/-- A step may follow a well-formed plan just if it has no fault there. -/
theorem wellFormed_concat_iff {steps : List Step} {step : Step} :
    WellFormed (steps ++ [step]) ↔
      WellFormed steps ∧
        ∀ e, ¬ StepFault (steps.getLast?.map Step.ordinal) (openPlaces steps) step e := by
  rw [StepFault.forall_not_iff]
  constructor
  · intro h
    obtain ⟨hfront, _, hlast⟩ := List.pairwise_append.mp h.increasing
    have hlast' : ∀ s ∈ steps, s.ordinal < step.ordinal := by
      intro s hs
      exact hlast s hs step (by simp)
    refine ⟨⟨hfront, ?_, ?_⟩, (forall_ordinal_lt_iff hfront _).mp hlast', ?_, ?_⟩
    · intro s hs
      exact h.scripts s (List.mem_append_left _ hs)
    · intro done s rest hsteps
      exact h.teardowns done s (rest ++ [step]) (by simp [hsteps])
    · exact h.scripts step (by simp)
    · exact h.teardowns steps step [] rfl
  · intro h
    obtain ⟨hsteps, horder, hscript, hteardown⟩ := h
    refine ⟨?_, ?_, ?_⟩
    · rw [List.pairwise_append]
      refine ⟨hsteps.increasing, List.pairwise_singleton _ _, ?_⟩
      intro s hs t ht
      rw [List.mem_singleton.mp ht]
      exact (forall_ordinal_lt_iff hsteps.increasing _).mpr horder s hs
    · intro s hs
      rcases List.mem_append.mp hs with hs | hs
      · exact hsteps.scripts s hs
      · rw [List.mem_singleton.mp hs]
        exact hscript
    · intro done s rest hsplit
      rcases concat_eq_append_cons hsplit with ⟨rfl, rfl, _⟩ | ⟨rest', _, hsplit'⟩
      · exact hteardown
      · exact hsteps.teardowns done s rest' hsplit'

theorem wellFormed_nil : WellFormed [] := by
  refine ⟨List.Pairwise.nil, ?_, ?_⟩
  · intro step hstep
    cases hstep
  · intro done step rest h
    simp at h

/-- The first fault is among the steps before the last, or it is that of the
    last step. -/
theorem firstFault_concat_iff {steps : List Step} {step : Step} {e : PlanError} :
    FirstFault (steps ++ [step]) e ↔
      FirstFault steps e ∨ (WellFormed steps ∧
        StepFault (steps.getLast?.map Step.ordinal) (openPlaces steps) step e) := by
  constructor
  · intro h
    obtain ⟨done, s, rest, hsplit, hdone, hfault⟩ := h
    rcases concat_eq_append_cons hsplit with ⟨rfl, rfl, _⟩ | ⟨rest', _, hsplit'⟩
    · exact .inr ⟨hdone, hfault⟩
    · exact .inl ⟨done, s, rest', hsplit', hdone, hfault⟩
  · intro h
    rcases h with ⟨done, s, rest, rfl, hdone, hfault⟩ | ⟨hsteps, hfault⟩
    · exact ⟨done, s, rest ++ [step], by simp, hdone, hfault⟩
    · exact ⟨steps, step, [], rfl, hsteps, hfault⟩

/-! ### What the compiler does with a step -/

/-- The places of the open scopes, the innermost first. -/
def ScopeStack.places (s : ScopeStack) : List Place := s.scopes.map (·.place)

theorem ScopeStack.find?_eq_none_iff {s : ScopeStack} {place : Place} :
    s.find? place = none ↔ place ∉ s.places := by
  simp [find?, places]

theorem ScopeStack.places_enter (s : ScopeStack) (place : Place) :
    (s.enter place).2.places = if place ∈ s.places then s.places else place :: s.places := by
  rcases s.find?_eq_none_or_some place with ⟨hnone, henter⟩ | ⟨scope, hsome, henter⟩
  · rw [henter, if_neg (find?_eq_none_iff.mp hnone)]
    rfl
  · have hmem : place ∈ s.places := by
      by_contra hmem
      rw [find?_eq_none_iff.mpr hmem] at hsome
      cases hsome
    rw [henter, if_pos hmem]

namespace Step

variable {step : Step} {s s' : ScopeStack} {actions : List Action}

/-- A step leaves the places open that it should. -/
theorem places_actions (h : step.actions s = .ok (actions, s')) :
    s'.places = step.openPlaces s.places := by
  have henter := s.places_enter step.place
  unfold openPlaces
  rcases actions_cases h with ⟨path, hkind, _, h⟩ | ⟨path, hkind, _, h⟩ |
    ⟨scope, outer, hkind, hscopes, hplace, _, rfl⟩
  · have hafter : s' = (s.enter step.place).2 := congrArg Prod.snd h
    rw [if_pos (by rw [hkind]; rfl), hafter, henter]
  · -- the number that a test takes for itself opens no place
    have hafter : s'.places = (s.enter step.place).2.places :=
      congrArg (ScopeStack.places ·.2) h
    rw [if_pos (by rw [hkind]; rfl), hafter, henter]
  · have hplaces : s.places = scope.place :: outer.map (·.place) := by
      simp [ScopeStack.places, hscopes]
    rw [if_neg (by rw [hkind]; decide), hplaces, hplace, List.erase_cons_head]
    rfl

theorem checkOrder_eq_ok_iff {previous : Option UInt32} :
    step.checkOrder previous = .ok () ↔ ∀ p ∈ previous, p < step.ordinal := by
  cases previous with
  | none => simp [checkOrder]
  | some p =>
    by_cases h : step.ordinal ≤ p
    · simp [checkOrder, h]
    · simp [checkOrder, h, UInt32.not_le.mp h]

theorem checkOrder_eq_error_iff {previous : Option UInt32} {e : PlanError} :
    step.checkOrder previous = .error e ↔
      ∃ p, previous = some p ∧ ¬ p < step.ordinal ∧ e = .ordinalOutOfOrder step.ordinal p := by
  cases previous with
  | none => simp [checkOrder]
  | some p =>
    by_cases h : step.ordinal ≤ p
    · simp [checkOrder, h, @eq_comm _ e]
    · simp [checkOrder, h]

/-- The faults of a step that the compiler finds when it is to act on it. -/
theorem actions_eq_error_iff {e : PlanError} :
    step.actions s = .error e ↔
      (step.kind.runsScript = true ∧ step.scriptPath = none ∧
        e = .missingScriptPath step.ordinal step.kind) ∨
      (step.kind = .teardown ∧ s.places = [] ∧
        e = .teardownWithoutScope step.ordinal step.place) ∨
      (step.kind = .teardown ∧ ∃ innermost, s.places.head? = some innermost ∧
        innermost ≠ step.place ∧
        e = .unmatchedTeardown step.ordinal step.place innermost) := by
  unfold Step.actions
  cases hkind : step.kind with
  | fixture =>
    cases hpath : step.scriptPath with
    | none => simp [requirePath, hpath, hkind, StepKind.runsScript, bind, Except.bind,
        @eq_comm _ e]
    | some path => simp [requirePath, hpath, bind, Except.bind, pure, Except.pure]
  | test =>
    cases hpath : step.scriptPath with
    | none => simp [requirePath, hpath, hkind, StepKind.runsScript, bind, Except.bind,
        @eq_comm _ e]
    | some path => simp [requirePath, hpath, bind, Except.bind, pure, Except.pure]
  | teardown =>
    cases hscopes : s.scopes with
    | nil =>
      simp [ScopeStack.exit, ScopeStack.places, hscopes, StepKind.runsScript, bind, Except.bind,
        @eq_comm _ e]
    | cons scope outer =>
      by_cases hplace : scope.place = step.place
      · simp [ScopeStack.exit, ScopeStack.places, hscopes, hplace, StepKind.runsScript, bind,
          Except.bind, pure, Except.pure]
      · simp [ScopeStack.exit, ScopeStack.places, hscopes, hplace, StepKind.runsScript, bind,
          Except.bind, @eq_comm _ e]

end Step

/-- What stops the compiler at a step is what is wrong with the step. -/
theorem StepFault.iff_refused {previous : Option UInt32} {s : ScopeStack} {step : Step}
    {e : PlanError} :
    StepFault previous s.places step e ↔
      step.checkOrder previous = .error e ∨
      (step.checkOrder previous = .ok () ∧ step.actions s = .error e) := by
  rw [Step.checkOrder_eq_error_iff, Step.checkOrder_eq_ok_iff, Step.actions_eq_error_iff]
  constructor
  · intro h
    cases h with
    | outOfOrder before notAbove => exact .inl ⟨_, before, notAbove, rfl⟩
    | missingPath inOrder runs missing => exact .inr ⟨inOrder, .inl ⟨runs, missing, rfl⟩⟩
    | nothingOpen inOrder teardown nothing =>
      exact .inr ⟨inOrder, .inr (.inl ⟨teardown, nothing, rfl⟩)⟩
    | otherOpen inOrder teardown last other =>
      exact .inr ⟨inOrder, .inr (.inr ⟨teardown, _, last, other, rfl⟩)⟩
  · intro h
    rcases h with ⟨p, hp, hle, rfl⟩ | ⟨horder, h⟩
    · exact .outOfOrder hp hle
    · rcases h with ⟨hruns, hpath, rfl⟩ | ⟨hkind, hopen, rfl⟩ | ⟨hkind, _, hlast, hne, rfl⟩
      · exact .missingPath horder hruns hpath
      · exact .nothingOpen horder hkind hopen
      · exact .otherOpen horder hkind hlast hne

/-! ### Runs of steps -/

namespace Schedule

variable {previous : Option UInt32} {s s' : ScopeStack} {steps others : List Step}
  {actions : List Action} {e : PlanError}

/-- Of what was run before, a run of steps needs the last ordinal and the open
    scopes. -/
theorem ofStepsFrom_append :
    ofStepsFrom previous s (steps ++ others) = (do
      let (first, after) ← ofStepsFrom previous s steps
      let (more, final) ← ofStepsFrom ((steps.getLast?.map Step.ordinal).or previous) after others
      return (first ++ more, final)) := by
  induction steps generalizing previous s with
  | nil =>
    simp only [List.nil_append, List.getLast?_nil, Option.map_none, Option.none_or, ofStepsFrom,
      bind, Except.bind, pure, Except.pure]
    cases ofStepsFrom previous s others <;> rfl
  | cons step steps ih =>
    have hlast : ((step :: steps).getLast?.map Step.ordinal).or previous =
        (steps.getLast?.map Step.ordinal).or (some step.ordinal) := by
      cases h : steps.getLast? <;> simp [List.getLast?_cons, h]
    rw [List.cons_append, ofStepsFrom, ofStepsFrom, hlast]
    simp only [bind, Except.bind, pure, Except.pure] at ih ⊢
    cases step.checkOrder previous with
    | error e => rfl
    | ok u =>
      cases step.actions s with
      | error e => rfl
      | ok run =>
        simp only [ih]
        cases ofStepsFrom (some step.ordinal) run.2 steps with
        | error e => rfl
        | ok more =>
          simp only
          cases ofStepsFrom ((steps.getLast?.map Step.ordinal).or (some step.ordinal)) more.2
            others with
          | error e => rfl
          | ok last => simp only [List.append_assoc]

/-- A run leaves the places open that its steps should. -/
theorem places_ofStepsFrom (h : ofStepsFrom previous s steps = .ok (actions, s')) :
    s'.places = steps.foldl Step.openPlaces s.places := by
  induction steps generalizing previous s actions with
  | nil => cases h; rfl
  | cons step rest ih =>
    obtain ⟨_, first, after, others, hstep, hrest, _⟩ := ofStepsFrom_cons_eq_ok.mp h
    rw [List.foldl_cons, ← Step.places_actions hstep, ih hrest]

theorem ofStepsFrom_singleton_eq_error_iff {step : Step} :
    ofStepsFrom previous s [step] = .error e ↔ StepFault previous s.places step e := by
  rw [StepFault.iff_refused, ofStepsFrom]
  cases step.checkOrder previous with
  | error e' => simp [bind, Except.bind]
  | ok u =>
    cases step.actions s with
    | error e' => simp [bind, Except.bind]
    | ok run => simp [ofStepsFrom, bind, Except.bind, pure, Except.pure]

/-- A run of one step more fails where it did before, or at that step. -/
theorem ofStepsFrom_concat_eq_error_iff {step : Step} :
    ofStepsFrom none {} (steps ++ [step]) = .error e ↔
      ofStepsFrom none {} steps = .error e ∨
        ((∃ run, ofStepsFrom none {} steps = .ok run) ∧
          StepFault (steps.getLast?.map Step.ordinal) (openPlaces steps) step e) := by
  rw [ofStepsFrom_append]
  -- only a run that succeeds gets to the last step, with the places that it should
  cases hrun : ofStepsFrom none {} steps with
  | error e' => simp [bind, Except.bind]
  | ok run =>
    obtain ⟨actions, after⟩ := run
    have hplaces : after.places = openPlaces steps := places_ofStepsFrom hrun
    rw [← hplaces, ← ofStepsFrom_singleton_eq_error_iff, Option.or_none]
    simp only [bind, Except.bind, pure, Except.pure]
    cases ofStepsFrom (steps.getLast?.map Step.ordinal) after [step] <;> simp

/-- From the beginning, the well-formed runs succeed, and any other fails
    with its first fault. -/
theorem ofStepsFrom_start_outcome (steps : List Step) :
    ((∃ run, ofStepsFrom none {} steps = .ok run) ↔ WellFormed steps) ∧
      ∀ e, ofStepsFrom none {} steps = .error e ↔ FirstFault steps e := by
  induction steps using List.reverseRec with
  | nil =>
    refine ⟨iff_of_true ⟨_, rfl⟩ wellFormed_nil, ?_⟩
    intro e
    simp [ofStepsFrom, FirstFault]
  | append_singleton steps step ih =>
    obtain ⟨haccepted, hrefused⟩ := ih
    have herror : ∀ e, ofStepsFrom none {} (steps ++ [step]) = .error e ↔
        FirstFault (steps ++ [step]) e := by
      intro e
      rw [ofStepsFrom_concat_eq_error_iff, firstFault_concat_iff, hrefused, haccepted]
    refine ⟨?_, herror⟩
    -- what does not fail succeeds
    have hok : (∃ run, ofStepsFrom none {} (steps ++ [step]) = .ok run) ↔
        ∀ e, ¬ ofStepsFrom none {} (steps ++ [step]) = .error e := by
      cases ofStepsFrom none {} (steps ++ [step]) <;> simp
    rw [hok, wellFormed_concat_iff, ← haccepted]
    simp only [ofStepsFrom_concat_eq_error_iff, not_or, not_and]
    cases ofStepsFrom none {} steps <;> simp

end Schedule

/-! ### Compiling -/

namespace Sql

/-- Is `c` a letter or an underscore?  Letters are those of ASCII. -/
def IsTagLetter (c : Char) : Prop := ('A' ≤ c ∧ c ≤ 'Z') ∨ ('a' ≤ c ∧ c ≤ 'z') ∨ c = '_'

/-- May `tag` be a block tag?  It may if it is empty, or a letter or an
    underscore, followed by letters, underscores and digits. -/
def IsBlockTag (tag : String) : Prop :=
  tag = "" ∨ ∃ first rest, tag.toList = first :: rest ∧ IsTagLetter first ∧
    ∀ c ∈ rest, IsTagLetter c ∨ ('0' ≤ c ∧ c ≤ '9')

theorem isWordStart_iff {c : Char} : isWordStart c = true ↔ IsTagLetter c := by
  have hupper : c.isUpper = true ↔ 'A' ≤ c ∧ c ≤ 'Z' := decide_eq_true_iff
  have hlower : c.isLower = true ↔ 'a' ≤ c ∧ c ≤ 'z' := by
    show (decide ('a' ≤ c) && decide (c ≤ 'z')) = true ↔ _
    rw [Bool.and_eq_true, decide_eq_true_iff, decide_eq_true_iff]
  rw [isWordStart_eq, Bool.or_eq_true, Bool.or_eq_true, hupper, hlower, decide_eq_true_iff,
    or_assoc]
  rfl

theorem isWordChar_iff {c : Char} :
    isWordChar c = true ↔ IsTagLetter c ∨ ('0' ≤ c ∧ c ≤ '9') := by
  have hdigit : c.isDigit = true ↔ '0' ≤ c ∧ c ≤ '9' := by
    simp [Char.isDigit, Char.le_def]
  rw [← isWordStart_iff, ← hdigit, isWordChar_eq, isWordStart_eq]
  cases c.isDigit <;> simp

theorem isValidTag_iff {tag : String} : isValidTag tag = true ↔ IsBlockTag tag := by
  unfold isValidTag IsBlockTag
  cases htag : tag.toList with
  | nil => simp [String.toList_eq_nil_iff.mp htag]
  | cons first rest =>
    have hne : tag ≠ "" := by
      intro h
      simp [h] at htag
    simp [isWord, hne, isWordStart_iff, isWordChar_iff]

end Sql

/-- From steps on, compiling a plan is running its steps. -/
theorem compile_eq_map_ofStepsFrom {config : Config} (callback : String) {steps : List Step}
    (hne : steps ≠ []) (htag : Sql.isValidTag config.blockTag = true) :
    ∃ write : List Action × ScopeStack → CompiledPlan,
      compile config callback steps = (Schedule.ofStepsFrom none {} steps).map write := by
  refine ⟨fun run =>
    ⟨(Wording.ofCallback config callback).text
        (Schedule.opening ++ run.1 ++ Schedule.ending steps),
      (Wording.ofCallback config callback).sourceMap
        (Schedule.opening ++ run.1 ++ Schedule.ending steps)⟩, ?_⟩
  unfold compile Schedule.ofSteps
  rw [if_neg (by simpa using hne), if_neg (by simpa using htag)]
  cases Schedule.ofStepsFrom none {} steps with
  | error e => rfl
  | ok run => rfl

/-- A plan without steps is an empty script.  For any other plan the block
    tag is looked at first; if it is none, that is the only fault reported.
    Otherwise the plan is accepted just if it is well formed, and refused
    with the fault of its first step that has one. -/
theorem compile_accepts_iff_wellFormed (config : Config) (callback : String) (steps : List Step) :
    (steps = [] → compile config callback steps = .ok ⟨"", {}⟩) ∧
    (steps ≠ [] → ¬ Sql.IsBlockTag config.blockTag →
      compile config callback steps = .error (.invalidBlockTag config.blockTag)) ∧
    (steps ≠ [] → Sql.IsBlockTag config.blockTag →
      ((∃ plan, compile config callback steps = .ok plan) ↔ WellFormed steps) ∧
      ∀ e, compile config callback steps = .error e ↔ FirstFault steps e) := by
  refine ⟨?_, ?_, ?_⟩
  · intro hnil
    rw [hnil]
    rfl
  · intro hne htag
    rw [← Sql.isValidTag_iff] at htag
    unfold compile
    rw [if_neg (by simpa using hne), if_pos (by simpa using htag)]
  · intro hne htag
    obtain ⟨write, hcompile⟩ :=
      compile_eq_map_ofStepsFrom callback hne (Sql.isValidTag_iff.mpr htag)
    obtain ⟨haccepted, hrefused⟩ := Schedule.ofStepsFrom_start_outcome steps
    constructor
    · rw [← haccepted, hcompile]
      cases Schedule.ofStepsFrom none {} steps <;> simp [Except.map]
    · intro e
      rw [← hrefused, hcompile]
      cases Schedule.ofStepsFrom none {} steps <;> simp [Except.map]

/-- A plan that closes an outer place before an inner one, and whose next step
    has neither a new ordinal nor a script. -/
def overlappingPlan : List Step := [
  ⟨1, .fixture, some "a/0.sql", ⟨"a/", 0⟩⟩,
  ⟨2, .test, some "a/b/1.sql", ⟨"a/b/", 1⟩⟩,
  ⟨5, .teardown, none, ⟨"a/", 0⟩⟩,
  ⟨5, .test, none, ⟨"a/", 0⟩⟩]

/-- Its steps are in order up to the teardown, whose fault is reported. -/
theorem overlappingPlan_firstFault :
    (∃ plan, compile {} "obs" (overlappingPlan.take 2) = .ok plan) ∧
      WellFormed (overlappingPlan.take 2) ∧ ¬ WellFormed overlappingPlan ∧
      FirstFault overlappingPlan (.unmatchedTeardown 5 ⟨"a/", 0⟩ ⟨"a/b/", 1⟩) := by
  have htag : Sql.IsBlockTag ({} : Config).blockTag := Sql.isValidTag_iff.mp rfl
  have hfront := (compile_accepts_iff_wellFormed {} "obs" (overlappingPlan.take 2)).2.2
    (by decide) htag
  have hwhole := (compile_accepts_iff_wellFormed {} "obs" overlappingPlan).2.2 (by decide) htag
  have haccepted : ∃ plan, compile {} "obs" (overlappingPlan.take 2) = .ok plan := ⟨_, rfl⟩
  have hrefused : compile {} "obs" overlappingPlan =
      .error (.unmatchedTeardown 5 ⟨"a/", 0⟩ ⟨"a/b/", 1⟩) := rfl
  refine ⟨haccepted, hfront.1.mp haccepted, ?_, (hwhole.2 _).mp hrefused⟩
  intro hformed
  obtain ⟨plan, hplan⟩ := hwhole.1.mpr hformed
  rw [hrefused] at hplan
  cases hplan

end SuiteScript
