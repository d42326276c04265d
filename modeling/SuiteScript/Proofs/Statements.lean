import SuiteScript.Script

/-! # The statements of a script

    A schedule lists what could be done; a script does only what has a line
    in its wording.  Without an observer nothing is checked or delivered, so
    those actions leave no statement.  The actions that do are the
    *statements* of the script, and the script is their texts, joined by
    line breaks.

    Every later module speaks about `statementsOf`, the statements of a
    compiled plan; `compile_eq_ok_iff` is what ties them to `compile`. -/

namespace SuiteScript

namespace Wording

variable {w : Wording}

/-- Does the action leave a line in the script? -/
def writes (w : Wording) (a : Action) : Bool := !(w.lines a).isEmpty

/-- The actions of a schedule that the script carries out. -/
def statements (w : Wording) (actions : List Action) : List Action :=
  actions.filter w.writes

/-- The text of one statement, which may span several lines. -/
def statementText (w : Wording) (a : Action) : String :=
  "\n".intercalate (w.lines a)

end Wording

/-- The observer of a name that is not empty. -/
def Observer.named (config : Config) (callback : String) : Observer :=
  ⟨callback, CallTarget.ofName callback, Sql.escapeQualifiedName config.eventType, config.blockTag⟩

theorem Observer.ofCallback?_eq (config : Config) (callback : String) :
    ofCallback? callback config = if callback = "" then none else some (named config callback) := by
  unfold ofCallback?
  by_cases h : callback = ""
  · rw [if_pos h, if_pos (by simpa using h)]
  · rw [if_neg h, if_neg (by simpa using h)]
    rfl

namespace Wording

variable {w : Wording}

theorem observer_ofCallback (config : Config) (callback : String) :
    (ofCallback config callback).observer =
      if callback = "" then none else some (Observer.named config callback) :=
  Observer.ofCallback?_eq config callback

theorem observer_ofCallback_of_isSome {config : Config} {callback : String}
    (h : (ofCallback config callback).observer.isSome = true) :
    (ofCallback config callback).observer = some (Observer.named config callback) := by
  rw [observer_ofCallback] at h ⊢
  by_cases hcallback : callback = ""
  · rw [if_pos hcallback] at h
    cases h
  · rw [if_neg hcallback]

/-! ### Which actions leave a statement -/

@[simp] theorem writes_checkObserver :
    w.writes .checkObserver = w.observer.isSome := by
  cases h : w.observer <;> simp [writes, lines, h]

@[simp] theorem writes_notify (e : Event) : w.writes (.notify e) = w.observer.isSome := by
  cases h : w.observer <;> simp [writes, lines, h]

@[simp] theorem writes_openSavepoint (sp : Savepoint) : w.writes (.openSavepoint sp) = true := rfl

@[simp] theorem writes_rollBackTo (sp : Savepoint) : w.writes (.rollBackTo sp) = true := rfl

@[simp] theorem writes_release (sp : Savepoint) : w.writes (.release sp) = true := rfl

@[simp] theorem writes_runFixture (step : Step) (path : String) :
    w.writes (.runFixture step path) = true := rfl

@[simp] theorem writes_runTest (step : Step) (path : String) :
    w.writes (.runTest step path) = true := rfl

@[simp] theorem statements_nil : w.statements [] = [] := rfl

@[simp] theorem statements_append (xs ys : List Action) :
    w.statements (xs ++ ys) = w.statements xs ++ w.statements ys := by
  simp [statements]

theorem statements_cons (a : Action) (rest : List Action) :
    w.statements (a :: rest) =
      if w.writes a then a :: w.statements rest else w.statements rest := by
  simp [statements, List.filter_cons]

theorem lines_eq_nil_of_not_writes {a : Action} (h : ¬ w.writes a = true) : w.lines a = [] := by
  simpa [writes] using h

/-- Only actions that concern an observer can be left out, and none of them
    executes a step. -/
theorem run?_eq_none_of_not_writes {a : Action} (h : ¬ w.writes a = true) : a.run? = none := by
  cases a with
  | runFixture step path => simp at h
  | runTest step path => simp at h
  | _ => rfl

/-! ### A script is its statements -/

theorem flatMap_lines_statements (actions : List Action) :
    (w.statements actions).flatMap w.lines = actions.flatMap w.lines := by
  induction actions with
  | nil => rfl
  | cons a rest ih =>
    rw [statements_cons, List.flatMap_cons]
    by_cases h : w.writes a = true
    · rw [if_pos h, List.flatMap_cons, ih]
    · rw [if_neg h, ih, lines_eq_nil_of_not_writes h, List.nil_append]

/-- Where something is written, there are lines. -/
theorem flatMap_lines_ne_nil_of_writes {actions : List Action}
    (h : ∃ a ∈ actions, w.writes a = true) : actions.flatMap w.lines ≠ [] := by
  obtain ⟨a, ha, hwrites⟩ := h
  have hlines : w.lines a ≠ [] := by simpa [writes] using hwrites
  intro hnil
  exact hlines (List.flatMap_eq_nil_iff.mp hnil a ha)

theorem text_statements (actions : List Action) :
    w.text (w.statements actions) = w.text actions := by
  unfold text
  rw [flatMap_lines_statements]

theorem entriesFrom_statements (position line : Nat) (actions : List Action) :
    w.entriesFrom position line (w.statements actions) = w.entriesFrom position line actions := by
  induction actions generalizing position line with
  | nil => rfl
  | cons a rest ih =>
    rw [statements_cons]
    by_cases h : w.writes a = true
    · rw [if_pos h]
      simp only [entriesFrom, ih]
    · -- what is left out has no lines, so the others keep their numbers
      rw [if_neg h, ih]
      simp only [entriesFrom, run?_eq_none_of_not_writes h, lines_eq_nil_of_not_writes h,
        List.length_nil, Nat.add_zero]

theorem sourceMap_statements (actions : List Action) :
    w.sourceMap (w.statements actions) = w.sourceMap actions := by
  unfold sourceMap
  rw [entriesFrom_statements]

theorem writes_of_mem_statements {actions : List Action} {a : Action}
    (h : a ∈ w.statements actions) : w.writes a = true :=
  (List.mem_filter.mp h).2

/-- Joining the lines of all statements is joining the statements. -/
theorem text_eq_intercalate_statementText {script : List Action}
    (h : ∀ a ∈ script, w.writes a = true) :
    w.text script = "\n".intercalate (script.map w.statementText) := by
  unfold text
  induction script with
  | nil => rfl
  | cons a rest ih =>
    have ih' : "\n".intercalate (rest.flatMap w.lines) =
        "\n".intercalate (rest.map w.statementText) := by
      apply ih
      intro b hb
      exact h b (List.mem_cons_of_mem a hb)
    cases rest with
    | nil => simp [statementText]
    | cons b rest =>
      -- both sides have lines, so a line break joins them
      have hrest : (b :: rest).flatMap w.lines ≠ [] :=
        flatMap_lines_ne_nil_of_writes ⟨b, by simp, h b (by simp)⟩
      have ha : w.lines a ≠ [] := by simpa [writes] using h a (by simp)
      rw [List.flatMap_cons, String.intercalate_append_of_ne_nil ha hrest, ih']
      simp only [List.map_cons, String.intercalate_cons_cons]
      rfl

end Wording

/-! ### The statements of a plan -/

/-- The statements that a plan is compiled to, in their order; the failures
    are those of `compile`. -/
def statementsOf (config : Config) (callback : String) (steps : List Step) :
    Except PlanError (List Action) :=
  if steps.isEmpty then .ok []
  else if !Sql.isValidTag config.blockTag then .error (.invalidBlockTag config.blockTag)
  else do
    let actions ← Schedule.ofSteps steps
    return (Wording.ofCallback config callback).statements actions

/-- Compiling is finding the statements and putting them into words. -/
theorem compile_eq_map_statementsOf (config : Config) (callback : String) (steps : List Step) :
    compile config callback steps =
      (statementsOf config callback steps).map fun script =>
        ⟨(Wording.ofCallback config callback).text script,
          (Wording.ofCallback config callback).sourceMap script⟩ := by
  unfold compile statementsOf
  split
  · rfl
  split
  · rfl
  cases h : Schedule.ofSteps steps with
  | error e => rfl
  | ok actions =>
    show Except.ok (CompiledPlan.mk _ _) =
      Except.ok ⟨Wording.text _ (Wording.statements _ _),
        Wording.sourceMap _ (Wording.statements _ _)⟩
    rw [Wording.text_statements, Wording.sourceMap_statements]

theorem compile_eq_ok_iff {config : Config} {callback : String} {steps : List Step}
    {plan : CompiledPlan} :
    compile config callback steps = .ok plan ↔
      ∃ script, statementsOf config callback steps = .ok script ∧
        plan.sql = (Wording.ofCallback config callback).text script ∧
        plan.sourceMap = (Wording.ofCallback config callback).sourceMap script := by
  rw [compile_eq_map_statementsOf]
  cases h : statementsOf config callback steps with
  | error e => simp [Except.map]
  | ok script =>
    cases plan with
    | mk sql sourceMap =>
      simp only [Except.map, Except.ok.injEq, CompiledPlan.mk.injEq, exists_eq_left']
      constructor
      · intro h
        obtain ⟨rfl, rfl⟩ := h
        exact ⟨rfl, rfl⟩
      · intro h
        obtain ⟨rfl, rfl⟩ := h
        exact ⟨rfl, rfl⟩

/-- A compiled plan is empty, or its tag is valid and its statements are
    those of its schedule. -/
theorem statementsOf_eq_ok {config : Config} {callback : String} {steps : List Step}
    {script : List Action} (h : statementsOf config callback steps = .ok script) :
    (steps = [] ∧ script = []) ∨
      (steps ≠ [] ∧ Sql.isValidTag config.blockTag = true ∧
        ∃ actions, Schedule.ofSteps steps = .ok actions ∧
          script = (Wording.ofCallback config callback).statements actions) := by
  unfold statementsOf at h
  split at h
  · next hnil =>
    left
    exact ⟨List.isEmpty_iff.mp hnil, by simpa using h.symm⟩
  · next hne =>
    right
    refine ⟨by simpa using hne, ?_⟩
    split at h
    · cases h
    · next htag =>
      refine ⟨by simpa using htag, ?_⟩
      cases hs : Schedule.ofSteps steps with
      | error e => rw [hs] at h; cases h
      | ok actions =>
        rw [hs] at h
        cases h
        exact ⟨actions, rfl, rfl⟩

/-- Every statement of a plan has a text. -/
theorem writes_of_mem_statementsOf {config : Config} {callback : String} {steps : List Step}
    {script : List Action} (h : statementsOf config callback steps = .ok script) :
    ∀ a ∈ script, (Wording.ofCallback config callback).writes a = true := by
  intro a ha
  rcases statementsOf_eq_ok h with ⟨_, rfl⟩ | ⟨_, _, actions, _, rfl⟩
  · cases ha
  · exact Wording.writes_of_mem_statements ha

end SuiteScript
