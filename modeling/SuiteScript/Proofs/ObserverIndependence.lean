import SuiteScript.Proofs.PhysicalLines
import SuiteScript.Proofs.TwoRuns

/-! # What an observer changes

    Who observes a script, and whether anyone does, decides what is reported
    and nothing else.  A plan that is compiled for two observers is refused
    for both or for neither.  If it is accepted, the two scripts execute the
    same statements around their reports, and the two source maps differ in
    lines only (`compile_sameExecution`).

    Both scripts write the same schedule.  So they are compared action by
    action, under two wordings with the same settings. -/

namespace SuiteScript

namespace Wording

variable {w : Wording}

/-! ### What is written with and without reports -/

/-- What the handler of a test writes on account of the observer: a report to
    it, or nothing if there is none.  An empty handler is not allowed, so if
    nothing else is written either, this is an empty statement. -/
def reportLines (w : Wording) (step : Step) : List String :=
  match w.observer with
  | some o => [o.handlerInvocation (.ofStep .rollback step)]
  | none => if w.config.failureWarnings then [] else ["NULL;"]

theorem handler_eq (step : Step) (path : String) :
    w.handler step path = w.reportLines step ++ w.warnOfFailure path := by
  unfold handler reportFailure reportLines warnOfFailure
  cases w.observer with
  | some o => rfl
  | none =>
    by_cases hwarnings : w.config.failureWarnings = true
    · simp [hwarnings]
    · simp [hwarnings]

/-- What remains of a script without the check of the observer and the
    events. -/
theorem filter_statements (actions : List Action) :
    (w.statements actions).filter (fun a => !a.shape.forObserver) =
      actions.filter fun a => !a.shape.forObserver := by
  unfold statements
  rw [List.filter_filter]
  apply List.filter_congr
  intro a _
  rw [writes_eq_of_shape]
  cases a.shape.forObserver <;> rfl

variable {config : Config} {c₁ c₂ : String}

/-- Only what concerns an observer and the blocks of tests depend on it. -/
theorem lines_eq_of_not_forObserver {a : Action} (h : a.shape.forObserver = false) :
    (∃ step path, a = .runTest step path) ∨
      (ofCallback config c₁).lines a = (ofCallback config c₂).lines a := by
  cases a with
  | checkObserver => cases h
  | notify event => cases h
  | runTest step path => exact .inl ⟨step, path, rfl⟩
  | _ => exact .inr rfl

/-- The blocks of a test differ in their delimiters and in what is written on
    account of the observer. -/
theorem testBlock_eq_around (config : Config) (step : Step) (path : String) :
    ∃ front warning : List String, ∀ callback,
      (ofCallback config callback).lines (.runTest step path) =
        ["DO " ++ (ofCallback config callback).testDelimiter step path] ++ front ++
          ((ofCallback config callback).reportLines step).map
            (ofCallback config callback).indented ++
          warning ++ ["END", (ofCallback config callback).testDelimiter step path ++ ";"] := by
  refine ⟨["BEGIN", (ofCallback config "").indented ((ofCallback config "").execute path),
    "EXCEPTION WHEN " ++ " OR ".intercalate failureConditions ++ " THEN"],
    ((ofCallback config "").warnOfFailure path).map (ofCallback config "").indented, ?_⟩
  intro callback
  rw [lines, testBlock, handler_eq, List.map_append]
  simp only [List.append_assoc]
  rfl

/-- Such a block has as many lines if both handlers, or neither, report, or
    if no warning stands in for a report. -/
theorem length_lines_eq {a : Action} {run : Step × String} (ha : a.run? = some run)
    (h : config.failureWarnings = false ∨ (c₁ = "" ↔ c₂ = "")) :
    ((ofCallback config c₁).lines a).length = ((ofCallback config c₂).lines a).length := by
  -- both handlers have one such line, or neither has
  have hreport : ∀ step : Step, ((ofCallback config c₁).reportLines step).length =
      ((ofCallback config c₂).reportLines step).length := by
    intro step
    have hlength : ∀ callback, ((ofCallback config callback).reportLines step).length =
        if callback = "" ∧ config.failureWarnings = true then 0 else 1 := by
      intro callback
      unfold reportLines
      rw [observer_ofCallback]
      by_cases hcallback : callback = "" <;> by_cases hwarnings : config.failureWarnings = true <;>
        simp [hcallback, hwarnings, ofCallback]
    rw [hlength, hlength]
    rcases h with hwarnings | hcallbacks
    · simp [hwarnings]
    · simp only [hcallbacks]
  cases a with
  | runFixture step path => rfl
  | runTest step path =>
    obtain ⟨front, warning, hlines⟩ := testBlock_eq_around config step path
    simp [hlines, hreport]
  | _ => cases ha

end Wording

/-! ### Entries of two scripts -/

/-- Two entries of one step, in two scripts.  Under the condition `sameHeight`
    they have as many lines. -/
structure SourceEntry.Agrees (sameHeight : Prop) (e e' : SourceEntry) : Prop where
  /-- They differ in their lines only. -/
  fields_eq : e' = { e with startLine := e'.startLine, endLine := e'.endLine }
  /-- Their last lines are as far behind the first. -/
  height_eq : sameHeight → e.endLine + e'.startLine = e'.endLine + e.startLine

namespace Wording

/-- Two wordings of a schedule have the same entries at other lines. -/
theorem entriesFrom_agree {w w' : Wording} {sameHeight : Prop}
    (hheight : sameHeight → ∀ a run, Action.run? a = some run →
      (w.lines a).length = (w'.lines a).length) (position line line' : Nat)
    (actions : List Action) :
    List.Forall₂ (SourceEntry.Agrees sameHeight) (w.entriesFrom position line actions)
      (w'.entriesFrom position line' actions) := by
  induction actions generalizing position line line' with
  | nil => exact .nil
  | cons a rest ih =>
    rw [entriesFrom, entriesFrom]
    cases hrun : a.run? with
    | none => exact ih ..
    | some run =>
      refine .cons ⟨rfl, ?_⟩ (ih ..)
      intro h
      have hlength := hheight h a run hrun
      have hpos : 0 < (w.lines a).length := List.length_pos_of_ne_nil (lines_ne_nil_of_run? hrun)
      show line + (w.lines a).length - 1 + line' = line' + (w'.lines a).length - 1 + line
      omega

end Wording

/-! ### Two compiled plans -/

variable {config : Config} {c₁ c₂ : String} {steps : List Step}

/-- What two scripts of a plan, one for each of two observers, have in
    common. -/
structure SameExecution (config : Config) (c₁ c₂ : String) (plan₁ plan₂ : CompiledPlan)
    (script₁ script₂ : List Action) : Prop where
  /-- The scripts are written one statement after the other. -/
  sql_eq : plan₁.sql = "\n".intercalate (script₁.map (Wording.ofCallback config c₁).statementText) ∧
    plan₂.sql = "\n".intercalate (script₂.map (Wording.ofCallback config c₂).statementText)
  /-- Without the check and the events they have the same statements. -/
  statements_eq : (script₁.filter fun a => !a.shape.forObserver) =
    script₂.filter fun a => !a.shape.forObserver
  /-- All of these but tests have the same text. -/
  texts_eq : ∀ a ∈ script₁, a.shape.forObserver = false →
    (∃ step path, a = .runTest step path) ∨
      (Wording.ofCallback config c₁).statementText a = (Wording.ofCallback config c₂).statementText a
  /-- The lines of a test are the same except for its delimiter and for what
      its handler writes on account of the observer. -/
  blocks_eq : ∀ step path, .runTest step path ∈ script₁ →
    ∃ front warning : List String, ∀ callback ∈ [c₁, c₂],
      (Wording.ofCallback config callback).lines (.runTest step path) =
        ["DO " ++ (Wording.ofCallback config callback).testDelimiter step path] ++ front ++
          ((Wording.ofCallback config callback).reportLines step).map
            (Wording.ofCallback config callback).indented ++
          warning ++ ["END", (Wording.ofCallback config callback).testDelimiter step path ++ ";"]
  /-- The entries differ in their lines only, and if tests write no warnings,
      or if both or neither of the observers exist, they are as high. -/
  entries_agree : List.Forall₂
    (SourceEntry.Agrees (config.failureWarnings = false ∨ (c₁ = "" ↔ c₂ = "")))
    plan₁.sourceMap.entries plan₂.sourceMap.entries

/-- A plan is refused without regard to the observer. -/
theorem compile_eq_error_of_eq_error {e : PlanError} (h : compile config c₁ steps = .error e) :
    compile config c₂ steps = .error e := by
  unfold compile at h ⊢
  split at h
  · cases h
  · next hne =>
    rw [if_neg hne]
    split at h
    · next htag =>
      rw [if_pos htag]
      exact h
    · next htag =>
      rw [if_neg htag]
      cases hactions : Schedule.ofSteps steps with
      | error e' =>
        rw [hactions] at h
        exact h
      | ok actions =>
        rw [hactions] at h
        cases h

theorem exists_compile_of_exists {plan₁ : CompiledPlan}
    (h : compile config c₁ steps = .ok plan₁) : ∃ plan₂, compile config c₂ steps = .ok plan₂ := by
  cases h₂ : compile config c₂ steps with
  | ok plan₂ => exact ⟨plan₂, rfl⟩
  | error e =>
    rw [compile_eq_error_of_eq_error h₂] at h
    cases h

/-- Both scripts write the same schedule. -/
theorem exists_schedule_of_statementsOf {script₁ script₂ : List Action}
    (h₁ : statementsOf config c₁ steps = .ok script₁)
    (h₂ : statementsOf config c₂ steps = .ok script₂) :
    ∃ actions, script₁ = (Wording.ofCallback config c₁).statements actions ∧
      script₂ = (Wording.ofCallback config c₂).statements actions := by
  rcases statementsOf_eq_ok h₁ with ⟨rfl, rfl⟩ | ⟨hne, _, actions, hactions, rfl⟩
  · cases h₂
    exact ⟨[], rfl, rfl⟩
  · rcases statementsOf_eq_ok h₂ with ⟨hnil, _⟩ | ⟨_, _, actions', hactions', rfl⟩
    · exact absurd hnil hne
    · rw [hactions] at hactions'
      obtain rfl := Except.ok.inj hactions'
      exact ⟨actions, rfl, rfl⟩

/-- For any two observers, a plan is refused for the same reason or accepted.
    If it is accepted, both scripts execute the same, and both source maps
    tell the same of it. -/
theorem compile_sameExecution (config : Config) (c₁ c₂ : String) (steps : List Step) :
    ((∃ plan, compile config c₁ steps = .ok plan) ↔ ∃ plan, compile config c₂ steps = .ok plan) ∧
    (∀ e, compile config c₁ steps = .error e ↔ compile config c₂ steps = .error e) ∧
    ∀ plan₁ plan₂, compile config c₁ steps = .ok plan₁ → compile config c₂ steps = .ok plan₂ →
      ∃ script₁ script₂, statementsOf config c₁ steps = .ok script₁ ∧
        statementsOf config c₂ steps = .ok script₂ ∧
        SameExecution config c₁ c₂ plan₁ plan₂ script₁ script₂ := by
  refine ⟨⟨?_, ?_⟩, ?_, ?_⟩
  · rintro ⟨plan, hplan⟩
    exact exists_compile_of_exists hplan
  · rintro ⟨plan, hplan⟩
    exact exists_compile_of_exists hplan
  · intro e
    exact ⟨compile_eq_error_of_eq_error, compile_eq_error_of_eq_error⟩
  · intro plan₁ plan₂ hplan₁ hplan₂
    obtain ⟨script₁, hscript₁, hsql₁, hmap₁⟩ := compile_eq_ok_iff.mp hplan₁
    obtain ⟨script₂, hscript₂, hsql₂, hmap₂⟩ := compile_eq_ok_iff.mp hplan₂
    refine ⟨script₁, script₂, hscript₁, hscript₂, ?_⟩
    obtain ⟨actions, hactions₁, hactions₂⟩ := exists_schedule_of_statementsOf hscript₁ hscript₂
    constructor
    · rw [hsql₁, hsql₂]
      exact ⟨Wording.text_eq_intercalate_statementText (writes_of_mem_statementsOf hscript₁),
        Wording.text_eq_intercalate_statementText (writes_of_mem_statementsOf hscript₂)⟩
    · rw [hactions₁, hactions₂, Wording.filter_statements, Wording.filter_statements]
    · intro a _ ha
      rcases Wording.lines_eq_of_not_forObserver ha with htest | hlines
      · exact .inl htest
      · exact .inr (congrArg ("\n").intercalate hlines)
    · intro step path _
      obtain ⟨front, warning, hlines⟩ := Wording.testBlock_eq_around config step path
      exact ⟨front, warning, fun callback _ => hlines callback⟩
    · rw [hmap₁, hmap₂, hactions₁, hactions₂, Wording.sourceMap_statements,
        Wording.sourceMap_statements]
      exact Wording.entriesFrom_agree (fun h _ _ hrun => Wording.length_lines_eq hrun h) ..

/-- An example without an observer, and with one whose name has to be
    resolved at run time. -/
theorem nestedPlan_sameExecution :
    ∃ plan₁ plan₂ script₁ script₂, compile {} "" nestedPlan = .ok plan₁ ∧
      compile {} "it's" nestedPlan = .ok plan₂ ∧
      statementsOf {} "" nestedPlan = .ok script₁ ∧
      statementsOf {} "it's" nestedPlan = .ok script₂ ∧
      SameExecution {} "" "it's" plan₁ plan₂ script₁ script₂ := by
  obtain ⟨hok, _, hsame⟩ := compile_sameExecution {} "" "it's" nestedPlan
  have hcompile : ∃ plan, compile {} "" nestedPlan = .ok plan := ⟨_, rfl⟩
  obtain ⟨plan₁, hplan₁⟩ := hcompile
  obtain ⟨plan₂, hplan₂⟩ := hok.mp ⟨plan₁, hplan₁⟩
  obtain ⟨script₁, script₂, hscript₁, hscript₂, hexecution⟩ := hsame plan₁ plan₂ hplan₁ hplan₂
  exact ⟨plan₁, plan₂, script₁, script₂, hplan₁, hplan₂, hscript₁, hscript₂, hexecution⟩

end SuiteScript
