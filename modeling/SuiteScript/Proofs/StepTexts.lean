import SuiteScript.Proofs.LineBreaks
import SuiteScript.Proofs.Nesting

/-! # Texts of steps

    A schedule executes each script step once, after it has told the
    observer of the step.  So up to that place of the schedule the texts of
    the actions are just the texts of the steps up to this one
    (`Schedule.oneLineTexts_ofSteps_upTo_run`): every step before has shown
    its own, and no later step has shown any. -/

namespace SuiteScript

/-! ### Splitting a schedule -/

/-- Two lists that are joined hold a member in the first or in the second. -/
theorem append_cons_eq_append {α : Type} {before after xs ys : List α} {a : α}
    (h : before ++ a :: after = xs ++ ys) :
    (∃ others, xs = before ++ a :: others ∧ after = others ++ ys) ∨
      ∃ others, before = xs ++ others ∧ ys = others ++ a :: after := by
  rcases List.append_eq_append_iff.mp h with ⟨others, rfl, hcons⟩ | ⟨others, rfl, rfl⟩
  · cases others with
    | nil => exact .inr ⟨[], by simp, hcons.symm⟩
    | cons b others =>
      obtain ⟨rfl, rfl⟩ := List.cons.inj hcons
      exact .inl ⟨others, rfl, rfl⟩
  · exact .inr ⟨others, rfl, rfl⟩

/-! ### What a step does -/

/-- Are the texts of a step one line that reach the script? -/
def Step.OneLineTexts (config : Config) (callback : String) (step : Step) : Prop :=
  (step.kind.runsScript = true →
    OneLine config.sourceTable ∧ ∀ path ∈ step.scriptPath, OneLine path) ∧
  (callback ≠ "" → OneLine callback ∧ OneLine config.eventType ∧ OneLine step.place.directory)

/-- Does the step execute the script at `path`? -/
def Step.Runs (step : Step) (path : String) : Prop :=
  step.kind.runsScript = true ∧ step.scriptPath = some path

/-- What a step may do.  An event carries a path only if the step executes
    a script, and the script is always its own. -/
inductive Step.Does (step : Step) : Action → Prop
  /-- It opens a savepoint. -/
  | openSavepoint (sp : Savepoint) : Does step (.openSavepoint sp)
  /-- It rolls back to one. -/
  | rollBackTo (sp : Savepoint) : Does step (.rollBackTo sp)
  /-- It releases one. -/
  | release (sp : Savepoint) : Does step (.release sp)
  /-- It notifies the observer of itself. -/
  | notify {kind : EventKind} (hpath : kind.carriesScriptPath = true → ∃ path, step.Runs path) :
      Does step (.notify (.ofStep kind step))
  /-- It executes its fixture. -/
  | runFixture {path : String} (hruns : step.Runs path) : Does step (.runFixture step path)
  /-- It executes its test. -/
  | runTest {path : String} (hruns : step.Runs path) : Does step (.runTest step path)

variable {config : Config} {callback : String}

namespace Action

theorem ne_of_run? {a b : Action} {run : Step × String} (ha : a.run? = some run)
    (hb : b.run? = none) : a ≠ b := by
  intro h
  rw [h, hb] at ha
  cases ha

/-- Executing a step shows the table of the scripts and the step's path. -/
theorem oneLine_of_run {a : Action} {step : Step} {path : String}
    (hrun : a.run? = some (step, path)) (h : a.OneLineTexts config callback) :
    OneLine config.sourceTable ∧ OneLine path := by
  cases a with
  | runFixture step' path' =>
    cases hrun
    exact h
  | runTest step' path' =>
    cases hrun
    exact ⟨h.1, h.2.1⟩
  | _ => cases hrun

end Action

namespace Step

variable {step : Step} {s s' : ScopeStack} {actions : List Action}

/-- Entering a place at most opens a savepoint. -/
theorem eq_openSavepoint_of_mem {entry : ScopeEntry} {a : Action} (h : a ∈ entry.actions) :
    ∃ sp, a = .openSavepoint sp := by
  cases entry with
  | opened sp => exact ⟨sp, List.mem_singleton.mp h⟩
  | alreadyOpen sp => cases h

theorem fixtureActions_fst (path : String) :
    (step.fixtureActions path s).1 = ((s.enter step.place).1.actions ++
      [.notify (.ofStep .fixtureStart step)]) ++
      .runFixture step path :: [.notify (.ofStep .fixtureEnd step)] := by
  rw [List.append_assoc]
  rfl

theorem testActions_fst (path : String) :
    (step.testActions path s).1 = ((s.enter step.place).1.actions ++
      [.notify (.ofStep .testStart step), .openSavepoint (s.enter step.place).2.isolateTest.1]) ++
      .runTest step path :: [.rollBackTo (s.enter step.place).2.isolateTest.1,
        .notify (.ofStep .testEnd step)] := by
  rw [List.append_assoc]
  rfl

/-- Every action of a step is one that it may do. -/
theorem does_of_mem (h : step.actions s = .ok (actions, s')) {a : Action} (ha : a ∈ actions) :
    step.Does a := by
  rcases actions_cases h with ⟨path, hkind, hpath, hactions⟩ | ⟨path, hkind, hpath, hactions⟩ |
    ⟨scope, outer, hkind, _, _, hactions, _⟩
  · have hruns : step.Runs path := ⟨by rw [hkind]; rfl, hpath⟩
    have hlist : actions = (step.fixtureActions path s).1 := congrArg Prod.fst hactions
    rw [hlist, fixtureActions_fst] at ha
    simp only [List.mem_append, List.mem_cons, List.not_mem_nil, or_false] at ha
    rcases ha with (ha | rfl) | rfl | rfl
    · obtain ⟨sp, rfl⟩ := eq_openSavepoint_of_mem ha
      exact .openSavepoint sp
    · exact .notify fun _ => ⟨path, hruns⟩
    · exact .runFixture hruns
    · exact .notify fun _ => ⟨path, hruns⟩
  · have hruns : step.Runs path := ⟨by rw [hkind]; rfl, hpath⟩
    have hlist : actions = (step.testActions path s).1 := congrArg Prod.fst hactions
    rw [hlist, testActions_fst] at ha
    simp only [List.mem_append, List.mem_cons, List.not_mem_nil, or_false] at ha
    rcases ha with (ha | rfl | rfl) | rfl | rfl | rfl
    · obtain ⟨sp, rfl⟩ := eq_openSavepoint_of_mem ha
      exact .openSavepoint sp
    · exact .notify fun _ => ⟨path, hruns⟩
    · exact .openSavepoint _
    · exact .runTest hruns
    · exact .rollBackTo _
    · exact .notify fun _ => ⟨path, hruns⟩
  · -- the events of a teardown carry no path
    subst hactions
    simp only [teardownActions, List.mem_cons, List.not_mem_nil, or_false] at ha
    rcases ha with rfl | rfl | rfl
    · exact .release _
    · refine .notify ?_
      intro hcarries
      cases hcarries
    · refine .notify ?_
      intro hcarries
      cases hcarries

/-- A step executes its own script once, if it has one to execute, and
    notifies the observer beforehand. -/
theorem actions_split (h : step.actions s = .ok (actions, s')) :
    (∃ kind, step.kind.runsScript = false ∧ (∀ a ∈ actions, a.run? = none) ∧
      .notify (.ofStep kind step) ∈ actions) ∨
    (∃ kind lead run trail path, step.kind.runsScript = true ∧ step.scriptPath = some path ∧
      actions = lead ++ run :: trail ∧ run.run? = some (step, path) ∧
      (∀ a ∈ lead ++ trail, a.run? = none) ∧ .notify (.ofStep kind step) ∈ lead) := by
  have henter : ∀ a ∈ (s.enter step.place).1.actions, a.run? = none := by
    intro a ha
    obtain ⟨sp, rfl⟩ := eq_openSavepoint_of_mem ha
    rfl
  rcases actions_cases h with ⟨path, hkind, hpath, hactions⟩ | ⟨path, hkind, hpath, hactions⟩ |
    ⟨scope, outer, hkind, _, _, hactions, _⟩
  · -- a fixture
    right
    have hlist : actions = (step.fixtureActions path s).1 := congrArg Prod.fst hactions
    rw [fixtureActions_fst] at hlist
    refine ⟨.fixtureStart, _, _, _, path, by rw [hkind]; rfl, hpath, hlist, rfl, ?_, by simp⟩
    simpa [Action.run?, or_imp, forall_and] using henter
  · -- a test
    right
    have hlist : actions = (step.testActions path s).1 := congrArg Prod.fst hactions
    rw [testActions_fst] at hlist
    refine ⟨.testStart, _, _, _, path, by rw [hkind]; rfl, hpath, hlist, rfl, ?_, by simp⟩
    simpa [Action.run?, or_imp, forall_and] using henter
  · -- a teardown
    left
    subst hactions
    refine ⟨.teardownStart, by rw [hkind]; rfl, ?_, by simp [teardownActions]⟩
    simp [teardownActions, Action.run?]

/-! ### Texts of a step -/

/-- A step's notification shows no more than the step's texts. -/
theorem OneLineTexts.ofStep (h : step.OneLineTexts config callback) {kind : EventKind}
    (hkind : kind.carriesScriptPath = true → step.kind.runsScript = true) :
    callback ≠ "" → (Event.ofStep kind step).OneLineTexts config callback := by
  intro hcallback
  obtain ⟨hname, htype, hdirectory⟩ := h.2 hcallback
  refine ⟨hname, htype, hdirectory, ?_⟩
  intro path hpath
  by_cases hcarries : kind.carriesScriptPath = true
  · simp only [Event.ofStep, if_pos hcarries] at hpath
    exact (h.1 (hkind hcarries)).2 path hpath
  · simp [Event.ofStep, hcarries] at hpath

/-- Nothing that a step does shows more than the step's texts. -/
theorem OneLineTexts.of_mem (hstep : step.OneLineTexts config callback)
    (h : step.actions s = .ok (actions, s')) {a : Action} (ha : a ∈ actions) :
    a.OneLineTexts config callback := by
  cases does_of_mem h ha with
  | openSavepoint sp => trivial
  | rollBackTo sp => trivial
  | release sp => trivial
  | notify hcarries =>
    apply hstep.ofStep
    intro hkind
    obtain ⟨_, hruns, _⟩ := hcarries hkind
    exact hruns
  | @runFixture path hruns => exact ⟨(hstep.1 hruns.1).1, (hstep.1 hruns.1).2 path hruns.2⟩
  | @runTest path hruns =>
    have hreport : callback ≠ "" → (Event.ofStep .rollback step).OneLineTexts config callback :=
      hstep.ofStep fun _ => hruns.1
    exact ⟨(hstep.1 hruns.1).1, (hstep.1 hruns.1).2 path hruns.2, hreport⟩

/-- A notification shows the texts that go with every event of a step. -/
theorem oneLine_of_notify {kind : EventKind}
    (h : (Action.notify (.ofStep kind step)).OneLineTexts config callback) :
    callback ≠ "" →
      OneLine callback ∧ OneLine config.eventType ∧ OneLine step.place.directory := by
  intro hcallback
  obtain ⟨hname, htype, hdirectory, _⟩ := h hcallback
  exact ⟨hname, htype, hdirectory⟩

/-- A step's script and one notification show all the step's texts. -/
theorem oneLineTexts_of_run {a : Action} {path : String} {kind : EventKind}
    (hrun : a.run? = some (step, path)) (hpath : step.scriptPath = some path)
    (ha : a.OneLineTexts config callback)
    (hnotify : (Action.notify (.ofStep kind step)).OneLineTexts config callback) :
    step.OneLineTexts config callback := by
  obtain ⟨htable, hown⟩ := Action.oneLine_of_run hrun ha
  refine ⟨?_, oneLine_of_notify hnotify⟩
  intro _
  refine ⟨htable, ?_⟩
  intro path' hpath'
  rw [hpath] at hpath'
  cases hpath'
  exact hown

/-- What a step does shows the step's texts. -/
theorem oneLineTexts_actions_iff (h : step.actions s = .ok (actions, s')) :
    (∀ a ∈ actions, a.OneLineTexts config callback) ↔ step.OneLineTexts config callback := by
  constructor
  · intro hall
    rcases actions_split h with ⟨kind, hruns, _, hnotify⟩ |
      ⟨kind, lead, run, trail, path, hruns, hpath, rfl, hrun, _, hnotify⟩
    · refine ⟨?_, oneLine_of_notify (hall _ hnotify)⟩
      intro hruns'
      rw [hruns] at hruns'
      cases hruns'
    · exact oneLineTexts_of_run hrun hpath (hall run (by simp))
        (hall _ (List.mem_append_left _ hnotify))
  · intro hstep a ha
    exact hstep.of_mem h ha

/-- So does what it does up to its script, which it executes once. -/
theorem oneLineTexts_upTo_run {before after : List Action} {a : Action} {step' : Step}
    {path : String} (h : step.actions s = .ok (before ++ a :: after, s'))
    (ha : a.run? = some (step', path)) :
    step' = step ∧ step.scriptPath = some path ∧
      ((∀ b ∈ before ++ [a], b.OneLineTexts config callback) ↔
        step.OneLineTexts config callback) := by
  rcases actions_split h with ⟨_, _, hnone, _⟩ |
    ⟨kind, lead, only, trail, path', _, hpath, hlist, hrun, hnone, hnotify⟩
  · have hnone' := hnone a (by simp)
    rw [ha] at hnone'
    cases hnone'
  · -- no other action executes anything, so the two splits are the same
    have hlead : a ∉ lead := by
      intro hmem
      exact Action.ne_of_run? ha (hnone a (List.mem_append_left _ hmem)) rfl
    have htrail : a ∉ trail := by
      intro hmem
      exact Action.ne_of_run? ha (hnone a (List.mem_append_right _ hmem)) rfl
    obtain ⟨rfl, rfl, rfl⟩ := (List.append_cons_inj_of_notMem hlead htrail).mp hlist.symm
    rw [hrun] at ha
    obtain ⟨rfl, rfl⟩ := Prod.mk.inj (Option.some.inj ha)
    refine ⟨rfl, hpath, ?_, ?_⟩
    · intro hall
      exact oneLineTexts_of_run hrun hpath (hall only (by simp))
        (hall _ (List.mem_append_left _ hnotify))
    · intro hstep b hb
      refine hstep.of_mem h ?_
      rcases List.mem_append.mp hb with hb | hb
      · exact List.mem_append_left _ hb
      · rw [List.mem_singleton.mp hb]
        simp

end Step

namespace Schedule

variable (config callback)

/-- A run of steps executes scripts of its steps; up to one of them, what it
    does shows the texts of the steps up to that one. -/
theorem oneLineTexts_upTo_run {previous : Option UInt32} {s s' : ScopeStack} {steps : List Step}
    {before after : List Action} {a : Action} {step : Step} {path : String}
    (h : ofStepsFrom previous s steps = .ok (before ++ a :: after, s'))
    (ha : a.run? = some (step, path)) :
    ∃ done rest, steps = done ++ step :: rest ∧ step.scriptPath = some path ∧
      ((∀ b ∈ before ++ [a], b.OneLineTexts config callback) ↔
        ∀ t ∈ done ++ [step], t.OneLineTexts config callback) := by
  induction steps generalizing previous s before with
  | nil =>
    have hnil : before ++ a :: after = [] := (Prod.mk.inj (Except.ok.inj h)).1.symm
    simp at hnil
  | cons first rest ih =>
    obtain ⟨_, actions, between, others, hfirst, hrest, hsplit⟩ := ofStepsFrom_cons_eq_ok.mp h
    rcases append_cons_eq_append hsplit with ⟨others', rfl, _⟩ | ⟨before', rfl, rfl⟩
    · -- the first step executes it
      have htexts : step = first ∧ first.scriptPath = some path ∧
          ((∀ b ∈ before ++ [a], b.OneLineTexts config callback) ↔
            first.OneLineTexts config callback) := Step.oneLineTexts_upTo_run hfirst ha
      obtain ⟨rfl, hpath, htexts⟩ := htexts
      refine ⟨[], rest, rfl, hpath, ?_⟩
      rw [htexts, List.nil_append, List.forall_mem_singleton]
    · obtain ⟨done, rest', rfl, hpath, htexts⟩ := ih hrest
      refine ⟨first :: done, rest', rfl, hpath, ?_⟩
      rw [List.append_assoc, List.forall_mem_append, htexts,
        Step.oneLineTexts_actions_iff hfirst, List.cons_append, List.forall_mem_cons]

/-- Before the first step only the texts are shown that go with every
    event. -/
theorem oneLineTexts_opening {step : Step} (h : step.OneLineTexts config callback) :
    ∀ a ∈ opening, a.OneLineTexts config callback := by
  intro a ha
  unfold opening at ha
  rcases List.mem_pair.mp ha with rfl | rfl
  · intro hcallback
    obtain ⟨hname, htype, _⟩ := h.2 hcallback
    exact ⟨hname, htype⟩
  · -- the event of the suite has neither a directory nor a path
    intro hcallback
    obtain ⟨hname, htype, _⟩ := h.2 hcallback
    refine ⟨hname, htype, show OneLine "" by decide, ?_⟩
    intro path hpath
    cases hpath

/-- The same for a whole plan, in which nothing is executed before the first
    step or after the last. -/
theorem oneLineTexts_ofSteps_upTo_run {steps : List Step} {before after : List Action} {a : Action}
    {step : Step} {path : String} (h : ofSteps steps = .ok (before ++ a :: after))
    (ha : a.run? = some (step, path)) :
    ∃ done rest, steps = done ++ step :: rest ∧ step.scriptPath = some path ∧
      ((∀ b ∈ before ++ [a], b.OneLineTexts config callback) ↔
        ∀ t ∈ done ++ [step], t.OneLineTexts config callback) := by
  obtain ⟨run, s', hrun, hsplit⟩ := ofSteps_eq_ok h
  rcases append_cons_eq_append hsplit with ⟨others, hothers, _⟩ | ⟨others, _, hending⟩
  · rcases append_cons_eq_append hothers.symm with ⟨first, hopening, _⟩ | ⟨before', rfl, rfl⟩
    · have hmem : a ∈ opening := by simp [hopening]
      rcases List.mem_pair.mp hmem with h | h
      · exact absurd h (Action.ne_of_run? ha rfl)
      · exact absurd h (Action.ne_of_run? ha rfl)
    · obtain ⟨done, rest, rfl, hpath, htexts⟩ := oneLineTexts_upTo_run config callback hrun ha
      refine ⟨done, rest, rfl, hpath, ?_⟩
      rw [List.append_assoc, List.forall_mem_append, htexts]
      apply and_iff_right_of_imp
      intro hall
      exact oneLineTexts_opening config callback (hall step (by simp))
  · have hmem : a ∈ ending steps := by simp [hending]
    exact absurd (List.mem_singleton.mp hmem) (Action.ne_of_run? ha rfl)

/-- What a run of steps does shows no more than the texts of its steps. -/
theorem oneLineTexts_ofStepsFrom {previous : Option UInt32} {s s' : ScopeStack} {steps : List Step}
    {actions : List Action} (h : ofStepsFrom previous s steps = .ok (actions, s'))
    (hsteps : ∀ step ∈ steps, step.OneLineTexts config callback) :
    ∀ a ∈ actions, a.OneLineTexts config callback := by
  induction steps generalizing previous s actions with
  | nil =>
    cases h
    intro a ha
    cases ha
  | cons step rest ih =>
    obtain ⟨_, first, after, others, hstep, hrest, rfl⟩ := ofStepsFrom_cons_eq_ok.mp h
    rw [List.forall_mem_cons] at hsteps
    rw [List.forall_mem_append]
    refine ⟨?_, ih hrest hsteps.2⟩
    intro a ha
    exact hsteps.1.of_mem hstep ha

/-- Events of the whole suite show the texts that go with every event, and
    no others. -/
theorem oneLineTexts_suite (hnames : callback ≠ "" → OneLine callback ∧ OneLine config.eventType)
    (kind : EventKind) (ordinal : UInt32) :
    (Action.notify (.suite kind ordinal)).OneLineTexts config callback := by
  intro hcallback
  obtain ⟨hname, htype⟩ := hnames hcallback
  refine ⟨hname, htype, show OneLine "" by decide, ?_⟩
  intro path hpath
  cases hpath

/-- If no text of a plan breaks, nothing breaks that the plan does. -/
theorem oneLineTexts_ofSteps {steps : List Step} {actions : List Action}
    (h : ofSteps steps = .ok actions)
    (hnames : callback ≠ "" → OneLine callback ∧ OneLine config.eventType)
    (hsteps : ∀ step ∈ steps, step.OneLineTexts config callback) :
    ∀ a ∈ actions, a.OneLineTexts config callback := by
  obtain ⟨run, s', hrun, rfl⟩ := ofSteps_eq_ok h
  have hsuite := oneLineTexts_suite config callback hnames
  simp only [opening, ending, List.forall_mem_append, List.forall_mem_cons, List.not_mem_nil,
    false_implies, implies_true, and_true]
  exact ⟨⟨⟨hnames, hsuite _ _⟩, oneLineTexts_ofStepsFrom config callback hrun hsteps⟩, hsuite _ _⟩

end Schedule

end SuiteScript
