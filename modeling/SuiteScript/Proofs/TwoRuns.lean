import Mathlib.Data.List.Forall2
import Mathlib.Tactic.Choose
import SuiteScript.Proofs.StatementSkeletons
import SuiteScript.Proofs.StepTexts

/-! # Plans that differ in their texts only

    Two plans have the same outline if they agree in everything but the
    texts of paths and directories, and name the same places where the other
    does.  What they do has the same shapes, step by step: a step looks at a
    place only to compare it with the places that are open, and there it
    finds the same.  Since every statement is read as the skeleton of its
    shape, the scripts of two such plans are the same tokens, up to the
    contents of literals and the choice of delimiters
    (`compile_tokens_eq_skeletons`).

    The two runs are compared by a relation on places, the one that pairs
    the places of the steps one by one.  It pairs each place with at most
    one other, in both directions, and that is all that is needed. -/

namespace SuiteScript

open Sql

/-! ### Actions of a plan -/

/-- The actions that a plan may bring about, with what they take from its
    steps. -/
inductive Action.OfPlan (steps : List Step) : Action → Prop
  /-- The observer is looked for. -/
  | check : OfPlan steps .checkObserver
  /-- An event of the whole suite, which carries no path. -/
  | suite {kind : EventKind} (ordinal : UInt32) (hkind : kind.carriesScriptPath = false) :
      OfPlan steps (.notify (.suite kind ordinal))
  /-- Something that a step of the plan does. -/
  | ofStep {step : Step} {a : Action} (hstep : step ∈ steps) (h : step.Does a) : OfPlan steps a

theorem Step.Does.complete {step : Step} {a : Action} (h : step.Does a) : a.Complete := by
  cases h with
  | @notify kind hpath =>
    show (Event.ofStep kind step).scriptPath.isSome = kind.carriesScriptPath
    cases hkind : kind.carriesScriptPath with
    | false => simp [Event.ofStep, hkind]
    | true =>
      obtain ⟨path, hruns⟩ := hpath hkind
      simp [Event.ofStep, hkind, hruns.2]
  | runFixture hruns => exact hruns.2
  | runTest hruns => exact hruns.2
  | _ => trivial

theorem Action.OfPlan.complete {steps : List Step} {a : Action} (h : a.OfPlan steps) :
    a.Complete := by
  cases h with
  | check => trivial
  | suite ordinal hkind => exact hkind.symm
  | ofStep hstep h => exact h.complete

theorem Schedule.ofPlan_of_mem {previous : Option UInt32} {s s' : ScopeStack} {steps : List Step}
    {actions : List Action} (h : ofStepsFrom previous s steps = .ok (actions, s'))
    {all : List Step} (hsteps : ∀ step ∈ steps, step ∈ all) : ∀ a ∈ actions, a.OfPlan all := by
  induction steps generalizing previous s actions with
  | nil =>
    cases h
    intro a ha
    cases ha
  | cons step rest ih =>
    obtain ⟨_, first, after, others, hstep, hrest, rfl⟩ := ofStepsFrom_cons_eq_ok.mp h
    rw [List.forall_mem_cons] at hsteps
    rw [List.forall_mem_append]
    refine ⟨?_, ih hrest hsteps.2⟩
    intro a ha
    exact .ofStep hsteps.1 (Step.does_of_mem hstep ha)

variable {config : Config} {callback : String} {steps steps' : List Step} {script : List Action}

theorem ofPlan_of_mem_statementsOf (h : statementsOf config callback steps = .ok script) :
    ∀ a ∈ script, a.OfPlan steps := by
  rcases statementsOf_eq_ok h with ⟨_, rfl⟩ | ⟨_, _, actions, hactions, rfl⟩
  · intro a ha
    cases ha
  · obtain ⟨run, s', hrun, rfl⟩ := Schedule.ofSteps_eq_ok hactions
    intro a ha
    have hmem := (List.mem_filter.mp ha).1
    simp only [Schedule.opening, Schedule.ending, List.mem_append, List.mem_cons,
      List.not_mem_nil, or_false] at hmem
    rcases hmem with ((rfl | rfl) | hmem) | rfl
    · exact .check
    · exact .suite 0 rfl
    · exact Schedule.ofPlan_of_mem hrun (fun step hstep => hstep) a hmem
    · exact .suite _ rfl

/-! ### Plans with the same outline -/

/-- What is left of a step without its texts. -/
def Step.outline (step : Step) : StepKind × UInt32 × UInt32 × Bool :=
  (step.kind, step.ordinal, step.place.depth, step.scriptPath.isSome)

/-- Do two plans differ in their texts only, and in these alike? -/
structure SameOutline (steps steps' : List Step) : Prop where
  /-- Kinds, ordinals and depths are the same, and so is which steps have
      scripts. -/
  outlines : steps.map Step.outline = steps'.map Step.outline
  /-- Two steps of one plan have the same place if they do in the other. -/
  places : ∀ i j : Nat, steps[i]?.map Step.place = steps[j]?.map Step.place ↔
    steps'[i]?.map Step.place = steps'[j]?.map Step.place

/-- A relation that pairs each place with at most one other, in both
    directions. -/
def OneToOne (R : Place → Place → Prop) : Prop :=
  ∀ p q p' q', R p p' → R q q' → (p = q ↔ p' = q')

/-- Are two steps the same but for their texts, and their places paired? -/
def Step.Alike (R : Place → Place → Prop) (step step' : Step) : Prop :=
  step.outline = step'.outline ∧ R step.place step'.place

/-- Are the same scopes open, in places that are paired? -/
structure ScopeStack.Alike (R : Place → Place → Prop) (s s' : ScopeStack) : Prop where
  /-- The scopes have the same numbers and paired places. -/
  scopes : List.Forall₂ (fun a b => a.serial = b.serial ∧ R a.place b.place) s.scopes s'.scopes
  /-- The counters are the same. -/
  nextSerial : s.nextSerial = s'.nextSerial

/-- Plans with the same outline are pairs of such steps, with places paired
    one to one. -/
theorem SameOutline.alike (h : SameOutline steps steps') :
    ∃ R, OneToOne R ∧ List.Forall₂ (Step.Alike R) steps steps' := by
  refine ⟨fun p p' => ∃ i : Nat,
    steps[i]?.map Step.place = some p ∧ steps'[i]?.map Step.place = some p', ?_, ?_⟩
  · intro p q p' q' hp hq
    obtain ⟨i, hi, hi'⟩ := hp
    obtain ⟨j, hj, hj'⟩ := hq
    have hplaces := h.places i j
    rwa [hi, hj, hi', hj', Option.some.injEq, Option.some.injEq] at hplaces
  · have hlength : steps.length = steps'.length := by
      simpa using congrArg List.length h.outlines
    rw [List.forall₂_iff_get]
    refine ⟨hlength, ?_⟩
    intro i hi hi'
    have houtline : (steps.map Step.outline)[i]? = (steps'.map Step.outline)[i]? := by
      rw [h.outlines]
    rw [List.getElem?_map, List.getElem?_map, List.getElem?_eq_getElem hi,
      List.getElem?_eq_getElem hi'] at houtline
    refine ⟨Option.some.inj houtline, i, ?_, ?_⟩
    · rw [List.getElem?_eq_getElem hi]
      rfl
    · rw [List.getElem?_eq_getElem hi']
      rfl

/-! ### Steps that are alike do the same -/

section Alike

variable {R : Place → Place → Prop}

/-- In paired places the same scope is found open. -/
theorem ScopeStack.Alike.find?_serial (hR : OneToOne R) {s s' : ScopeStack} (h : s.Alike R s')
    {place place' : Place} (hplace : R place place') :
    (s.find? place).map Scope.serial = (s'.find? place').map Scope.serial := by
  unfold find?
  have hscopes := h.scopes
  generalize s.scopes = scopes at hscopes ⊢
  generalize s'.scopes = scopes' at hscopes ⊢
  induction hscopes with
  | nil => rfl
  | @cons scope scope' outer outer' hscope _ ih =>
    -- so both searches go past this scope, or neither does
    have hsame : scope.place = place ↔ scope'.place = place' := hR _ _ _ _ hscope.2 hplace
    rw [List.find?_cons, List.find?_cons]
    by_cases hopen : scope.place = place
    · simp [hopen, hsame.mp hopen, hscope.1]
    · have hopen' : ¬ scope'.place = place' := fun heq => hopen (hsame.mpr heq)
      simp [hopen, hopen', ih]

/-- Entering paired places opens the same savepoint, or none. -/
theorem ScopeStack.Alike.enter (hR : OneToOne R) {s s' : ScopeStack} (h : s.Alike R s')
    {place place' : Place} (hplace : R place place') :
    (s.enter place).1.actions = (s'.enter place').1.actions ∧
      (s.enter place).2.Alike R (s'.enter place').2 := by
  have hfind := h.find?_serial hR hplace
  rcases s.find?_eq_none_or_some place with ⟨hnone, henter⟩ | ⟨scope, hsome, henter⟩
  · rcases s'.find?_eq_none_or_some place' with ⟨_, henter'⟩ | ⟨scope', hsome', _⟩
    · rw [henter, henter', h.nextSerial]
      exact ⟨rfl, .cons ⟨rfl, hplace⟩ h.scopes, rfl⟩
    · rw [hnone, hsome'] at hfind
      cases hfind
  · rcases s'.find?_eq_none_or_some place' with ⟨hnone', _⟩ | ⟨scope', _, henter'⟩
    · rw [hsome, hnone'] at hfind
      cases hfind
    · rw [henter, henter']
      exact ⟨rfl, h⟩

theorem ScopeStack.Alike.isolateTest {s s' : ScopeStack} (h : s.Alike R s') :
    s.isolateTest.1 = s'.isolateTest.1 ∧ s.isolateTest.2.Alike R s'.isolateTest.2 := by
  unfold ScopeStack.isolateTest
  rw [h.nextSerial]
  exact ⟨rfl, h.scopes, rfl⟩

/-- The events of steps that are alike have the same shape. -/
theorem Step.shape_ofStep {step step' : Step} (h : step.outline = step'.outline)
    (kind : EventKind) :
    (Action.notify (.ofStep kind step)).shape = (Action.notify (.ofStep kind step')).shape := by
  obtain ⟨_, hordinal, hdepth, _⟩ : _ ∧ _ ∧ _ ∧ _ := by simpa [outline] using h
  simp [Action.shape, Event.ofStep, hordinal, hdepth]

/-- Steps that are alike do the same, up to their texts, and leave the same
    scopes open. -/
theorem Step.shapes_eq_of_alike (hR : OneToOne R) {step step' : Step} (h : step.Alike R step')
    {s s' t t' : ScopeStack} (hs : s.Alike R s') {actions actions' : List Action}
    (hstep : step.actions s = .ok (actions, t)) (hstep' : step'.actions s' = .ok (actions', t')) :
    actions.map Action.shape = actions'.map Action.shape ∧ t.Alike R t' := by
  obtain ⟨houtline, hplace⟩ := h
  have hevent := shape_ofStep houtline
  obtain ⟨hkinds, hordinal, hdepth, _⟩ : _ ∧ _ ∧ _ ∧ _ := by simpa [outline] using houtline
  obtain ⟨hentered, hscopes⟩ := hs.enter hR hplace
  -- both are of the same kind, so the other pairs of cases contradict `hkinds`
  rcases actions_cases hstep with ⟨path, hkind, _, h⟩ | ⟨path, hkind, _, h⟩ |
    ⟨scope, outer, hkind, hopen, _, rfl, rfl⟩
  · rcases actions_cases hstep' with ⟨path', _, _, h'⟩ | ⟨_, hkind', _⟩ | ⟨_, _, hkind', _⟩
    · have hlist : actions = (step.fixtureActions path s).1 := congrArg Prod.fst h
      have hlist' : actions' = (step'.fixtureActions path' s').1 := congrArg Prod.fst h'
      have hafter : t = (s.enter step.place).2 := congrArg Prod.snd h
      have hafter' : t' = (s'.enter step'.place).2 := congrArg Prod.snd h'
      rw [hlist, hlist', hafter, hafter', fixtureActions_fst, fixtureActions_fst, hentered]
      simp only [List.map_append, List.map_cons, List.map_nil, hevent]
      exact ⟨rfl, hscopes⟩
    · rw [← hkinds, hkind] at hkind'
      cases hkind'
    · rw [← hkinds, hkind] at hkind'
      cases hkind'
  · rcases actions_cases hstep' with ⟨_, hkind', _⟩ | ⟨path', _, _, h'⟩ | ⟨_, _, hkind', _⟩
    · rw [← hkinds, hkind] at hkind'
      cases hkind'
    · have hlist : actions = (step.testActions path s).1 := congrArg Prod.fst h
      have hlist' : actions' = (step'.testActions path' s').1 := congrArg Prod.fst h'
      have hafter : t = (s.enter step.place).2.isolateTest.2 := congrArg Prod.snd h
      have hafter' : t' = (s'.enter step'.place).2.isolateTest.2 := congrArg Prod.snd h'
      obtain ⟨hsavepoint, hisolated⟩ := hscopes.isolateTest
      have htest : (Action.runTest step path).shape = (Action.runTest step' path').shape := by
        simp [Action.shape, hordinal, hdepth]
      rw [hlist, hlist', hafter, hafter', testActions_fst, testActions_fst, hentered, hsavepoint]
      simp only [List.map_append, List.map_cons, List.map_nil, hevent, htest]
      exact ⟨trivial, hisolated⟩
    · rw [← hkinds, hkind] at hkind'
      cases hkind'
  · rcases actions_cases hstep' with ⟨_, hkind', _⟩ | ⟨_, hkind', _⟩ |
      ⟨scope', outer', _, hopen', _, rfl, rfl⟩
    · rw [← hkinds, hkind] at hkind'
      cases hkind'
    · rw [← hkinds, hkind] at hkind'
      cases hkind'
    · have hboth := hs.scopes
      rw [hopen, hopen'] at hboth
      obtain ⟨⟨hserial, _⟩, houter⟩ := List.forall₂_cons.mp hboth
      have hreleased : scope.close.savepoint = scope'.close.savepoint := by
        simp [Scope.savepoint, Scope.close, hserial]
      simp only [teardownActions, List.map_cons, List.map_nil, hevent, hreleased]
      exact ⟨trivial, houter, hs.nextSerial⟩

/-- So do runs of such steps. -/
theorem Schedule.shapes_eq_of_alike (hR : OneToOne R) {steps steps' : List Step}
    (h : List.Forall₂ (Step.Alike R) steps steps') {previous previous' : Option UInt32}
    {s s' t t' : ScopeStack} (hs : s.Alike R s') {actions actions' : List Action}
    (hrun : ofStepsFrom previous s steps = .ok (actions, t))
    (hrun' : ofStepsFrom previous' s' steps' = .ok (actions', t')) :
    actions.map Action.shape = actions'.map Action.shape := by
  induction h generalizing previous previous' s s' actions actions' with
  | nil =>
    cases hrun
    cases hrun'
    rfl
  | cons halike _ ih =>
    obtain ⟨_, first, after, others, hstep, hrest, rfl⟩ := ofStepsFrom_cons_eq_ok.mp hrun
    obtain ⟨_, first', after', others', hstep', hrest', rfl⟩ := ofStepsFrom_cons_eq_ok.mp hrun'
    obtain ⟨hfirst, hafter⟩ := Step.shapes_eq_of_alike hR halike hs hstep hstep'
    rw [List.map_append, List.map_append, hfirst, ih hafter hrest hrest']

end Alike

/-! ### Scripts of such plans -/

/-- Is the statement for an observer? -/
def Shape.forObserver : Shape → Bool
  | .check => true
  | .event _ _ _ => true
  | _ => false

/-- Whether an action leaves a statement does not depend on its texts. -/
theorem Wording.writes_eq_of_shape (w : Wording) (a : Action) :
    w.writes a = (!a.shape.forObserver || w.observer.isSome) := by
  cases a <;> simp [Action.shape, Shape.forObserver]

theorem Wording.map_shape_statements {w : Wording} {actions actions' : List Action}
    (h : actions.map Action.shape = actions'.map Action.shape) :
    (w.statements actions).map Action.shape = (w.statements actions').map Action.shape := by
  induction actions generalizing actions' with
  | nil =>
    have hnil : actions' = [] := by simpa using h.symm
    rw [hnil]
  | cons a rest ih =>
    cases actions' with
    | nil => cases h
    | cons b others =>
      obtain ⟨hshape, hrest⟩ := List.cons.inj h
      rw [statements_cons, statements_cons, writes_eq_of_shape, writes_eq_of_shape, hshape]
      split
      · rw [List.map_cons, List.map_cons, hshape, ih hrest]
      · exact ih hrest

/-- The statements of two plans with the same outline have the same shapes. -/
theorem SameOutline.shapes_eq (h : SameOutline steps steps') {script script' : List Action}
    (hscript : statementsOf config callback steps = .ok script)
    (hscript' : statementsOf config callback steps' = .ok script') :
    script.map Action.shape = script'.map Action.shape := by
  have hlength : steps.length = steps'.length := by
    simpa using congrArg List.length h.outlines
  rcases statementsOf_eq_ok hscript with ⟨rfl, rfl⟩ | ⟨hne, _, actions, hactions, rfl⟩
  · have hnil : steps' = [] := List.length_eq_zero_iff.mp hlength.symm
    rw [hnil] at hscript'
    cases hscript'
    rfl
  rcases statementsOf_eq_ok hscript' with ⟨hnil, _⟩ | ⟨_, _, actions', hactions', rfl⟩
  · rw [hnil] at hlength
    exact absurd (List.length_eq_zero_iff.mp hlength) hne
  obtain ⟨run, t, hrun, rfl⟩ := Schedule.ofSteps_eq_ok hactions
  obtain ⟨run', t', hrun', rfl⟩ := Schedule.ofSteps_eq_ok hactions'
  obtain ⟨R, hR, halike⟩ := h.alike
  have hshapes := Schedule.shapes_eq_of_alike hR halike ⟨.nil, rfl⟩ hrun hrun'
  have hlast : Schedule.lastOrdinal steps = Schedule.lastOrdinal steps' := by
    have houtline := congrArg List.getLast? h.outlines
    rw [List.getLast?_map, List.getLast?_map] at houtline
    unfold Schedule.lastOrdinal
    cases hx : steps.getLast? with
    | none =>
      cases hy : steps'.getLast? with
      | none => rfl
      | some y => simp [hx, hy] at houtline
    | some x =>
      cases hy : steps'.getLast? with
      | none => simp [hx, hy] at houtline
      | some y =>
        rw [hx, hy] at houtline
        exact congrArg (fun outline => outline.2.1) (Option.some.inj houtline)
  apply Wording.map_shape_statements
  rw [List.map_append, List.map_append, List.map_append, List.map_append, hshapes]
  unfold Schedule.ending
  rw [hlast]

/-! ### Tokens of such scripts -/

/-- Without literals and delimiters, the texts of a part are gone. -/
theorem Part.erase_tokens (texts texts' : Texts) (part : Part) :
    (part.tokens texts).map Token.erase = (part.tokens texts').map Token.erase := by
  cases part <;> rfl

theorem Skeleton.erase_tokens (texts texts' : Texts) (tag tag' : List Char)
    (skeleton : Skeleton) :
    (skeleton.tokens texts tag).map Token.erase =
      (skeleton.tokens texts' tag').map Token.erase := by
  have hparts : ∀ parts : List Part, (parts.flatMap (Part.tokens texts)).map Token.erase =
      (parts.flatMap (Part.tokens texts')).map Token.erase := by
    intro parts
    rw [List.map_flatMap, List.map_flatMap]
    apply List.flatMap_congr
    intro part _
    exact part.erase_tokens texts texts'
  cases skeleton with
  | statement parts => exact hparts parts
  | block body => simp [Skeleton.tokens, hparts body, Token.erase]

/-- The tokens of an action's statement. -/
def Action.tokens (config : Config) (callback : String) (a : Action) (tag : List Char) :
    List Token :=
  (Skeleton.ofShape config (.ofCallback callback) a.shape).tokens (a.texts callback) tag

/-- Scripts of the same shapes are the same tokens, but for literals and
    delimiters. -/
theorem erase_tokens_of_shapes {script script' : List Action}
    (h : script.map Action.shape = script'.map Action.shape) (tagOf tagOf' : Action → List Char) :
    (script.flatMap fun a => a.tokens config callback (tagOf a)).map Token.erase =
      (script'.flatMap fun a => a.tokens config callback (tagOf' a)).map Token.erase := by
  induction script generalizing script' with
  | nil =>
    have hnil : script' = [] := by simpa using h.symm
    rw [hnil]
    rfl
  | cons a rest ih =>
    cases script' with
    | nil => cases h
    | cons b others =>
      obtain ⟨hshape, hrest⟩ := List.cons.inj h
      have hfirst : (a.tokens config callback (tagOf a)).map Token.erase =
          (b.tokens config callback (tagOf' b)).map Token.erase := by
        unfold Action.tokens
        rw [hshape]
        exact Skeleton.erase_tokens ..
      rw [List.flatMap_cons, List.flatMap_cons, List.map_append, List.map_append, hfirst, ih hrest]

/-- Texts on lines of their own are read one after the other. -/
theorem readTokens_intercalate {α : Type} {items : List α} {text : α → String}
    {tokens : α → List Token} (depth : Nat)
    (h : ∀ item ∈ items, readTokens depth (text item).toList = some (tokens item)) :
    readTokens depth ("\n".intercalate (items.map text)).toList = some (items.flatMap tokens) := by
  have hempty : readTokens depth [] = some [] := readTokens_of_no_string depth rfl (by simp)
  have hbreak : readTokens depth ['\n'] = some [] := readTokens_of_no_string depth rfl (by simp)
  induction items with
  | nil => exact hempty
  | cons item items ih =>
    rw [List.forall_mem_cons] at h
    obtain ⟨hitem, hitems⟩ := h
    cases items with
    | nil => simpa using hitem
    | cons next items =>
      have hrest := readTokens_append depth hbreak (ih hitems) (.inl rfl)
      have hboth := readTokens_append depth hitem hrest (.inr rfl)
      simpa [String.intercalate_cons_cons] using hboth

/-- The tokens of a script are those of its statements, one after the other. -/
theorem readTokens_statementsOf (h : statementsOf config callback steps = .ok script)
    (depth : Nat) :
    ∃ tagOf : Action → List Char,
      (∀ a ∈ script, IsTag (tagOf a) ∧
        readTokens (depth + 1) ((Wording.ofCallback config callback).statementText a).toList =
          some (a.tokens config callback (tagOf a))) ∧
      readTokens (depth + 1) ((Wording.ofCallback config callback).text script).toList =
        some (script.flatMap fun a => a.tokens config callback (tagOf a)) := by
  have hwrites := writes_of_mem_statementsOf h
  have hread : ∀ a ∈ script, ∃ tag, IsTag tag ∧
      readTokens (depth + 1) ((Wording.ofCallback config callback).statementText a).toList =
        some (a.tokens config callback tag) := by
    intro a ha
    have hcomplete := (ofPlan_of_mem_statementsOf h a ha).complete
    rcases statementsOf_eq_ok h with ⟨_, rfl⟩ | ⟨_, htag, _⟩
    · cases ha
    · exact Wording.readTokens_statementText htag (hwrites a ha) hcomplete depth
  choose! tagOf htagOf using hread
  refine ⟨tagOf, htagOf, ?_⟩
  rw [Wording.text_eq_intercalate_statementText hwrites]
  apply readTokens_intercalate
  intro a ha
  exact (htagOf a ha).2

/-- The statements of a plan are read as skeletons, with the texts of its
    steps as the contents of literals and nowhere else, and dollar-quoted
    strings opened to any depth.  So plans with the same outline are the
    same tokens, but for the contents of literals and the choice of
    delimiters. -/
theorem compile_tokens_eq_skeletons {plan : CompiledPlan}
    (h : compile config callback steps = .ok plan) (depth : Nat) :
    ∃ (script : List Action) (tagOf : Action → List Char),
      statementsOf config callback steps = .ok script ∧
      (∀ a ∈ script, a.OfPlan steps ∧ IsTag (tagOf a) ∧
        readTokens (depth + 1) ((Wording.ofCallback config callback).statementText a).toList =
          some ((Skeleton.ofShape config (.ofCallback callback) a.shape).tokens
            (a.texts callback) (tagOf a))) ∧
      readTokens (depth + 1) plan.sql.toList =
        some (script.flatMap fun a => a.tokens config callback (tagOf a)) ∧
      ∀ steps' plan', SameOutline steps steps' → compile config callback steps' = .ok plan' →
        (readTokens (depth + 1) plan'.sql.toList).map (·.map Token.erase) =
          (readTokens (depth + 1) plan.sql.toList).map (·.map Token.erase) := by
  obtain ⟨script, hscript, hsql, _⟩ := compile_eq_ok_iff.mp h
  obtain ⟨tagOf, hstatements, hwhole⟩ := readTokens_statementsOf hscript depth
  rw [← hsql] at hwhole
  refine ⟨script, tagOf, hscript, ?_, hwhole, ?_⟩
  · intro a ha
    exact ⟨ofPlan_of_mem_statementsOf hscript a ha, hstatements a ha⟩
  · intro steps' plan' houtline hplan'
    obtain ⟨script', hscript', hsql', _⟩ := compile_eq_ok_iff.mp hplan'
    obtain ⟨tagOf', _, hwhole'⟩ := readTokens_statementsOf hscript' depth
    have hshapes := houtline.shapes_eq hscript hscript'
    rw [hwhole, hsql', hwhole', Option.map_some, Option.map_some,
      erase_tokens_of_shapes hshapes.symm tagOf' tagOf]

/-- A plan with the outline of the hostile one. -/
def tamePlan : List Step := [
  ⟨1, .fixture, some "a.sql", ⟨"a/", 0⟩⟩,
  ⟨2, .test, some "b.sql", ⟨"b/", 1⟩⟩,
  ⟨3, .teardown, none, ⟨"b/", 1⟩⟩]

/-- Whatever it tries, the hostile plan is the same tokens as the tame one. -/
theorem hostilePlan_tokens_eq_tamePlan :
    ∃ plan plan', compile hostileConfig "x'); DROP" hostilePlan = .ok plan ∧
      compile hostileConfig "x'); DROP" tamePlan = .ok plan' ∧
      SameOutline hostilePlan tamePlan ∧
      (readTokens 1 plan'.sql.toList).map (·.map Token.erase) =
        (readTokens 1 plan.sql.toList).map (·.map Token.erase) := by
  have hcompile : ∃ plan, compile hostileConfig "x'); DROP" hostilePlan = .ok plan := ⟨_, rfl⟩
  have hcompile' : ∃ plan, compile hostileConfig "x'); DROP" tamePlan = .ok plan := ⟨_, rfl⟩
  obtain ⟨plan, hplan⟩ := hcompile
  obtain ⟨plan', hplan'⟩ := hcompile'
  have houtline : SameOutline hostilePlan tamePlan := by
    refine ⟨by decide, ?_⟩
    intro i j
    rcases i with _ | _ | _ | i <;> rcases j with _ | _ | _ | j <;>
      simp [hostilePlan, tamePlan]
  obtain ⟨_, _, _, _, _, htokens⟩ := compile_tokens_eq_skeletons hplan 0
  exact ⟨plan, plan', hplan, hplan', houtline, htokens tamePlan plan' houtline hplan'⟩

end SuiteScript
