import SuiteScript.Proofs.Acceptance

/-! # Raised serial numbers

    Steps look at the places that are open, never at the number of a
    savepoint.  So a run that starts with a higher counter does the same
    under higher numbers: raising all numbers commutes with every step
    (`Step.actions_raise`) and with every run
    (`Schedule.ofStepsFrom_raise`).

    How far steps drive the counter can be told from the plan alone: one for
    each place that they open, and one for each test
    (`Schedule.nextSerial_eq_serialsTaken`). -/

namespace SuiteScript

/-! ### Raising numbers -/

/-- The savepoint whose number is higher by `n`. -/
def Savepoint.raise (n : Nat) (sp : Savepoint) : Savepoint := { sp with serial := sp.serial + n }

/-- The scope whose number is higher by `n`. -/
def Scope.raise (n : Nat) (scope : Scope) : Scope := { scope with serial := scope.serial + n }

/-- The same open scopes, all numbered higher by `n`. -/
def ScopeStack.raise (n : Nat) (s : ScopeStack) : ScopeStack where
  scopes := s.scopes.map (Scope.raise n)
  nextSerial := s.nextSerial + n

/-- The entry of a place under numbers that are higher by `n`. -/
def ScopeEntry.raise (n : Nat) : ScopeEntry → ScopeEntry
  | .opened sp => .opened (sp.raise n)
  | .alreadyOpen sp => .alreadyOpen (sp.raise n)

/-- The same action on a savepoint whose number is higher by `n`. -/
def Action.raise (n : Nat) : Action → Action
  | .openSavepoint sp => .openSavepoint (sp.raise n)
  | .rollBackTo sp => .rollBackTo (sp.raise n)
  | .release sp => .release (sp.raise n)
  | a => a

/-- What a run has done and left open, under numbers that are higher by `n`. -/
def raiseRun (n : Nat) (run : List Action × ScopeStack) : List Action × ScopeStack :=
  (run.1.map (Action.raise n), run.2.raise n)

theorem ScopeEntry.actions_raise (n : Nat) (entry : ScopeEntry) :
    (entry.raise n).actions = entry.actions.map (Action.raise n) := by
  cases entry <;> rfl

/-- Raising changes no script that is executed. -/
@[simp] theorem Action.run?_raise (n : Nat) (a : Action) : (a.raise n).run? = a.run? := by
  cases a <;> rfl

namespace ScopeStack

variable (n : Nat) (s : ScopeStack)

theorem find?_raise (place : Place) :
    (s.raise n).find? place = (s.find? place).map (Scope.raise n) := by
  unfold find? raise
  rw [List.find?_map]
  rfl

theorem enter_raise (place : Place) :
    (s.raise n).enter place = ((s.enter place).1.raise n, (s.enter place).2.raise n) := by
  have hfind := s.find?_raise n place
  unfold enter
  cases h : s.find? place with
  | none =>
    rw [h, Option.map_none] at hfind
    rw [hfind]
    simp [raise, ScopeEntry.raise, Scope.raise, Scope.savepoint, Savepoint.raise,
      Nat.add_right_comm]
  | some scope =>
    rw [h, Option.map_some] at hfind
    rw [hfind]
    rfl

theorem isolateTest_raise :
    (s.raise n).isolateTest = (s.isolateTest.1.raise n, s.isolateTest.2.raise n) := by
  simp [isolateTest, raise, Savepoint.raise, Nat.add_right_comm]

theorem exit_raise (ordinal : UInt32) (place : Place) :
    (s.raise n).exit ordinal place =
      (s.exit ordinal place).map fun closed => (closed.1.raise n, closed.2.raise n) := by
  cases s with
  | mk scopes next =>
    cases scopes with
    | nil => rfl
    | cons innermost outer =>
      unfold exit
      by_cases h : innermost.place = place
      · simp [raise, Scope.raise, Scope.close, h, Except.map]
      · simp [raise, Scope.raise, h, Except.map]

/-- Without open scopes, only the counter is left to tell a state from the
    initial one. -/
theorem eq_raise_of_places_eq_nil {s : ScopeStack} (h : s.places = []) :
    s = ScopeStack.raise s.nextSerial {} := by
  cases s with
  | mk scopes next =>
    have hscopes : scopes = [] := by simpa [places] using h
    simp [raise, hscopes]

end ScopeStack

namespace Step

variable (step : Step) (n : Nat) (s : ScopeStack)

theorem fixtureActions_raise (path : String) :
    step.fixtureActions path (s.raise n) = raiseRun n (step.fixtureActions path s) := by
  simp [fixtureActions, raiseRun, ScopeStack.enter_raise, ScopeEntry.actions_raise, Action.raise]

theorem testActions_raise (path : String) :
    step.testActions path (s.raise n) = raiseRun n (step.testActions path s) := by
  simp [testActions, raiseRun, ScopeStack.enter_raise, ScopeStack.isolateTest_raise,
    ScopeEntry.actions_raise, Action.raise]

theorem teardownActions_raise (scope : Scope) :
    step.teardownActions (scope.raise n) = (step.teardownActions scope).map (Action.raise n) := rfl

/-- Under higher numbers, a step does and fails to do the same. -/
theorem actions_raise : step.actions (s.raise n) = (step.actions s).map (raiseRun n) := by
  unfold Step.actions
  cases step.kind with
  | fixture =>
    cases step.requirePath with
    | error e => rfl
    | ok path => exact congrArg Except.ok (step.fixtureActions_raise n s path)
  | test =>
    cases step.requirePath with
    | error e => rfl
    | ok path => exact congrArg Except.ok (step.testActions_raise n s path)
  | teardown =>
    simp only [ScopeStack.exit_raise]
    cases s.exit step.ordinal step.place with
    | error e => rfl
    | ok closed => rfl

end Step

namespace Schedule

/-- So does a run of steps. -/
theorem ofStepsFrom_raise (n : Nat) (previous : Option UInt32) (s : ScopeStack)
    (steps : List Step) :
    ofStepsFrom previous (s.raise n) steps = (ofStepsFrom previous s steps).map (raiseRun n) := by
  induction steps generalizing previous s with
  | nil => rfl
  | cons step rest ih =>
    unfold ofStepsFrom
    rw [Step.actions_raise]
    cases step.checkOrder previous with
    | error e => rfl
    | ok u =>
      cases step.actions s with
      | error e => rfl
      | ok first =>
        -- the stack that the step leaves is raised as well
        have hrest := ih (some step.ordinal) first.2
        simp only [bind, Except.bind, Except.map, pure, Except.pure, raiseRun] at hrest ⊢
        rw [hrest]
        cases ofStepsFrom (some step.ordinal) first.2 rest with
        | error e => rfl
        | ok others => simp only [List.map_append]

/-- Only the first step is compared with what was before, so a smaller ordinal
    there makes no difference. -/
theorem ofStepsFrom_eq_ofStepsFrom_none {previous : Option UInt32} {s : ScopeStack}
    {steps : List Step} (h : ∀ p ∈ previous, ∀ first ∈ steps.head?, p < first.ordinal) :
    ofStepsFrom previous s steps = ofStepsFrom none s steps := by
  cases steps with
  | nil => rfl
  | cons step rest =>
    have horder : step.checkOrder previous = .ok () := by
      rw [Step.checkOrder_eq_ok_iff]
      intro p hp
      exact h p hp step rfl
    unfold ofStepsFrom
    rw [horder]
    rfl

end Schedule

/-! ### How many numbers are taken -/

/-- Does a step open its place, if `opened` are open? -/
def Step.opensPlace (opened : List Place) (step : Step) : Bool :=
  step.kind.runsScript && !opened.contains step.place

/-- How many of the steps open their place, if `opened` are open before the
    first. -/
def placesOpened (opened : List Place) : List Step → Nat
  | [] => 0
  | step :: rest =>
    (step.opensPlace opened).toNat + placesOpened (step.openPlaces opened) rest

/-- How many savepoints a plan numbers: one for each place that it opens, and
    one for each test. -/
def serialsTaken (steps : List Step) : Nat :=
  placesOpened [] steps + steps.countP (·.kind = .test)

theorem ScopeStack.nextSerial_enter (s : ScopeStack) (place : Place) :
    (s.enter place).2.nextSerial = s.nextSerial + (!s.places.contains place).toNat := by
  rcases s.find?_eq_none_or_some place with ⟨hnone, henter⟩ | ⟨scope, hsome, henter⟩
  · have hclosed := find?_eq_none_iff.mp hnone
    simp [henter, hclosed]
  · have hopen : place ∈ s.places := by
      by_contra hclosed
      rw [find?_eq_none_iff.mpr hclosed] at hsome
      cases hsome
    simp [henter, hopen]

namespace Step

variable {step : Step} {s s' : ScopeStack} {actions : List Action}

theorem nextSerial_actions (h : step.actions s = .ok (actions, s')) :
    s'.nextSerial = s.nextSerial + (step.opensPlace s.places).toNat +
      [step].countP (·.kind = .test) := by
  have henter := s.nextSerial_enter step.place
  unfold opensPlace
  rcases actions_cases h with ⟨path, hkind, _, h⟩ | ⟨path, hkind, _, h⟩ |
    ⟨scope, outer, hkind, _, _, _, rfl⟩
  · have hafter : s' = (s.enter step.place).2 := congrArg Prod.snd h
    simp [hafter, henter, hkind, StepKind.runsScript]
  · have hafter : s'.nextSerial = (s.enter step.place).2.nextSerial + 1 :=
      congrArg (ScopeStack.nextSerial ·.2) h
    simp [hafter, henter, hkind, StepKind.runsScript]
  · simp [hkind, StepKind.runsScript]

end Step

namespace Schedule

variable {previous : Option UInt32} {s s' : ScopeStack} {steps : List Step} {actions : List Action}

theorem nextSerial_ofStepsFrom (h : ofStepsFrom previous s steps = .ok (actions, s')) :
    s'.nextSerial = s.nextSerial + placesOpened s.places steps +
      steps.countP (·.kind = .test) := by
  induction steps generalizing previous s actions with
  | nil => cases h; rfl
  | cons step rest ih =>
    obtain ⟨_, first, after, others, hstep, hrest, _⟩ := ofStepsFrom_cons_eq_ok.mp h
    rw [ih hrest, Step.nextSerial_actions hstep, Step.places_actions hstep, placesOpened]
    have htests : (step :: rest).countP (·.kind = .test) =
        [step].countP (·.kind = .test) + rest.countP (·.kind = .test) := by
      rw [← List.countP_append, List.singleton_append]
    omega

/-- A plan drives the counter from zero to the number of its savepoints. -/
theorem nextSerial_eq_serialsTaken (h : ofStepsFrom none {} steps = .ok (actions, s')) :
    s'.nextSerial = serialsTaken steps := by
  have hserial := nextSerial_ofStepsFrom h
  rw [hserial, serialsTaken]
  show 0 + placesOpened [] steps + _ = _
  omega

end Schedule

end SuiteScript
