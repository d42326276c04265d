import Mathlib.Data.List.Nodup
import SuiteScript.Proofs.Acceptance
import SuiteScript.Proofs.SavepointNames

/-! # Scope stacks under any calls

    A compiled plan uses its scope stack in an orderly way.  Here the stack
    is on its own: places are entered and left, and tests numbered, in any
    order whatever, and places may be left that are not open.

    `Answers` says what each call may do, as a relation between the stack
    before it, its answer and the stack after it.  On a sound stack this
    determines the call (`call_eq_iff_answers`), every call keeps a stack
    sound, and no savepoint is handed out twice. -/

namespace SuiteScript

/-! ### Calls -/

/-- A use of a scope stack. -/
inductive ScopeCall where
  /-- Enters a place. -/
  | enter (place : Place)
  /-- Asks for a savepoint that isolates a test. -/
  | isolateTest
  /-- Leaves a place; the ordinal is for the error. -/
  | exit (ordinal : UInt32) (place : Place)
deriving DecidableEq, Repr

/-- What a call answers. -/
inductive ScopeAnswer where
  /-- A place has been entered. -/
  | entered (entry : ScopeEntry)
  /-- A test's savepoint has been numbered. -/
  | isolated (savepoint : Savepoint)
  /-- A scope has been closed. -/
  | closed (scope : Scope)
  /-- The place could not be left. -/
  | refused (error : PlanError)
deriving DecidableEq, Repr

/-- The savepoint that an answer hands out as a new one. -/
def ScopeAnswer.savepoint? : ScopeAnswer → Option Savepoint
  | entered (.opened savepoint) => some savepoint
  | isolated savepoint => some savepoint
  | _ => none

namespace ScopeStack

/-- Makes a call.  A place that cannot be left leaves the stack as it was. -/
def call (s : ScopeStack) : ScopeCall → ScopeAnswer × ScopeStack
  | .enter place => (.entered (s.enter place).1, (s.enter place).2)
  | .isolateTest => (.isolated s.isolateTest.1, s.isolateTest.2)
  | .exit ordinal place =>
    match s.exit ordinal place with
    | .ok (scope, after) => (.closed scope, after)
    | .error e => (.refused e, s)

/-- Makes calls one after the other. -/
def callAll (s : ScopeStack) : List ScopeCall → List ScopeAnswer × ScopeStack
  | [] => ([], s)
  | c :: rest => ((s.call c).1 :: ((s.call c).2.callAll rest).1, ((s.call c).2.callAll rest).2)

/-! ### What stacks and calls should be -/

/-- What holds of the open scopes at any time. -/
structure Sound (s : ScopeStack) : Prop where
  /-- No place is open twice. -/
  places_nodup : (s.scopes.map (·.place)).Nodup
  /-- What is on the stack is open. -/
  opened : ∀ scope ∈ s.scopes, scope.state = .opened
  /-- From the outermost scope to the innermost one, numbers increase. -/
  increasing : (s.scopes.reverse.map (·.serial)).Pairwise (· < ·)
  /-- The counter is ahead of all of them. -/
  serial_lt : ∀ scope ∈ s.scopes, scope.serial < s.nextSerial
  /-- A scope's savepoint is named for a directory and the scope's number. -/
  named : ∀ scope ∈ s.scopes, scope.savepoint.name = Savepoint.name ⟨.directory, scope.serial⟩

/-- What a call does to a stack `s`: its answer and the stack after it. -/
inductive Answers (s : ScopeStack) : ScopeCall → ScopeAnswer → ScopeStack → Prop
  /-- A place that is open, anywhere on the stack, is not opened again. -/
  | alreadyOpen {scope : Scope} (opened : scope ∈ s.scopes) :
      Answers s (.enter scope.place) (.entered (.alreadyOpen scope.savepoint)) s
  /-- A place that is not open gets a scope, which is innermost. -/
  | opened {place : Place} (new : ∀ scope ∈ s.scopes, scope.place ≠ place) :
      Answers s (.enter place) (.entered (.opened ⟨.directory, s.nextSerial⟩))
        ⟨⟨s.nextSerial, place, .opened⟩ :: s.scopes, s.nextSerial + 1⟩
  /-- A test gets a number and nothing else. -/
  | isolated : Answers s .isolateTest (.isolated ⟨.test, s.nextSerial⟩)
      ⟨s.scopes, s.nextSerial + 1⟩
  /-- The innermost place can be left, and only its scope goes. -/
  | closed {innermost : Scope} {outer : List Scope} (ordinal : UInt32)
      (scopes : s.scopes = innermost :: outer) :
      Answers s (.exit ordinal innermost.place) (.closed { innermost with state := .closed })
        ⟨outer, s.nextSerial⟩
  /-- Without an open scope no place can be left. -/
  | nothingOpen (ordinal : UInt32) (place : Place) (scopes : s.scopes = []) :
      Answers s (.exit ordinal place) (.refused (.teardownWithoutScope ordinal place)) s
  /-- Nor can a place that is not innermost. -/
  | otherOpen {innermost : Scope} {outer : List Scope} {place : Place} (ordinal : UInt32)
      (scopes : s.scopes = innermost :: outer) (other : innermost.place ≠ place) :
      Answers s (.exit ordinal place)
        (.refused (.unmatchedTeardown ordinal place innermost.place)) s

/-! ### One call -/

variable {s s' : ScopeStack} {c : ScopeCall} {answer : ScopeAnswer}

/-- Every call does what it may do. -/
theorem answers_call (s : ScopeStack) (c : ScopeCall) :
    Answers s c (s.call c).1 (s.call c).2 := by
  cases c with
  | enter place =>
    rcases s.find?_eq_none_or_some place with ⟨hnone, henter⟩ | ⟨scope, hsome, henter⟩
    · have hnew : ∀ scope ∈ s.scopes, scope.place ≠ place := by
        simpa [find?] using hnone
      rw [call, henter]
      exact .opened hnew
    · have hplace : scope.place = place := by simpa using List.find?_some hsome
      rw [call, henter, ← hplace]
      exact .alreadyOpen (List.mem_of_find?_eq_some hsome)
  | isolateTest => exact .isolated
  | exit ordinal place =>
    cases hscopes : s.scopes with
    | nil =>
      simp only [call, exit, hscopes]
      exact .nothingOpen ordinal place hscopes
    | cons innermost outer =>
      by_cases hplace : innermost.place = place
      · subst hplace
        simp only [call, exit, hscopes, if_true]
        exact .closed ordinal hscopes
      · simp only [call, exit, hscopes, if_neg hplace]
        exact .otherOpen ordinal hscopes hplace

/-- On a sound stack there is one thing that a call may do. -/
theorem Answers.unique {answer' : ScopeAnswer} {s'' : ScopeStack} (hs : s.Sound)
    (h : Answers s c answer s') (h' : Answers s c answer' s'') :
    answer = answer' ∧ s' = s'' := by
  cases h with
  | @alreadyOpen scope opened =>
    generalize hplace : scope.place = place at h'
    cases h' with
    | @alreadyOpen other opened' =>
      -- no other scope has the same place
      rw [List.inj_on_of_nodup_map hs.places_nodup opened opened' hplace]
      exact ⟨rfl, rfl⟩
    | opened new => exact absurd hplace (new scope opened)
  | opened new =>
    cases h' with
    | alreadyOpen opened' => exact absurd rfl (new _ opened')
    | opened => exact ⟨rfl, rfl⟩
  | isolated =>
    cases h'
    exact ⟨rfl, rfl⟩
  | @closed innermost outer ordinal scopes =>
    generalize hplace : innermost.place = place at h'
    cases h' with
    | closed _ scopes' =>
      rw [scopes] at scopes'
      cases scopes'
      exact ⟨rfl, rfl⟩
    | nothingOpen _ _ scopes' =>
      rw [scopes] at scopes'
      cases scopes'
    | otherOpen _ scopes' other =>
      rw [scopes] at scopes'
      cases scopes'
      exact absurd hplace other
  | nothingOpen ordinal place scopes =>
    cases h' with
    | closed _ scopes' =>
      rw [scopes] at scopes'
      cases scopes'
    | nothingOpen => exact ⟨rfl, rfl⟩
    | otherOpen _ scopes' =>
      rw [scopes] at scopes'
      cases scopes'
  | otherOpen ordinal scopes other =>
    cases h' with
    | closed _ scopes' =>
      rw [scopes] at scopes'
      cases scopes'
      exact absurd rfl other
    | nothingOpen _ _ scopes' =>
      rw [scopes] at scopes'
      cases scopes'
    | otherOpen _ scopes' =>
      rw [scopes] at scopes'
      cases scopes'
      exact ⟨rfl, rfl⟩

/-- On a sound stack calls are told by what they may do. -/
theorem call_eq_iff_answers (hs : s.Sound) :
    s.call c = (answer, s') ↔ Answers s c answer s' := by
  constructor
  · intro h
    have hcall := answers_call s c
    rw [h] at hcall
    exact hcall
  · intro h
    obtain ⟨hanswer, hafter⟩ := (answers_call s c).unique hs h
    exact Prod.ext hanswer hafter

theorem sound_empty : Sound {} := by
  constructor <;> simp

/-- A call keeps the stack sound. -/
theorem Sound.answers (hs : s.Sound) (h : Answers s c answer s') : s'.Sound := by
  cases h with
  | alreadyOpen opened => exact hs
  | @opened place new =>
    have hplace : place ∉ s.scopes.map (·.place) := by simpa using new
    refine ⟨hs.places_nodup.cons hplace, ?_, ?_, ?_, fun _ _ => rfl⟩
    · exact List.forall_mem_cons.mpr ⟨rfl, hs.opened⟩
    · -- the new number is the counter, which is ahead of the others
      rw [List.reverse_cons, List.map_append, List.pairwise_append]
      refine ⟨hs.increasing, List.pairwise_singleton _ _, ?_⟩
      intro a ha b hb
      obtain ⟨scope, hscope, rfl⟩ := List.mem_map.mp ha
      rw [List.mem_singleton.mp hb]
      exact hs.serial_lt scope (List.mem_reverse.mp hscope)
    · refine List.forall_mem_cons.mpr ⟨Nat.lt_succ_self _, ?_⟩
      intro scope hscope
      exact Nat.lt_succ_of_lt (hs.serial_lt scope hscope)
  | isolated =>
    refine ⟨hs.places_nodup, hs.opened, hs.increasing, ?_, hs.named⟩
    intro scope hscope
    exact Nat.lt_succ_of_lt (hs.serial_lt scope hscope)
  | @closed innermost outer ordinal scopes =>
    obtain ⟨hplaces, hopened, hincreasing, hlt, hnamed⟩ := hs
    rw [scopes] at hplaces hopened hincreasing hlt hnamed
    rw [List.reverse_cons, List.map_append, List.pairwise_append] at hincreasing
    exact ⟨(List.nodup_cons.mp hplaces).2, (List.forall_mem_cons.mp hopened).2, hincreasing.1,
      (List.forall_mem_cons.mp hlt).2, (List.forall_mem_cons.mp hnamed).2⟩
  | nothingOpen => exact hs
  | otherOpen => exact hs

/-- The counter counts what is handed out, and a new savepoint bears the
    number that the counter had. -/
theorem Answers.serials (h : Answers s c answer s') :
    (answer.savepoint?.toList.map Savepoint.serial) =
      List.range' s.nextSerial answer.savepoint?.toList.length ∧
    s'.nextSerial = s.nextSerial + answer.savepoint?.toList.length := by
  cases h <;> exact ⟨rfl, rfl⟩

/-! ### Any number of calls -/

theorem callAll_cons (s : ScopeStack) (c : ScopeCall) (rest : List ScopeCall) :
    s.callAll (c :: rest) =
      ((s.call c).1 :: ((s.call c).2.callAll rest).1, ((s.call c).2.callAll rest).2) := rfl

theorem Sound.callAll (hs : s.Sound) (calls : List ScopeCall) : (s.callAll calls).2.Sound := by
  induction calls generalizing s with
  | nil => exact hs
  | cons c rest ih => exact ih (hs.answers (answers_call s c))

/-- The savepoints that are handed out bear the numbers from the counter on,
    in order. -/
theorem serials_callAll (s : ScopeStack) (calls : List ScopeCall) :
    ((s.callAll calls).1.filterMap ScopeAnswer.savepoint?).map Savepoint.serial =
      List.range' s.nextSerial ((s.callAll calls).1.filterMap ScopeAnswer.savepoint?).length ∧
    (s.callAll calls).2.nextSerial =
      s.nextSerial + ((s.callAll calls).1.filterMap ScopeAnswer.savepoint?).length := by
  induction calls generalizing s with
  | nil => exact ⟨rfl, rfl⟩
  | cons c rest ih =>
    obtain ⟨hown, hnext⟩ := (answers_call s c).serials
    obtain ⟨hrest, hlast⟩ := ih (s.call c).2
    have hsplit : ((s.callAll (c :: rest)).1.filterMap ScopeAnswer.savepoint?) =
        (s.call c).1.savepoint?.toList ++
          ((s.call c).2.callAll rest).1.filterMap ScopeAnswer.savepoint? := by
      rw [callAll_cons]
      cases h : (s.call c).1.savepoint? with
      | none => simp [List.filterMap_cons_none h]
      | some sp => simp [List.filterMap_cons_some h]
    rw [hsplit, List.map_append, hown, hrest, List.length_append, hnext, List.range'_append_1]
    refine ⟨rfl, ?_⟩
    rw [callAll_cons, hlast, hnext, Nat.add_assoc]

/-- No two of the savepoints that are handed out have the same name. -/
theorem names_nodup_callAll (s : ScopeStack) (calls : List ScopeCall) :
    (((s.callAll calls).1.filterMap ScopeAnswer.savepoint?).map Savepoint.name).Nodup := by
  have hserials : (((s.callAll calls).1.filterMap ScopeAnswer.savepoint?).map
      Savepoint.serial).Nodup := by
    rw [(serials_callAll s calls).1]
    exact List.nodup_range'
  apply hserials.of_map.map
  intro sp sp' hname
  exact Savepoint.name_injective hname

/-- Whatever calls have been made of a new stack, the stack is sound, the
    savepoints that it has handed out have different names and are as many
    as the counter says, any further call does what it should and nothing
    else, and at the end the open scopes are closed, the innermost first. -/
theorem sound_and_answers_of_calls (calls : List ScopeCall) :
    let answers := (callAll {} calls).1
    let s := (callAll {} calls).2
    s.Sound ∧
    ((answers.filterMap ScopeAnswer.savepoint?).map Savepoint.name).Nodup ∧
    s.nextSerial = (answers.filterMap ScopeAnswer.savepoint?).length ∧
    (∀ c answer s', s.call c = (answer, s') ↔ Answers s c answer s') ∧
    s.finish = s.scopes.map fun scope => { scope with state := .closed } := by
  have hsound := sound_empty.callAll calls
  have hcounter := (serials_callAll {} calls).2
  rw [Nat.zero_add] at hcounter
  exact ⟨hsound, names_nodup_callAll {} calls, hcounter, fun _ _ _ => call_eq_iff_answers hsound,
    rfl⟩

/-- The inner place cannot be left twice, and entered again it gets a new
    savepoint; the outer one stays open all the time. -/
example :
    let a : Place := ⟨"a/", 0⟩
    let b : Place := ⟨"a/b/", 1⟩
    (callAll {} [.enter a, .isolateTest, .enter b, .exit 4 a, .exit 5 b, .exit 6 b, .enter b,
        .enter a]).1 = [
      .entered (.opened ⟨.directory, 0⟩), .isolated ⟨.test, 1⟩,
      .entered (.opened ⟨.directory, 2⟩), .refused (.unmatchedTeardown 4 a b),
      .closed ⟨2, b, .closed⟩, .refused (.unmatchedTeardown 6 b a),
      .entered (.opened ⟨.directory, 3⟩), .entered (.alreadyOpen ⟨.directory, 0⟩)] := by
  decide

end ScopeStack

end SuiteScript
