import SuiteScript.Diagnostic
import SuiteScript.Savepoint

/-! # Directory scopes

    A place is opened by its first fixture or test and closed by a
    teardown.  Open scopes form a stack: only the innermost can be closed,
    and a place is open at most once.  The stack also numbers savepoints,
    those of single tests included. -/

namespace SuiteScript

/-- Is a scope still on the stack? -/
inductive ScopeState where
  /-- It can be closed. -/
  | opened
  /-- It has been closed. -/
  | closed
deriving DecidableEq, Repr

/-- The span of a script between the opening and the closing of a place. -/
structure Scope where
  /-- The number of its savepoint, which no other scope has. -/
  serial : Nat
  /-- The place it belongs to; no other open scope has the same. -/
  place : Place
  /-- Whether it is still on the stack. -/
  state : ScopeState
deriving DecidableEq, Repr

/-- The savepoint that holds the scope's effects. -/
def Scope.savepoint (s : Scope) : Savepoint := ⟨.directory, s.serial⟩

/-- The scope once it has left the stack. -/
def Scope.close (s : Scope) : Scope := { s with state := .closed }

/-- The open scopes of a script and its savepoint counter. -/
structure ScopeStack where
  /-- Open scopes, the innermost first. -/
  scopes : List Scope := []
  /-- The number of the next savepoint. -/
  nextSerial : Nat := 0
deriving DecidableEq, Repr

/-- What entering a place does. -/
inductive ScopeEntry where
  /-- A scope was pushed and its savepoint has to be opened. -/
  | opened (savepoint : Savepoint)
  /-- The place has an open scope already. -/
  | alreadyOpen (savepoint : Savepoint)
deriving DecidableEq, Repr

namespace ScopeStack

/-- The open scope of a place. -/
def find? (s : ScopeStack) (place : Place) : Option Scope :=
  s.scopes.find? (·.place = place)

/-- Enters a place: pushes a scope for it unless one is open. -/
def enter (s : ScopeStack) (place : Place) : ScopeEntry × ScopeStack :=
  match s.find? place with
  | some scope => (.alreadyOpen scope.savepoint, s)
  | none =>
    let scope : Scope := ⟨s.nextSerial, place, .opened⟩
    (.opened scope.savepoint, ⟨scope :: s.scopes, s.nextSerial + 1⟩)

/-- Takes a number for a savepoint that isolates one test. -/
def isolateTest (s : ScopeStack) : Savepoint × ScopeStack :=
  (⟨.test, s.nextSerial⟩, { s with nextSerial := s.nextSerial + 1 })

/-- Closes the innermost scope, which must be that of `place`.  `ordinal` is
    that of the teardown, for the error. -/
def exit (s : ScopeStack) (ordinal : UInt32) (place : Place) :
    Except PlanError (Scope × ScopeStack) :=
  match s.scopes with
  | [] => .error (.teardownWithoutScope ordinal place)
  | innermost :: outer =>
    if innermost.place = place then .ok (innermost.close, { s with scopes := outer })
    else .error (.unmatchedTeardown ordinal place innermost.place)

/-- Closes whatever is still open, the innermost first. -/
def finish (s : ScopeStack) : List Scope := s.scopes.map Scope.close

end ScopeStack

end SuiteScript
