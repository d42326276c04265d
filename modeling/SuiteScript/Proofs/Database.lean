import SuiteScript.Proofs.Nesting
import SuiteScript.Proofs.SavepointNames

/-! # A transactional database

    The reference that scripts are run against: some data and a stack of
    live savepoints, each with the data it has saved.

    * `SAVEPOINT n` pushes the name `n` with the current data.
    * `ROLLBACK TO SAVEPOINT n` restores what the innermost `n` has saved
      and drops the savepoints above it; `n` itself stays.
    * `RELEASE SAVEPOINT n` drops the innermost `n` and those above it; the
      data stays.

    The last two fail when no live savepoint has the name.  What a fixture,
    a test or an observer does to the data is not known, so it is a
    parameter: `work i` is what the `i`-th statement does.  The check of the
    observer does nothing.

    `Nested.run_tracks`: on well-nested statements no roll-back and no
    release fails, and the live savepoints of directories are always those
    of the open scopes. -/

namespace SuiteScript

/-- The data of a transaction and its live savepoints. -/
structure Database (δ : Type) where
  /-- What statements read and change. -/
  data : δ
  /-- Names of live savepoints with the data they saved, the innermost
      first. -/
  savepoints : List (String × δ)

namespace Database

variable {δ : Type}

/-- A transaction that has just begun. -/
def begun (data : δ) : Database δ := ⟨data, []⟩

/-- The names of the live savepoints, the innermost first. -/
def liveNames (db : Database δ) : List String := db.savepoints.map Prod.fst

/-- Those of them that belong to directories. -/
def liveDirectories (db : Database δ) : List String :=
  db.liveNames.filter fun name => Savepoint.classOfName? name = some .directory

/-- `SAVEPOINT name`. -/
def save (db : Database δ) (name : String) : Database δ :=
  ⟨db.data, (name, db.data) :: db.savepoints⟩

/-- The innermost savepoint of a name, on top of those below it. -/
def cutTo (db : Database δ) (name : String) : List (String × δ) :=
  db.savepoints.dropWhile (·.1 ≠ name)

/-- `ROLLBACK TO SAVEPOINT name`. -/
def rollBackTo? (db : Database δ) (name : String) : Option (Database δ) :=
  match db.cutTo name with
  | [] => none
  | (name, saved) :: below => some ⟨saved, (name, saved) :: below⟩

/-- `RELEASE SAVEPOINT name`. -/
def release? (db : Database δ) (name : String) : Option (Database δ) :=
  match db.cutTo name with
  | [] => none
  | _ :: below => some ⟨db.data, below⟩

/-- One statement, which does `work` to the data if it does anything to
    them. -/
def execute (work : δ → δ) (db : Database δ) : Action → Option (Database δ)
  | .checkObserver => some db
  | .notify _ => some { db with data := work db.data }
  | .runFixture _ _ => some { db with data := work db.data }
  | .runTest _ _ => some { db with data := work db.data }
  | .openSavepoint sp => some (db.save sp.name)
  | .rollBackTo sp => db.rollBackTo? sp.name
  | .release sp => db.release? sp.name

/-- Statements one after the other, the first of them being the `n`-th of
    its script; `none` as soon as one fails. -/
def run (work : Nat → δ → δ) (n : Nat) (db : Database δ) : List Action → Option (Database δ)
  | [] => some db
  | a :: rest => (db.execute (work n) a).bind fun db' => run work (n + 1) db' rest

/-! ### Running -/

variable {work : Nat → δ → δ} {n : Nat} {db db' : Database δ}

@[simp] theorem run_nil : run work n db [] = some db := rfl

@[simp] theorem run_cons {a : Action} {rest : List Action} :
    run work n db (a :: rest) =
      (db.execute (work n) a).bind fun db' => run work (n + 1) db' rest := rfl

theorem run_append {xs ys : List Action} :
    run work n db (xs ++ ys) =
      (run work n db xs).bind fun db' => run work (n + xs.length) db' ys := by
  induction xs generalizing n db with
  | nil => simp
  | cons a xs ih =>
    simp only [List.cons_append, run_cons, List.length_cons]
    cases db.execute (work n) a with
    | none => rfl
    | some db₁ =>
      simp only [Option.bind_some]
      rw [ih, show n + 1 + xs.length = n + (xs.length + 1) by omega]

/-- What runs to the end has run up to each of its statements, and that
    statement has not failed. -/
theorem run_upTo {before after : List Action} {a : Action}
    (h : run work n db (before ++ a :: after) = some db') :
    ∃ db₁ db₂, run work n db before = some db₁ ∧
      db₁.execute (work (n + before.length)) a = some db₂ := by
  rw [run_append] at h
  obtain ⟨db₁, hbefore, h⟩ := Option.bind_eq_some_iff.mp h
  rw [run_cons] at h
  obtain ⟨db₂, ha, _⟩ := Option.bind_eq_some_iff.mp h
  exact ⟨db₁, db₂, hbefore, ha⟩

/-! ### Savepoints -/

/-- A roll-back to the savepoint on top restores its data and keeps it. -/
theorem rollBackTo?_top {name : String} {data saved : δ} {below : List (String × δ)} :
    rollBackTo? ⟨data, (name, saved) :: below⟩ name = some ⟨saved, (name, saved) :: below⟩ := by
  simp [rollBackTo?, cutTo]

theorem mem_liveNames_of_cutTo {name : String} {top : String × δ} {below : List (String × δ)}
    (h : db.cutTo name = top :: below) : name ∈ db.liveNames := by
  have hmem : top ∈ db.savepoints := by
    have : top ∈ db.cutTo name := by rw [h]; exact List.mem_cons_self
    exact (List.dropWhile_sublist _).subset this
  -- the names above it are all others, so the search has stopped at this one
  have htop : top.1 = name := by
    have := List.head?_dropWhile_not (fun p : String × δ => decide (p.1 ≠ name)) db.savepoints
    rw [← cutTo, h] at this
    simpa using this
  exact htop ▸ List.mem_map_of_mem hmem

theorem mem_liveNames_of_rollBackTo? {name : String} (h : db.rollBackTo? name = some db') :
    name ∈ db.liveNames := by
  unfold rollBackTo? at h
  cases hcut : db.cutTo name with
  | nil => rw [hcut] at h; cases h
  | cons top below => exact mem_liveNames_of_cutTo hcut

theorem mem_liveNames_of_release? {name : String} (h : db.release? name = some db') :
    name ∈ db.liveNames := by
  unfold release? at h
  cases hcut : db.cutTo name with
  | nil => rw [hcut] at h; cases h
  | cons top below => exact mem_liveNames_of_cutTo hcut

end Database

/-! ### Live savepoints and open scopes -/

/-- The live savepoints of directories are those of the open scopes. -/
def Tracks {δ : Type} (s : ScopeStack) (db : Database δ) : Prop :=
  db.liveDirectories = s.scopes.map (·.savepoint.name)

namespace Tracks

variable {δ : Type} {s : ScopeStack} {db : Database δ}

theorem begun (data : δ) : Tracks {} (Database.begun data) := rfl

/-- The data have no part in it. -/
theorem with_data (h : Tracks s db) (data : δ) : Tracks s { db with data := data } := h

/-- A test's savepoint does not count. -/
theorem save_test (h : Tracks s db) (serial next : Nat) :
    Tracks ⟨s.scopes, next⟩ (db.save (Savepoint.name ⟨.test, serial⟩)) := by
  unfold Tracks Database.liveDirectories Database.liveNames Database.save at *
  rw [List.map_cons, List.filter_cons_of_neg (by simp [Savepoint.classOfName?_name])]
  exact h

/-- A directory's savepoint goes on top of both stacks. -/
theorem save_directory (h : Tracks s db) (place : Place) (serial next : Nat) :
    Tracks ⟨⟨serial, place, .opened⟩ :: s.scopes, next⟩
      (db.save (Savepoint.name ⟨.directory, serial⟩)) := by
  unfold Tracks Database.liveDirectories Database.liveNames Database.save at *
  rw [List.map_cons, List.filter_cons_of_pos (by simp [Savepoint.classOfName?_name]), h]
  rfl

/-- The innermost scope can be released.  Only savepoints of tests can lie
    above its savepoint, so what is left are those of the outer scopes. -/
theorem release {scope : Scope} {outer : List Scope} {next : Nat}
    (h : Tracks ⟨scope :: outer, next⟩ db) :
    ∃ below, db.release? scope.savepoint.name = some ⟨db.data, below⟩ ∧
      Tracks ⟨outer, next⟩ (⟨db.data, below⟩ : Database δ) := by
  cases db with
  | mk data savepoints =>
    unfold Tracks Database.liveDirectories Database.liveNames at h ⊢
    unfold Database.release? Database.cutTo
    simp only at h ⊢
    induction savepoints with
    | nil => simp at h
    | cons top below ih =>
      by_cases htop : top.1 = scope.savepoint.name
      · refine ⟨below, by simp [htop], ?_⟩
        rw [List.map_cons, htop,
          List.filter_cons_of_pos (by simp [Savepoint.classOfName?_name, Scope.savepoint]),
          List.map_cons] at h
        exact (List.cons.inj h).2
      · -- a directory's savepoint on top would be that of the innermost scope
        have hcls : ¬ Savepoint.classOfName? top.1 = some .directory := by
          intro hcls
          rw [List.map_cons, List.filter_cons_of_pos (by simpa using hcls), List.map_cons] at h
          exact htop (List.cons.inj h).1
        rw [List.map_cons, List.filter_cons_of_neg (by simpa using hcls)] at h
        obtain ⟨below', hrelease, htracks⟩ := ih h
        refine ⟨below', ?_, htracks⟩
        rw [List.dropWhile_cons_of_pos (by simpa using htop)]
        exact hrelease

end Tracks

namespace Nested

variable {δ : Type} {s s' : ScopeStack} {actions : List Action}

/-- Well-nested statements run to the end, and keep the live savepoints of
    directories in step with the open scopes. -/
theorem run_tracks (h : Nested s actions s') (work : Nat → δ → δ) (n : Nat) {db : Database δ}
    (hdb : Tracks s db) :
    ∃ db', Database.run work n db actions = some db' ∧ Tracks s' db' := by
  induction h generalizing n db with
  | nil s => exact ⟨db, rfl, hdb⟩
  | check _ ih => exact ih (n + 1) hdb
  | notify e _ ih => exact ih (n + 1) (hdb.with_data (work n db.data))
  | fixture step path _ ih => exact ih (n + 1) (hdb.with_data (work n db.data))
  | @test s s' rest step path _ ih =>
    have hsaved := hdb.save_test s.nextSerial (s.nextSerial + 1)
    obtain ⟨db', hrun, htracks⟩ := ih (n + 3) hsaved
    refine ⟨db', ?_, htracks⟩
    -- the roll-back finds the test's savepoint on top and restores its data
    simp only [Database.run_cons, Database.execute, Database.save, Option.bind_some,
      Database.rollBackTo?_top]
    exact hrun
  | @openScope s s' rest place closed _ ih =>
    exact ih (n + 1) (hdb.save_directory place s.nextSerial (s.nextSerial + 1))
  | closeScope scope outer next _ ih =>
    obtain ⟨below, hrelease, htracks⟩ := hdb.release
    obtain ⟨db', hrun, htracks'⟩ := ih (n + 1) htracks
    refine ⟨db', ?_, htracks'⟩
    rw [Database.run_cons, Database.execute, hrelease, Option.bind_some]
    exact hrun

end Nested

end SuiteScript
