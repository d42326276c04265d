import Mathlib.Algebra.Group.Nat.Defs
import Mathlib.Data.List.Nodup
import SuiteScript.Proofs.Database

/-! # Savepoints are used safely

    Directories and tests number their savepoints from one counter, and a
    release drops savepoints that the compiler does not keep account of.
    All the same, in the script of every plan of fewer than `2 ^ 31` steps

    * the counter fits into 32 bits,
    * no name is opened twice,
    * no roll-back and no release names a savepoint that is not live, and
    * after each step the live savepoints of directories are those of the
      scopes that the compiler holds open, in the same order.

    The bound is two numbers a step: one for its place and one for itself. -/

namespace SuiteScript

/-- What is safe about the savepoints of `script`, to which `steps` are
    compiled. -/
structure SafeSavepoints (config : Config) (callback : String) (steps : List Step)
    (script : List Action) : Prop where
  /-- The counter fits into 32 bits after each number that it has given. -/
  counter_fits : ∀ sp, .openSavepoint sp ∈ script → sp.serial + 1 < 2 ^ 32
  /-- No two statements open savepoints of one name, whatever their class. -/
  opened_once : ((script.filterMap Action.opened?).map Savepoint.name).Nodup
  /-- In front of a roll-back or a release, the savepoint is live. -/
  named_live : ∀ {δ : Type} (work : Nat → δ → δ) (start : δ) (before after : List Action)
    (a : Action) (sp : Savepoint),
    script = before ++ a :: after → a = .rollBackTo sp ∨ a = .release sp →
    ∃ db, Database.run work 0 (.begun start) before = some db ∧ sp.name ∈ db.liveNames
  /-- After each step the two stacks agree, read from the outermost on. -/
  stacks_agree : ∀ {δ : Type} (work : Nat → δ → δ) (start : δ) (done rest : List Step)
    (step : Step), steps = done ++ step :: rest →
    ∃ actions scopes upTo later,
      Schedule.ofStepsFrom none {} (done ++ [step]) = .ok (actions, scopes) ∧
      scopes.nextSerial < 2 ^ 32 ∧
      upTo = (Wording.ofCallback config callback).statements (Schedule.opening ++ actions) ∧
      script = upTo ++ later ∧
      ∃ db, Database.run work 0 (.begun start) upTo = some db ∧
        db.liveDirectories.reverse = (scopes.scopes.map (·.savepoint.name)).reverse

namespace Nested

variable {s s' : ScopeStack} {actions : List Action}

/-- Numbers are taken from one counter, so names differ. -/
theorem opened_names_nodup (h : Nested s actions s') :
    ((actions.filterMap Action.opened?).map Savepoint.name).Nodup := by
  have hserials : ((actions.filterMap Action.opened?).map Savepoint.serial).Nodup := by
    rw [h.opened_serials.2]
    exact List.nodup_range'
  have hopened : (actions.filterMap Action.opened?).Nodup := hserials.of_map
  apply hopened.map
  intro sp sp' hname
  exact Savepoint.name_injective hname

/-- Since no statement fails, a roll-back or release finds its savepoint. -/
theorem named_live {δ : Type} {work : Nat → δ → δ} {n : Nat} {db : Database δ}
    (h : Nested s actions s') (hdb : Tracks s db) {before after : List Action} {a : Action}
    {sp : Savepoint} (hactions : actions = before ++ a :: after)
    (ha : a = .rollBackTo sp ∨ a = .release sp) :
    ∃ db₁, Database.run work n db before = some db₁ ∧ sp.name ∈ db₁.liveNames := by
  obtain ⟨db', hrun, _⟩ := h.run_tracks work n hdb
  rw [hactions] at hrun
  -- the run has come past `a`, so `a` has not failed
  obtain ⟨db₁, db₂, hbefore, hstep⟩ := Database.run_upTo hrun
  refine ⟨db₁, hbefore, ?_⟩
  rcases ha with rfl | rfl
  · exact Database.mem_liveNames_of_rollBackTo? hstep
  · exact Database.mem_liveNames_of_release? hstep

end Nested

/-- Every accepted plan of fewer than `2 ^ 31` steps uses its savepoints
    safely. -/
theorem compile_safeSavepoints {config : Config} {callback : String} {steps : List Step}
    {plan : CompiledPlan} (hlen : steps.length < 2 ^ 31)
    (h : compile config callback steps = .ok plan) :
    ∃ script, statementsOf config callback steps = .ok script ∧
      plan.sql = (Wording.ofCallback config callback).text script ∧
      SafeSavepoints config callback steps script := by
  obtain ⟨script, hscript, hsql, _⟩ := compile_eq_ok_iff.mp h
  obtain ⟨final, hnested, hfinal⟩ := nested_statementsOf hscript
  refine ⟨script, hscript, hsql, ?_, hnested.opened_names_nodup, ?_, ?_⟩
  · -- two numbers a step stay below the bound
    intro sp hmem
    have hsp := (hnested.serial_bounds hmem).2
    omega
  · intro δ work start before after a sp heq ha
    exact hnested.named_live (Tracks.begun start) heq ha
  · intro δ work start done rest step hsteps
    have hsplit : steps = (done ++ [step]) ++ rest := by simp [hsteps]
    subst hsplit
    obtain ⟨first, scopes, others, _, hdone, _, rfl⟩ := statementsOf_append hscript (by simp)
    -- what the steps up to `step` do is well nested by itself
    have hupTo : Nested {} ((Wording.ofCallback config callback).statements
        (Schedule.opening ++ first)) scopes :=
      ((Schedule.nested_opening {}).append (Schedule.nested_ofStepsFrom hdone)).statements _
    obtain ⟨db, hrun, htracks⟩ := hupTo.run_tracks work 0 (Tracks.begun start)
    have hserial : scopes.nextSerial ≤ 0 + 2 * (done ++ [step]).length :=
      Schedule.nextSerial_le hdone
    refine ⟨first, scopes, _, _, hdone, ?_, rfl, rfl, db, hrun, ?_⟩
    · rw [List.length_append] at hlen
      omega
    · rw [htracks]

/-- In the example a savepoint of a directory is released while savepoints
    of tests lie below and above it. -/
theorem nestedPlan_safeSavepoints :
    nestedPlan.length < 2 ^ 31 ∧
    ∃ plan script, compile {} "obs" nestedPlan = .ok plan ∧
      statementsOf {} "obs" nestedPlan = .ok script ∧
      SafeSavepoints {} "obs" nestedPlan script := by
  have hlen : nestedPlan.length < 2 ^ 31 := by decide
  have hcompile : ∃ plan, compile {} "obs" nestedPlan = .ok plan := ⟨_, rfl⟩
  obtain ⟨plan, hplan⟩ := hcompile
  obtain ⟨script, hscript, _, hsafe⟩ := compile_safeSavepoints hlen hplan
  exact ⟨hlen, plan, script, hplan, hscript, hsafe⟩

end SuiteScript
