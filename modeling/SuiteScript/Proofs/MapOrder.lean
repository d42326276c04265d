import SuiteScript.Proofs.PlanPrefixes

/-! # Looking up lines and ordinals

    A line is searched among entries that no one has sorted.  The search is
    right because every source map is in order from the beginning: the
    entries of a script follow each other, and a merge refuses what would
    not follow (`assembled_inOrder_and_compile_mapsScripts`).

    That a map is in order (`SourceMap.InOrder`) is the invariant here: it
    holds of the map of a compiled plan, and a merge of two such maps keeps
    it.  All that is said about lookups is derived from it. -/

namespace SuiteScript

/-! ### Maps in order -/

/-- `p` holds of the first `i` elements and of no other.  Where such an `i`
    exists, a binary search finds it. -/
structure SplitsAt {α : Type} (p : α → Bool) (xs : List α) (i : Nat) : Prop where
  /-- There are that many elements. -/
  le_length : i ≤ xs.length
  /-- It holds of the elements in front. -/
  front : ∀ x ∈ xs.take i, p x = true
  /-- It does not hold of the others. -/
  back : ∀ x ∈ xs.drop i, p x = false

theorem SplitsAt.dropWhile_eq {α : Type} {p : α → Bool} {xs : List α} {i : Nat}
    (h : SplitsAt p xs i) : xs.dropWhile p = xs.drop i := by
  have hback : (xs.drop i).dropWhile p = xs.drop i := by
    cases hrest : xs.drop i with
    | nil => rfl
    | cons x rest =>
      have hx : ¬ p x = true := by simp [h.back x (by simp [hrest])]
      exact List.dropWhile_cons_of_neg hx
  calc xs.dropWhile p
      = (xs.take i ++ xs.drop i).dropWhile p := by rw [List.take_append_drop]
    _ = (xs.drop i).dropWhile p := List.dropWhile_append_of_pos h.front
    _ = xs.drop i := hback

/-- The first and the last line of an entry. -/
def SourceEntry.range (e : SourceEntry) : Nat × Nat := (e.startLine, e.endLine)

namespace SourceMap

/-- The entries are numbered, each has at least one line, and each starts
    behind all entries in front of it. -/
structure InOrder (m : SourceMap) : Prop where
  /-- The position of an entry is its index. -/
  positions : ∀ i e, m.get? i = some e → e.position = i
  /-- Lines are counted from 1, and the last line is not above the first. -/
  lines : ∀ e ∈ m.entries, 1 ≤ e.startLine ∧ e.startLine ≤ e.endLine
  /-- Lines do not overlap. -/
  increasing : m.entries.Pairwise fun e later => e.endLine < later.startLine

/-- What a lookup of `line` gives. -/
structure LooksUp (m : SourceMap) (line : Nat) : Prop where
  /-- The answer is the first entry that contains the line. -/
  resolve_eq : m.resolve line = m.entries.find? (·.containsLine line)
  /-- There is no second one. -/
  unique : ∀ i j e e', m.get? i = some e → m.get? j = some e' →
    e.containsLine line = true → e'.containsLine line = true → i = j
  /-- The entries that end before the line are the first ones, -/
  splits : ∃ i, SplitsAt (·.endLine < line) m.entries i
  /-- so the entry behind them can be found by bisection. -/
  search_eq : ∀ i, SplitsAt (·.endLine < line) m.entries i →
    (m.get? i).filter (·.containsLine line) = m.resolve line

theorem containsLine_iff {e : SourceEntry} {line : Nat} :
    e.containsLine line = true ↔ e.startLine ≤ line ∧ line ≤ e.endLine := by
  simp [SourceEntry.containsLine]

/-! ### Looking up in a map in order -/

variable {m other r : SourceMap}

/-- The entries that end before a line stand in front. -/
theorem exists_splitsAt {entries : List SourceEntry} (line : Nat)
    (hlines : ∀ e ∈ entries, e.startLine ≤ e.endLine)
    (hincreasing : entries.Pairwise fun e later => e.endLine < later.startLine) :
    ∃ i, SplitsAt (·.endLine < line) entries i := by
  induction entries with
  | nil => exact ⟨0, by simp, by simp, by simp⟩
  | cons e rest ih =>
    obtain ⟨hfirst, hrest⟩ := List.pairwise_cons.mp hincreasing
    by_cases hpassed : e.endLine < line
    · obtain ⟨i, hi⟩ := ih (fun e he => hlines e (List.mem_cons_of_mem _ he)) hrest
      refine ⟨i + 1, Nat.succ_le_succ hi.le_length, ?_, hi.back⟩
      intro x hx
      rcases List.mem_cons.mp hx with rfl | hx
      · simpa using hpassed
      · exact hi.front x hx
    · -- the later entries end even later
      refine ⟨0, Nat.zero_le _, by simp, ?_⟩
      intro x hx
      rcases List.mem_cons.mp hx with rfl | hx
      · simpa using hpassed
      · have hbehind := hfirst x hx
        have hheight := hlines x (List.mem_cons_of_mem _ hx)
        simp only [decide_eq_false_iff_not]
        omega

/-- A search that skips these misses nothing. -/
theorem InOrder.resolve_eq_find? (h : m.InOrder) (line : Nat) :
    m.resolve line = m.entries.find? (·.containsLine line) := by
  obtain ⟨i, hi⟩ := exists_splitsAt line (fun e he => (h.lines e he).2) h.increasing
  have hfront : (m.entries.take i).find? (·.containsLine line) = none := by
    rw [List.find?_eq_none]
    intro e he
    have hpassed : e.endLine < line := by simpa using hi.front e he
    rw [containsLine_iff]
    omega
  have hback : m.entries.find? (·.containsLine line) =
      (m.entries.drop i).find? (·.containsLine line) := by
    conv_lhs => rw [← List.take_append_drop i m.entries]
    rw [List.find?_append, hfront, Option.none_or]
  have hincreasing : (m.entries.drop i).Pairwise fun e later => e.endLine < later.startLine :=
    h.increasing.drop
  rw [resolve, hi.dropWhile_eq, hback]
  cases hrest : m.entries.drop i with
  | nil => rfl
  | cons e rest =>
    by_cases hin : e.containsLine line = true
    · simp [hin]
    · -- the line is in front of `e`, and so in front of all later entries
      have hends : ¬ e.endLine < line := by simpa using hi.back e (by simp [hrest])
      rw [hrest, List.pairwise_cons] at hincreasing
      have hlater : rest.find? (·.containsLine line) = none := by
        rw [List.find?_eq_none]
        intro later hmem
        have hbehind := hincreasing.1 later hmem
        rw [containsLine_iff] at hin ⊢
        omega
      simp [hin, hlater]

theorem InOrder.looksUp (h : m.InOrder) (line : Nat) : m.LooksUp line where
  resolve_eq := h.resolve_eq_find? line
  unique := by
    intro i j e e' he he' hin hin'
    rw [containsLine_iff] at hin hin'
    have happart := List.pairwise_iff_getElem.mp h.increasing
    obtain ⟨hi, rfl⟩ := List.getElem?_eq_some_iff.mp he
    obtain ⟨hj, rfl⟩ := List.getElem?_eq_some_iff.mp he'
    -- of two entries, the first ends before the other starts
    by_contra hne
    rcases Nat.lt_or_gt_of_ne hne with hlt | hlt
    · have := happart i j hi hj hlt
      omega
    · have := happart j i hj hi hlt
      omega
  splits := exists_splitsAt line (fun e he => (h.lines e he).2) h.increasing
  search_eq := by
    intro i hi
    have hhead : m.get? i = (m.entries.drop i).head? := by
      rw [List.head?_drop]
      rfl
    rw [hhead, resolve, hi.dropWhile_eq]
    cases m.entries.drop i with
    | nil => rfl
    | cons e rest => simp [Option.filter]

/-! ### Merging keeps the order -/

theorem InOrder.endLine_le_lastLine (h : m.InOrder) : ∀ e ∈ m.entries, e.endLine ≤ m.lastLine := by
  intro e he
  unfold lastLine
  cases hlast : m.entries.getLast? with
  | none =>
    rw [List.getLast?_eq_none_iff.mp hlast] at he
    cases he
  | some last =>
    obtain ⟨front, hfront⟩ := List.getLast?_eq_some_iff.mp hlast
    have hincreasing := h.increasing
    have hheight := (h.lines last (List.mem_of_getLast? hlast)).2
    rw [hfront, List.pairwise_append] at hincreasing
    rw [hfront, List.mem_append, List.mem_singleton] at he
    rcases he with he | rfl
    · have hbefore := hincreasing.2.2 e he last (List.mem_singleton.mpr rfl)
      show e.endLine ≤ last.endLine
      omega
    · exact Nat.le_refl _

/-- If the first entry of a map comes behind another map, all entries do. -/
theorem InOrder.lastLine_lt {offset : Nat} (hother : other.InOrder)
    (hapart : ∀ e ∈ other.entries.head?, m.lastLine < e.startLine + offset) :
    ∀ e ∈ other.entries, m.lastLine < e.startLine + offset := by
  intro e he
  have hincreasing := hother.increasing
  cases hentries : other.entries with
  | nil =>
    rw [hentries] at he
    cases he
  | cons first rest =>
    have hfirst := hapart first (by simp [hentries])
    have hheight := hother.lines first (by simp [hentries])
    rw [hentries, List.pairwise_cons] at hincreasing
    rw [hentries] at he
    rcases List.mem_cons.mp he with rfl | he
    · exact hfirst
    · have hbehind := hincreasing.1 e he
      omega

theorem InOrder.merged {offset : Nat} (hm : m.InOrder) (hother : other.InOrder)
    (h : m.merged other offset = .ok r) : r.InOrder := by
  obtain ⟨hapart, _, rfl⟩ := merged_eq_ok_iff.mp h
  -- numbering changes no lines
  have hranges : (renumber 0 (m.entries ++ other.entries.map (·.shift offset))).map
      SourceEntry.range = (m.entries ++ other.entries.map (·.shift offset)).map
        SourceEntry.range := map_renumber (fun _ _ => rfl) ..
  constructor
  · intro i e he
    rw [get?, getElem?_renumber, Option.map_eq_some_iff] at he
    obtain ⟨_, _, rfl⟩ := he
    exact Nat.zero_add i
  · suffices h : ∀ range ∈ (renumber 0 (m.entries ++ other.entries.map (·.shift offset))).map
        SourceEntry.range, 1 ≤ range.1 ∧ range.1 ≤ range.2 by
      intro e he
      exact h _ (List.mem_map_of_mem he)
    rw [hranges, List.forall_mem_map, List.forall_mem_append, List.forall_mem_map]
    refine ⟨hm.lines, ?_⟩
    intro e he
    have hheight := hother.lines e he
    simp only [SourceEntry.range, SourceEntry.shift]
    omega
  · suffices h : ((renumber 0 (m.entries ++ other.entries.map (·.shift offset))).map
        SourceEntry.range).Pairwise fun range later => range.2 < later.1 from
      List.pairwise_map.mp h
    rw [hranges, List.pairwise_map, List.pairwise_append, List.pairwise_map]
    refine ⟨hm.increasing, hother.increasing.imp ?_, ?_⟩
    · intro e later h
      exact Nat.add_lt_add_right h offset
    · intro e he later hlater
      obtain ⟨own, hown, rfl⟩ := List.mem_map.mp hlater
      exact (hm.endLine_le_lastLine e he).trans_lt (hother.lastLine_lt hapart own hown)

end SourceMap

/-! ### Maps of scripts -/

namespace Wording

variable {w : Wording}

theorem entriesFrom_increasing (position line : Nat) (actions : List Action) :
    (w.entriesFrom position line actions).Pairwise fun e later => e.endLine < later.startLine := by
  induction actions generalizing position line with
  | nil => exact .nil
  | cons a rest ih =>
    rw [entriesFrom]
    cases hrun : a.run? with
    | none => exact ih ..
    | some run =>
      have hlength : 0 < (w.lines a).length :=
        List.length_pos_of_ne_nil (lines_ne_nil_of_run? hrun)
      refine List.pairwise_cons.mpr ⟨?_, ih ..⟩
      intro later hlater
      have hbounds := mem_entriesFrom_bounds hlater
      show line + (w.lines a).length - 1 < later.startLine
      omega

theorem sourceMap_inOrder (actions : List Action) : (w.sourceMap actions).InOrder := by
  constructor
  · intro i e he
    rw [SourceMap.get?, sourceMap, ← renumber_entriesFrom 0 0, SourceMap.getElem?_renumber,
      Option.map_eq_some_iff] at he
    obtain ⟨_, _, rfl⟩ := he
    exact Nat.zero_add i
  · intro e he
    have hbounds := mem_entriesFrom_bounds he
    omega
  · exact entriesFrom_increasing ..

end Wording

/-- The step that an entry stands for. -/
def SourceEntry.step (e : SourceEntry) : Step where
  ordinal := e.ordinal
  kind := e.kind
  scriptPath := some e.scriptPath
  place := e.place

/-- Entries stand for what is executed. -/
theorem Wording.map_step_entriesFrom (w : Wording) (position line : Nat) (actions : List Action) :
    (w.entriesFrom position line actions).map SourceEntry.step =
      (actions.filterMap Action.run?).map fun run => { run.1 with scriptPath := some run.2 } := by
  induction actions generalizing position line with
  | nil => rfl
  | cons a rest ih =>
    rw [entriesFrom]
    cases hrun : a.run? with
    | none => rw [List.filterMap_cons_none hrun, ih]
    | some run =>
      rw [List.filterMap_cons_some hrun, List.map_cons, List.map_cons, ih]
      rfl

/-- A step executes itself once if it has a script, and nothing else. -/
theorem Step.filterMap_run?_actions {step : Step} {s s' : ScopeStack} {actions : List Action}
    (h : step.actions s = .ok (actions, s')) :
    (actions.filterMap Action.run?).map (fun run => { run.1 with scriptPath := some run.2 }) =
      [step].filter (·.kind.runsScript) := by
  have hsilent : ∀ actions : List Action, (∀ a ∈ actions, a.run? = none) →
      actions.filterMap Action.run? = [] := by
    intro actions hnone
    rw [List.filterMap_eq_nil_iff]
    exact hnone
  rcases actions_split h with ⟨_, hkind, hnone, _⟩ |
    ⟨_, lead, run, trail, path, hkind, hpath, rfl, hrun, hnone, _⟩
  · rw [hsilent actions hnone]
    simp [hkind]
  · rw [List.forall_mem_append] at hnone
    rw [List.filterMap_append, List.filterMap_cons_some hrun, hsilent _ hnone.1,
      hsilent _ hnone.2]
    simp [hkind, ← hpath]

theorem Schedule.filterMap_run?_ofStepsFrom {previous : Option UInt32} {s s' : ScopeStack}
    {steps : List Step} {actions : List Action}
    (h : ofStepsFrom previous s steps = .ok (actions, s')) :
    (actions.filterMap Action.run?).map (fun run => { run.1 with scriptPath := some run.2 }) =
      steps.filter (·.kind.runsScript) := by
  induction steps generalizing previous s actions with
  | nil =>
    cases h
    rfl
  | cons step rest ih =>
    obtain ⟨_, own, after, later, hstep, hrest, rfl⟩ := ofStepsFrom_cons_eq_ok.mp h
    rw [List.filterMap_append, List.map_append, Step.filterMap_run?_actions hstep, ih hrest,
      ← List.filter_append]
    rfl

/-- How the map of a script belongs to its plan. -/
structure MapsScripts (steps : List Step) (plan : CompiledPlan) : Prop where
  /-- There is one entry for each fixture and test, in their order, and it
      carries all that the step says. -/
  map_step : plan.sourceMap.entries.map SourceEntry.step = steps.filter (·.kind.runsScript)
  /-- Entries do not lead behind the script. -/
  endLine_le : ∀ e ∈ plan.sourceMap.entries, e.endLine ≤ (linesOf plan.sql).length
  /-- The ordinal of a fixture or test finds its entry. -/
  found : ∀ step ∈ steps, step.kind.runsScript = true →
    ∃ e ∈ plan.sourceMap.entries, plan.sourceMap.findOrdinal step.ordinal = some e ∧ e.step = step
  /-- Any other number finds nothing, -/
  absent : ∀ ordinal, (∀ step ∈ steps, step.kind.runsScript = true → step.ordinal ≠ ordinal) →
    plan.sourceMap.findOrdinal ordinal = none
  /-- nor does the ordinal of a teardown. -/
  teardowns : ∀ step ∈ steps, step.kind.runsScript = false →
    plan.sourceMap.findOrdinal step.ordinal = none

variable {config : Config} {callback : String} {steps : List Step} {plan : CompiledPlan}

theorem wellFormed_of_compile (h : compile config callback steps = .ok plan) :
    WellFormed steps := by
  by_cases hne : steps = []
  · rw [hne]
    exact wellFormed_nil
  · obtain ⟨_, run, scopes, hrun, _⟩ := (compile_eq_ok_iff_run hne).mp h
    exact (Schedule.ofStepsFrom_start_outcome steps).1.mp ⟨_, hrun⟩

/-- No two steps of a plan have the same ordinal. -/
theorem WellFormed.eq_of_ordinal_eq (h : WellFormed steps) {step step' : Step}
    (hstep : step ∈ steps) (hstep' : step' ∈ steps) (hordinal : step.ordinal = step'.ordinal) :
    step = step' := by
  obtain ⟨i, hi, rfl⟩ := List.getElem_of_mem hstep
  obtain ⟨j, hj, rfl⟩ := List.getElem_of_mem hstep'
  have hincreasing := List.pairwise_iff_getElem.mp h.increasing
  rcases Nat.lt_trichotomy i j with hlt | rfl | hlt
  · have := hincreasing i j hi hj hlt
    rw [hordinal] at this
    exact absurd this (UInt32.lt_irrefl _)
  · rfl
  · have := hincreasing j i hj hi hlt
    rw [hordinal] at this
    exact absurd this (UInt32.lt_irrefl _)

/-- The map of a plan is that of what its steps do. -/
theorem exists_sourceMap_of_compile (h : compile config callback steps = .ok plan) :
    ∃ actions, plan.sourceMap = (Wording.ofCallback config callback).sourceMap actions ∧
      (actions.filterMap Action.run?).map (fun run => { run.1 with scriptPath := some run.2 }) =
        steps.filter (·.kind.runsScript) ∧
      (actions.flatMap (Wording.ofCallback config callback).lines).length ≤
        (linesOf plan.sql).length := by
  by_cases hne : steps = []
  · subst hne
    cases h
    exact ⟨[], rfl, rfl, Nat.zero_le _⟩
  · obtain ⟨_, run, scopes, hrun, hsql, hmap⟩ := (compile_eq_ok_iff_run hne).mp h
    refine ⟨Schedule.opening ++ run, hmap, ?_, ?_⟩
    · rw [List.filterMap_append, List.map_append, Schedule.filterMap_run?_ofStepsFrom hrun]
      rfl
    · obtain ⟨a, ha, hwrites⟩ := Schedule.exists_writes (.ofCallback config callback) hne hrun
      have hlines : (Schedule.opening ++ run ++ Schedule.ending steps).flatMap
          (Wording.ofCallback config callback).lines ≠ [] :=
        Wording.flatMap_lines_ne_nil_of_writes ⟨a, by simp [ha], hwrites⟩
      have hending : (Schedule.opening ++ run ++ Schedule.ending steps).flatMap
          (Wording.ofCallback config callback).lines =
          (Schedule.opening ++ run).flatMap (Wording.ofCallback config callback).lines ++
            (Schedule.ending steps).flatMap (Wording.ofCallback config callback).lines :=
        List.flatMap_append
      rw [hsql, Wording.linesOf_text hlines, Wording.length_physical, hending, List.length_append]
      omega

theorem inOrder_of_compile (h : compile config callback steps = .ok plan) :
    plan.sourceMap.InOrder := by
  obtain ⟨actions, hmap, _⟩ := exists_sourceMap_of_compile h
  rw [hmap]
  exact Wording.sourceMap_inOrder actions

theorem mapsScripts_of_compile (h : compile config callback steps = .ok plan) :
    MapsScripts steps plan := by
  have hformed := wellFormed_of_compile h
  obtain ⟨actions, hmap, hruns, hlength⟩ := exists_sourceMap_of_compile h
  have hentries : plan.sourceMap.entries.map SourceEntry.step =
      steps.filter (·.kind.runsScript) := by
    rw [hmap, Wording.sourceMap, Wording.map_step_entriesFrom, hruns]
  -- so an entry stands for a fixture or test, and each of these has one
  have hentry : ∀ e ∈ plan.sourceMap.entries, e.step ∈ steps ∧ e.kind.runsScript = true := by
    intro e he
    have hmem : e.step ∈ steps.filter (·.kind.runsScript) := by
      rw [← hentries]
      exact List.mem_map_of_mem he
    exact List.mem_filter.mp hmem
  have habsent : ∀ ordinal, (∀ step ∈ steps, step.kind.runsScript = true →
      step.ordinal ≠ ordinal) → plan.sourceMap.findOrdinal ordinal = none := by
    intro ordinal hnone
    rw [SourceMap.findOrdinal, List.find?_eq_none]
    intro e he
    obtain ⟨hstep, hkind⟩ := hentry e he
    simpa [SourceEntry.step] using hnone e.step hstep hkind
  constructor
  · exact hentries
  · intro e he
    rw [hmap] at he
    have hbounds := Wording.mem_entriesFrom_bounds he
    omega
  · intro step hstep hkind
    have hmem : step ∈ plan.sourceMap.entries.map SourceEntry.step := by
      rw [hentries]
      exact List.mem_filter.mpr ⟨hstep, hkind⟩
    obtain ⟨own, hown, rfl⟩ := List.mem_map.mp hmem
    cases hfind : plan.sourceMap.findOrdinal own.step.ordinal with
    | none =>
      have := List.find?_eq_none.mp hfind own hown
      simp [SourceEntry.step] at this
    | some e =>
      -- what is found has the ordinal of the step, and so it is its entry
      have he := List.mem_of_find?_eq_some hfind
      have hordinal : e.ordinal = own.step.ordinal := by simpa using List.find?_some hfind
      exact ⟨e, he, rfl, hformed.eq_of_ordinal_eq (hentry e he).1 hstep hordinal⟩
  · exact habsent
  · intro step hstep hkind
    apply habsent
    intro other hother hother' hordinal
    rw [hformed.eq_of_ordinal_eq hother hstep hordinal, hkind] at hother'
    cases hother'

/-! ### Maps of merged scripts -/

/-- The maps that can be built: those of compiled plans and those of merges. -/
inductive SourceMap.Assembled : SourceMap → Prop
  /-- The map of a plan. -/
  | compiled {config : Config} {callback : String} {steps : List Step} {plan : CompiledPlan}
      (h : compile config callback steps = .ok plan) : Assembled plan.sourceMap
  /-- Two maps that have been merged. -/
  | merged {m other r : SourceMap} {offset : Nat} (hm : Assembled m) (hother : Assembled other)
      (h : m.merged other offset = .ok r) : Assembled r

theorem SourceMap.Assembled.inOrder {m : SourceMap} (h : m.Assembled) : m.InOrder := by
  induction h with
  | compiled h => exact inOrder_of_compile h
  | merged _ _ h hm hother => exact hm.merged hother h

/-- Every map that is compiled, or put together from such maps by merges, is
    in order, and so a lookup of any line gives the one entry that contains
    it.  The map of a plan leads to its fixtures and tests and to nothing
    else. -/
theorem assembled_inOrder_and_compile_mapsScripts :
    (∀ m : SourceMap, m.Assembled → m.InOrder ∧ ∀ line, m.LooksUp line) ∧
    ∀ (config : Config) (callback : String) (steps : List Step) (plan : CompiledPlan),
      compile config callback steps = .ok plan → MapsScripts steps plan :=
  ⟨fun _ hm => ⟨hm.inOrder, hm.inOrder.looksUp⟩, fun _ _ _ _ => mapsScripts_of_compile⟩

/-- The map of a plan whose path breaks a line, behind itself with no line
    between them. -/
theorem brokenPathPlan_merged_inOrder :
    ∃ plan m, compile {} "" brokenPathPlan = .ok plan ∧
      plan.sourceMap.merged plan.sourceMap plan.sourceMap.lastLine = .ok m ∧
      m.InOrder ∧ (∀ line, m.LooksUp line) ∧ MapsScripts brokenPathPlan plan := by
  have hcompile : ∃ plan m, compile {} "" brokenPathPlan = .ok plan ∧
      plan.sourceMap.merged plan.sourceMap plan.sourceMap.lastLine = .ok m := ⟨_, _, rfl, rfl⟩
  obtain ⟨plan, m, hplan, hm⟩ := hcompile
  obtain ⟨hmaps, hplans⟩ := assembled_inOrder_and_compile_mapsScripts
  obtain ⟨hinOrder, hlooksUp⟩ := hmaps m (.merged (.compiled hplan) (.compiled hplan) hm)
  exact ⟨plan, m, hplan, hm, hinOrder, hlooksUp, hplans _ _ _ _ hplan⟩

end SuiteScript
