import SuiteScript.SourceMap

/-! # Merged source maps

    A merge appends the entries of the second map, shifted by a number of
    lines, and numbers all of them anew.  It is done exactly if the second
    script starts behind the last entry of the first map and all shifted
    line numbers fit (`merged_eq_ok_iff`).  It is refused for an overlap
    exactly if the second script starts too early, at a line that fits
    (`merged_eq_overlap_iff`). -/

namespace SuiteScript.SourceMap

/-! ### Numbering anew -/

theorem renumber_append (position : Nat) (xs ys : List SourceEntry) :
    renumber position (xs ++ ys) = renumber position xs ++ renumber (position + xs.length) ys := by
  induction xs generalizing position with
  | nil => rfl
  | cons e xs ih =>
    simp only [List.cons_append, renumber, ih, List.length_cons, Nat.add_assoc, Nat.add_comm 1]

theorem getElem?_renumber (position : Nat) (entries : List SourceEntry) (i : Nat) :
    (renumber position entries)[i]? =
      entries[i]?.map fun e => { e with position := position + i } := by
  induction entries generalizing position i with
  | nil => rfl
  | cons e entries ih =>
    cases i with
    | zero => rfl
    | succ i =>
      have hnext : position + 1 + i = position + (i + 1) := by omega
      rw [renumber, List.getElem?_cons_succ, List.getElem?_cons_succ, ih, hnext]

/-- Whatever does not look at positions stays the same. -/
theorem map_renumber {α : Type} {f : SourceEntry → α}
    (hf : ∀ e position, f { e with position := position } = f e) (position : Nat)
    (entries : List SourceEntry) : (renumber position entries).map f = entries.map f := by
  induction entries generalizing position with
  | nil => rfl
  | cons e entries ih => rw [renumber, List.map_cons, List.map_cons, hf, ih]

/-! ### Merging -/

theorem inRange_iff {entries : List SourceEntry} :
    inRange entries = true ↔ ∀ e ∈ entries, e.startLine < lineBound ∧ e.endLine < lineBound := by
  simp [inRange]

/-- When a merge is done, and what it gives. -/
theorem merged_eq_ok_iff {m other r : SourceMap} {offset : Nat} :
    m.merged other offset = .ok r ↔
      (∀ e ∈ other.entries.head?, m.lastLine < e.startLine + offset) ∧
      (∀ e ∈ other.entries, e.startLine + offset < lineBound ∧ e.endLine + offset < lineBound) ∧
      r = ⟨renumber 0 (m.entries ++ other.entries.map (·.shift offset))⟩ := by
  unfold merged
  cases hentries : other.entries with
  | nil => simp [@eq_comm _ r]
  | cons first others =>
    have hrange : inRange ((first :: others).map (·.shift offset)) = true ↔
        ∀ e ∈ first :: others, e.startLine + offset < lineBound ∧
          e.endLine + offset < lineBound := by
      rw [inRange_iff, List.forall_mem_map]
      rfl
    have hfirst : (first.shift offset).startLine = first.startLine + offset := rfl
    rw [List.map_cons] at hrange ⊢
    simp only [hfirst, List.head?_cons, Option.mem_some_iff, forall_eq']
    by_cases hfits : first.startLine + offset ≥ lineBound
    · -- then the first of the shifted lines does not fit
      have hnone : ¬ ∀ e ∈ first :: others, e.startLine + offset < lineBound ∧
          e.endLine + offset < lineBound := by
        intro h
        have := (h first List.mem_cons_self).1
        omega
      rw [if_pos hfits]
      exact iff_of_false (by simp) fun h => hnone h.2.1
    by_cases hapart : first.startLine + offset ≤ m.lastLine
    · have hoverlap : ¬ m.lastLine < first.startLine + offset := by omega
      simp [hfits, hapart, hoverlap]
    have hapart' : m.lastLine < first.startLine + offset := by omega
    rw [if_neg hfits, if_neg hapart, and_iff_right hapart', ← hrange]
    by_cases hin : inRange (first.shift offset :: others.map (·.shift offset)) = true
    · simp [hin, @eq_comm _ r]
    · simp [hin]

/-- When a merge is refused for an overlap: the first line of the other map,
    moved, is a line number and comes too early. -/
theorem merged_eq_overlap_iff {m other : SourceMap} {offset : Nat} :
    m.merged other offset = .error .overlap ↔
      ∃ first ∈ other.entries.head?,
        first.startLine + offset < lineBound ∧ first.startLine + offset ≤ m.lastLine := by
  unfold merged
  cases hentries : other.entries with
  | nil => simp
  | cons first others =>
    have hstart : (first.shift offset).startLine = first.startLine + offset := rfl
    simp only [List.map_cons, hstart, List.head?_cons, Option.mem_some_iff, exists_eq_left']
    by_cases hfits : first.startLine + offset < lineBound
    · rw [if_neg (Nat.not_le.mpr hfits), and_iff_right hfits]
      by_cases hearly : first.startLine + offset ≤ m.lastLine
      · simp [hearly]
      · -- what is not too early is never refused for an overlap
        rw [if_neg hearly]
        refine iff_of_false ?_ hearly
        split <;> simp
    · rw [if_pos (Nat.not_lt.mp hfits)]
      simp [hfits]

end SuiteScript.SourceMap
