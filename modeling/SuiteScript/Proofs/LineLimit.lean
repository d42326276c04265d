import SuiteScript.Proofs.MergeLaws

/-! # Merging near the limit of line numbers

    A line number has 64 bits, and so has an offset.  Before a merge moves
    any entry it looks at the first line of the second map alone: if this one,
    moved, is a line number and comes too early, the merge is refused.  If it
    is not refused, all lines are moved, and one of them may be too large.

    So a merge has three outcomes, and for maps in order it can be told from
    three lines which one it is: the first and the last line of the second
    map and the last line of the first (`merged_adds_refuses_or_overflows`).  The
    sums are exact or there are none: whatever the offset is, no merge gives
    a map with a line that is not the sum, or with lines out of order. -/

namespace SuiteScript.SourceMap

variable {m other r : SourceMap} {offset : Nat}

/-! ### What stops a merge -/

/-- The lines of a map in order fit if the last one does. -/
theorem InOrder.fits_iff_lastLine (h : m.InOrder) (hoffset : offset < lineBound) :
    m.Fits offset ↔ m.lastLine + offset < lineBound := by
  constructor
  · intro hfits
    unfold lastLine
    cases hlast : m.entries.getLast? with
    | none => simpa using hoffset
    | some last => exact hfits last (List.mem_of_getLast? hlast)
  · exact h.fits_of_lastLine

/-- A merge of maps in order is done if all moved lines fit and the second
    map begins behind the first. -/
theorem InOrder.merged_eq_ok_iff_fits (hm : m.InOrder) (hother : other.InOrder) :
    m.merged other offset = .ok r ↔
      other.Fits offset ∧ m.overlaps other offset = false ∧ r = m.joined other offset := by
  constructor
  · intro h
    have hfits : other.Fits offset := fun e he => ((merged_eq_ok_iff.mp h).2.1 e he).2
    rw [hm.merged_eq hother hfits] at h
    split at h
    · cases h
    · next hapart => exact ⟨hfits, Bool.eq_false_iff.mpr hapart, (Except.ok.inj h).symm⟩
  · rintro ⟨hfits, hapart, rfl⟩
    rw [hm.merged_eq hother hfits, hapart]
    rfl

/-- While lines fit, just an overlap is refused. -/
theorem InOrder.merged_eq_overlap_iff_overlaps (hm : m.InOrder) (hother : other.InOrder)
    (hfits : other.Fits offset) :
    m.merged other offset = .error .overlap ↔ m.overlaps other offset = true := by
  rw [hm.merged_eq hother hfits]
  by_cases hoverlap : m.overlaps other offset = true
  · simp [hoverlap]
  · simp [hoverlap]

/-- What is neither done nor refused has met a line that is too large. -/
theorem InOrder.merged_eq_lineOutOfRange_iff (hm : m.InOrder) (hother : other.InOrder) :
    m.merged other offset = .error .lineOutOfRange ↔
      ¬ m.merged other offset = .error .overlap ∧ ¬ other.Fits offset := by
  constructor
  · intro h
    refine ⟨by simp [h], fun hfits => ?_⟩
    rw [hm.merged_eq hother hfits] at h
    split at h <;> cases h
  · rintro ⟨hrefused, hlarge⟩
    cases h : m.merged other offset with
    | ok r => exact absurd ((hm.merged_eq_ok_iff_fits hother).mp h).1 hlarge
    | error e =>
      cases e with
      | overlap => exact absurd h hrefused
      | lineOutOfRange => rfl

/-! ### What a merge gives -/

theorem get?_joined_left {i : Nat} {e : SourceEntry} (h : m.get? i = some e) :
    (m.joined other offset).get? i = some e := by
  obtain ⟨hi, _⟩ := List.getElem?_eq_some_iff.mp h
  show (m.entries ++ other.entries.map (·.moved offset m.length))[i]? = _
  rw [List.getElem?_append_left hi]
  exact h

theorem get?_joined_right {i : Nat} {e : SourceEntry} (h : other.get? i = some e) :
    (m.joined other offset).get? (m.length + i) = some (e.moved offset m.length) := by
  have hentry : other.entries[i]? = some e := h
  show (m.entries ++ other.entries.map (·.moved offset m.length))[m.entries.length + i]? = _
  rw [List.getElem?_append_right (Nat.le_add_right ..), Nat.add_sub_cancel_left,
    List.getElem?_map, hentry, Option.map_some]

theorem length_joined : (m.joined other offset).length = m.length + other.length := by
  simp [joined, length]

/-- A merge of two maps, by any 64-bit number of lines, is refused exactly if
    the first moved line is a line number and not behind the first map.  If it
    is not refused, it is done if the last moved line is a line number, and
    meets one that is too large otherwise.

    What is done is in order and consists of the entries of both maps, those
    of the second with exactly as many lines in front as the offset says, all
    of them line numbers. -/
theorem merged_adds_refuses_or_overflows {m other : SourceMap} (hm : m.Assembled)
    (hother : other.Assembled) (offset : UInt64) :
    (m.merged other offset.toNat = .error .overlap ↔
      ∃ first ∈ other.entries.head?, first.startLine + offset.toNat < lineBound ∧
        first.startLine + offset.toNat ≤ m.lastLine) ∧
    (m.merged other offset.toNat = .error .lineOutOfRange ↔
      ¬ m.merged other offset.toNat = .error .overlap ∧
        lineBound ≤ other.lastLine + offset.toNat) ∧
    ((∃ r, m.merged other offset.toNat = .ok r) ↔
      ¬ m.merged other offset.toNat = .error .overlap ∧
        other.lastLine + offset.toNat < lineBound) ∧
    ∀ r, m.merged other offset.toNat = .ok r →
      r.InOrder ∧ r.length = m.length + other.length ∧
      (∀ i e, m.get? i = some e → r.get? i = some e) ∧
      ∀ i e, other.get? i = some e →
        r.get? (m.length + i) = some (e.moved offset.toNat m.length) ∧
          e.endLine + offset.toNat < lineBound := by
  have hown := hm.inOrder
  have hbehind := hother.inOrder
  have hfits : other.Fits offset.toNat ↔ other.lastLine + offset.toNat < lineBound :=
    hbehind.fits_iff_lastLine offset.toNat_lt
  refine ⟨merged_eq_overlap_iff, ?_, ?_, ?_⟩
  · rw [hown.merged_eq_lineOutOfRange_iff hbehind, hfits, Nat.not_lt]
  · rw [← hfits]
    constructor
    · rintro ⟨r, hr⟩
      exact ⟨by simp [hr], ((hown.merged_eq_ok_iff_fits hbehind).mp hr).1⟩
    · rintro ⟨hrefused, hall⟩
      rw [hown.merged_eq_overlap_iff_overlaps hbehind hall, Bool.not_eq_true] at hrefused
      exact ⟨_, (hown.merged_eq_ok_iff_fits hbehind).mpr ⟨hall, hrefused, rfl⟩⟩
  · intro r hr
    have hinOrder := hown.merged hbehind hr
    obtain ⟨hall, _, rfl⟩ := (hown.merged_eq_ok_iff_fits hbehind).mp hr
    refine ⟨hinOrder, length_joined, fun i e => get?_joined_left, ?_⟩
    intro i e he
    exact ⟨get?_joined_right he, hall e (List.mem_of_getElem? he)⟩

/-- A plan whose map is merged behind itself by an offset that leaves the
    first line a line number, far behind the first map, but not the last. -/
theorem loneTest_moved_out_of_range :
    ∃ plan, compile {} "" loneTestPlan = .ok plan ∧ plan.sourceMap = ⟨[loneTest]⟩ ∧
      plan.sourceMap.merged plan.sourceMap (18446744073709551610 : UInt64).toNat =
        .error .lineOutOfRange ∧
      plan.sourceMap.lastLine < loneTest.startLine + 18446744073709551610 ∧
      loneTest.startLine + 18446744073709551610 < lineBound ∧
      lineBound ≤ loneTest.endLine + 18446744073709551610 :=
  ⟨_, rfl, rfl, by decide⟩

/-- Four lines less, and the last line has the largest number there is; one
    line more is too much. -/
theorem loneTest_moved_to_largest_line :
    Assembled ⟨[loneTest]⟩ ∧
    merged ⟨[loneTest]⟩ ⟨[loneTest]⟩ (6 : UInt64).toNat = .error .overlap ∧
    (∃ r, merged ⟨[loneTest]⟩ ⟨[loneTest]⟩ (18446744073709551606 : UInt64).toNat = .ok r ∧
      r.InOrder ∧ r.length = 2 ∧
      r.get? 1 = some (loneTest.moved 18446744073709551606 1)) ∧
    merged ⟨[loneTest]⟩ ⟨[loneTest]⟩ (18446744073709551607 : UInt64).toNat =
      .error .lineOutOfRange := by
  have hmap := assembled_loneTest
  obtain ⟨hrefused, _⟩ := merged_adds_refuses_or_overflows hmap hmap 6
  obtain ⟨_, _, hdone, hgives⟩ := merged_adds_refuses_or_overflows hmap hmap 18446744073709551606
  obtain ⟨_, hlarge, _⟩ := merged_adds_refuses_or_overflows hmap hmap 18446744073709551607
  obtain ⟨r, hr⟩ := hdone.mpr (by decide)
  obtain ⟨hinOrder, hlength, _, hbehind⟩ := hgives r hr
  exact ⟨hmap, hrefused.mpr ⟨loneTest, rfl, by decide⟩,
    ⟨r, hr, hinOrder, hlength, (hbehind 0 loneTest rfl).1⟩, hlarge.mpr (by decide)⟩

end SuiteScript.SourceMap
