import SuiteScript.Proofs.MapOrder

/-! # Laws of merging

    Of two maps in order, a merge is either refused, because the second
    script would begin before the first one's last entry ends, or it gives
    the entries of the first map and behind them those of the second, moved
    by a number of lines and by the number of entries in front
    (`InOrder.merged_eq`).  So a lookup in a merged map is a lookup in the
    first map and then, in its own lines, in the second
    (`merged_looks_up_both`), and it does not matter in which order
    three scripts are put together (`merged_assoc_and_identity`). -/

namespace SuiteScript

/-- The entry of the same step behind `lines` other lines and `positions`
    other entries. -/
def SourceEntry.moved (e : SourceEntry) (lines positions : Nat) : SourceEntry :=
  { e with
    position := e.position + positions
    startLine := e.startLine + lines
    endLine := e.endLine + lines }

@[simp] theorem SourceEntry.moved_zero (e : SourceEntry) : e.moved 0 0 = e := rfl

@[simp] theorem SourceEntry.moved_moved (e : SourceEntry) (l p l' p' : Nat) :
    (e.moved l p).moved l' p' = e.moved (l + l') (p + p') := by
  simp [moved, Nat.add_assoc]

namespace SourceMap

variable {a b c m other : SourceMap} {offset p q : Nat}

/-- The entries of one map and behind them those of another. -/
def joined (m other : SourceMap) (offset : Nat) : SourceMap :=
  ⟨m.entries ++ other.entries.map (·.moved offset m.length)⟩

/-- Would the first entry of the other map begin before the last one of this
    map ends? -/
def overlaps (m other : SourceMap) (offset : Nat) : Bool :=
  other.entries.head?.any fun e => e.startLine + offset ≤ m.lastLine

/-- No line of the map, moved by `offset` lines, is too large. -/
def Fits (m : SourceMap) (offset : Nat) : Prop :=
  ∀ e ∈ m.entries, e.endLine + offset < lineBound

theorem overlaps_iff :
    m.overlaps other offset = true ↔
      ∃ first ∈ other.entries.head?, first.startLine + offset ≤ m.lastLine := by
  simp [overlaps, Option.any_eq_true]

/-! ### What a merge gives -/

/-- Entries that are numbered from 0 are moved by numbering them anew. -/
theorem InOrder.renumber_eq_map (h : m.InOrder) (offset position : Nat) :
    renumber position (m.entries.map (·.shift offset)) =
      m.entries.map (·.moved offset position) := by
  apply List.ext_getElem?
  intro i
  rw [getElem?_renumber, List.getElem?_map, List.getElem?_map, Option.map_map]
  cases he : m.entries[i]? with
  | none => rfl
  | some e =>
    have hposition : e.position = i := h.positions i e he
    simp [SourceEntry.shift, SourceEntry.moved, hposition, Nat.add_comm]

theorem InOrder.renumber_append_eq (hm : m.InOrder) (hother : other.InOrder) (offset : Nat) :
    renumber 0 (m.entries ++ other.entries.map (·.shift offset)) =
      (m.joined other offset).entries := by
  have hown : renumber 0 m.entries = m.entries := by
    have hstay := hm.renumber_eq_map 0 0
    simpa [SourceEntry.shift] using hstay
  rw [renumber_append, hown, Nat.zero_add, hother.renumber_eq_map]
  rfl

/-- A merge of two maps in order is refused if they overlap, and done
    otherwise. -/
theorem InOrder.merged_eq (hm : m.InOrder) (hother : other.InOrder) (hfits : other.Fits offset) :
    m.merged other offset =
      if m.overlaps other offset then .error .overlap else .ok (m.joined other offset) := by
  -- if its last line fits, the whole entry does
  have hrange : ∀ e ∈ other.entries,
      e.startLine + offset < lineBound ∧ e.endLine + offset < lineBound := by
    intro e he
    have hheight := (hother.lines e he).2
    have hlast := hfits e he
    omega
  by_cases hoverlap : m.overlaps other offset = true
  · obtain ⟨first, hfirst, hearly⟩ := overlaps_iff.mp hoverlap
    rw [if_pos hoverlap]
    have hfirstFits := (hrange first (List.mem_of_mem_head? hfirst)).1
    exact merged_eq_overlap_iff.mpr ⟨first, hfirst, hfirstFits, hearly⟩
  · rw [if_neg hoverlap, merged_eq_ok_iff]
    refine ⟨?_, hrange, ?_⟩
    · intro first hfirst
      by_contra hearly
      exact hoverlap (overlaps_iff.mpr ⟨first, hfirst, Nat.not_lt.mp hearly⟩)
    · rw [hm.renumber_append_eq hother]

/-- Maps that can be merged give a map in order. -/
theorem InOrder.joined (hm : m.InOrder) (hother : other.InOrder) (hfits : other.Fits offset)
    (hapart : ¬ m.overlaps other offset = true) : (m.joined other offset).InOrder := by
  have hmerged := hm.merged_eq hother hfits
  rw [if_neg hapart] at hmerged
  exact hm.merged hother hmerged

/-! ### Looking up in a joined map -/

theorem containsLine_moved {e : SourceEntry} (h : 1 ≤ e.startLine) (lines positions line : Nat) :
    (e.moved lines positions).containsLine line =
      (decide (lines < line) && e.containsLine (line - lines)) := by
  rw [Bool.eq_iff_iff, containsLine_iff, Bool.and_eq_true, decide_eq_true_eq, containsLine_iff]
  show e.startLine + lines ≤ line ∧ line ≤ e.endLine + lines ↔ _
  omega

/-- Moved entries hold the lines that are as many lines further down. -/
theorem find?_moved {entries : List SourceEntry} (h : ∀ e ∈ entries, 1 ≤ e.startLine)
    (lines positions line : Nat) :
    (entries.map (·.moved lines positions)).find? (·.containsLine line) =
      if lines < line then
        (entries.find? (·.containsLine (line - lines))).map (·.moved lines positions)
      else none := by
  induction entries with
  | nil => simp
  | cons e rest ih =>
    rw [List.forall_mem_cons] at h
    rw [List.map_cons, List.find?_cons, List.find?_cons, containsLine_moved h.1, ih h.2]
    by_cases hline : lines < line
    · cases hin : e.containsLine (line - lines) <;> simp [hline]
    · -- no moved entry is that far in front
      simp [hline]

theorem findOrdinal_joined (ordinal : UInt32) :
    (m.joined other offset).findOrdinal ordinal =
      (m.findOrdinal ordinal).or
        ((other.findOrdinal ordinal).map (·.moved offset m.length)) := by
  unfold findOrdinal joined
  rw [List.find?_append, List.find?_map]
  rfl

theorem InOrder.resolve_joined (hm : m.InOrder) (hother : other.InOrder)
    (hjoined : (m.joined other offset).InOrder) (line : Nat) :
    (m.joined other offset).resolve line =
      (m.resolve line).or
        (if offset < line then
          (other.resolve (line - offset)).map (·.moved offset m.length)
        else none) := by
  rw [hjoined.resolve_eq_find?, hm.resolve_eq_find?, hother.resolve_eq_find?]
  unfold SourceMap.joined
  rw [List.find?_append, find?_moved fun e he => (hother.lines e he).1]

/-- If the last line of a map in order fits, all lines do. -/
theorem InOrder.fits_of_lastLine (h : m.InOrder) (hlast : m.lastLine + offset < lineBound) :
    m.Fits offset := by
  intro e he
  have hle := h.endLine_le_lastLine e he
  omega

/-- A merge of two maps whose lines stay in range is refused exactly if the
    second map would begin before the first one ends; otherwise it is done.
    A line or an ordinal is then looked up in the first map, and what is not
    found there is looked up in the second, a line as far down in it as it is
    behind the offset. -/
theorem merged_looks_up_both {m other : SourceMap} {offset : Nat} (hm : m.Assembled)
    (hother : other.Assembled) (hfits : other.lastLine + offset < lineBound) :
    (m.merged other offset = .error .overlap ↔
      ∃ first ∈ other.entries.head?, first.startLine + offset ≤ m.lastLine) ∧
    (m.merged other offset = .error .overlap ∨ ∃ r, m.merged other offset = .ok r) ∧
    ∀ r, m.merged other offset = .ok r →
      (∀ line, r.resolve line =
        (m.resolve line).or
          (if offset < line then
            (other.resolve (line - offset)).map (·.moved offset m.length)
          else none)) ∧
      ∀ ordinal, r.findOrdinal ordinal =
        (m.findOrdinal ordinal).or
          ((other.findOrdinal ordinal).map (·.moved offset m.length)) := by
  have hown := hm.inOrder
  have hbehind := hother.inOrder
  have hall := hbehind.fits_of_lastLine hfits
  rw [hown.merged_eq hbehind hall, ← overlaps_iff]
  by_cases hoverlap : m.overlaps other offset = true
  · simp [hoverlap]
  · rw [if_neg hoverlap]
    refine ⟨by simp [hoverlap], .inr ⟨_, rfl⟩, ?_⟩
    intro r hr
    obtain rfl := Except.ok.inj hr
    have hjoined := hown.joined hbehind hall hoverlap
    exact ⟨hown.resolve_joined hbehind hjoined, findOrdinal_joined⟩

/-- A plan of one test, without an observer. -/
def loneTestPlan : List Step := [⟨1, .test, some "t/1.sql", ⟨"t/", 0⟩⟩]

/-- Its test stands on seven lines, behind two savepoints. -/
def loneTest : SourceEntry := ⟨0, 3, 9, .test, "t/1.sql", ⟨"t/", 0⟩, 1⟩

theorem assembled_loneTest : Assembled ⟨[loneTest]⟩ := by
  have hcompile : ∃ plan, compile {} "" loneTestPlan = .ok plan ∧ plan.sourceMap = ⟨[loneTest]⟩ :=
    ⟨_, rfl, rfl⟩
  obtain ⟨plan, hplan, hmap⟩ := hcompile
  rw [← hmap]
  exact .compiled hplan

/-- The map behind itself, as closely as it can be: seven lines further down
    it fits although the offset lies inside the first entry, whose last line
    is then still found in the first map. -/
theorem loneTest_merged_with_itself :
    Assembled ⟨[loneTest]⟩ ∧ lastLine ⟨[loneTest]⟩ + 7 < lineBound ∧
    merged ⟨[loneTest]⟩ ⟨[loneTest]⟩ 6 = .error .overlap ∧
    ∃ r, merged ⟨[loneTest]⟩ ⟨[loneTest]⟩ 7 = .ok r ∧
      r.resolve 9 = some loneTest ∧ r.resolve 10 = some (loneTest.moved 7 1) ∧
      r.resolve 17 = none ∧ r.findOrdinal 1 = some loneTest := by
  have hmap := assembled_loneTest
  have hsix : lastLine ⟨[loneTest]⟩ + 6 < lineBound := by decide
  have hseven : lastLine ⟨[loneTest]⟩ + 7 < lineBound := by decide
  obtain ⟨hrefused, _⟩ := merged_looks_up_both hmap hmap hsix
  obtain ⟨_, _, hdone⟩ := merged_looks_up_both hmap hmap hseven
  have hr : ∃ r, merged ⟨[loneTest]⟩ ⟨[loneTest]⟩ 7 = .ok r := ⟨_, rfl⟩
  obtain ⟨r, hr⟩ := hr
  obtain ⟨hresolve, hfind⟩ := hdone r hr
  refine ⟨hmap, hseven, hrefused.mpr ⟨loneTest, rfl, by decide⟩, r, hr, ?_, ?_, ?_, ?_⟩
  · rw [hresolve]
    rfl
  · rw [hresolve]
    rfl
  · rw [hresolve]
    rfl
  · rw [hfind]
    rfl

/-! ### Joining three maps -/

theorem lastLine_joined :
    (m.joined other offset).lastLine =
      if other.isEmpty then m.lastLine else other.lastLine + offset := by
  unfold lastLine joined isEmpty
  rw [List.getLast?_append, List.getLast?_map]
  cases hlast : other.entries.getLast? with
  | none => simp [List.getLast?_eq_none_iff.mp hlast]
  | some e =>
    have hne : other.entries ≠ [] := by
      intro hnil
      simp [hnil] at hlast
    simp [hne, SourceEntry.moved]

theorem joined_assoc : (a.joined b p).joined c (p + q) = a.joined (b.joined c q) p := by
  simp [joined, length, Nat.add_comm, Function.comp_def]

@[simp] theorem joined_empty : m.joined {} offset = m := by
  simp [joined]

@[simp] theorem empty_joined : joined {} m 0 = m := by
  simp [joined, length]

/-- A third map meets the last entry of the second, or of the first if the
    second has none. -/
theorem overlaps_joined_left :
    (a.joined b p).overlaps c (p + q) =
      if b.isEmpty then a.overlaps c (p + q) else b.overlaps c q := by
  unfold overlaps
  rw [lastLine_joined]
  by_cases hempty : b.isEmpty = true
  · simp [hempty]
  · -- both sides lie `p` lines further down
    have hcancel : ∀ e : SourceEntry,
        e.startLine + (p + q) ≤ b.lastLine + p ↔ e.startLine + q ≤ b.lastLine := by
      intro e
      omega
    simp [hempty, hcancel]

/-- The first map meets the first entry of the second, or of the third if
    the second has none. -/
theorem overlaps_joined_right :
    a.overlaps (b.joined c q) p = if b.isEmpty then a.overlaps c (p + q) else a.overlaps b p := by
  unfold overlaps joined isEmpty
  rw [List.head?_append, List.head?_map]
  cases hfirst : b.entries.head? with
  | none =>
    have hswap : ∀ e : SourceEntry, e.startLine + q + p = e.startLine + (p + q) := by
      intro e
      omega
    simp only [List.head?_eq_none_iff.mp hfirst, Option.none_or, Option.any_map,
      SourceEntry.moved, hswap, List.isEmpty_nil, if_true]
  | some first =>
    have hne : b.entries ≠ [] := by
      intro hnil
      simp [hnil] at hfirst
    simp [hne]

/-- Nothing overlaps with the empty map. -/
theorem InOrder.overlaps_of_isEmpty (h : c.InOrder) (hempty : b.isEmpty = true) :
    a.overlaps b p = false ∧ b.overlaps c q = false := by
  have hnil : b.entries = [] := List.isEmpty_iff.mp hempty
  constructor
  · simp [overlaps, hnil]
  · -- lines are counted from 1
    rw [Bool.eq_false_iff]
    intro hoverlap
    obtain ⟨first, hfirst, hearly⟩ := overlaps_iff.mp hoverlap
    have hstart := (h.lines first (List.mem_of_mem_head? hfirst)).1
    have hlast : b.lastLine = 0 := by simp [lastLine, hnil]
    omega

/-- Three maps overlap somewhere in the one grouping exactly if they do in
    the other. -/
theorem InOrder.overlaps_assoc (hc : c.InOrder) :
    (a.overlaps b p || (a.joined b p).overlaps c (p + q)) =
      (b.overlaps c q || a.overlaps (b.joined c q) p) := by
  rw [overlaps_joined_left, overlaps_joined_right]
  by_cases hempty : b.isEmpty = true
  · obtain ⟨hfront, hback⟩ := hc.overlaps_of_isEmpty (a := a) (p := p) (q := q) hempty
    simp only [hfront, hback, if_pos hempty]
  · rw [if_neg hempty, if_neg hempty, Bool.or_comm]

theorem Fits.of_le (h : m.Fits q) (hle : p ≤ q) : m.Fits p := by
  intro e he
  have hfits := h e he
  omega

theorem Fits.joined (hb : b.Fits p) (hc : c.Fits (p + q)) : (b.joined c q).Fits p := by
  intro e he
  rcases List.mem_append.mp he with he | he
  · exact hb e he
  · obtain ⟨own, hown, rfl⟩ := List.mem_map.mp he
    have hfits := hc own hown
    show own.endLine + q + p < lineBound
    omega

/-- Two merges, the second of them behind the first. -/
theorem InOrder.bind_merged_left (ha : a.InOrder) (hb : b.InOrder) (hc : c.InOrder)
    (hbfits : b.Fits p) (hcfits : c.Fits q) :
    (a.merged b p).bind (·.merged c q) =
      if a.overlaps b p || (a.joined b p).overlaps c q then .error .overlap
      else .ok ((a.joined b p).joined c q) := by
  rw [ha.merged_eq hb hbfits]
  by_cases hoverlap : a.overlaps b p = true
  · simp [hoverlap, Except.bind]
  · have hjoined := ha.joined hb hbfits hoverlap
    simp [hoverlap, Except.bind, hjoined.merged_eq hc hcfits]

/-- Two merges, the second of them in front of the first. -/
theorem InOrder.bind_merged_right (ha : a.InOrder) (hb : b.InOrder) (hc : c.InOrder)
    (hcfits : c.Fits q) (hfits : (b.joined c q).Fits p) :
    (b.merged c q).bind (a.merged · p) =
      if b.overlaps c q || a.overlaps (b.joined c q) p then .error .overlap
      else .ok (a.joined (b.joined c q) p) := by
  rw [hb.merged_eq hc hcfits]
  by_cases hoverlap : b.overlaps c q = true
  · simp [hoverlap, Except.bind]
  · have hjoined := hb.joined hc hcfits hoverlap
    simp [hoverlap, Except.bind, ha.merged_eq hjoined hfits]

theorem inOrder_empty : ({} : SourceMap).InOrder := ⟨by simp [get?], by simp, .nil⟩

theorem InOrder.merged_empty (h : m.InOrder) (offset : Nat) : m.merged {} offset = .ok m := by
  rw [h.merged_eq inOrder_empty (by simp [Fits])]
  simp [overlaps]

theorem InOrder.empty_merged (h : m.InOrder) (hfits : m.Fits 0) :
    SourceMap.merged {} m 0 = .ok m := by
  obtain ⟨_, hback⟩ := h.overlaps_of_isEmpty (a := {}) (b := {}) (p := 0) (q := 0) rfl
  rw [inOrder_empty.merged_eq h hfits, hback, empty_joined]
  rfl

/-- Of three maps whose lines stay in range, it does not matter which two are
    merged first, as long as the offsets add up: either way the merge is
    refused for an overlap, or either way it is done and gives the same map.
    The empty map changes nothing on either side. -/
theorem merged_assoc_and_identity :
    (∀ a b c : SourceMap, a.Assembled → b.Assembled → c.Assembled →
      ∀ p q, b.Fits p → c.Fits (p + q) →
        (a.merged b p).bind (·.merged c (p + q)) = (b.merged c q).bind (a.merged · p) ∧
        ((a.merged b p).bind (·.merged c (p + q)) = .error .overlap ∨
          ∃ r, (a.merged b p).bind (·.merged c (p + q)) = .ok r)) ∧
    ∀ m : SourceMap, m.Assembled →
      (∀ offset, m.merged {} offset = .ok m) ∧
      (m.Fits 0 → SourceMap.merged {} m 0 = .ok m) := by
  constructor
  · intro a b c ha hb hc p q hbfits hcfits
    have hfits := hbfits.joined hcfits
    rw [ha.inOrder.bind_merged_left hb.inOrder hc.inOrder hbfits hcfits,
      ha.inOrder.bind_merged_right hb.inOrder hc.inOrder (hcfits.of_le (by omega)) hfits,
      hc.inOrder.overlaps_assoc, joined_assoc]
    refine ⟨rfl, ?_⟩
    split
    · exact .inl rfl
    · exact .inr ⟨_, rfl⟩
  · intro m hm
    exact ⟨hm.inOrder.merged_empty, hm.inOrder.empty_merged⟩

/-- Three copies of the map, one right behind the other. -/
theorem loneTest_merged_twice :
    Assembled ⟨[loneTest]⟩ ∧ Fits ⟨[loneTest]⟩ 7 ∧ Fits ⟨[loneTest]⟩ (7 + 7) ∧
    (merged ⟨[loneTest]⟩ ⟨[loneTest]⟩ 7).bind (·.merged ⟨[loneTest]⟩ (7 + 7)) =
      .ok ⟨[loneTest, loneTest.moved 7 1, loneTest.moved 14 2]⟩ ∧
    (merged ⟨[loneTest]⟩ ⟨[loneTest]⟩ 7).bind (merged ⟨[loneTest]⟩ · 7) =
      .ok ⟨[loneTest, loneTest.moved 7 1, loneTest.moved 14 2]⟩ ∧
    merged ⟨[loneTest]⟩ {} 7 = .ok ⟨[loneTest]⟩ ∧ merged {} ⟨[loneTest]⟩ 0 = .ok ⟨[loneTest]⟩ := by
  have hmap := assembled_loneTest
  obtain ⟨hassoc, hidentity⟩ := merged_assoc_and_identity
  have hfits : ∀ offset, offset ≤ 14 → Fits ⟨[loneTest]⟩ offset := by
    intro offset hle e he
    obtain rfl := List.mem_singleton.mp he
    have hbound : loneTest.endLine + 14 < lineBound := by decide
    omega
  have hthree : (merged ⟨[loneTest]⟩ ⟨[loneTest]⟩ 7).bind (·.merged ⟨[loneTest]⟩ (7 + 7)) =
      .ok ⟨[loneTest, loneTest.moved 7 1, loneTest.moved 14 2]⟩ := by rfl
  have hother := (hassoc _ _ _ hmap hmap hmap 7 7 (hfits 7 (by omega)) (hfits 14 (by omega))).1
  obtain ⟨hright, hleft⟩ := hidentity _ hmap
  exact ⟨hmap, hfits 7 (by omega), hfits 14 (by omega), hthree, hother ▸ hthree, hright 7,
    hleft (hfits 0 (by omega))⟩

end SourceMap

end SuiteScript
