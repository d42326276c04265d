import SuiteScript.Proofs.JsonReadings
import SuiteScript.Proofs.MergeLaws
import SuiteScript.SourceMap.Text

/-! # Written source maps

    A source map that is written and then read as JSON is an array with an
    object for each entry, which holds all that the entry says
    (`SourceEntry.IsShownBy`), whatever its paths and directories contain.

    Numbers are read without loss only below 2^64.  That the lines and
    positions of a map are below it has two reasons: a plan has at most 2^32
    steps, since their ordinals increase, and a merge refuses larger lines.
    So this is an invariant of the maps that can be built
    (`SourceMap.Assembled.fits`). -/

namespace SuiteScript

open Json (Value)

/-! ### Objects of entries -/

namespace Json.Value

/-- The keys of an object, in their order. -/
def keys : Value → List String
  | .object members => members.map Prod.fst
  | _ => []

/-- What an object holds under a key. -/
def member? (v : Value) (key : String) : Option Value :=
  match v with
  | .object members => members.lookup key
  | _ => none

end Json.Value

namespace SourceEntry

/-- The object says what the entry says, and nothing else. -/
structure IsShownBy (e : SourceEntry) (object : Value) : Prop where
  /-- These are its members. -/
  keys : object.keys = ["position", "start_line", "end_line", "kind", "script_path", "directory",
    "depth", "ordinal"]
  /-- The index in the map. -/
  position : object.member? "position" = some (.number (.natural e.position))
  /-- The first line. -/
  startLine : object.member? "start_line" = some (.number (.natural e.startLine))
  /-- The last line. -/
  endLine : object.member? "end_line" = some (.number (.natural e.endLine))
  /-- The kind, by its canonical spelling. -/
  kind : object.member? "kind" = some (.text e.kind.name)
  /-- The path, character by character. -/
  scriptPath : object.member? "script_path" = some (.text e.scriptPath)
  /-- The directory. -/
  directory : object.member? "directory" = some (.text e.place.directory)
  /-- The nesting level. -/
  depth : object.member? "depth" = some (.number (.natural e.place.depth.toNat))
  /-- The ordinal of the step. -/
  ordinal : object.member? "ordinal" = some (.number (.natural e.ordinal.toNat))

variable {e e' : SourceEntry} {object : Value}

theorem isShownBy_toValue (e : SourceEntry) : e.IsShownBy e.toValue := by
  constructor <;> rfl

/-- An object shows one entry at most. -/
theorem IsShownBy.eq (h : e.IsShownBy object) (h' : e'.IsShownBy object) : e = e' := by
  obtain ⟨position, startLine, endLine, kind, scriptPath, ⟨directory, depth⟩, ordinal⟩ := e
  obtain ⟨position', startLine', endLine', kind', scriptPath', ⟨directory', depth'⟩, ordinal'⟩ := e'
  have hposition : position = position' := by simpa using h.position.symm.trans h'.position
  have hstart : startLine = startLine' := by simpa using h.startLine.symm.trans h'.startLine
  have hend : endLine = endLine' := by simpa using h.endLine.symm.trans h'.endLine
  have hname : kind.name = kind'.name := by simpa using h.kind.symm.trans h'.kind
  have hpath : scriptPath = scriptPath' := by simpa using h.scriptPath.symm.trans h'.scriptPath
  have hdirectory : directory = directory' := by simpa using h.directory.symm.trans h'.directory
  have hdepth : depth.toNat = depth'.toNat := by simpa using h.depth.symm.trans h'.depth
  have hordinal : ordinal.toNat = ordinal'.toNat := by simpa using h.ordinal.symm.trans h'.ordinal
  have hkind : kind = kind' := by
    -- a kind is known from its spelling
    have hread := StepKind.ofName?_name kind
    rw [hname, StepKind.ofName?_name] at hread
    exact (Option.some.inj hread).symm
  rw [hposition, hstart, hend, hkind, hpath, hdirectory, UInt32.toNat_inj.mp hdepth,
    UInt32.toNat_inj.mp hordinal]

theorem hasPlainNumbers_toValue (hposition : e.position < SourceMap.lineBound)
    (hstart : e.startLine < SourceMap.lineBound) (hend : e.endLine < SourceMap.lineBound) :
    e.toValue.hasPlainNumbers = true := by
  have hnumber : ∀ n < SourceMap.lineBound, (Value.ofNat n).hasPlainNumbers = true :=
    fun _ => decide_eq_true
  have hword : ∀ n : UInt32, (Value.ofNat n.toNat).hasPlainNumbers = true := fun n =>
    hnumber _ (Nat.lt_trans n.toNat_lt (by decide))
  simp [toValue, Value.hasPlainNumbers, Value.membersHavePlainNumbers, hword,
    hnumber _ hposition, hnumber _ hstart, hnumber _ hend]

theorem height_toValue (e : SourceEntry) : e.toValue.height = 1 := by
  simp [toValue, Value.height, Value.membersHeight, Value.ofNat]

end SourceEntry

/-! ### How large the numbers get -/

/-- Increasing words are at most as many as there are words. -/
theorem length_le_of_pairwise_ordinal_lt {steps : List Step}
    (h : steps.Pairwise fun a b => a.ordinal < b.ordinal) : steps.length ≤ UInt32.size := by
  have hnodup : (steps.map fun step => step.ordinal.toNat).Nodup :=
    List.pairwise_map.mpr (h.imp fun hlt => Nat.ne_of_lt hlt)
  have hsubset : (steps.map fun step => step.ordinal.toNat) ⊆ List.range UInt32.size := by
    intro n hn
    obtain ⟨step, _, rfl⟩ := List.mem_map.mp hn
    exact List.mem_range.mpr step.ordinal.toNat_lt
  calc steps.length
      = (steps.map fun step => step.ordinal.toNat).length := (List.length_map _).symm
    _ ≤ (List.range UInt32.size).length := (List.subperm_of_subset hnodup hsubset).length_le
    _ = UInt32.size := List.length_range

namespace SourceMap

variable {m m' : SourceMap}

theorem fits_of_compile {config : Config} {callback : String} {steps : List Step}
    {plan : CompiledPlan} (h : compile config callback steps = .ok plan) :
    plan.sourceMap.Fits 0 := by
  have hlength := length_le_of_pairwise_ordinal_lt (wellFormed_of_compile h).increasing
  obtain ⟨script, hscript, _, hmap⟩ := compile_eq_ok_iff.mp h
  -- a step takes at most 48 lines
  have hlines := length_lines_statementsOf_le hscript
  have hbound : 48 * UInt32.size + 25 < lineBound := by decide
  intro e he
  rw [hmap] at he
  have hentry := Wording.mem_entriesFrom_bounds he
  omega

/-- A merge keeps the entries of the first map and refuses lines of the
    second that are too large. -/
theorem Fits.merged {other r : SourceMap} {offset : Nat} (hm : m.Fits 0)
    (h : m.merged other offset = .ok r) : r.Fits 0 := by
  obtain ⟨_, hrange, rfl⟩ := merged_eq_ok_iff.mp h
  suffices hends : ∀ line ∈ (renumber 0 (m.entries ++ other.entries.map (·.shift offset))).map
      SourceEntry.endLine, line < lineBound from fun e he => hends _ (List.mem_map_of_mem he)
  rw [map_renumber (fun _ _ => rfl), List.forall_mem_map, List.forall_mem_append,
    List.forall_mem_map]
  exact ⟨hm, fun e he => (hrange e he).2⟩

/-- No line of a map is too large. -/
theorem Assembled.fits (h : m.Assembled) : m.Fits 0 := by
  induction h with
  | compiled h => exact fits_of_compile h
  | merged _ _ h hm _ => exact hm.merged h

/-- Each entry in front takes a line at least. -/
theorem InOrder.position_lt (h : m.InOrder) : ∀ e ∈ m.entries, e.position < e.startLine := by
  intro e he
  obtain ⟨i, hi⟩ := List.mem_iff_getElem?.mp he
  rw [h.positions i e hi]
  clear he
  -- on the index: the entry in front of it ends before it starts
  induction i generalizing e with
  | zero => exact (h.lines e (List.mem_of_getElem? hi)).1
  | succ i ih =>
    obtain ⟨hlength, rfl⟩ := List.getElem?_eq_some_iff.mp hi
    have hbefore := ih m.entries[i] (List.getElem?_eq_getElem (by omega))
    have hheight := (h.lines m.entries[i] (List.getElem_mem _)).2
    have hbehind :=
      List.pairwise_iff_getElem.mp h.increasing i (i + 1) (by omega) hlength (by omega)
    omega

/-! ### Reading a map -/

theorem Assembled.hasPlainNumbers_toValue (h : m.Assembled) :
    m.toValue.hasPlainNumbers = true := by
  rw [toValue, Value.hasPlainNumbers, Value.itemsHavePlainNumbers_iff, List.forall_mem_map]
  intro e he
  have hend := h.fits e he
  have hheight := (h.inOrder.lines e he).2
  have hposition := h.inOrder.position_lt e he
  apply SourceEntry.hasPlainNumbers_toValue <;> omega

theorem height_toValue_le (m : SourceMap) : m.toValue.height ≤ 2 := by
  refine Nat.succ_le_succ (Value.itemsHeight_le ?_)
  rw [List.forall_mem_map]
  exact fun e _ => Nat.le_of_eq e.height_toValue

theorem Assembled.parse?_render (h : m.Assembled) : Json.parse? m.render = some m.toValue :=
  Json.parse?_pretty _ h.hasPlainNumbers_toValue
    (Nat.le_trans m.height_toValue_le (by decide))

/-- Objects show the entries of one map at most. -/
theorem eq_of_forall₂_isShownBy {entries entries' : List SourceEntry} {objects : List Value}
    (h : List.Forall₂ SourceEntry.IsShownBy entries objects)
    (h' : List.Forall₂ SourceEntry.IsShownBy entries' objects) : entries = entries' := by
  induction h generalizing entries' with
  | nil =>
    cases h'
    rfl
  | cons hown _ ih =>
    cases h' with
    | cons hown' hrest' => rw [hown.eq hown', ih hrest']

/-- Every map that can be built is read back from its text: as an array with
    one object for each entry, in their order, that shows the entry.  So the
    text of a map is that of no other. -/
theorem render_shows_entries :
    (∀ m : SourceMap, m.Assembled → ∃ objects, Json.parse? m.render = some (.array objects) ∧
      List.Forall₂ SourceEntry.IsShownBy m.entries objects) ∧
    ∀ m m' : SourceMap, m.Assembled → m'.Assembled → m.render = m'.render → m = m' := by
  have hshown : ∀ m : SourceMap, m.Assembled →
      ∃ objects, Json.parse? m.render = some (.array objects) ∧
        List.Forall₂ SourceEntry.IsShownBy m.entries objects := by
    intro m hm
    refine ⟨_, hm.parse?_render, ?_⟩
    rw [List.forall₂_map_right_iff, List.forall₂_same]
    exact fun e _ => e.isShownBy_toValue
  refine ⟨hshown, fun m m' hm hm' hrender => ?_⟩
  -- equal texts are read as the same objects
  obtain ⟨objects, hparse, hentries⟩ := hshown m hm
  obtain ⟨objects', hparse', hentries'⟩ := hshown m' hm'
  rw [hrender, hparse'] at hparse
  cases hparse
  exact congrArg SourceMap.mk (eq_of_forall₂_isShownBy hentries hentries')

end SourceMap

/-- A plan whose texts end a string, start an object and hold characters that
    are escaped. -/
def oddTextPlan : List Step := [
  ⟨1, .fixture, some "\"\x7d,\x7b\"position\": 7\\", ⟨"\x00\x1f\x7f\n", 0⟩⟩,
  ⟨4294967295, .test, some "]\u2028😀", ⟨"\x00\x1f\x7f\n", 0⟩⟩]

/-- Its map, merged with itself. -/
theorem oddTextPlan_shows_entries :
    ∃ plan m objects, compile {} "" oddTextPlan = .ok plan ∧
      plan.sourceMap.merged plan.sourceMap 1000 = .ok m ∧ m.Assembled ∧ m.length = 4 ∧
      Json.parse? m.render = some (.array objects) ∧
      List.Forall₂ SourceEntry.IsShownBy m.entries objects ∧
      m.render ≠ plan.sourceMap.render := by
  have hcompile : ∃ plan m, compile {} "" oddTextPlan = .ok plan ∧
      plan.sourceMap.merged plan.sourceMap 1000 = .ok m ∧ plan.sourceMap.length = 2 ∧
      m.length = 4 := ⟨_, _, rfl, rfl, rfl, rfl⟩
  obtain ⟨plan, m, hplan, hm, hlength, hlength'⟩ := hcompile
  have hown : plan.sourceMap.Assembled := .compiled hplan
  have hboth : m.Assembled := .merged hown hown hm
  obtain ⟨hshown, hinjective⟩ := SourceMap.render_shows_entries
  obtain ⟨objects, hparse, hentries⟩ := hshown m hboth
  refine ⟨plan, m, objects, hplan, hm, hboth, hlength', hparse, hentries, fun hrender => ?_⟩
  have hsame := hinjective m plan.sourceMap hboth hown hrender
  rw [hsame, hlength] at hlength'
  cases hlength'

end SuiteScript
