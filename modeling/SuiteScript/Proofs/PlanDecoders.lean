import SuiteScript.CommandLine.Run
import SuiteScript.Proofs.StepDecoding

/-! # The two decoders of a plan agree

    A plan is decoded from left to right, or read as a whole and matched
    afterwards.  The two differ only where the first skips a member that the
    second cannot give a value: a number out of range, half a surrogate pair,
    or too many levels (`decoders_agree`).  An object with the steps in a
    member is a plan for the second alone, so whatever the second reads counts
    only where the text starts as an array. -/

namespace SuiteScript

open Json (Reading Value)

/-! ### Texts of arrays -/

namespace Json

/-- Is it an array, as far as it goes? -/
def Reading.isArray : Reading → Bool
  | .array .. => true
  | _ => false

theorem Reading.isArray_iff {r : Reading} :
    r.isArray = true ↔ ∃ items isClosed, r = .array items isClosed := by
  cases r <;> simp [isArray]

namespace ReadState

/-- Whether an unfinished reading is an array is settled by what is outermost. -/
theorem isArray_unfinished {a b : Reading} (h : a.isArray = true → b.isArray = true)
    {outer : List Frame} (ha : (unfinished a outer).isArray = true) :
    (unfinished b outer).isArray = true := by
  induction outer generalizing a b with
  | nil => exact h ha
  | cons f outer ih =>
    refine ih (a := f.unfinished a) (b := f.unfinished b) ?_ ha
    cases f <;> exact id

theorem isArray_of_array {items more : List Reading} {c d : Bool} {outer : List Frame}
    (h : (unfinished (.array items c) outer).isArray = true) :
    (unfinished (.array more d) outer).isArray = true :=
  isArray_unfinished (fun _ => rfl) h

theorem isArray_of_object {members more : List Reading.Member} {c d : Bool} {outer : List Frame}
    (h : (unfinished (.object members c) outer).isArray = true) :
    (unfinished (.object more d) outer).isArray = true :=
  isArray_unfinished (fun ha => by cases ha) h

/-- What has been read so far. -/
def root : ReadState → Reading
  | value outer => unfinished .broken outer
  | arrayStart outer => unfinished (.array [] false) outer
  | objectStart outer => unfinished (.object [] false) outer
  | key before outer => unfinished (.object before.reverse false) outer
  | colon before k outer => unfinished .broken (.object before k :: outer)
  | after v outer => unfinished v outer
  | halted root => root

theorem root_finish (s : ReadState) : s.finish.root = s.root := by
  rcases s with _ | _ | _ | _ | _ | ⟨v, _ | _⟩ | _ <;> rfl

theorem isArray_startValue {outer : List Frame} (t : Token)
    (h : (unfinished .broken outer).isArray = true) : (startValue outer t).root.isArray = true := by
  have hnext : ∀ r, (unfinished r outer).isArray = true := fun r =>
    isArray_unfinished (fun ha => by cases ha) h
  cases t <;> exact hnext _

theorem isArray_endValue {v : Reading} {outer : List Frame} (t : Token)
    (h : (unfinished v outer).isArray = true) : (endValue v outer t).root.isArray = true := by
  unfold endValue
  split
  · exact isArray_of_array h
  · exact isArray_of_array h
  · exact isArray_of_object h
  · exact isArray_of_object h
  · exact h

/-- What has been read so far stays an array, whatever is read next. -/
theorem isArray_step {s : ReadState} (t : Token) (h : s.root.isArray = true) :
    (s.step t).root.isArray = true := by
  cases s with
  | value outer => exact isArray_startValue t h
  | after v outer => exact isArray_endValue t h
  | halted root => exact h
  | arrayStart outer =>
    have hstart : (startValue (.array [] :: outer) t).root.isArray = true :=
      isArray_startValue t (isArray_of_array h)
    cases t
    case closeArray => exact isArray_of_array h
    all_goals exact hstart
  | objectStart outer => cases t <;> exact isArray_of_object h
  | key before outer => cases t <;> exact isArray_of_object h
  | colon before k outer => cases t <;> exact h

theorem isArray_foldl_step {s : ReadState} (ts : List Token) (h : s.root.isArray = true) :
    (ts.foldl step s).root.isArray = true := by
  induction ts generalizing s with
  | nil => exact h
  | cons t ts ih => exact ih (isArray_step t h)

end ReadState

/-- A text whose first token opens an array is read as an array. -/
theorem isArray_root_read {text : String}
    (h : (text.toList.dropWhile Char.isWhitespace).head? = some '[') :
    (read text).root.isArray = true := by
  obtain ⟨rest, hrest⟩ := List.head?_eq_some_iff.mp h
  have htokens : tokens text.toList = .openArray :: LexMode.between.tokensFrom rest := by
    have hsplit : text.toList.takeWhile Char.isWhitespace ++ '[' :: rest = text.toList := by
      rw [← hrest, List.takeWhile_append_dropWhile]
    rw [tokens_eq, ← hsplit, tokensFrom_blanks (List.all_eq_true.mp List.all_takeWhile)]
    rfl
  rw [read, htokens, ReadState.root_finish, List.foldl_cons]
  exact ReadState.isArray_foldl_step _ rfl

/-! ### Defects -/

namespace Reading

/-- Is there something in a faultless reading that no value has: a number out
    of range, half a surrogate pair, or more than `depth` levels of arrays and
    objects? -/
inductive HasDefect : Nat → Reading → Prop
  /-- A number out of range. -/
  | number (depth : Nat) : HasDefect depth (.number none)
  /-- A string with half a surrogate pair. -/
  | text (depth : Nat) : HasDefect depth (.text none)
  /-- An array where no level is left. -/
  | deepArray (items : List Reading) : HasDefect 0 (.array items true)
  /-- An object where no level is left. -/
  | deepObject (members : List Member) : HasDefect 0 (.object members true)
  /-- A defect of an element. -/
  | item {depth : Nat} {items : List Reading} {r : Reading} (hr : r ∈ items)
      (h : HasDefect depth r) : HasDefect (depth + 1) (.array items true)
  /-- A key with half a surrogate pair. -/
  | key {depth : Nat} {members : List Member} {m : Member} (hm : m ∈ members) (h : m.1 = none) :
      HasDefect depth (.object members true)
  /-- A defect of the value of a member. -/
  | value {depth : Nat} {members : List Member} {m : Member} (hm : m ∈ members)
      (h : HasDefect depth m.2) : HasDefect (depth + 1) (.object members true)

theorem toValues?_eq_none_iff {depth : Nat} {items : List Reading} :
    toValues? depth items = none ↔ ∃ r ∈ items, r.toValue? depth = none := by
  induction items with
  | nil => simp [toValues?]
  | cons r rest ih =>
    rw [List.exists_mem_cons_iff, ← ih, toValues?]
    cases r.toValue? depth <;> cases toValues? depth rest <;> simp

theorem toMembers?_eq_none_iff {depth : Nat} {members : List Member} :
    toMembers? depth members = none ↔ ∃ m ∈ members, m.1 = none ∨ m.2.toValue? depth = none := by
  induction members with
  | nil => simp [toMembers?]
  | cons m rest ih =>
    obtain ⟨k, r⟩ := m
    rw [List.exists_mem_cons_iff, ← ih]
    cases k <;> cases hr : r.toValue? depth <;> cases hrest : toMembers? depth rest <;>
      simp [toMembers?, hr, hrest]

theorem HasDefect.toValue?_eq_none {r : Reading} {depth : Nat} (h : r.HasDefect depth) :
    r.toValue? depth = none := by
  induction h with
  | number | text | deepArray | deepObject => rfl
  | item hr _ ih => simp [toValue?, toValues?_eq_none_iff.mpr ⟨_, hr, ih⟩]
  | key hm h => simp [toValue?, toMembers?_eq_none_iff.mpr ⟨_, hm, .inl h⟩]
  | value hm _ ih => simp [toValue?, toMembers?_eq_none_iff.mpr ⟨_, hm, .inr ih⟩]

theorem hasDefect_of_toValue?_eq_none {r : Reading} (h : r.isIntact = true) {depth : Nat}
    (hnone : r.toValue? depth = none) : r.HasDefect depth := by
  induction r using Reading.inductionOn generalizing depth with
  | null => cases hnone
  | bool b => cases hnone
  | broken => cases h
  | number n =>
    cases n with
    | none => exact .number depth
    | some n => cases hnone
  | text s =>
    cases s with
    | none => exact .text depth
    | some s => cases hnone
  | array items isClosed ih =>
    obtain ⟨rfl, hitems⟩ := Bool.and_eq_true_iff.mp h
    cases depth with
    | zero => exact .deepArray items
    | succ depth =>
      have hvalues : toValues? depth items = none := by simpa [toValue?] using hnone
      obtain ⟨r, hr, hvalue⟩ := toValues?_eq_none_iff.mp hvalues
      exact .item hr (ih r hr (areIntact_iff.mp hitems r hr) hvalue)
  | object members isClosed ih =>
    obtain ⟨rfl, hmembers⟩ := Bool.and_eq_true_iff.mp h
    cases depth with
    | zero => exact .deepObject members
    | succ depth =>
      have hvalues : toMembers? depth members = none := by simpa [toValue?] using hnone
      obtain ⟨m, hm, hkey | hvalue⟩ := toMembers?_eq_none_iff.mp hvalues
      · exact .key hm hkey
      · exact .value hm (ih m hm (areMembersIntact_iff.mp hmembers m hm) hvalue)

/-- A faultless reading lacks a value just if it has a defect. -/
theorem toValue?_eq_none_iff {r : Reading} (h : r.isIntact = true) {depth : Nat} :
    r.toValue? depth = none ↔ r.HasDefect depth :=
  ⟨hasDefect_of_toValue?_eq_none h, HasDefect.toValue?_eq_none⟩

end Reading

end Json

/-! ### Lists of steps -/

namespace Step

/-- Where all readings have values, steps are read from the ones exactly if
    they are read from the others. -/
theorem mapM_ofReading_eq_ok_iff {items : List Reading} {vs : List Value} {depth : Nat}
    {steps : List Step} (h : List.Forall₂ (fun r v => r.toValue? depth = some v) items vs) :
    items.mapM ofReading = .ok steps ↔ vs.mapM ofValue? = some steps := by
  induction h generalizing steps with
  | nil => simp [pure, Except.pure]
  | cons hr _ ih =>
    rw [List.mapM_cons, List.mapM_cons]
    simp only [bind_eq_ok_iff, Option.bind_eq_bind, Option.bind_eq_some_iff,
      ofReading_eq_ok_iff hr, ih]
    simp [pure, Except.pure]

theorem exists_ofReading {items : List Reading} {steps : List Step}
    (h : items.mapM ofReading = .ok steps) {r : Reading} (hr : r ∈ items) :
    ∃ step, ofReading r = .ok step := by
  induction items generalizing steps with
  | nil => cases hr
  | cons r' rest ih =>
    rw [List.mapM_cons, bind_eq_ok_iff] at h
    obtain ⟨step, hstep, h⟩ := h
    obtain ⟨more, hmore, -⟩ := bind_eq_ok_iff.mp h
    rcases List.mem_cons.mp hr with rfl | hr
    · exact ⟨step, hstep⟩
    · exact ih hmore hr

theorem listOfReading_eq_ok_iff {r : Reading} {steps : List Step} :
    listOfReading r = .ok steps ↔
      ∃ items, r = .array items true ∧ items.mapM ofReading = .ok steps := by
  cases r with
  | array items isClosed => cases isClosed <;> simp [listOfReading, bind_eq_ok_iff]
  | _ => simp [listOfReading]

theorem decodeList_eq_ok_iff {text : String} {steps : List Step} :
    decodeList text = .ok steps ↔
      ∃ items, (Json.read text).root = .array items true ∧
        items.mapM ofReading = .ok steps ∧ (Json.read text).isClean = true := by
  have hdecode : decodeList text = .ok steps ↔
      listOfReading (Json.read text).root = .ok steps ∧ (Json.read text).isClean = true := by
    rw [decodeList, decodeWith]
    cases (Json.read text).isClean <;> simp [bind_eq_ok_iff]
  rw [hdecode, listOfReading_eq_ok_iff]
  constructor
  · rintro ⟨⟨items, hroot, hread⟩, hclean⟩
    exact ⟨items, hroot, hread, hclean⟩
  · rintro ⟨items, hroot, hread, hclean⟩
    exact ⟨⟨items, hroot, hread⟩, hclean⟩

/-- A step that is read where there is no value has the defect in a member that
    is skipped. -/
theorem exists_skipped_defect {r : Reading} {step : Step} {depth : Nat}
    (h : ofReading r = .ok step) (hnone : r.toValue? (depth + 1) = none) :
    ∃ members key value, r = .object members true ∧ (some key, value) ∈ members ∧
      StepField.ofKey? key = none ∧ value.HasDefect depth := by
  -- what a field is read from has a value
  have hfield : ∀ (f : StepField) (x : Reading), f.IsReadFrom step x → x.toValue? depth ≠ none := by
    intro f x hread hx
    obtain ⟨v, hv, -⟩ := (StepField.isReadFrom_iff depth).mp hread
    rw [hx] at hv
    cases hv
  cases r with
  | object members isClosed =>
    obtain ⟨rfl, hreadable, hfields⟩ := readMembers_eq_ok_iff.mp h
    have hmembers : Reading.toMembers? depth members = none := by
      simpa [Reading.toValue?] using hnone
    obtain ⟨⟨k, value⟩, hm, hvalue⟩ := Reading.toMembers?_eq_none_iff.mp hmembers
    obtain ⟨key, rfl, hintact⟩ := hreadable _ hm
    replace hvalue : value.toValue? depth = none := hvalue.resolve_left (by simp)
    cases hkey : StepField.ofKey? key with
    | none =>
      exact ⟨members, key, value, rfl, hm, hkey,
        (Reading.toValue?_eq_none_iff (hintact hkey)).mp hvalue⟩
    | some f =>
      have hgiven : value ∈ f.readingsIn members := by
        simp only [StepField.readingsIn, List.mem_map, List.mem_filter]
        exact ⟨_, ⟨hm, by simp [StepField.isKey, hkey]⟩, rfl⟩
      exact absurd hvalue (hfield f value (PartialStep.isReadFrom_of_completes (hfields f) hgiven))
  | array items isClosed =>
    obtain ⟨rfl, hfit⟩ := readElements_eq_ok_iff.mp h
    have hitems : Reading.toValues? depth items = none := by simpa [Reading.toValue?] using hnone
    obtain ⟨x, hx, hvalue⟩ := Reading.toValues?_eq_none_iff.mp hitems
    obtain ⟨f, hf⟩ := StepField.exists_isReadFrom hfit hx
    exact absurd hvalue (hfield f x hf)
  | _ => cases h

end Step

/-! ### Agreement -/

/-- Is there a defect in a member of a step of the array that is none of its
    fields? -/
def HasSkippedDefect (plan : Reading) : Prop :=
  ∃ items members key value, plan = .array items true ∧ .object members true ∈ items ∧
    (some key, value) ∈ members ∧ StepField.ofKey? key = none ∧ value.HasDefect (Json.maxDepth - 2)

namespace CommandLine

theorem parsePlan_eq_ok_iff {text : String} {steps : List Step} :
    parsePlan text = .ok steps ↔
      ∃ v, (Json.read text).root.toValue? Json.maxDepth = some v ∧
        PlanFile.ofValue? v = some steps ∧ (Json.read text).isClean = true := by
  rw [parsePlan, PlanFile.parse]
  cases (Json.read text).root.toValue? Json.maxDepth with
  | none => simp [Except.mapError]
  | some v =>
    cases hv : PlanFile.ofValue? v <;> cases (Json.read text).isClean <;> simp [Except.mapError, hv]

theorem parsePlan_of_no_value {text : String}
    (h : (Json.read text).root.toValue? Json.maxDepth = none) :
    parsePlan text = .error (.planFile .notJson) := by
  simp [parsePlan, PlanFile.parse, h, Except.mapError]

/-- The plan of a text whose first character behind any blanks opens an array
    is decoded from left to right, too.  What is decoded from left to right is
    read as the same plan as a whole, or the whole is no JSON value because of a
    defect in a skipped member; it never has the wrong shape. -/
theorem decoders_agree (text : String) (steps : List Step) :
    ((text.toList.dropWhile Char.isWhitespace).head? = some '[' →
        parsePlan text = .ok steps → Step.decodeList text = .ok steps) ∧
      (Step.decodeList text = .ok steps →
        parsePlan text = .ok steps ∨
          parsePlan text = .error (.planFile .notJson) ∧
            (Failure.planFile .notJson).message = "Error: invalid plan: <json>" ∧
            HasSkippedDefect (Json.read text).root) := by
  constructor
  · intro hstart hparse
    obtain ⟨v, hv, hsteps, hclean⟩ := parsePlan_eq_ok_iff.mp hparse
    -- the text is read as an array, so the plan is not that of an object
    obtain ⟨items, isClosed, hroot⟩ := Reading.isArray_iff.mp (Json.isArray_root_read hstart)
    rw [hroot] at hv
    obtain ⟨rfl, -, vs, hvs, rfl⟩ := Reading.toValue?_array_eq_some_iff.mp hv
    have hread := (Step.mapM_ofReading_eq_ok_iff (Reading.toValues?_eq_some_iff.mp hvs)).mpr hsteps
    exact Step.decodeList_eq_ok_iff.mpr ⟨items, hroot, hread, hclean⟩
  · intro hdecode
    obtain ⟨items, hroot, hread, hclean⟩ := Step.decodeList_eq_ok_iff.mp hdecode
    cases hvalues : Reading.toValues? (Json.maxDepth - 1) items with
    | some vs =>
      left
      have hitems := Reading.toValues?_eq_some_iff.mp hvalues
      have hsteps := (Step.mapM_ofReading_eq_ok_iff hitems).mp hread
      have hv : (Json.read text).root.toValue? Json.maxDepth = some (.array vs) := by
        rw [hroot]
        exact Reading.toValue?_array_eq_some_iff.mpr ⟨rfl, by decide, vs, hvalues, rfl⟩
      exact parsePlan_eq_ok_iff.mpr ⟨_, hv, hsteps, hclean⟩
    | none =>
      right
      -- one of the steps has no value, although it has been decoded
      obtain ⟨r, hr, hnone⟩ := Reading.toValues?_eq_none_iff.mp hvalues
      obtain ⟨step, hstep⟩ := Step.exists_ofReading hread hr
      obtain ⟨members, key, value, rfl, hm, hkey, hdefect⟩ := Step.exists_skipped_defect hstep hnone
      have hv : (Json.read text).root.toValue? Json.maxDepth = none := by
        rw [hroot]
        simp [Reading.toValue?, hvalues]
      exact ⟨parsePlan_of_no_value hv, rfl, items, members, key, value, hroot, hr, hm, hkey,
        hdefect⟩

/-- A plan with a step in each form, the first with a member that is no field. -/
def notedPlan (note : String) : String :=
  "\n[\x7b\"step_type\":\"setup\",\"ordinal\":1,\"note\":" ++ note ++
    ",\"path\":\"a.sql\",\"directory\":\"d\"\x7d, [2, \"teardown\", null, \"d\"]]"

/-- The steps of the plan. -/
def notedSteps : List Step :=
  [⟨1, .fixture, some "a.sql", ⟨"d", 0⟩⟩, ⟨2, .teardown, none, ⟨"d", 0⟩⟩]

/-- With a harmless note the plan is read by both; with half a surrogate pair
    only the decoder that skips the note reads it. -/
theorem notedPlan_decoders_agree :
    ((notedPlan "[0.5]").toList.dropWhile Char.isWhitespace).head? = some '[' ∧
      parsePlan (notedPlan "[0.5]") = .ok notedSteps ∧
      Step.decodeList (notedPlan "[0.5]") = .ok notedSteps ∧
      Step.decodeList (notedPlan "\"\\ud800\"") = .ok notedSteps ∧
      parsePlan (notedPlan "\"\\ud800\"") = .error (.planFile .notJson) ∧
      HasSkippedDefect (Json.read (notedPlan "\"\\ud800\"")).root := by
  have hstart : ((notedPlan "[0.5]").toList.dropWhile Char.isWhitespace).head? = some '[' := by
    decide +kernel
  have hparse : parsePlan (notedPlan "[0.5]") = .ok notedSteps := by decide +kernel
  have hdecode : Step.decodeList (notedPlan "\"\\ud800\"") = .ok notedSteps := by decide +kernel
  have hread := (decoders_agree (notedPlan "[0.5]") notedSteps).1 hstart hparse
  obtain ⟨herror, _, hskipped⟩ := ((decoders_agree (notedPlan "\"\\ud800\"") notedSteps).2
    hdecode).resolve_left (by decide +kernel)
  exact ⟨hstart, hparse, hread, hdecode, herror, hskipped⟩

end CommandLine

end SuiteScript
