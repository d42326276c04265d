import SuiteScript.Proofs.PlanDecoders

/-! # Written steps are read back

    A step is written as an object with all of its fields.  Read again, on its
    own or in a plan, it is the same step, whatever its script and directory
    are called. -/

namespace SuiteScript

open Json (Reading Value Lexes)

/-! ### One step -/

namespace StepField

/-- The value that is written for a field. -/
def written (step : Step) : StepField → Value
  | ordinal => .ofNat step.ordinal.toNat
  | kind => .text step.kind.name
  | scriptPath => .ofText? step.scriptPath
  | directory => .text step.place.directory
  | depth => .ofNat step.place.depth.toNat

theorem toWord?_ofNat_toNat (n : UInt32) : (Value.ofNat n.toNat).toWord? = some n := by
  have hn : n.toNat < UInt32.size := n.toNat_lt
  rw [Value.ofNat, Value.toWord?, if_pos hn, UInt32.ofNat_toNat]

theorem isGivenBy_written (f : StepField) (step : Step) : f.IsGivenBy step (f.written step) := by
  cases f with
  | ordinal => exact toWord?_ofNat_toNat _
  | kind => exact StepKind.ofName?_name _
  | scriptPath =>
    cases h : step.scriptPath <;>
      simp [IsGivenBy, written, h, Value.ofText?, Value.toOptionalText?]
  | directory => rfl
  | depth => exact toWord?_ofNat_toNat _

end StepField

namespace Step

/-- The members of a step's object. -/
def members (step : Step) : List (String × Value) :=
  [.ordinal, .kind, .scriptPath, .directory, .depth].map fun f : StepField =>
    (f.key, f.written step)

theorem toValue_eq (step : Step) : step.toValue = .object step.members := rfl

theorem valuesIn_members (f : StepField) (step : Step) :
    f.valuesIn step.members = [f.written step] := by
  cases f <;> simp [members, StepField.valuesIn_cons, StepField.ofKey?_key] <;> rfl

/-- The object of a step stands for the step. -/
theorem ofValue?_toValue (step : Step) : ofValue? step.toValue = some step := by
  rw [toValue_eq]
  refine ofMembers?_eq_some_iff.mpr fun f => ?_
  rw [valuesIn_members]
  exact f.isGivenBy_written step

theorem hasPlainNumbers_toValue (step : Step) : step.toValue.hasPlainNumbers = true := by
  have hword : ∀ n : UInt32, (Value.ofNat n.toNat).hasPlainNumbers = true := by
    intro n
    have hn : n.toNat < UInt32.size := n.toNat_lt
    exact decide_eq_true (Nat.lt_trans hn (by decide))
  have hscript : (Value.ofText? step.scriptPath).hasPlainNumbers = true := by
    cases step.scriptPath <;> rfl
  simp [toValue, Value.hasPlainNumbers, Value.membersHavePlainNumbers, hword, hscript]

theorem height_toValue (step : Step) : step.toValue.height = 1 := by
  cases h : step.scriptPath <;>
    simp [toValue, Value.height, Value.membersHeight, Value.ofNat, Value.ofText?, h]

theorem decode_encode (step : Step) : decode step.encode = .ok step := by
  have hread : Json.read step.encode = ⟨step.toValue.toReading, true⟩ :=
    Json.read_compact _ step.hasPlainNumbers_toValue
  have hvalue : step.toValue.toReading.toValue? 1 = some step.toValue :=
    Value.toValue?_toReading _ (Nat.le_of_eq step.height_toValue)
  have hstep := (ofReading_eq_ok_iff hvalue).mpr step.ofValue?_toValue
  rw [decode, decodeWith, hread]
  simp [hstep, bind, Except.bind]

/-! ### Plans -/

/-- The array of some steps. -/
def listValue (steps : List Step) : Value := .array (steps.map toValue)

/-- The array of some steps as text: their encodings, with commas between
    them. -/
def encodeList (steps : List Step) : String :=
  "[" ++ ",".intercalate (steps.map encode) ++ "]"

/-- An object whose member `steps` holds an array, with a gap in front of it. -/
def wrap (gap array : String) : String := "\x7b\"steps\":" ++ gap ++ array ++ "\x7d"

variable (steps : List Step)

theorem toList_encodeList : (encodeList steps).toList = (listValue steps).compact := by
  have hitems : (steps.map toValue).map Value.compact = (steps.map encode).map String.toList := by
    simp [encode]
  rw [listValue, Value.compact, Value.compactItems_eq, hitems]
  cases steps with
  | nil => rfl
  | cons step rest => simp [encodeList, Json.enclose, Function.comp_def]

theorem hasPlainNumbers_listValue : (listValue steps).hasPlainNumbers = true := by
  rw [listValue, Value.hasPlainNumbers, Value.itemsHavePlainNumbers_iff, List.forall_mem_map]
  exact fun step _ => step.hasPlainNumbers_toValue

theorem height_listValue : (listValue steps).height ≤ 2 := by
  refine Nat.succ_le_succ (Value.itemsHeight_le ?_)
  rw [List.forall_mem_map]
  exact fun step _ => Nat.le_of_eq step.height_toValue

theorem mapM_ofValue?_toValue : (steps.map toValue).mapM ofValue? = some steps := by
  induction steps with
  | nil => rfl
  | cons step rest ih => simp [ofValue?_toValue, ih]

end Step

namespace CommandLine

/-- A text that is cut into the tokens of a value is read as the plan that the
    value stands for. -/
theorem parsePlan_of_lexes {text : String} {v : Value} {steps : List Step}
    (h : Lexes text.toList v.toReading.tokens) (hheight : v.height ≤ Json.maxDepth)
    (hsteps : PlanFile.ofValue? v = some steps) : parsePlan text = .ok steps := by
  have hread := Json.read_of_lexes v.isIntact_toReading h
  rw [String.ofList_toList] at hread
  rw [parsePlan_eq_ok_iff, hread]
  exact ⟨v, v.toValue?_toReading hheight, hsteps, rfl⟩

theorem parsePlan_encodeList (steps : List Step) :
    parsePlan (Step.encodeList steps) = .ok steps := by
  have hlexes := Value.lexes_compact _ (Step.hasPlainNumbers_listValue steps)
  rw [← Step.toList_encodeList] at hlexes
  have hheight : (Step.listValue steps).height ≤ Json.maxDepth :=
    Nat.le_trans (Step.height_listValue steps) (by decide)
  exact parsePlan_of_lexes hlexes hheight (Step.mapM_ofValue?_toValue steps)

theorem parsePlan_wrap (steps : List Step) {gap : String}
    (hgap : ∀ c ∈ gap.toList, c.isWhitespace = true) :
    parsePlan (Step.wrap gap (Step.encodeList steps)) = .ok steps := by
  let v : Value := .object [(PlanFile.stepsKey, Step.listValue steps)]
  have htext : (Step.wrap gap (Step.encodeList steps)).toList = Json.enclose '\x7b' '\x7d' [] []
      [Json.quote PlanFile.stepsKey ++ ':' :: (gap.toList ++ (Step.listValue steps).compact)] := by
    have hkey : "\x7b\"steps\":".toList = '\x7b' :: (Json.quote PlanFile.stepsKey ++ [':']) := by
      decide +kernel
    simp [Step.wrap, Json.enclose, Step.toList_encodeList, hkey]
  have hnone : ∀ c ∈ ([] : List Char), c.isWhitespace = true := List.forall_mem_nil _
  have harray := Value.lexes_compact _ (Step.hasPlainNumbers_listValue steps)
  have hmember := Json.lexes_keyed (Json.lexes_quote PlanFile.stepsKey) (harray.behind_blanks hgap)
  have hlexes : Lexes (Step.wrap gap (Step.encodeList steps)).toList v.toReading.tokens := by
    rw [htext]
    exact Json.lexes_enclose rfl rfl (by decide) hnone hnone (.cons hmember .nil)
  have hheight : v.height ≤ Json.maxDepth := by
    have := Step.height_listValue steps
    simp only [v, Value.height, Value.membersHeight, Json.maxDepth]
    omega
  exact parsePlan_of_lexes hlexes hheight (Step.mapM_ofValue?_toValue steps)

/-- What is written is read back: a step on its own, and any list of steps as a
    plan, whether in an array or in an object with the array. -/
theorem encodings_read_back :
    (∀ step : Step, Step.decode step.encode = .ok step) ∧
      ∀ steps : List Step,
        parsePlan (Step.encodeList steps) = .ok steps ∧
          ∀ gap : String, (∀ c ∈ gap.toList, c.isWhitespace = true) →
            parsePlan (Step.wrap gap (Step.encodeList steps)) = .ok steps :=
  ⟨Step.decode_encode, fun steps => ⟨parsePlan_encodeList steps, fun _ => parsePlan_wrap steps⟩⟩

/-- Steps with the smallest and the largest numbers, and with characters that are
    escaped or would end a string or the text. -/
def oddSteps : List Step := [
  ⟨0, .teardown, none, ⟨"", 4294967295⟩⟩,
  ⟨4294967295, .test, some "\"\x7d],\\u0000\x00\x1f\x7f", ⟨"\t\r\n/😀\u2028", 0⟩⟩]

theorem oddSteps_read_back :
    (∀ c ∈ " ".toList, c.isWhitespace = true) ∧
      parsePlan (Step.wrap " " (Step.encodeList oddSteps)) = .ok oddSteps := by
  have hgap : ∀ c ∈ " ".toList, c.isWhitespace = true := List.all_eq_true.mp (by decide)
  exact ⟨hgap, (encodings_read_back.2 oddSteps).2 " " hgap⟩

end CommandLine

end SuiteScript
