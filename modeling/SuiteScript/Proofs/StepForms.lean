import Mathlib.Data.List.ReduceOption
import SuiteScript.Proofs.JsonGrammar
import SuiteScript.Proofs.NameResolution
import SuiteScript.Proofs.StepRoundTrip

/-! # The forms of a step

    One step is written in many ways.  An object may give its fields in any
    order and under any of their keys, may leave out what is a default, and
    may hold members that are no fields, with any value.  An array gives all
    fields in their order.  All these texts are read as the step, and an
    object that gives a field twice is refused
    (`Step.decode_forms_and_duplicates`).

    For each member it is said which field it gives (`Step.IsMember`).  That
    is kept when the text is cut into a reading (`Step.Offers`), and there
    the reader finds as many values for a field as members were said to give
    it (`Step.exists_readingsIn_eq`). -/

namespace SuiteScript

open Json

/-! ### Spellings -/

/-- The keys under which a field is read. -/
def StepField.keys : StepField → List String
  | ordinal => ["ordinal"]
  | kind => ["kind", "step_type"]
  | scriptPath => ["script_path", "path"]
  | directory => ["directory"]
  | depth => ["depth"]

theorem StepField.ofKey?_eq_some_iff {key : String} {f : StepField} :
    ofKey? key = some f ↔ key ∈ f.keys := by
  constructor
  · intro h
    obtain ⟨t, ht, rfl, hspelled⟩ := Vocabulary.exists_term_of_resolve h
    simp only [vocabulary, List.mem_cons, List.not_mem_nil, or_false] at ht
    rw [Term.isSpelled_iff] at hspelled
    rcases ht with rfl | rfl | rfl | rfl | rfl <;> simpa [StepField.key, keys] using hspelled
  · intro h
    cases f <;> simp only [keys, List.mem_cons, List.not_mem_nil, or_false] at h
    case ordinal | directory | depth => subst h; rfl
    case kind | scriptPath => rcases h with rfl | rfl <;> rfl

/-- The spellings of a kind. -/
def StepKind.spellings : StepKind → List String
  | fixture => ["fixture", "setup"]
  | test => ["test"]
  | teardown => ["teardown"]

theorem StepKind.ofName?_of_mem_spellings {k : StepKind} {name : String} (h : name ∈ k.spellings) :
    ofName? name = some k := by
  cases k <;> simp only [spellings, List.mem_cons, List.not_mem_nil, or_false] at h
  case fixture => rcases h with rfl | rfl <;> rfl
  case test | teardown => subst h; rfl

/-! ### What is written -/

/-- The text writes what the field of the step is. -/
inductive StepField.IsWrittenAs (step : Step) : StepField → List Char → Prop
  /-- A number has one form. -/
  | ordinal : IsWrittenAs step .ordinal (Nat.toDigits 10 step.ordinal.toNat)
  /-- Any spelling of the kind. -/
  | kind {text : List Char} {name : String} (hname : name ∈ step.kind.spellings)
      (h : IsStringOf text name) : IsWrittenAs step .kind text
  /-- An absent script. -/
  | noScript (hscript : step.scriptPath = none) : IsWrittenAs step .scriptPath "null".toList
  /-- The script. -/
  | script {text : List Char} {path : String} (hscript : step.scriptPath = some path)
      (h : IsStringOf text path) : IsWrittenAs step .scriptPath text
  /-- The directory. -/
  | directory {text : List Char} (h : IsStringOf text step.place.directory) :
      IsWrittenAs step .directory text
  /-- A number has one form. -/
  | depth : IsWrittenAs step .depth (Nat.toDigits 10 step.place.depth.toNat)

/-- The key of the member is one of the field's. -/
def Json.MemberText.Names (m : MemberText) (f : StepField) : Prop :=
  ∃ key ∈ f.keys, IsStringOf m.key.text key

namespace Step

/-- The member gives a field of the step, or it is no field. -/
inductive IsMember (step : Step) : Option StepField → MemberText → Prop
  /-- The field, under any of its keys. -/
  | field {f : StepField} {m : MemberText} (hkey : m.Names f)
      (h : f.IsWrittenAs step m.value.text) : IsMember step (some f) m
  /-- Another key, with any value. -/
  | other {m : MemberText} {key : String} (hkey : IsStringOf m.key.text key)
      (hother : ∀ f : StepField, key ∉ f.keys) (h : IsValue m.value.text) : IsMember step none m

/-- The members give the step; `given` says of each what it gives. -/
structure IsGivenBy (step : Step) (given : List (Option StepField)) (members : List MemberText) :
    Prop where
  /-- Each gives what is said of it. -/
  members : List.Forall₂ step.IsMember given members
  /-- No field is given twice. -/
  once : given.reduceOption.Nodup
  /-- Only defaults are left out. -/
  defaults : ∀ f : StepField, some f ∉ given → f.IsDefault step

/-- The elements give all fields of the step in their order. -/
def IsListedBy (step : Step) (items : List Padded) : Prop :=
  List.Forall₂ (fun (f : StepField) p => f.IsWrittenAs step p.text)
    [.ordinal, .kind, .scriptPath, .directory, .depth] items

end Step

/-! ### What is read -/

theorem StepField.IsWrittenAs.exists_value {step : Step} {f : StepField} {text : List Char}
    (h : f.IsWrittenAs step text) :
    ∃ v : Value, f.IsGivenBy step v ∧ Lexes text v.toReading.tokens := by
  have hword : ∀ n : UInt32,
      Lexes (Nat.toDigits 10 n.toNat) (Value.ofNat n.toNat).toReading.tokens :=
    fun n => lexes_toDigits (Nat.lt_trans n.toNat_lt (by decide))
  cases h with
  | ordinal => exact ⟨_, StepField.toWord?_ofNat_toNat _, hword _⟩
  | @kind _ name hname h =>
    exact ⟨.text name, StepKind.ofName?_of_mem_spellings hname, h.lexes⟩
  | noScript hscript => exact ⟨.null, isGivenBy_null.mpr hscript, Value.lexes_null⟩
  | @script _ path hscript h => exact ⟨.text path, congrArg some hscript.symm, h.lexes⟩
  | directory h => exact ⟨.text _, rfl, h.lexes⟩
  | depth => exact ⟨_, StepField.toWord?_ofNat_toNat _, hword _⟩

theorem StepField.IsWrittenAs.exists_isReadAs {step : Step} {f : StepField} {text : List Char}
    (h : f.IsWrittenAs step text) : ∃ r, IsReadAs text r ∧ f.IsReadFrom step r := by
  obtain ⟨v, hgiven, hlexes⟩ := h.exists_value
  have hvalue := v.toValue?_toReading (Nat.le_refl _)
  exact ⟨v.toReading, ⟨v.isIntact_toReading, hlexes⟩,
    (StepField.isReadFrom_iff v.height).mpr ⟨v, hvalue, hgiven⟩⟩

namespace Step

/-- The member of a reading gives a field of the step, or it is no field. -/
inductive Offers (step : Step) : Option StepField → Reading.Member → Prop
  /-- The reader takes the field from it. -/
  | field {f : StepField} {key : String} {r : Reading} (hkey : StepField.ofKey? key = some f)
      (h : f.IsReadFrom step r) : Offers step (some f) (some key, r)
  /-- The reader skips it. -/
  | other {key : String} {r : Reading} (hkey : StepField.ofKey? key = none)
      (h : r.isIntact = true) : Offers step none (some key, r)

variable {step : Step} {given : List (Option StepField)} {members : List MemberText}
  {rms : List Reading.Member}

theorem IsMember.exists_offers {label : Option StepField} {m : MemberText}
    (h : step.IsMember label m) : ∃ rm, m.IsReadAs rm ∧ step.Offers label rm := by
  cases h with
  | field hkey h =>
    obtain ⟨key, hmem, hkey⟩ := hkey
    obtain ⟨r, hr, hfield⟩ := h.exists_isReadAs
    exact ⟨(some key, r), ⟨hkey.lexes, hr⟩, .field (StepField.ofKey?_eq_some_iff.mpr hmem) hfield⟩
  | @other _ key hkey hother h =>
    obtain ⟨r, hr⟩ := h.exists_isReadAs
    have hnone : StepField.ofKey? key = none := by
      rw [Option.eq_none_iff_forall_not_mem]
      intro f hf
      exact hother f (StepField.ofKey?_eq_some_iff.mp hf)
    exact ⟨(some key, r), ⟨hkey.lexes, hr⟩, .other hnone hr.isIntact⟩

theorem Offers.isReadable {label : Option StepField} {rm : Reading.Member}
    (h : step.Offers label rm) : PartialStep.IsReadable rm := by
  cases h with
  | field hkey _ => exact ⟨_, rfl, fun hnone => nomatch hkey.symm.trans hnone⟩
  | other _ h => exact ⟨_, rfl, fun _ => h⟩

/-- A field that no member is said to give is given by no reading. -/
theorem readingsIn_eq_nil (h : List.Forall₂ step.Offers given rms) {f : StepField}
    (hf : some f ∉ given) : f.readingsIn rms = [] := by
  induction h with
  | nil => rfl
  | cons hoffer _ ih =>
    rw [List.mem_cons, not_or] at hf
    cases hoffer with
    | field hkey _ => rw [StepField.readingsIn_cons, hkey, if_neg (Ne.symm hf.1), ih hf.2]
    | other hkey _ => rw [StepField.readingsIn_cons, hkey, if_neg (by simp), ih hf.2]

/-- A field that one member is said to give is given by one reading. -/
theorem exists_readingsIn_eq (h : List.Forall₂ step.Offers given rms)
    (honce : given.reduceOption.Nodup) {f : StepField} (hf : some f ∈ given) :
    ∃ r, f.readingsIn rms = [r] ∧ f.IsReadFrom step r := by
  induction h with
  | nil => cases hf
  | cons hoffer hrest ih =>
    cases hoffer with
    | other hkey _ =>
      rw [StepField.readingsIn_cons, hkey, if_neg (by simp)]
      exact ih honce (by simpa using hf)
    | @field g key r hkey hread =>
      rw [List.reduceOption_cons_of_some, List.nodup_cons, List.reduceOption_mem_iff] at honce
      rw [StepField.readingsIn_cons, hkey]
      by_cases hfg : g = f
      · -- the members behind it do not give the field again
        subst hfg
        exact ⟨r, by rw [if_pos rfl, readingsIn_eq_nil hrest honce.1], hread⟩
      · rw [if_neg (by simpa using hfg)]
        exact ih honce.2 (by simpa [Ne.symm hfg] using hf)

/-- Members that are said to give the step are read as the step. -/
theorem readMembers_of_offers (h : List.Forall₂ step.Offers given rms)
    (honce : given.reduceOption.Nodup)
    (hdefaults : ∀ f : StepField, some f ∉ given → f.IsDefault step) :
    readMembers rms true = .ok step := by
  refine readMembers_eq_ok_iff.mpr ⟨rfl, ?_, fun f => ?_⟩
  · intro rm hrm
    obtain ⟨label, -, hoffers⟩ := exists_of_forall₂ h.flip hrm
    exact hoffers.isReadable
  · by_cases hf : some f ∈ given
    · obtain ⟨r, hreadings, hread⟩ := exists_readingsIn_eq h honce hf
      have hhas : ({} : PartialStep).has f = false := by cases f <;> rfl
      rw [hreadings]
      exact ⟨hhas, hread⟩
    · rw [readingsIn_eq_nil h hf]
      exact PartialStep.supplies_empty.mpr (hdefaults f hf)

/-! ### Fields that are given twice -/

theorem exists_sublist_of_forall₂ {α β : Type} {R : α → β → Prop} {as as' : List α} {bs : List β}
    (h : List.Forall₂ R as bs) (hsub : as'.Sublist as) :
    ∃ bs', bs'.Sublist bs ∧ List.Forall₂ R as' bs' := by
  induction h generalizing as' with
  | nil =>
    rw [List.sublist_nil.mp hsub]
    exact ⟨[], .slnil, .nil⟩
  | @cons a b _ _ hab _ ih =>
    cases hsub with
    | cons _ hsub =>
      obtain ⟨bs', hbs', h'⟩ := ih hsub
      exact ⟨bs', hbs'.cons b, h'⟩
    | cons_cons _ hsub =>
      obtain ⟨bs', hbs', h'⟩ := ih hsub
      exact ⟨b :: bs', hbs'.cons_cons b, .cons hab h'⟩

/-- The key of a member is one token, so it is read as the key that it is. -/
theorem isKey_of_names {f : StepField} {m : MemberText} {rm : Reading.Member} (hm : m.IsReadAs rm)
    (h : m.Names f) : rm.1.any f.isKey = true := by
  obtain ⟨key, hmem, hkey⟩ := h
  have htokens := (tokens_of_lexes hm.key).symm.trans (tokens_of_lexes hkey.lexes)
  have hown : rm.1 = some key := by simpa using htokens
  simp [hown, StepField.isKey, StepField.ofKey?_eq_some_iff.mpr hmem]

/-- Of two members whose keys are those of one field, one is too many. -/
theorem readMembers_ne_ok {f : StepField} {m₁ m₂ : MemberText}
    (h : List.Forall₂ MemberText.IsReadAs members rms) (hsub : [m₁, m₂].Sublist members)
    (h₁ : m₁.Names f) (h₂ : m₂.Names f) : readMembers rms true ≠ .ok step := by
  obtain ⟨pair, hpair, hreads⟩ := exists_sublist_of_forall₂ h hsub
  obtain ⟨rm₁, _, hreads₁, hrest, rfl⟩ := List.forall₂_cons_left_iff.mp hreads
  obtain ⟨rm₂, _, hreads₂, hnil, rfl⟩ := List.forall₂_cons_left_iff.mp hrest
  rw [List.forall₂_nil_left_iff.mp hnil] at hpair
  have hown : f.readingsIn [rm₁, rm₂] = [rm₁.2, rm₂.2] := by
    simp [StepField.readingsIn, isKey_of_names hreads₁ h₁, isKey_of_names hreads₂ h₂]
  -- so the field has two values at least, wherever the members stand
  have htwo : [rm₁.2, rm₂.2].Sublist (f.readingsIn rms) := by
    rw [← hown]
    exact (hpair.filter _).map Prod.snd
  intro hok
  have hcompletes := (readMembers_eq_ok_iff.mp hok).2.2 f
  cases hreadings : f.readingsIn rms with
  | nil =>
    rw [hreadings] at htwo
    cases htwo
  | cons r rest =>
    rw [hreadings, PartialStep.completes_cons_iff] at hcompletes
    rw [hreadings, hcompletes.2.2] at htwo
    exact absurd htwo.length_le (by simp)

/-! ### Texts -/

/-- A text with blanks around it. -/
def document (before : Blanks) (text : List Char) (after : Blanks) : String :=
  String.ofList (Padded.written ⟨before, text, after⟩)

theorem decode_document {before after : Blanks} {text : List Char} {r : Reading}
    (h : IsReadAs text r) : decode (document before text after) = ofReading r := by
  have hpadded : IsReadAs (Padded.written ⟨before, text, after⟩) r := Padded.isReadAs h
  rw [decode, decodeWith, document, read_of_lexes hpadded.isIntact hpadded.lexes]
  cases ofReading r <;> rfl

theorem decode_objectText {before after gap : Blanks} (h : step.IsGivenBy given members) :
    decode (document before (objectText gap members) after) = .ok step := by
  obtain ⟨rms, hreads, hoffers⟩ :=
    exists_forall₂_both h.members fun _ _ hm => hm.exists_offers
  rw [decode_document (isReadAs_objectText hreads)]
  exact readMembers_of_offers hoffers h.once h.defaults

theorem decode_arrayText {before after gap : Blanks} {items : List Padded}
    (h : step.IsListedBy items) :
    decode (document before (arrayText gap items) after) = .ok step := by
  obtain ⟨rs, hreads, hfields⟩ :=
    exists_forall₂_both h fun _ _ hwritten => hwritten.exists_isReadAs
  rw [decode_document (isReadAs_arrayText hreads)]
  exact readElements_eq_ok_iff.mpr ⟨rfl, .inl hfields⟩

theorem exists_decode_eq_error {before after gap : Blanks}
    (hvalues : ∀ m ∈ members, IsString m.key.text ∧ IsValue m.value.text) {f : StepField}
    {m₁ m₂ : MemberText} (hsub : [m₁, m₂].Sublist members) (h₁ : m₁.Names f) (h₂ : m₂.Names f) :
    ∃ e, decode (document before (objectText gap members) after) = .error e := by
  obtain ⟨rms, hreads⟩ := exists_forall₂ fun m hm =>
    MemberText.exists_isReadAs (hvalues m hm).1 (hvalues m hm).2.exists_isReadAs
  rw [decode_document (isReadAs_objectText hreads)]
  show ∃ e, readMembers rms true = .error e
  cases hok : readMembers rms true with
  | error e => exact ⟨e, rfl⟩
  | ok step => exact absurd hok (readMembers_ne_ok hreads hsub h₁ h₂)

/-- Whatever stands between its fields, a step is read from every object that
    gives each field once, under any of its keys and in any order, or leaves
    it out where it is a default.  It is also read from the array of its
    fields.  An object in which two members give one field is refused. -/
theorem decode_forms_and_duplicates (before after gap : Blanks) :
    (∀ (step : Step) given members, step.IsGivenBy given members →
      decode (document before (objectText gap members) after) = .ok step) ∧
    (∀ (step : Step) items, step.IsListedBy items →
      decode (document before (arrayText gap items) after) = .ok step) ∧
    ∀ (members : List MemberText) (f : StepField) (m₁ m₂ : MemberText),
      (∀ m ∈ members, IsString m.key.text ∧ IsValue m.value.text) →
      [m₁, m₂].Sublist members → m₁.Names f → m₂.Names f →
      ∃ e, decode (document before (objectText gap members) after) = .error e :=
  ⟨fun _ _ _ => decode_objectText, fun _ _ => decode_arrayText,
    fun _ _ _ _ hvalues hsub => exists_decode_eq_error hvalues hsub⟩

/-- No blanks. -/
def noBlanks : Blanks := ⟨[], List.forall_mem_nil _⟩

/-- A text without blanks around it. -/
def bare (text : List Char) : Padded := ⟨noBlanks, text, noBlanks⟩

/-- A fixture whose script is missing. -/
def lackingStep : Step := ⟨7, .fixture, none, ⟨"a/", 0⟩⟩

/-- Its members, in another order, under older keys and with an escape in one
    of them; in front of them a value that has no value. -/
def lackingMembers : List MemberText := [
  ⟨bare (quote "note"), bare (arrayText noBlanks [bare "1e999".toList,
    bare (objectText noBlanks [⟨bare "\"\\ud800\"".toList, bare "null".toList⟩])])⟩,
  ⟨bare "\"pat\\u0068\"".toList, bare "null".toList⟩,
  ⟨bare (quote "step_type"), bare (quote "setup")⟩,
  ⟨bare (quote "directory"), bare (quote "a/")⟩,
  ⟨bare (quote "ordinal"), bare (Nat.toDigits 10 7)⟩]

theorem isValue_note : IsValue (arrayText noBlanks [bare "1e999".toList,
    bare (objectText noBlanks [⟨bare "\"\\ud800\"".toList, bare "null".toList⟩])]) := by
  have hdigit : IsWhole ['1'] := .digits (by decide) ⟨by simp, List.all_eq_true.mp rfl⟩
  have hexponent : IsExponent ['e', '9', '9', '9'] :=
    @IsExponent.digits 'e' [] ['9', '9', '9'] (.inl rfl) (.inl rfl) ⟨by simp, List.all_eq_true.mp rfl⟩
  have hnumber : IsNumeral "1e999".toList :=
    @IsNumeral.parts [] ['1'] [] _ (.inl rfl) hdigit .absent hexponent
  have hhalf : IsString "\"\\ud800\"".toList := .quoted (.code rfl rfl rfl rfl .nil)
  refine .array _ ?_
  rw [List.forall_mem_cons, List.forall_mem_singleton]
  exact ⟨.number hnumber, .object noBlanks (List.forall_mem_singleton.mpr hhalf)
    (List.forall_mem_singleton.mpr .null)⟩

theorem lackingStep_isGivenBy : lackingStep.IsGivenBy
    [none, some .scriptPath, some .kind, some .directory, some .ordinal] lackingMembers where
  members := by
    have hnames : ∀ (f : StepField) (key : String) (value : Padded), key ∈ f.keys →
        MemberText.Names ⟨bare (quote key), value⟩ f :=
      fun f key value hkey => ⟨key, hkey, isStringOf_quote key⟩
    have hpath : IsStringOf "\"pat\\u0068\"".toList "path" :=
      .quoted (.char (by decide) (by decide) (by decide) (.char (by decide) (by decide) (by decide)
        (.char (by decide) (by decide) (by decide) (.code rfl rfl rfl rfl .nil))))
        (.char (.char (.char (.code (by decide) .nil))))
    refine .cons (.other (isStringOf_quote "note") ?_ isValue_note) <|
      .cons (.field ⟨"path", by decide, hpath⟩ (.noScript rfl)) <|
      .cons (.field (hnames .kind "step_type" _ (by decide))
        (.kind (by decide) (isStringOf_quote "setup"))) <|
      .cons (.field (hnames .directory "directory" _ (by decide))
        (.directory (isStringOf_quote "a/"))) <|
      .cons (.field (hnames .ordinal "ordinal" _ (by decide)) .ordinal) .nil
    intro f
    cases f <;> decide
  once := by decide
  defaults := by
    intro f hf
    cases f
    case depth => rfl
    all_goals exact absurd (by decide) hf

/-- The object, the array of the same step, and an object with a kind too
    many. -/
theorem lackingStep_decode_forms :
    decode ("\x7b\"note\":[1e999,\x7b\"\\ud800\":null\x7d],\"pat\\u0068\":null," ++
      "\"step_type\":\"setup\",\"directory\":\"a/\",\"ordinal\":7\x7d") = .ok lackingStep ∧
    decode "[7,\"setup\",null,\"a/\",0]" = .ok lackingStep ∧
    ∃ e, decode "\x7b\"kind\":\"test\",\"step_type\":\"test\"\x7d" = .error e := by
  obtain ⟨hobject, harray, hduplicate⟩ := decode_forms_and_duplicates noBlanks noBlanks noBlanks
  refine ⟨?_, ?_, ?_⟩
  · have htext : document noBlanks (objectText noBlanks lackingMembers) noBlanks =
        "\x7b\"note\":[1e999,\x7b\"\\ud800\":null\x7d],\"pat\\u0068\":null," ++
          "\"step_type\":\"setup\",\"directory\":\"a/\",\"ordinal\":7\x7d" := by
      decide +kernel
    rw [← htext]
    exact hobject _ _ _ lackingStep_isGivenBy
  · let items : List Padded := [bare (Nat.toDigits 10 7), bare (quote "setup"),
      bare "null".toList, bare (quote "a/"), bare (Nat.toDigits 10 0)]
    have htext : document noBlanks (arrayText noBlanks items) noBlanks =
        "[7,\"setup\",null,\"a/\",0]" := by decide +kernel
    have hlisted : lackingStep.IsListedBy items :=
      .cons .ordinal <| .cons (.kind (by decide) (isStringOf_quote "setup")) <|
        .cons (.noScript rfl) <| .cons (.directory (isStringOf_quote "a/")) <| .cons .depth .nil
    rw [← htext]
    exact harray _ _ hlisted
  · let members : List MemberText := ["kind", "step_type"].map fun key =>
      ⟨bare (quote key), bare (quote "test")⟩
    have htext : document noBlanks (objectText noBlanks members) noBlanks =
        "\x7b\"kind\":\"test\",\"step_type\":\"test\"\x7d" := by decide +kernel
    have hvalues : ∀ m ∈ members, IsString m.key.text ∧ IsValue m.value.text := by
      rw [List.forall_mem_map]
      intro key _
      exact ⟨(isStringOf_quote key).isString, .string (isStringOf_quote "test").isString⟩
    rw [← htext]
    exact hduplicate members .kind _ _ hvalues (List.Sublist.refl _)
      ⟨"kind", by decide, isStringOf_quote _⟩ ⟨"step_type", by decide, isStringOf_quote _⟩

end Step

end SuiteScript
