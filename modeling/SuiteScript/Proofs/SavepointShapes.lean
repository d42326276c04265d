import SuiteScript.Proofs.JsonGrammar
import SuiteScript.Proofs.SavepointNames

/-! # What is taken for the name of a savepoint

    A class is read from the shape of a text: the common start, a marker,
    digits, the common end (`Savepoint.classOfName?_eq_some_iff`).  Every
    savepoint has a name of this shape, with the digits of its number, which
    has 32 bits.

    The digits are not read as a number, so there is more that has the shape:
    texts with a zero in front of the number, and texts with a number of more
    than 32 bits (`Savepoint.Misnumbered`).  A text from which a class is
    read is the name of one savepoint of this class, or it is one of these
    (`Savepoint.classified_iff_named_or_misnumbered`). -/

namespace SuiteScript

open Json

/-! ### Numbers and their digits -/

theorem isDigits_iff {digits : List Char} :
    IsDigits digits ↔ digits ≠ [] ∧ ∀ c ∈ digits, c.isDigit = true :=
  ⟨fun h => ⟨h.ne_nil, h.digits⟩, fun h => ⟨h.1, h.2⟩⟩

theorem isDigits_toDigits (n : Nat) : IsDigits (Nat.toDigits 10 n) :=
  ⟨Nat.toDigits_ne_nil, fun _ hc => Nat.isDigit_of_mem_toDigits (by omega) (by omega) hc⟩

/-- More digits behind those of a number that is not zero. -/
theorem toDigits_ofDigitChars {n : Nat} (hn : 0 < n) {digits : List Char}
    (h : ∀ c ∈ digits, c.isDigit = true) :
    Nat.toDigits 10 (Nat.ofDigitChars 10 digits n) = Nat.toDigits 10 n ++ digits := by
  induction digits generalizing n with
  | nil => simp
  | cons c rest ih =>
    obtain ⟨hc, hrest⟩ := List.forall_mem_cons.mp h
    obtain ⟨d, hd, rfl⟩ := LexMode.exists_eq_digitChar hc
    calc Nat.toDigits 10 (Nat.ofDigitChars 10 (d.digitChar :: rest) n)
        = Nat.toDigits 10 (Nat.ofDigitChars 10 rest (10 * n + d)) := by
          rw [Nat.ofDigitChars_cons_digitChar_of_lt_ten hd]
      _ = Nat.toDigits 10 (10 * n + d) ++ rest := ih (by omega) hrest
      _ = Nat.toDigits 10 n ++ Nat.toDigits 10 d ++ rest := by
          rw [Nat.toDigits_append_toDigits (by omega) hn hd]
      _ = Nat.toDigits 10 n ++ d.digitChar :: rest := by
          rw [Nat.toDigits_of_lt_base hd, List.append_assoc, List.singleton_append]

/-- The first digit of a number that is not zero. -/
theorem head?_toDigits_ne {n : Nat} (hn : 0 < n) : (Nat.toDigits 10 n).head? ≠ some '0' := by
  induction n using Nat.strongRecOn with
  | ind n ih =>
    by_cases hsmall : n < 10
    · have hdigit : n.digitChar ≠ '0' := by
        rw [ne_eq, Nat.digitChar_eq_zero]
        omega
      rw [Nat.toDigits_of_lt_base hsmall]
      simpa using hdigit
    · rw [Nat.toDigits_of_base_le (by omega) (by omega),
        List.head?_append_of_ne_nil _ Nat.toDigits_ne_nil]
      exact ih (n / 10) (by omega) (by omega)

/-- No number is written with a zero in front of other digits. -/
theorem toDigits_ne_padded {digits : List Char} (h : IsDigits digits) (n : Nat) :
    Nat.toDigits 10 n ≠ '0' :: digits := by
  intro hpadded
  rcases Nat.eq_zero_or_pos n with rfl | hn
  · rw [Nat.toDigits_zero] at hpadded
    exact h.ne_nil (List.cons.inj hpadded).2.symm
  · exact head?_toDigits_ne hn (by simp [hpadded])

/-- All other digits are those of a number. -/
theorem Json.IsDigits.eq_toDigits_or_padded {digits : List Char} (h : IsDigits digits) :
    (∃ n, digits = Nat.toDigits 10 n) ∨ ∃ more, IsDigits more ∧ digits = '0' :: more := by
  obtain ⟨first, more, rfl⟩ := List.exists_cons_of_ne_nil h.ne_nil
  obtain ⟨hfirst, hmore⟩ := List.forall_mem_cons.mp h.digits
  obtain ⟨d, hd, rfl⟩ := LexMode.exists_eq_digitChar hfirst
  rcases Nat.eq_zero_or_pos d with rfl | hpos
  · by_cases hnil : more = []
    · subst hnil
      exact .inl ⟨0, rfl⟩
    · exact .inr ⟨more, ⟨hnil, hmore⟩, rfl⟩
  · refine .inl ⟨Nat.ofDigitChars 10 more d, ?_⟩
    rw [toDigits_ofDigitChars hpos hmore, Nat.toDigits_of_lt_base hd, List.singleton_append]

namespace Savepoint

/-! ### The shape of a name -/

/-- A text of the shape of a name, with any digits. -/
def nameWith (cls : SavepointClass) (digits : List Char) : String :=
  String.ofList (nameStart ++ cls.marker :: (digits ++ nameEnd))

variable {cls cls' : SavepointClass} {digits digits' : List Char} {text : String}

theorem name_eq_nameWith (sp : Savepoint) :
    sp.name = nameWith sp.cls (Nat.toDigits 10 sp.serial) := rfl

theorem nameWith_inj :
    nameWith cls digits = nameWith cls' digits' ↔ cls = cls' ∧ digits = digits' := by
  constructor
  · intro h
    have hchars := congrArg String.toList h
    simp only [nameWith, String.toList_ofList] at hchars
    obtain ⟨hmarker, hrest⟩ := List.cons.inj (List.append_cancel_left hchars)
    exact ⟨SavepointClass.marker_injective hmarker, List.append_cancel_right hrest⟩
  · rintro ⟨rfl, rfl⟩
    rfl

theorem classOfBody?_cons_eq_some_iff {marker : Char} :
    classOfBody? (marker :: digits) = some cls ↔ IsDigits digits ∧ marker = cls.marker := by
  have hshape : (digits.isEmpty || !digits.all Char.isDigit) = true ↔ ¬ IsDigits digits := by
    rw [isDigits_iff, not_and_or]
    simp
  have hmarker : (if marker = 'd' then some SavepointClass.directory
      else if marker = 't' then some .test else none) = some cls ↔ marker = cls.marker := by
    cases cls <;> split_ifs <;> simp_all [SavepointClass.marker]
  simp only [classOfBody?]
  by_cases h : IsDigits digits
  · rw [if_neg (fun hbad => hshape.mp hbad h), hmarker, and_iff_right h]
  · rw [if_pos (hshape.mpr h)]
    simp [h]

/-- A class is read from the texts of the shape of a name, and from no other. -/
theorem classOfName?_eq_some_iff :
    classOfName? text = some cls ↔ ∃ digits, IsDigits digits ∧ text = nameWith cls digits := by
  constructor
  · intro h
    unfold classOfName? at h
    simp only at h
    split at h
    · next hstart =>
      obtain ⟨rest, hrest⟩ := List.isPrefixOf_iff_prefix.mp hstart
      rw [← hrest, List.drop_left] at h
      split at h
      · next hend =>
        obtain ⟨body, rfl⟩ := List.isSuffixOf_iff_suffix.mp hend
        rw [List.length_append, Nat.add_sub_cancel, List.take_left] at h
        cases body with
        | nil => cases h
        | cons marker digits =>
          obtain ⟨hdigits, rfl⟩ := classOfBody?_cons_eq_some_iff.mp h
          refine ⟨digits, hdigits, ?_⟩
          rw [nameWith, ← List.cons_append, hrest, String.ofList_toList]
      · cases h
    · cases h
  · rintro ⟨digits, hdigits, rfl⟩
    rw [nameWith, ← List.cons_append, classOfName?_framed, classOfBody?_cons_eq_some_iff]
    exact ⟨hdigits, rfl⟩

/-! ### Names with other numbers -/

/-- The text has the shape of a name and is the name of no savepoint. -/
inductive Misnumbered (cls : SavepointClass) : String → Prop
  /-- A zero stands in front of the number. -/
  | padded {digits : List Char} (h : IsDigits digits) :
      Misnumbered cls (nameWith cls ('0' :: digits))
  /-- The number has more than 32 bits. -/
  | large {n : Nat} (h : UInt32.size ≤ n) : Misnumbered cls (nameWith cls (Nat.toDigits 10 n))

theorem Misnumbered.name_ne (h : Misnumbered cls text) (serial : UInt32) :
    name ⟨cls, serial.toNat⟩ ≠ text := by
  intro hname
  cases h with
  | padded hdigits =>
    rw [name_eq_nameWith, nameWith_inj] at hname
    exact toDigits_ne_padded hdigits serial.toNat hname.2
  | @large n hlarge =>
    rw [← name_eq_nameWith ⟨cls, n⟩] at hname
    have hserial : serial.toNat = n := congrArg Savepoint.serial (name_injective hname)
    have hsmall : serial.toNat < UInt32.size := serial.toNat_lt
    omega

theorem Misnumbered.classOfName?_eq (h : Misnumbered cls text) : classOfName? text = some cls := by
  rw [classOfName?_eq_some_iff]
  cases h with
  | padded h => exact ⟨_, ⟨by simp, List.forall_mem_cons.mpr ⟨rfl, h.digits⟩⟩, rfl⟩
  | large _ => exact ⟨_, isDigits_toDigits _, rfl⟩

/-- Digits without a zero in front, of a number that is small enough, are
    those of a savepoint. -/
theorem named_or_misnumbered (h : classOfName? text = some cls) :
    (∃ serial : UInt32, name ⟨cls, serial.toNat⟩ = text) ∨ Misnumbered cls text := by
  obtain ⟨digits, hdigits, rfl⟩ := classOfName?_eq_some_iff.mp h
  rcases hdigits.eq_toDigits_or_padded with ⟨n, rfl⟩ | ⟨more, hmore, rfl⟩
  · rcases Nat.lt_or_ge n UInt32.size with hsmall | hlarge
    · refine .inl ⟨UInt32.ofNat n, ?_⟩
      rw [UInt32.toNat_ofNat_of_lt' hsmall, name_eq_nameWith]
    · exact .inr (.large hlarge)
  · exact .inr (.padded hmore)

/-- A class is read from a text just if the text is the name of a savepoint
    of this class, or has the shape of such a name with a padded or a large
    number; it is never both.  And no two savepoints have one name. -/
theorem classified_iff_named_or_misnumbered (text : String) (cls : SavepointClass) :
    (classOfName? text = some cls ↔
      (∃ serial : UInt32, name ⟨cls, serial.toNat⟩ = text) ∨ Misnumbered cls text) ∧
    ¬ ((∃ serial : UInt32, name ⟨cls, serial.toNat⟩ = text) ∧ Misnumbered cls text) ∧
    ∀ (cls' : SavepointClass) (serial serial' : UInt32),
      name ⟨cls, serial.toNat⟩ = name ⟨cls', serial'.toNat⟩ ↔ cls = cls' ∧ serial = serial' := by
  refine ⟨⟨named_or_misnumbered, ?_⟩, ?_, ?_⟩
  · rintro (⟨serial, rfl⟩ | hother)
    · exact classOfName?_name _
    · exact hother.classOfName?_eq
  · rintro ⟨⟨serial, hname⟩, hother⟩
    exact hother.name_ne serial hname
  · intro cls' serial serial'
    constructor
    · intro h
      have hsame := name_injective h
      exact ⟨congrArg Savepoint.cls hsame, UInt32.toNat_inj.mp (congrArg Savepoint.serial hsame)⟩
    · rintro ⟨rfl, rfl⟩
      rfl

/-- The class of tests is read from a text with two zeros in front of the
    number, which is the name of no savepoint. -/
theorem padded_text_classified :
    classOfName? "__pgmi_t007__" = some .test ∧
      ¬ ∃ serial : UInt32, name ⟨.test, serial.toNat⟩ = "__pgmi_t007__" := by
  have hother : Misnumbered .test (nameWith .test ['0', '0', '7']) := .padded ⟨by simp, by simp⟩
  exact ⟨by decide, fun ⟨serial, hname⟩ => hother.name_ne serial hname⟩

/-- The largest number of a savepoint, and one more, from which the class is
    read as well. -/
theorem largest_number_and_next_classified :
    name ⟨.test, (4294967295 : UInt32).toNat⟩ = "__pgmi_t4294967295__" ∧
    classOfName? "__pgmi_t4294967295__" = some .test ∧
    ¬ Misnumbered .test "__pgmi_t4294967295__" ∧
    Misnumbered .test "__pgmi_t4294967296__" ∧
    classOfName? "__pgmi_t4294967296__" = some .test := by
  have hname : name ⟨.test, (4294967295 : UInt32).toNat⟩ = "__pgmi_t4294967295__" := by decide
  have hnext : Misnumbered .test "__pgmi_t4294967296__" := .large (Nat.le_refl UInt32.size)
  obtain ⟨hlargest, hapart, _⟩ :=
    classified_iff_named_or_misnumbered "__pgmi_t4294967295__" .test
  obtain ⟨hclassified, _⟩ := classified_iff_named_or_misnumbered "__pgmi_t4294967296__" .test
  exact ⟨hname, hlargest.mpr (.inl ⟨_, hname⟩), fun hother => hapart ⟨⟨_, hname⟩, hother⟩, hnext,
    hclassified.mpr (.inr hnext)⟩

end Savepoint

end SuiteScript
