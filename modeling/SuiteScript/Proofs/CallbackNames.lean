import SuiteScript.Callback
import SuiteScript.Proofs.Acceptance

/-! # Which names an observer can have

    An observer is named by a function, with a schema in front of it or
    without.  `IsName` says which names these are, without a look at how
    they are checked, and `NameFault` says what is wrong with any other:
    that it has too many parts, or else what is wrong with the first part
    that cannot stand in a name.  `Callback.validate` accepts the former
    (`validate_eq_ok_iff`) and answers with the latter
    (`validate_eq_error_iff`).

    Every name that is accepted can stand in a script as it is
    (`isPlainQualifiedName_of_isName`). -/

namespace SuiteScript

namespace Sql

/-- A letter or an underscore, followed by letters, underscores and digits.
    Letters are those of ASCII. -/
def IsIdentifier (part : List Char) : Prop :=
  ∃ first rest, part = first :: rest ∧ IsTagLetter first ∧
    ∀ c ∈ rest, IsTagLetter c ∨ ('0' ≤ c ∧ c ≤ '9')

theorem isWord_iff {part : List Char} : isWord part = true ↔ IsIdentifier part := by
  unfold IsIdentifier
  cases part with
  | nil => simp [isWord]
  | cons first rest => simp [isWord, isWordStart_iff, isWordChar_iff]

/-- No identifier holds a dot. -/
theorem IsIdentifier.dot_not_mem {part : List Char} (h : IsIdentifier part) : '.' ∉ part := by
  obtain ⟨first, rest, rfl, hfirst, hrest⟩ := h
  intro hdot
  rcases List.mem_cons.mp hdot with rfl | hdot
  · exact absurd (isWordStart_iff.mpr hfirst) (by decide)
  · exact absurd (isWordChar_iff.mpr (hrest '.' hdot)) (by decide)

end Sql

namespace Callback

open Sql

/-! ### Good names -/

/-- The length of a part in UTF-8. -/
def byteLength (part : List Char) : Nat := (String.ofList part).utf8ByteSize

/-- Can this be the name of a function or of a schema? -/
structure IsPart (part : List Char) : Prop where
  /-- It is an identifier, -/
  isIdentifier : IsIdentifier part
  /-- it has at least one byte, -/
  one_le_byteLength : 1 ≤ byteLength part
  /-- and at most as many as the database keeps. -/
  byteLength_le : byteLength part ≤ 63

/-- The names of functions. -/
inductive IsName : String → Prop
  /-- A function by itself. -/
  | function {f : String} (hf : IsPart f.toList) : IsName f
  /-- A function of a schema. -/
  | qualified {schema f : String} (hschema : IsPart schema.toList) (hf : IsPart f.toList) :
      IsName (schema ++ "." ++ f)

theorem byteLength_eq_zero_iff {part : List Char} : byteLength part = 0 ↔ part = [] := by
  rw [byteLength, String.utf8ByteSize_eq_zero_iff, String.ofList_eq_empty_iff]

/-- A good name has one part or two, and these are good. -/
theorem isName_iff {name : String} :
    IsName name ↔ (nameParts name).length ≤ 2 ∧ ∀ part ∈ nameParts name, IsPart part := by
  constructor
  · intro h
    cases h with
    | function hf =>
      have hparts : nameParts name = [name.toList] :=
        List.splitOn_eq_singleton hf.isIdentifier.dot_not_mem
      simpa [hparts] using hf
    | @qualified schema f hschema hf =>
      have hparts : nameParts (schema ++ "." ++ f) = [schema.toList, f.toList] := by
        have htext : (schema ++ "." ++ f).toList
            = ['.'].intercalate [schema.toList, f.toList] := by
          simp
        rw [nameParts, htext]
        refine List.splitOn_intercalate '.' ?_ (by simp)
        simp [hschema.isIdentifier.dot_not_mem, hf.isIdentifier.dot_not_mem]
      simpa [hparts] using ⟨hschema, hf⟩
  · rintro ⟨hlength, hparts⟩
    have hname := intercalate_nameParts name
    match hnames : nameParts name with
    | [] => exact absurd hnames (List.splitOn_ne_nil '.' _)
    | [f] =>
      have hf : name = String.ofList f := by
        rw [← String.ofList_toList (s := name), ← hname, hnames, List.intercalate_singleton]
      rw [hf]
      exact .function (by simpa [hnames] using hparts)
    | [schema, f] =>
      have hqualified : name = String.ofList schema ++ "." ++ String.ofList f := by
        rw [String.ext_iff, ← hname, hnames]
        simp
      rw [hqualified]
      obtain ⟨hschema, hf⟩ : IsPart schema ∧ IsPart f := by simpa [hnames] using hparts
      exact .qualified (by simpa using hschema) (by simpa using hf)
    | _ :: _ :: _ :: _ => simp [hnames] at hlength

/-! ### What is wrong with other names -/

/-- What is wrong with one part of a name.  If it is too long, its characters
    are not looked at. -/
inductive PartFault (name : String) : List Char → CallbackError → Prop
  /-- There is nothing between two dots or at an end. -/
  | empty : PartFault name [] (.emptyIdentifier name)
  /-- There are too many bytes. -/
  | tooLong {part : List Char} (hlong : 63 < byteLength part) :
      PartFault name part (.identifierTooLong name (String.ofList part) 63)
  /-- It is of a good length and no identifier. -/
  | invalid {part : List Char} (hne : part ≠ []) (hfits : byteLength part ≤ 63)
      (hword : ¬ IsIdentifier part) :
      PartFault name part (.invalidIdentifier name (String.ofList part))

/-- What is reported for a name: that it has more than two parts, or else what
    is wrong with the first part that is not good. -/
inductive NameFault (name : String) : CallbackError → Prop
  /-- There are three parts or more. -/
  | tooManyParts (hmany : 3 ≤ (nameParts name).length) : NameFault name (.tooManyParts name)
  /-- A part is at fault and those before it are not. -/
  | part {before after : List (List Char)} {part : List Char} {e : CallbackError}
      (hfew : (nameParts name).length ≤ 2) (hparts : nameParts name = before ++ part :: after)
      (hbefore : ∀ p ∈ before, IsPart p) (hfault : PartFault name part e) : NameFault name e

/-! ### Checking parts -/

section checkPart

variable {name : String} {part : List Char} {parts : List (List Char)} {e : CallbackError}

/-- A part is good or has the fault that is reported. -/
theorem checkPart_cases (name : String) (part : List Char) :
    (checkPart name part = .ok () ∧ IsPart part) ∨
      ∃ e, checkPart name part = .error e ∧ PartFault name part e := by
  unfold checkPart
  by_cases hne : part = []
  · subst hne
    exact .inr ⟨_, rfl, .empty⟩
  rw [if_neg (by simpa using hne)]
  by_cases hlong : (String.ofList part).utf8ByteSize > maxIdentifierBytes
  · rw [if_pos hlong]
    exact .inr ⟨_, rfl, .tooLong hlong⟩
  have hfits : byteLength part ≤ 63 := Nat.le_of_not_lt hlong
  rw [if_neg hlong]
  cases hword : isWord part with
  | false =>
    have hnot : ¬ IsIdentifier part := by simp [← isWord_iff, hword]
    exact .inr ⟨_, rfl, .invalid hne hfits hnot⟩
  | true =>
    have hpos : 1 ≤ byteLength part := by
      rw [Nat.one_le_iff_ne_zero, Ne, byteLength_eq_zero_iff]
      exact hne
    exact .inl ⟨rfl, isWord_iff.mp hword, hpos, hfits⟩

theorem PartFault.not_isPart (h : PartFault name part e) : ¬ IsPart part := by
  intro hpart
  cases h with
  | empty => exact absurd hpart.one_le_byteLength (by decide)
  | tooLong hlong => exact absurd hpart.byteLength_le (Nat.not_le_of_lt hlong)
  | invalid _ _ hword => exact hword hpart.isIdentifier

/-- A part has one fault at most. -/
theorem PartFault.unique {e' : CallbackError} (h : PartFault name part e)
    (h' : PartFault name part e') : e = e' := by
  cases h with
  | empty =>
    cases h' with
    | empty => rfl
    | tooLong hlong => exact absurd hlong (by decide)
    | invalid hne => exact absurd rfl hne
  | tooLong hlong =>
    cases h' with
    | empty => exact absurd hlong (by decide)
    | tooLong => rfl
    | invalid _ hfits => exact absurd hfits (Nat.not_le_of_lt hlong)
  | invalid hne hfits =>
    cases h' with
    | empty => exact absurd rfl hne
    | tooLong hlong => exact absurd hfits (Nat.not_le_of_lt hlong)
    | invalid => rfl

theorem checkPart_eq_ok_iff (name : String) : checkPart name part = .ok () ↔ IsPart part := by
  rcases checkPart_cases name part with ⟨hok, hpart⟩ | ⟨e, herror, hfault⟩
  · simp [hok, hpart]
  · simp [herror, hfault.not_isPart]

theorem checkParts_eq_ok_iff (name : String) :
    checkParts name parts = .ok () ↔ ∀ part ∈ parts, IsPart part := by
  induction parts with
  | nil => simp [checkParts]
  | cons part rest ih =>
    rw [List.forall_mem_cons, ← ih, ← checkPart_eq_ok_iff name, checkParts]
    cases checkPart name part <;> simp

/-- The first part that is not good is reported. -/
theorem checkParts_eq_error_iff :
    checkParts name parts = .error e ↔
      ∃ before part after, parts = before ++ part :: after ∧ (∀ p ∈ before, IsPart p) ∧
        PartFault name part e := by
  induction parts with
  | nil => simp [checkParts]
  | cons head rest ih =>
    rw [checkParts]
    rcases checkPart_cases name head with ⟨hok, hhead⟩ | ⟨e', herror, hfault⟩
    · -- The fault is in the rest: a fault of the head would contradict `hhead`.
      rw [hok]
      refine ih.trans ⟨?_, ?_⟩
      · rintro ⟨before, part, after, rfl, hbefore, hpart⟩
        exact ⟨head :: before, part, after, rfl, List.forall_mem_cons.mpr ⟨hhead, hbefore⟩, hpart⟩
      · rintro ⟨before, part, after, hparts, hbefore, hpart⟩
        cases before with
        | nil =>
          obtain ⟨rfl, rfl⟩ := List.cons.inj hparts
          exact absurd hhead hpart.not_isPart
        | cons first before =>
          obtain ⟨rfl, rfl⟩ := List.cons.inj hparts
          exact ⟨before, part, after, rfl, (List.forall_mem_cons.mp hbefore).2, hpart⟩
    · rw [herror, Except.error.injEq]
      constructor
      · rintro rfl
        exact ⟨[], head, rest, rfl, nofun, hfault⟩
      · rintro ⟨before, part, after, hparts, hbefore, hpart⟩
        cases before with
        | nil =>
          obtain ⟨rfl, rfl⟩ := List.cons.inj hparts
          exact hfault.unique hpart
        | cons first before =>
          obtain ⟨rfl, rfl⟩ := List.cons.inj hparts
          exact absurd (List.forall_mem_cons.mp hbefore).1 hfault.not_isPart

end checkPart

/-! ### Checking names -/

theorem validate_eq_ok_iff {name : String} : validate name = .ok () ↔ name = "" ∨ IsName name := by
  by_cases hempty : name = ""
  · simp [validate, hempty]
  rw [validate, if_neg (by simpa using hempty), isName_iff, ← checkParts_eq_ok_iff name]
  by_cases hmany : 2 < (nameParts name).length
  · simp [hempty, hmany, Nat.not_le_of_lt hmany]
  · simp [hempty, hmany, Nat.le_of_not_lt hmany]

theorem validate_eq_error_iff {name : String} {e : CallbackError} :
    validate name = .error e ↔ name ≠ "" ∧ NameFault name e := by
  by_cases hempty : name = ""
  · simp [validate, hempty]
  rw [validate, if_neg (by simpa using hempty)]
  by_cases hmany : 2 < (nameParts name).length
  · rw [if_pos hmany, Except.error.injEq]
    constructor
    · rintro rfl
      exact ⟨hempty, .tooManyParts hmany⟩
    · rintro ⟨-, hfault⟩
      cases hfault with
      | tooManyParts => rfl
      | part hfew => exact absurd hmany (Nat.not_lt_of_le hfew)
  · rw [if_neg hmany, checkParts_eq_error_iff]
    constructor
    · rintro ⟨before, part, after, hparts, hbefore, hfault⟩
      exact ⟨hempty, .part (Nat.le_of_not_lt hmany) hparts hbefore hfault⟩
    · rintro ⟨-, hfault⟩
      cases hfault with
      | tooManyParts hthree => exact absurd hthree hmany
      | part _ hparts hbefore hfault => exact ⟨_, _, _, hparts, hbefore, hfault⟩

/-- A name is refused for its parts just if there are too many. -/
theorem nameFault_tooManyParts_iff {name : String} :
    NameFault name (.tooManyParts name) ↔ 3 ≤ (nameParts name).length := by
  constructor
  · intro h
    cases h with
    | tooManyParts hmany => exact hmany
    | part _ _ _ hfault => cases hfault
  · exact .tooManyParts

/-- What is accepted can stand in a script as it is. -/
theorem isPlainQualifiedName_of_isName {name : String} (h : IsName name) :
    isPlainQualifiedName name = true := by
  obtain ⟨hlength, hparts⟩ := isName_iff.mp h
  rw [isPlainQualifiedName, Bool.and_eq_true, decide_eq_true_iff, List.all_eq_true]
  refine ⟨hlength, ?_⟩
  intro part hpart
  exact isPlain_of_isWord (isWord_iff.mpr (hparts part hpart).isIdentifier)

end Callback

end SuiteScript
