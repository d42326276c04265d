import SuiteScript.Sql.Literal

/-! # SQL identifiers and qualified names

    An identifier is a letter or an underscore followed by letters, digits
    and underscores, all of them ASCII.  Three notions differ in what they
    admit beyond or below that:

    * a *simple* identifier has lower-case letters only, so that the
      database reads it as it stands;
    * a *word* has letters of both cases;
    * a *plain* identifier may also hold dollar signs after its first
      character.

    A qualified name is a list of identifiers joined by dots.  Escaping one
    keeps its simple parts and puts every other part between double quotes. -/

namespace SuiteScript.Sql

/-! ### Identifiers -/

/-- Can `c` start a word? -/
def isWordStart (c : Char) : Bool := c.isAlpha || c = '_'

/-- Can `c` follow in a word? -/
def isWordChar (c : Char) : Bool := c.isAlphanum || c = '_'

/-- A letter or underscore, then letters, digits and underscores. -/
def isWord : List Char → Bool
  | [] => false
  | c :: rest => isWordStart c && rest.all isWordChar

/-- A word that the database reads as it stands: no upper-case letter. -/
def isSimple : List Char → Bool
  | [] => false
  | c :: rest =>
    (c.isLower || c = '_') && rest.all fun d => d.isLower || d.isDigit || d = '_'

/-- A word whose later characters may be dollar signs. -/
def isPlain : List Char → Bool
  | [] => false
  | c :: rest => isWordStart c && rest.all fun d => isWordChar d || d = '$'

/-- A simple identifier as it stands, any other between double quotes with
    the double quotes inside it written twice. -/
def escapeChars (s : List Char) : List Char :=
  if isSimple s then s else '"' :: doubled '"' s ++ ['"']

/-- Writes `s` as one identifier. -/
def escapeIdentifier (s : String) : String :=
  String.ofList (escapeChars s.toList)

/-! ### Laws of identifiers -/

theorem isWordChar_of_isDigit {c : Char} (h : c.isDigit = true) : isWordChar c = true := by
  simp [isWordChar, Char.isAlphanum, h]

theorem le_toNat_of_isUpper {c : Char} (h : c.isUpper = true) : 'A'.toNat ≤ c.toNat := by
  have hcode : c.val ≥ 'A'.val ∧ c.val ≤ 'Z'.val := of_decide_eq_true h
  exact UInt32.le_iff_toNat_le.mp hcode.1

theorem le_toNat_of_isLower {c : Char} (h : c.isLower = true) : 'a'.toNat ≤ c.toNat := by
  have hcode : (decide (c.val ≥ 'a'.val) && decide (c.val ≤ 'z'.val)) = true := h
  rw [Bool.and_eq_true, decide_eq_true_eq] at hcode
  exact UInt32.le_iff_toNat_le.mp hcode.1

theorem isWordStart_eq (c : Char) : isWordStart c = (c.isUpper || c.isLower || c = '_') := rfl

theorem isWordChar_eq (c : Char) :
    isWordChar c = (c.isUpper || c.isLower || c.isDigit || c = '_') := rfl

theorem isWordStart_of_isDigit {c : Char} (h : c.isDigit = true) : isWordStart c = false := by
  rw [Char.isDigit_iff_toNat] at h
  rw [Bool.eq_false_iff]
  intro hword
  rw [isWordStart_eq, Bool.or_eq_true, Bool.or_eq_true, decide_eq_true_eq] at hword
  have hdigit : '9'.toNat < 'A'.toNat ∧ '9'.toNat < 'a'.toNat ∧ '9'.toNat < '_'.toNat := by decide
  -- letters of either case and the underscore have larger codes than digits
  rcases hword with (hupper | hlower) | rfl
  · have hcode := le_toNat_of_isUpper hupper
    omega
  · have hcode := le_toNat_of_isLower hlower
    omega
  · omega

theorem isWord_of_append {a b : List Char} (ha : a ≠ []) (h : isWord (a ++ b) = true) :
    isWord a = true := by
  cases a with
  | nil => exact absurd rfl ha
  | cons c a =>
    simp only [List.cons_append, isWord, List.all_append, Bool.and_eq_true] at h ⊢
    exact ⟨h.1, h.2.1⟩

theorem isWord_of_isSimple {s : List Char} (h : isSimple s = true) : isWord s = true := by
  cases s with
  | nil => cases h
  | cons c rest =>
    simp only [isSimple, isWord, isWordStart_eq, isWordChar_eq, Bool.and_eq_true, Bool.or_eq_true,
      decide_eq_true_eq, List.all_eq_true] at h ⊢
    obtain ⟨hc, hrest⟩ := h
    refine ⟨hc.imp_left .inr, ?_⟩
    intro d hd
    rcases hrest d hd with (hd | hd) | hd
    · exact .inl (.inl (.inr hd))
    · exact .inl (.inr hd)
    · exact .inr hd

theorem isPlain_of_isWord {s : List Char} (h : isWord s = true) : isPlain s = true := by
  cases s with
  | nil => cases h
  | cons c rest =>
    simp only [isWord, isPlain, Bool.and_eq_true, List.all_eq_true, Bool.or_eq_true] at h ⊢
    refine ⟨h.1, ?_⟩
    intro d hd
    exact .inl (h.2 d hd)

/-! ### Qualified names -/

/-- The parts of a name between its dots.  A name without a dot is one
    part, and the empty name is one empty part. -/
def nameParts (name : String) : List (List Char) :=
  name.toList.splitOn '.'

theorem intercalate_nameParts (name : String) :
    ['.'].intercalate (nameParts name) = name.toList :=
  List.intercalate_splitOn '.'

/-- Writes each part of a name as an identifier and joins them again. -/
def escapeQualifiedName (name : String) : String :=
  String.ofList (['.'].intercalate ((nameParts name).map escapeChars))

/-- Is `name` one or two plain identifiers?  Such a name can stand in a
    script as it is. -/
def isPlainQualifiedName (name : String) : Bool :=
  (nameParts name).length ≤ 2 && (nameParts name).all isPlain

end SuiteScript.Sql
