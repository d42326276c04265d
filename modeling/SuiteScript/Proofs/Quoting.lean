import Mathlib.Logic.Function.Basic
import SuiteScript.Sql.Identifier

/-! # Quoted texts and names are read back

    A text between quotes ends at the first quote that is not doubled.  So
    whatever stands behind a literal, as long as it is no quote, the database
    reads just this literal and the text that it was made from
    (`readLiteral?_eq_some_iff`).

    A qualified name is read part by part.  A part without quotes ends where
    its characters end, and a quoted part may hold anything, dots included.
    Every part of a name is written so that it is read as itself, the empty
    part too, and since the parts of a name hold no other dots than those
    between double quotes, they come back one by one
    (`escapeQualifiedName_read_back`). -/

namespace SuiteScript.Sql

/-! ### Reading quoted texts -/

/-- Reads on behind an opening quote.  A doubled quote stands for one quote,
    and the first that is not doubled closes the text.  The result is the
    text and what is left. -/
def readQuoted? (q : Char) : List Char → Option (List Char × List Char)
  | [] => none
  | [c] => if c = q then some ([], []) else none
  | c :: d :: rest =>
    if c ≠ q then (readQuoted? q (d :: rest)).map fun (text, left) => (c :: text, left)
    else if d = q then (readQuoted? q rest).map fun (text, left) => (q :: text, left)
    else some ([], d :: rest)

/-- Reads a literal at the beginning of a text. -/
def readLiteral? : List Char → Option (String × List Char)
  | [] => none
  | c :: text =>
    if c = '\'' then (readQuoted? '\'' text).map fun (s, left) => (String.ofList s, left)
    else none

section readQuoted

variable {q : Char}

theorem readQuoted?_cons_of_ne {c : Char} (h : c ≠ q) (text : List Char) :
    readQuoted? q (c :: text) = (readQuoted? q text).map fun (s, left) => (c :: s, left) := by
  cases text with
  | nil => simp [readQuoted?, h]
  | cons d rest => rw [readQuoted?, if_pos h]

theorem readQuoted?_quote_quote (text : List Char) :
    readQuoted? q (q :: q :: text) = (readQuoted? q text).map fun (s, left) => (q :: s, left) := by
  rw [readQuoted?, if_neg (not_not_intro rfl), if_pos rfl]

/-- A quote closes the text unless another one follows. -/
theorem readQuoted?_close {rest : List Char} (h : rest.head? ≠ some q) :
    readQuoted? q (q :: rest) = some ([], rest) := by
  cases rest with
  | nil => rw [readQuoted?, if_pos rfl]
  | cons d rest =>
    have hd : d ≠ q := by simpa using h
    rw [readQuoted?, if_neg (not_not_intro rfl), if_neg hd]

/-- A text with its quotes doubled is read up to the quote behind it. -/
theorem readQuoted?_doubled (s : List Char) {rest : List Char} (h : rest.head? ≠ some q) :
    readQuoted? q (doubled q s ++ q :: rest) = some (s, rest) := by
  induction s with
  | nil => exact readQuoted?_close h
  | cons c s ih =>
    by_cases hc : c = q
    · subst hc
      rw [doubled_self, List.cons_append, List.cons_append, readQuoted?_quote_quote, ih]
      rfl
    · rw [doubled_ne hc, List.cons_append, readQuoted?_cons_of_ne hc, ih]
      rfl

/-- Nothing else is read: a text that is read was doubled and closed. -/
theorem eq_doubled_of_readQuoted? {text s rest : List Char}
    (h : readQuoted? q text = some (s, rest)) :
    text = doubled q s ++ q :: rest ∧ rest.head? ≠ some q := by
  induction text using readQuoted?.induct q generalizing s with
  | case1 => cases h
  | case2 =>
    rw [readQuoted?, if_pos rfl] at h
    cases h
    exact ⟨rfl, by simp⟩
  | case3 c hc =>
    rw [readQuoted?, if_neg hc] at h
    cases h
  | case4 c d text hc ih =>
    rw [readQuoted?_cons_of_ne hc] at h
    obtain ⟨⟨s', left⟩, hread, hs⟩ := Option.map_eq_some_iff.mp h
    cases hs
    obtain ⟨htext, hrest⟩ := ih hread
    exact ⟨by rw [doubled_ne hc, htext, List.cons_append], hrest⟩
  | case5 c text hc ih =>
    obtain rfl : c = q := not_not.mp hc
    rw [readQuoted?_quote_quote] at h
    obtain ⟨⟨s', left⟩, hread, hs⟩ := Option.map_eq_some_iff.mp h
    cases hs
    obtain ⟨htext, hrest⟩ := ih hread
    exact ⟨by rw [doubled_self, htext, List.cons_append, List.cons_append], hrest⟩
  | case6 c d text hc hd =>
    obtain rfl : c = q := not_not.mp hc
    have hrest : (d :: text).head? ≠ some c := by simpa using hd
    rw [readQuoted?_close hrest] at h
    cases h
    exact ⟨rfl, hrest⟩

end readQuoted

/-! ### Literals -/

/-- A literal is read where one was written and no quote follows, and
    nowhere else. -/
theorem readLiteral?_eq_some_iff {text rest : List Char} {s : String} :
    readLiteral? text = some (s, rest) ↔
      text = (quoteLiteral s).toList ++ rest ∧ rest.head? ≠ some '\'' := by
  rw [toList_quoteLiteral, List.cons_append, List.append_assoc, List.singleton_append]
  constructor
  · intro h
    cases text with
    | nil => cases h
    | cons c text =>
      rw [readLiteral?] at h
      split at h
      · next hc =>
        obtain ⟨⟨content, left⟩, hread, hs⟩ := Option.map_eq_some_iff.mp h
        cases hs
        obtain ⟨rfl, hrest⟩ := eq_doubled_of_readQuoted? hread
        rw [hc, String.toList_ofList]
        exact ⟨rfl, hrest⟩
      · cases h
  · rintro ⟨rfl, hrest⟩
    rw [readLiteral?, if_pos rfl, readQuoted?_doubled s.toList hrest]
    exact congrArg (fun u => some (u, rest)) String.ofList_toList

/-- Literals of different texts differ. -/
theorem quoteLiteral_injective : Function.Injective quoteLiteral := by
  intro s t h
  have hread : ∀ u, readLiteral? (quoteLiteral u).toList = some (u, []) := by
    intro u
    exact readLiteral?_eq_some_iff.mpr ⟨(List.append_nil _).symm, by simp⟩
  have hs := hread s
  rw [h, hread t] at hs
  cases hs
  rfl

/-- The key word for an absent value is no literal. -/
theorem quoteLiteral_ne_null (s : String) : quoteLiteral s ≠ "NULL" := by
  intro h
  have hchars := congrArg String.toList h
  rw [toList_quoteLiteral] at hchars
  exact absurd (List.cons.inj hchars).1 (by decide)

/-- Whatever text a literal is made from, and whatever follows except for a
    quote, just the literal is read, and it stands for that text.  So
    different texts have different literals, and an absent text is told from
    every text. -/
theorem quoteLiteral_read_back :
    (∀ (text rest : List Char) (s : String),
      readLiteral? text = some (s, rest) ↔
        text = (quoteLiteral s).toList ++ rest ∧ rest.head? ≠ some '\'') ∧
    Function.Injective quoteLiteral ∧ Function.Injective quoteNullable := by
  refine ⟨fun _ _ _ => readLiteral?_eq_some_iff, quoteLiteral_injective, ?_⟩
  intro s t h
  cases s with
  | none =>
    cases t with
    | none => rfl
    | some t => exact absurd h.symm (quoteLiteral_ne_null t)
  | some s =>
    cases t with
    | none => exact absurd h (quoteLiteral_ne_null s)
    | some t => exact congrArg some (quoteLiteral_injective h)

/-! ### Reading names -/

/-- Can `c` stand in a part without quotes?  Letters are those of ASCII. -/
def isBareChar (c : Char) : Bool := c.isLower || c.isDigit || c = '_'

/-- Reads one part of a name.  Without quotes it is as long as its characters
    go, which must be some, and it starts with no digit. -/
def readPart? : List Char → Option (List Char × List Char)
  | [] => none
  | c :: text =>
    if c = '"' then readQuoted? '"' text
    else if isBareChar c && !c.isDigit then
      some (c :: text.takeWhile isBareChar, text.dropWhile isBareChar)
    else none

/-- What is left behind a part is shorter. -/
theorem length_lt_of_readPart? {text part rest : List Char}
    (h : readPart? text = some (part, rest)) : rest.length < text.length := by
  cases text with
  | nil => cases h
  | cons c text =>
    rw [readPart?] at h
    split at h
    · obtain ⟨rfl, _⟩ := eq_doubled_of_readQuoted? h
      simp
      omega
    split at h
    · cases h
      exact Nat.lt_succ_of_le (List.dropWhile_suffix isBareChar).length_le
    · cases h

/-- Reads a whole text as a name: parts with a dot between each two. -/
def readName? (text : List Char) : Option (List (List Char)) :=
  match hpart : readPart? text with
  | none => none
  | some (part, []) => some [part]
  | some (part, c :: rest) =>
    have _hlt : rest.length < text.length := Nat.lt_of_succ_lt (length_lt_of_readPart? hpart)
    if c = '.' then (readName? rest).map (part :: ·) else none
termination_by text.length

theorem readName?_of_last {text part : List Char} (h : readPart? text = some (part, [])) :
    readName? text = some [part] := by
  rw [readName?]
  split
  · next hnone => simp [h] at hnone
  · next hlast =>
    cases h.symm.trans hlast
    rfl
  · next hmore => simp [h] at hmore

theorem readName?_of_dot {text part rest : List Char}
    (h : readPart? text = some (part, '.' :: rest)) :
    readName? text = (readName? rest).map (part :: ·) := by
  rw [readName?]
  split
  · next hnone => simp [h] at hnone
  · next hlast => simp [h] at hlast
  · next hmore =>
    cases h.symm.trans hmore
    rw [if_pos rfl]

/-! ### Names -/

/-- A simple part stands for itself. -/
theorem readPart?_simple {part rest : List Char} (hsimple : isSimple part = true)
    (h : ∀ c ∈ rest.head?, c = '.') : readPart? (part ++ rest) = some (part, rest) := by
  cases part with
  | nil => cases hsimple
  | cons c part =>
    have hword := isWord_of_isSimple hsimple
    rw [isWord, Bool.and_eq_true] at hword
    rw [isSimple, Bool.and_eq_true] at hsimple
    obtain ⟨hc, hpart⟩ := hsimple
    have hquote : c ≠ '"' := by
      rintro rfl
      cases hc
    have hdigit : c.isDigit = false := by
      by_contra hdigit
      rw [Bool.not_eq_false] at hdigit
      rw [isWordStart_of_isDigit hdigit] at hword
      exact absurd hword.1 (by decide)
    have hbare : isBareChar c = true := by
      unfold isBareChar
      rcases Bool.or_eq_true_iff.mp hc with hlower | hunderscore
      · rw [hlower]
        rfl
      · rw [hunderscore, Bool.or_true]
    have hchars : ∀ d ∈ part, isBareChar d = true := List.all_eq_true.mp hpart
    -- behind the part there is a dot or nothing
    have htake : rest.takeWhile isBareChar = [] ∧ rest.dropWhile isBareChar = rest := by
      cases rest with
      | nil => exact ⟨rfl, rfl⟩
      | cons d rest =>
        obtain rfl : d = '.' := h d rfl
        exact ⟨rfl, rfl⟩
    rw [List.cons_append, readPart?, if_neg hquote, hbare, hdigit, Bool.not_false, Bool.and_self,
      if_pos rfl, List.takeWhile_append_of_pos hchars, List.dropWhile_append_of_pos hchars,
      htake.1, htake.2, List.append_nil]

/-- A part is read as it was before it was escaped, up to a dot or the end. -/
theorem readPart?_escapeChars (part rest : List Char) (h : ∀ c ∈ rest.head?, c = '.') :
    readPart? (escapeChars part ++ rest) = some (part, rest) := by
  unfold escapeChars
  split
  · next hsimple => exact readPart?_simple hsimple h
  · have hrest : rest.head? ≠ some '"' := by
      intro hquote
      exact absurd (h '"' hquote) (by decide)
    rw [List.cons_append, List.cons_append, List.append_assoc, List.singleton_append, readPart?,
      if_pos rfl]
    exact readQuoted?_doubled part hrest

/-- One part is read as one part, whatever dots it holds. -/
theorem readName?_escapeChars (part : List Char) : readName? (escapeChars part) = some [part] := by
  have hpart := readPart?_escapeChars part [] (by simp)
  rw [List.append_nil] at hpart
  exact readName?_of_last hpart

/-- Parts are read as they were before they were escaped and joined. -/
theorem readName?_intercalate {parts : List (List Char)} (hne : parts ≠ []) :
    readName? (['.'].intercalate (parts.map escapeChars)) = some parts := by
  induction parts with
  | nil => exact absurd rfl hne
  | cons part parts ih =>
    cases parts with
    | nil =>
      rw [List.map_singleton, List.intercalate_singleton]
      exact readName?_escapeChars part
    | cons next parts =>
      have hfirst := readPart?_escapeChars part
        ('.' :: ['.'].intercalate ((next :: parts).map escapeChars)) (by simp)
      have hrest := ih (List.cons_ne_nil next parts)
      rw [List.map_cons, List.map_cons, List.intercalate_cons_cons, ← List.map_cons,
        List.append_assoc, List.singleton_append, readName?_of_dot hfirst, hrest]
      rfl

theorem readName?_escapeQualifiedName (name : String) :
    readName? (escapeQualifiedName name).toList = some (nameParts name) := by
  unfold escapeQualifiedName
  rw [String.toList_ofList]
  exact readName?_intercalate (List.splitOn_ne_nil '.' name.toList)

/-- An escaped name is read, to its end, as the parts that the name has
    between its dots.  So different names are escaped differently, and so are
    different texts that are escaped as one part. -/
theorem escapeQualifiedName_read_back :
    (∀ name : String, readName? (escapeQualifiedName name).toList =
      some (name.toList.splitOn '.')) ∧
    Function.Injective escapeQualifiedName ∧ Function.Injective escapeIdentifier := by
  refine ⟨readName?_escapeQualifiedName, ?_, ?_⟩
  · intro name name' h
    have hparts := readName?_escapeQualifiedName name
    rw [h, readName?_escapeQualifiedName name', Option.some.injEq] at hparts
    -- the parts make up the name
    rw [← String.toList_inj, ← intercalate_nameParts, ← hparts, intercalate_nameParts]
  · intro s t h
    have hpart := readName?_escapeChars s.toList
    rw [String.ofList_injective h, readName?_escapeChars t.toList, Option.some.injEq,
      List.cons.injEq] at hpart
    exact String.toList_inj.mp hpart.1.symm

end SuiteScript.Sql
