import Mathlib.Data.Finset.Card
import SuiteScript.Sql.DollarQuote

/-! # Delimiters of code blocks

    `chooseDelimiter` looks at no more candidates than its body has
    characters, and one more.  That is enough: at each place of the body at
    most one candidate starts, since no candidate begins another, so not
    all of them can occur (`exists_delimiter_not_infix`).  The candidate
    that is taken is the first that does not occur
    (`chooseDelimiter_eq_first`).

    Nothing depends on that bound: a search that goes on for as long as
    candidates occur ends, and ends with the same delimiter
    (`search_ends_at_first_absent`).

    What is put around a body is then more than the body was searched for.
    Characters that no delimiter holds, such as blanks and line breaks, fence
    off what stands on their two sides (`infix_append_cons_iff`), so that
    text can be added behind them. -/

namespace SuiteScript.Sql

/-! ### Blocks of neighbours -/

/-- A character that a pattern does not hold cannot lie inside one of its
    occurrences. -/
theorem infix_append_cons_iff {pattern s t : List Char} {c : Char} (hc : c ∉ pattern) :
    pattern <:+: s ++ c :: t ↔ pattern <:+: s ∨ pattern <:+: t := by
  constructor
  · intro h
    rcases List.infix_append_iff_ne_nil.mp h with hs | ht | ⟨l₁, l₂, _, hne, rfl, _, hpre⟩
    · exact .inl hs
    · -- it starts at `c` or behind it
      rcases List.infix_cons_iff.mp ht with hpre | ht
      · rcases List.prefix_cons_iff.mp hpre with rfl | ⟨u, rfl, _⟩
        · exact .inl List.nil_infix
        · exact absurd List.mem_cons_self hc
      · exact .inr ht
    · -- it starts in `s`, and its second part at `c`
      rcases List.prefix_cons_iff.mp hpre with rfl | ⟨u, rfl, _⟩
      · exact absurd rfl hne
      · exact absurd (List.mem_append_right l₁ List.mem_cons_self) hc
  · intro h
    rcases h with hs | ht
    · exact hs.trans (List.prefix_append s (c :: t)).isInfix
    · have hcons : t <:+: c :: t := (List.suffix_cons c t).isInfix
      exact ht.trans (hcons.trans (List.suffix_append s (c :: t)).isInfix)

/-- In a join, such a character keeps the parts apart. -/
theorem infix_intercalate_iff {pattern : List Char} {c : Char} (hne : pattern ≠ [])
    (hc : c ∉ pattern) {parts : List (List Char)} :
    pattern <:+: [c].intercalate parts ↔ ∃ part ∈ parts, pattern <:+: part := by
  induction parts with
  | nil => simpa using hne
  | cons part parts ih =>
    cases parts with
    | nil => simp
    | cons next parts =>
      have hjoin : [c].intercalate (part :: next :: parts) =
          part ++ c :: [c].intercalate (next :: parts) := by simp [List.intercalate_cons_cons]
      rw [hjoin, infix_append_cons_iff hc, ih]
      simp

theorem infix_replicate_append_iff {pattern : List Char} {c : Char} (hne : pattern ≠ [])
    (hc : c ∉ pattern) (n : Nat) (text : List Char) :
    pattern <:+: List.replicate n c ++ text ↔ pattern <:+: text := by
  induction n with
  | zero => rfl
  | succ n ih =>
    have hfront : List.replicate (n + 1) c ++ text = [] ++ c :: (List.replicate n c ++ text) := by
      simp [List.replicate_succ]
    have hnil : ¬ pattern <:+: [] := by simpa using hne
    rw [hfront, infix_append_cons_iff hc, ih, or_iff_right hnil]

/-! ### Candidates -/

/-- What stands in a candidate behind the tag. -/
def candidateEnd : Nat → List Char
  | 0 => ['$']
  | n + 1 => '_' :: (Nat.toDigits 10 (n + 1) ++ ['$'])

theorem toList_delimiter (tag : String) (n : Nat) :
    (delimiter tag n).toList = '$' :: (tag.toList ++ candidateEnd n) := by
  cases n with
  | zero => simp [delimiter, candidateEnd]
  | succ n => simp [delimiter, candidateEnd]

theorem delimiter_ne_nil (tag : String) (n : Nat) : (delimiter tag n).toList ≠ [] := by
  rw [toList_delimiter]
  exact List.cons_ne_nil _ _

/-- Digits before a dollar sign are read off the text that they start. -/
theorem takeWhile_isDigit_of_prefix {n : Nat} {text : List Char}
    (h : Nat.toDigits 10 n ++ ['$'] <+: text) :
    text.takeWhile Char.isDigit = Nat.toDigits 10 n := by
  obtain ⟨rest, rfl⟩ := h
  have hdigits : ∀ c ∈ Nat.toDigits 10 n, c.isDigit = true := by
    intro c hc
    exact Nat.isDigit_of_mem_toDigits (by omega) (by omega) hc
  rw [List.append_assoc, List.takeWhile_append_of_pos hdigits]
  have hstop : (['$'] ++ rest).takeWhile Char.isDigit = [] := rfl
  rw [hstop, List.append_nil]

/-- At one place of a text at most one candidate starts. -/
theorem candidate_unique {tag : String} {i j : Nat} {text : List Char}
    (hi : (delimiter tag i).toList <+: text) (hj : (delimiter tag j).toList <+: text) : i = j := by
  rw [toList_delimiter] at hi hj
  obtain ⟨rest, rfl⟩ := hi
  rw [List.cons_append, List.cons_prefix_cons, List.append_assoc, List.prefix_append_right_inj]
    at hj
  obtain ⟨_, hj⟩ := hj
  have hi : candidateEnd i <+: candidateEnd i ++ rest := List.prefix_append _ _
  revert hi hj
  generalize candidateEnd i ++ rest = after
  intro hj hi
  -- what follows the tag is a dollar sign for the first candidate only
  cases i with
  | zero =>
    cases j with
    | zero => rfl
    | succ j =>
      obtain ⟨u, rfl⟩ := hi
      simp [candidateEnd] at hj
  | succ i =>
    cases j with
    | zero =>
      obtain ⟨u, rfl⟩ := hj
      simp [candidateEnd] at hi
    | succ j =>
      cases after with
      | nil => simp [candidateEnd] at hi
      | cons c after =>
        have hi' := takeWhile_isDigit_of_prefix (List.cons_prefix_cons.mp hi).2
        have hj' := takeWhile_isDigit_of_prefix (List.cons_prefix_cons.mp hj).2
        have hdigits : Nat.toDigits 10 (i + 1) = Nat.toDigits 10 (j + 1) := hi'.symm.trans hj'
        have hnumbers := congrArg (Nat.ofDigitChars 10 · 0) hdigits
        simpa [Nat.ofDigitChars_ten_toDigits] using hnumbers

/-- Of the first candidates, one more than the body has characters, one is
    absent: otherwise two would start at the same place. -/
theorem exists_delimiter_not_infix (body : List Char) (tag : String) :
    ∃ n, n ≤ body.length ∧ ¬ (delimiter tag n).toList <:+: body := by
  by_contra hall
  push Not at hall
  -- more candidates than places: two of them share one
  have hplace : ∀ n, ∃ place, n ≤ body.length →
      place < body.length ∧ (delimiter tag n).toList <+: body.drop place := by
    intro n
    by_cases hn : n ≤ body.length
    · obtain ⟨s, t, hst⟩ := hall n hn
      refine ⟨s.length, ?_⟩
      intro _
      constructor
      · have hpos : 0 < (delimiter tag n).toList.length :=
          List.length_pos_of_ne_nil (delimiter_ne_nil tag n)
        have hlen := congrArg List.length hst
        simp only [List.length_append] at hlen
        omega
      · rw [← hst, List.append_assoc, List.drop_left]
        exact List.prefix_append _ _
    · exact ⟨0, fun h => absurd h hn⟩
  choose place hplace using hplace
  have hcard : (Finset.range body.length).card < (Finset.range (body.length + 1)).card := by
    simp
  have hmaps : ∀ n ∈ Finset.range (body.length + 1), place n ∈ Finset.range body.length := by
    intro n hn
    have hn' : n ≤ body.length := Nat.lt_succ_iff.mp (Finset.mem_range.mp hn)
    exact Finset.mem_range.mpr (hplace n hn').1
  obtain ⟨i, hi, j, hj, hne, heq⟩ := Finset.exists_ne_map_eq_of_card_lt_of_maps_to hcard hmaps
  have hi' := (hplace i (Nat.lt_succ_iff.mp (Finset.mem_range.mp hi))).2
  have hj' := (hplace j (Nat.lt_succ_iff.mp (Finset.mem_range.mp hj))).2
  rw [← heq] at hj'
  exact hne (candidate_unique hi' hj')

/-! ### The search -/

/-- From the `n`-th candidate on, a candidate that occurs in the body is
    passed over, and the first that does not is found.  Nothing limits the
    number of rounds. -/
inductive SearchFinds (body : List Char) (tag : String) : Nat → String → Prop
  /-- The candidate is absent from the body. -/
  | absent {n : Nat} (h : ¬ (delimiter tag n).toList <:+: body) :
      SearchFinds body tag n (delimiter tag n)
  /-- The candidate occurs, so the next one is tried. -/
  | occurs {n : Nat} {found : String} (h : (delimiter tag n).toList <:+: body)
      (later : SearchFinds body tag (n + 1) found) : SearchFinds body tag n found

section search

variable {body : List Char} {tag found found' : String} {n : Nat}

/-- A search finds one delimiter only. -/
theorem SearchFinds.unique (h : SearchFinds body tag n found)
    (h' : SearchFinds body tag n found') : found = found' := by
  induction h with
  | absent habsent =>
    cases h' with
    | absent _ => rfl
    | occurs hoccurs _ => exact absurd hoccurs habsent
  | occurs hoccurs _ ih =>
    cases h' with
    | absent habsent => exact absurd hoccurs habsent
    | occurs _ hlater => exact ih hlater

/-- It is the first candidate that does not occur. -/
theorem SearchFinds.eq_first (h : SearchFinds body tag n found) :
    ∃ k, found = delimiter tag (n + k) ∧ ¬ (delimiter tag (n + k)).toList <:+: body ∧
      ∀ i < k, (delimiter tag (n + i)).toList <:+: body := by
  induction h with
  | absent habsent => exact ⟨0, rfl, habsent, fun i hi => absurd hi (Nat.not_lt_zero i)⟩
  | @occurs n found hoccurs _ ih =>
    obtain ⟨k, hfound, habsent, hbefore⟩ := ih
    have hshift : ∀ i, n + 1 + i = n + (i + 1) := by
      intro i
      omega
    rw [hshift] at hfound habsent
    refine ⟨k + 1, hfound, habsent, ?_⟩
    intro i hi
    cases i with
    | zero => exact hoccurs
    | succ i =>
      rw [← hshift]
      exact hbefore i (by omega)

/-- With enough attempts to come to an absent candidate, the bounded search
    is a search. -/
theorem searchFinds_firstAbsent {k attempts : Nat} (hk : k < attempts)
    (habsent : ¬ (delimiter tag (n + k)).toList <:+: body) :
    SearchFinds body tag n (firstAbsent body tag n attempts) := by
  induction attempts generalizing n k with
  | zero => exact absurd hk (Nat.not_lt_zero k)
  | succ attempts ih =>
    unfold firstAbsent
    by_cases hoccurs : (delimiter tag n).toList <:+: body
    · rw [if_pos (occursIn_iff.mpr hoccurs)]
      cases k with
      | zero => exact absurd hoccurs habsent
      | succ k =>
        -- behind the first candidate one attempt less is needed
        have hshift : n + (k + 1) = n + 1 + k := by omega
        rw [hshift] at habsent
        exact .occurs hoccurs (ih (by omega) habsent)
    · rw [if_neg (by rwa [occursIn_iff])]
      exact .absent hoccurs

end search

/-- As many attempts as the body has characters, and one more, are enough. -/
theorem searchFinds_chooseDelimiter (body tag : String) :
    SearchFinds body.toList tag 0 (chooseDelimiter body tag) := by
  obtain ⟨n, hn, habsent⟩ := exists_delimiter_not_infix body.toList tag
  apply searchFinds_firstAbsent (Nat.lt_succ_of_le hn)
  rwa [Nat.zero_add]

/-- The delimiter of a body is the first candidate that does not occur in
    it. -/
theorem chooseDelimiter_eq_first (body tag : String) :
    ∃ k, chooseDelimiter body tag = delimiter tag k ∧
      ¬ (delimiter tag k).toList <:+: body.toList ∧
      ∀ i < k, (delimiter tag i).toList <:+: body.toList := by
  have hfirst := (searchFinds_chooseDelimiter body tag).eq_first
  simpa only [Nat.zero_add] using hfirst

/-! ### Tags -/

/-- The delimiter around a tag. -/
def mark (tag : List Char) : List Char := '$' :: (tag ++ ['$'])

/-- Nothing, or a word. -/
def IsTag (tag : List Char) : Prop := tag = [] ∨ isWord tag = true

theorem isTag_of_isValidTag {tag : String} (h : isValidTag tag = true) : IsTag tag.toList := by
  unfold isValidTag at h
  simpa [IsTag] using h

theorem isValidTag_ofList {tag : List Char} (h : IsTag tag) :
    isValidTag (String.ofList tag) = true := by
  unfold isValidTag
  simpa [IsTag] using h

/-- A tag with a number behind it is a tag. -/
theorem IsTag.numbered {tag : List Char} (h : IsTag tag) (n : Nat) :
    IsTag (tag ++ '_' :: Nat.toDigits 10 n) := by
  right
  have hdigits : (Nat.toDigits 10 n).all isWordChar = true := by
    rw [List.all_eq_true]
    intro c hc
    exact isWordChar_of_isDigit (Nat.isDigit_of_mem_toDigits (by omega) (by omega) hc)
  rcases h with rfl | hword
  · show (isWordStart '_' && (Nat.toDigits 10 n).all isWordChar) = true
    rw [hdigits]
    rfl
  · cases tag with
    | nil => cases hword
    | cons c rest =>
      simp only [isWord, Bool.and_eq_true] at hword
      simp only [isWord, List.cons_append, List.all_append, List.all_cons, hword.1, hword.2,
        hdigits]
      rfl

/-- Every candidate of a valid tag is a tag between dollar signs. -/
theorem toList_delimiter_eq_mark {tag : String} (h : isValidTag tag = true) (n : Nat) :
    ∃ t, IsTag t ∧ (delimiter tag n).toList = mark t := by
  have htag := isTag_of_isValidTag h
  rw [toList_delimiter]
  cases n with
  | zero => exact ⟨_, htag, rfl⟩
  | succ n => exact ⟨_, htag.numbered (n + 1), by simp [mark, candidateEnd]⟩

/-- The delimiter chosen for a body is a tag between dollar signs and does
    not occur in the body. -/
theorem chooseDelimiter_eq_mark {tag : String} (h : isValidTag tag = true) (body : String) :
    ∃ t, IsTag t ∧ (chooseDelimiter body tag).toList = mark t ∧ ¬ mark t <:+: body.toList := by
  obtain ⟨k, hk, habsent, _⟩ := chooseDelimiter_eq_first body tag
  obtain ⟨t, ht, hmark⟩ := toList_delimiter_eq_mark h k
  rw [hk, hmark]
  exact ⟨t, ht, rfl, hmark ▸ habsent⟩

theorem IsTag.isWordChar_of_mem {tag : List Char} (h : IsTag tag) {c : Char} (hc : c ∈ tag) :
    isWordChar c = true := by
  rcases h with rfl | hword
  · cases hc
  · cases tag with
    | nil => cases hc
    | cons d rest =>
      simp only [isWord, Bool.and_eq_true, List.all_eq_true] at hword
      rcases List.mem_cons.mp hc with rfl | hc
      · have hstart := hword.1
        simp only [isWordStart, Bool.or_eq_true] at hstart
        simp only [isWordChar, Char.isAlphanum, Bool.or_eq_true]
        exact hstart.imp_left .inl
      · exact hword.2 c hc

/-- A delimiter holds dollar signs and characters of words. -/
theorem mem_mark {tag : List Char} (h : IsTag tag) {c : Char} (hc : c ∈ mark tag) :
    c = '$' ∨ isWordChar c = true := by
  rcases List.mem_cons.mp hc with rfl | hc
  · exact .inl rfl
  rcases List.mem_append.mp hc with hc | hc
  · exact .inr (h.isWordChar_of_mem hc)
  · exact .inl (List.mem_singleton.mp hc)

/-- A tag between dollar signs, as a text. -/
theorem exists_tag_of_eq_mark {tag : List Char} {delimiter : String} (h : IsTag tag)
    (hdelimiter : delimiter.toList = mark tag) :
    ∃ t : String, isValidTag t = true ∧ delimiter = "$" ++ t ++ "$" := by
  refine ⟨String.ofList tag, isValidTag_ofList h, ?_⟩
  rw [← String.toList_inj, hdelimiter]
  simp [mark]

theorem mark_ne_nil (tag : List Char) : mark tag ≠ [] := List.cons_ne_nil _ _

theorem not_mark_infix_of_dollar_not_mem {tag text : List Char} (h : '$' ∉ text) :
    ¬ mark tag <:+: text := by
  intro hin
  exact h (hin.subset List.mem_cons_self)

theorem space_not_mem_mark {tag : List Char} (h : IsTag tag) : ' ' ∉ mark tag := by
  intro hc
  rcases mem_mark h hc with hdollar | hword
  · exact absurd hdollar (by decide)
  · exact absurd hword (by decide)

theorem lineBreak_not_mem_mark {tag : List Char} (h : IsTag tag) : '\n' ∉ mark tag := by
  intro hc
  rcases mem_mark h hc with hdollar | hword
  · exact absurd hdollar (by decide)
  · exact absurd hword (by decide)

/-! ### The choice -/

/-- Whatever the body and the tag are, the search ends, and it ends with
    `chooseDelimiter`.  That is the first candidate that does not occur in
    the body, and no more candidates stand in front of it than the body has
    characters.  Made from a valid tag, it is again a valid tag between
    dollar signs. -/
theorem search_ends_at_first_absent (body tag : String) :
    (∀ found, SearchFinds body.toList tag 0 found ↔ found = chooseDelimiter body tag) ∧
    ¬ (chooseDelimiter body tag).toList <:+: body.toList ∧
    (∃ k, k ≤ body.toList.length ∧ chooseDelimiter body tag = delimiter tag k ∧
      ∀ i < k, (delimiter tag i).toList <:+: body.toList) ∧
    (isValidTag tag = true →
      ∃ t, isValidTag t = true ∧ chooseDelimiter body tag = "$" ++ t ++ "$") := by
  have hsearch := searchFinds_chooseDelimiter body tag
  obtain ⟨k, hk, habsent, hbefore⟩ := chooseDelimiter_eq_first body tag
  -- the candidate that is known to be absent is not in front of the first
  obtain ⟨n, hn, hmissing⟩ := exists_delimiter_not_infix body.toList tag
  have hle : k ≤ n := by
    by_contra hlt
    exact hmissing (hbefore n (by omega))
  refine ⟨?_, hk ▸ habsent, ⟨k, by omega, hk, hbefore⟩, ?_⟩
  · intro found
    constructor
    · intro h
      exact h.unique hsearch
    · rintro rfl
      exact hsearch
  · intro htag
    obtain ⟨t, ht, hmark⟩ := toList_delimiter_eq_mark htag k
    rw [hk]
    exact exists_tag_of_eq_mark ht hmark

/-- The two candidates in front share a dollar sign of the body. -/
theorem search_ends_behind_shared_dollar :
    isValidTag "" = true ∧ chooseDelimiter "$$_1$" "" = "$_2$" ∧
    SearchFinds "$$_1$".toList "" 0 "$_2$" ∧ ¬ "$_2$".toList <:+: "$$_1$".toList ∧
    ∃ t, isValidTag t = true ∧ "$_2$" = "$" ++ t ++ "$" := by
  have hchoice : chooseDelimiter "$$_1$" "" = "$_2$" := by decide
  obtain ⟨hsearch, habsent, _, hvalid⟩ := search_ends_at_first_absent "$$_1$" ""
  have htag : isValidTag "" = true := rfl
  rw [hchoice] at hsearch habsent hvalid
  exact ⟨htag, hchoice, (hsearch "$_2$").mpr rfl, habsent, hvalid htag⟩

/-! ### Behind a body -/

/-- May `body` stand between two delimiters?  It may if none begins before
    the second of them. -/
def IsBody (tag body : List Char) : Prop := ¬ mark tag <:+: body ++ '$' :: tag

/-- Behind a body that ends in a character which no delimiter holds, the
    closing delimiter is the first one. -/
theorem isBody_of_fence {tag body : List Char} {c : Char} (hc : c ∉ mark tag)
    (h : ¬ mark tag <:+: body) : IsBody tag (body ++ [c]) := by
  unfold IsBody
  rw [List.append_assoc, List.singleton_append, infix_append_cons_iff hc]
  intro hin
  rcases hin with hin | hin
  · exact h hin
  · -- the part behind the fence is too short for a delimiter
    have hlen := hin.length_le
    simp only [mark, List.length_cons, List.length_append, List.length_nil] at hlen
    omega

/-- Between the opening delimiter and the end of a statement, the delimiter
    stands in one place. -/
theorem IsBody.closes_once {tag body before after : List Char} (h : IsBody tag body)
    (heq : body ++ mark tag ++ [';'] = before ++ mark tag ++ after) :
    before = body ∧ after = [';'] := by
  have hlength := congrArg List.length heq
  simp only [List.length_append, List.length_singleton] at hlength
  rcases Nat.lt_trichotomy before.length body.length with hlt | heven | hgt
  · -- an earlier one would begin in the body
    have hfront : before ++ mark tag <+: body ++ mark tag ++ [';'] := ⟨after, heq.symm⟩
    have hwhole : body ++ '$' :: tag <+: body ++ mark tag ++ [';'] := ⟨['$', ';'], by simp [mark]⟩
    have hshort : (before ++ mark tag).length ≤ (body ++ '$' :: tag).length := by
      simp only [mark, List.length_append, List.length_cons, List.length_nil]
      omega
    have hin := (List.suffix_append before (mark tag)).isInfix.trans
      (List.prefix_of_prefix_length_le hfront hwhole hshort).isInfix
    exact absurd hin h
  · rw [List.append_assoc, List.append_assoc] at heq
    obtain ⟨hbody, hrest⟩ := List.append_inj heq heven.symm
    exact ⟨hbody.symm, (List.append_cancel_left hrest).symm⟩
  · -- a later one would end in the semicolon
    have hnone : after = [] := List.eq_nil_of_length_eq_zero (by omega)
    have hlast : body ++ mark tag ++ [';'] = before ++ '$' :: tag ++ ['$'] := by
      rw [heq, hnone]
      simp [mark]
    have hchar := (List.append_inj' hlast rfl).2
    exact absurd hchar (by decide)

end SuiteScript.Sql
