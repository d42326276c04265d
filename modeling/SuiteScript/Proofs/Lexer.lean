import SuiteScript.Proofs.Delimiters

/-! # Splitting a script into statements

    The database splits a script at its semicolons, those inside quotes
    excepted.  The reader here does the same: a small machine that goes from
    character to character and knows literals, quoted identifiers,
    dollar-quoted strings and identifiers, inside of which a dollar sign
    opens nothing.

    A text is *quiet* if the reader, from outside of all quotes, passes it
    without an end of a statement and is outside of quotes again.  Quiet
    texts that are kept apart by separators make a quiet text
    (`Quiet.fenced`), and a quiet text with a semicolon behind it is one
    statement.  So a script splits as it was written as soon as each of its
    statements is built from quiet pieces (`readScript_intercalate`). -/

namespace SuiteScript.Sql

/-! ### The reader -/

/-- What a text between two quotes stands for. -/
inductive Quote where
  /-- A literal. -/
  | literal
  /-- An identifier. -/
  | identifier
deriving DecidableEq, Repr

/-- The character on both sides. -/
def Quote.char : Quote → Char
  | .literal => '\''
  | .identifier => '"'

/-- The quote that a character opens. -/
def Quote.ofChar? (c : Char) : Option Quote :=
  if c = '\'' then some .literal else if c = '"' then some .identifier else none

/-- Can `c` follow in an identifier?  Dollar signs can. -/
def isNameChar (c : Char) : Bool := isWordChar c || c = '$'

/-- Where the reader is. -/
inductive LexState where
  /-- Between tokens. -/
  | normal
  /-- Inside an identifier. -/
  | word
  /-- Between two quotes. -/
  | quoted (quote : Quote)
  /-- Behind a quote that ends a quoted text, unless it is doubled. -/
  | quoteSeen (quote : Quote)
  /-- Behind a dollar sign and what may become a tag. -/
  | opening (tag : List Char)
  /-- Inside a dollar-quoted string, of which `body` has been read. -/
  | block (tag body : List Char)
deriving DecidableEq, Repr

namespace LexState

/-- A character outside of all quotes and identifiers. -/
def start (c : Char) : LexState :=
  match Quote.ofChar? c with
  | some quote => .quoted quote
  | none => if c = '$' then .opening [] else if isWordStart c then .word else .normal

/-- One character further. -/
def next : LexState → Char → LexState
  | normal, c => start c
  | word, c => if isNameChar c then .word else start c
  | quoted quote, c => if c = quote.char then .quoteSeen quote else .quoted quote
  | quoteSeen quote, c => if c = quote.char then .quoted quote else start c
  | opening tag, c =>
    if c = '$' then .block tag []
    -- without a second dollar sign the first one opened nothing
    else if isWord (tag ++ [c]) then .opening (tag ++ [c]) else start c
  | block tag body, c =>
    if (mark tag).isSuffixOf (body ++ [c]) then .normal else .block tag (body ++ [c])

/-- Is the next character part of a quoted text? -/
def inside : LexState → Bool
  | quoted _ => true
  | block _ _ => true
  | _ => false

/-- Does `c` end the statement? -/
def ends (s : LexState) (c : Char) : Bool := c = ';' && !s.inside

end LexState

/-- What has been made of a script. -/
structure Reading where
  /-- The statements, each with its semicolon. -/
  statements : List (List Char)
  /-- The text behind the last of them. -/
  rest : List Char
  /-- Where the reader is in the end. -/
  state : LexState
deriving DecidableEq, Repr

/-- Reads on from state `s` after `read`, the beginning of a statement.
    White space in front of a statement belongs to none. -/
def readFrom (s : LexState) (read : List Char) : List Char → Reading
  | [] => ⟨[], read, s⟩
  | c :: text =>
    if s.ends c then
      let others := readFrom .normal [] text
      { others with statements := (read ++ [c]) :: others.statements }
    else if read.isEmpty && c.isWhitespace then readFrom s read text
    else readFrom (s.next c) (read ++ [c]) text

/-- Splits a script into its statements. -/
def readScript (sql : String) : Reading := readFrom .normal [] sql.toList

/-! ### Passing over a text -/

/-- The state behind a text in which no statement ends. -/
def pass (s : LexState) : List Char → Option LexState
  | [] => some s
  | c :: text => if s.ends c then none else pass (s.next c) text

theorem pass_append (s : LexState) (a b : List Char) :
    pass s (a ++ b) = (pass s a).bind fun s' => pass s' b := by
  induction a generalizing s with
  | nil => rfl
  | cons c a ih =>
    rw [List.cons_append, pass, pass]
    split
    · rfl
    · exact ih (s.next c)

theorem pass_append_of_eq {s s' : LexState} {a : List Char} (h : pass s a = some s')
    (b : List Char) : pass s (a ++ b) = pass s' b := by
  rw [pass_append, h]
  rfl

/-- Inside of quotes no statement ends. -/
theorem pass_cons_of_inside {s : LexState} (h : s.inside = true) (c : Char) (text : List Char) :
    pass s (c :: text) = pass (s.next c) text := by
  have hends : s.ends c = false := by simp [LexState.ends, h]
  rw [pass, hends, if_neg Bool.false_ne_true]

theorem pass_cons_of_ne {c : Char} (h : c ≠ ';') (s : LexState) (text : List Char) :
    pass s (c :: text) = pass (s.next c) text := by
  have hends : s.ends c = false := by simp [LexState.ends, h]
  rw [pass, hends, if_neg Bool.false_ne_true]

/-- Within a statement, passing over a text is reading it. -/
theorem readFrom_of_pass {s s' : LexState} {text : List Char} (h : pass s text = some s')
    {read : List Char} (hread : read ≠ []) (rest : List Char) :
    readFrom s read (text ++ rest) = readFrom s' (read ++ text) rest := by
  induction text generalizing s read with
  | nil =>
    cases h
    rw [List.nil_append, List.append_nil]
  | cons c text ih =>
    rw [pass] at h
    split at h
    · cases h
    · next hends =>
      -- white space is left out only in front of a statement
      have hempty : (read.isEmpty && c.isWhitespace) = false := by simp [hread]
      rw [List.cons_append, readFrom, if_neg hends, hempty, if_neg Bool.false_ne_true,
        ih h (by simp), List.append_assoc]
      rfl

/-! ### Separators -/

/-- A class of characters tells two of them apart. -/
theorem ne_of_class {p : Char → Bool} {c d : Char} (hc : p c = true) (hd : p d = false) :
    c ≠ d := by
  intro h
  rw [h, hd] at hc
  cases hc

/-- Outside of quotes, does `c` stand for itself and end every identifier? -/
def isSeparator (c : Char) : Bool :=
  !isNameChar c && (Quote.ofChar? c).isNone && c ≠ ';'

/-- What cannot stand in a word cannot start one. -/
theorem isWordStart_of_not_isWordChar {c : Char} (h : isWordChar c = false) :
    isWordStart c = false := by
  simp only [isWordChar, Char.isAlphanum, Bool.or_eq_false_iff] at h
  simp only [isWordStart, h.1.1, h.2, Bool.or_self]

/-- Nor can it end one. -/
theorem isWord_concat_of_not_isWordChar {c : Char} (h : isWordChar c = false) (tag : List Char) :
    isWord (tag ++ [c]) = false := by
  cases tag with
  | nil => simp [isWord, isWordStart_of_not_isWordChar h]
  | cons d tag => simp [isWord, h]

theorem Quote.ofChar?_char (quote : Quote) : Quote.ofChar? quote.char = some quote := by
  cases quote <;> rfl

/-- A class of characters that holds no quote opens none. -/
theorem Quote.ofChar?_of_class {p : Char → Bool} {c : Char} (hc : p c = true)
    (hsingle : p '\'' = false) (hdouble : p '"' = false) : Quote.ofChar? c = none := by
  unfold Quote.ofChar?
  rw [if_neg (ne_of_class hc hsingle), if_neg (ne_of_class hc hdouble)]

theorem Quote.char_ne {quote : Quote} {c : Char} (h : Quote.ofChar? c = none) : c ≠ quote.char := by
  intro hc
  rw [hc, Quote.ofChar?_char] at h
  cases h

namespace LexState

theorem start_of_isWordStart {c : Char} (h : isWordStart c = true) : start c = .word := by
  have hquote : Quote.ofChar? c = none := Quote.ofChar?_of_class h rfl rfl
  have hdollar : c ≠ '$' := ne_of_class h rfl
  unfold start
  rw [hquote]
  simp only [if_neg hdollar, h, if_true]

theorem start_of_not {c : Char} (hquote : Quote.ofChar? c = none) (hdollar : c ≠ '$')
    (hword : isWordStart c = false) : start c = .normal := by
  unfold start
  rw [hquote]
  simp only [if_neg hdollar, hword, if_false, Bool.false_eq_true]

/-- Outside of quotes a separator brings the reader back between tokens. -/
theorem next_separator {s : LexState} {c : Char} (hs : s.inside = false)
    (hc : isSeparator c = true) : s.next c = .normal := by
  simp only [isSeparator, isNameChar, Bool.and_eq_true, Bool.not_eq_true', Bool.or_eq_false_iff,
    Option.isNone_iff_eq_none, decide_eq_false_iff_not] at hc
  obtain ⟨⟨⟨hword, hdollar⟩, hquote⟩, _⟩ := hc
  have hnormal : start c = .normal :=
    start_of_not hquote hdollar (isWordStart_of_not_isWordChar hword)
  cases s with
  | normal => exact hnormal
  | word =>
    show (if isNameChar c then LexState.word else start c) = .normal
    rw [if_neg (by simp [isNameChar, hword, hdollar]), hnormal]
  | quoted quote => cases hs
  | quoteSeen quote =>
    -- the quote before `c` was not doubled, so it has closed the text
    show (if c = quote.char then LexState.quoted quote else start c) = .normal
    rw [if_neg (Quote.char_ne hquote), hnormal]
  | opening tag =>
    -- `c` neither ends the tag nor goes on with it
    have htag := isWord_concat_of_not_isWordChar hword tag
    show (if c = '$' then LexState.block tag []
      else if isWord (tag ++ [c]) then .opening (tag ++ [c]) else start c) = .normal
    rw [if_neg hdollar, htag, if_neg Bool.false_ne_true, hnormal]
  | block tag body => cases hs

end LexState

/-! ### Quiet texts -/

/-- The reader passes over the text and leaves no quote open. -/
def Quiet (text : List Char) : Prop :=
  ∃ s, pass .normal text = some s ∧ s.inside = false

theorem quiet_nil : Quiet [] := ⟨.normal, rfl, rfl⟩

theorem Quiet.cons_separator {a b : List Char} {c : Char} (ha : Quiet a)
    (hc : isSeparator c = true) (hb : Quiet b) : Quiet (a ++ c :: b) := by
  obtain ⟨s, hs, hinside⟩ := ha
  have hne : c ≠ ';' := ne_of_class hc rfl
  unfold Quiet
  rw [pass_append_of_eq hs, pass_cons_of_ne hne, LexState.next_separator hinside hc]
  exact hb

/-- Quiet texts stay quiet side by side when separators keep them apart. -/
theorem Quiet.fenced {a b : List Char} (ha : Quiet a) (fence : List Char)
    (hne : fence ≠ []) (hall : fence.all isSeparator = true) (hb : Quiet b) :
    Quiet (a ++ fence ++ b) := by
  induction fence generalizing a with
  | nil => exact absurd rfl hne
  | cons c fence ih =>
    rw [List.all_cons, Bool.and_eq_true] at hall
    obtain ⟨hc, hall⟩ := hall
    cases fence with
    | nil => simpa using ha.cons_separator hc hb
    | cons d fence =>
      -- the first separator goes to the text in front
      have hac : Quiet (a ++ [c]) := ha.cons_separator hc quiet_nil
      have hrest := ih hac (List.cons_ne_nil d fence) hall
      simpa using hrest

/-- Parts joined by separators. -/
theorem quiet_intercalate {parts : List (List Char)} (h : ∀ part ∈ parts, Quiet part)
    (fence : List Char) (hne : fence ≠ []) (hall : fence.all isSeparator = true) :
    Quiet (fence.intercalate parts) := by
  induction parts with
  | nil => exact quiet_nil
  | cons part parts ih =>
    have hpart : Quiet part := h part List.mem_cons_self
    have hparts : Quiet (fence.intercalate parts) := by
      apply ih
      intro p hp
      exact h p (List.mem_cons_of_mem part hp)
    cases parts with
    | nil => simpa using hpart
    | cons p parts =>
      rw [List.intercalate_cons_cons]
      exact hpart.fenced fence hne hall hparts

/-! ### Tokens are quiet -/

theorem pass_word {text : List Char} (h : text.all isNameChar = true) :
    pass .word text = some .word := by
  induction text with
  | nil => rfl
  | cons c text ih =>
    rw [List.all_cons, Bool.and_eq_true] at h
    have hne : c ≠ ';' := ne_of_class h.1 rfl
    rw [pass_cons_of_ne hne]
    show pass (if isNameChar c then .word else LexState.start c) text = some .word
    rw [if_pos h.1, ih h.2]

/-- A plain identifier is passed as a whole, dollar signs included. -/
theorem quiet_plain {s : List Char} (h : isPlain s = true) : Quiet s := by
  cases s with
  | nil => cases h
  | cons c rest =>
    rw [isPlain, Bool.and_eq_true] at h
    obtain ⟨hstart, hrest⟩ := h
    have hne : c ≠ ';' := ne_of_class hstart rfl
    refine ⟨.word, ?_, rfl⟩
    rw [pass_cons_of_ne hne]
    show pass (LexState.start c) rest = some .word
    rw [LexState.start_of_isWordStart hstart]
    exact pass_word hrest

/-- A digit that follows no letter starts no identifier. -/
theorem quiet_digits {s : List Char} (h : ∀ c ∈ s, c.isDigit = true) : Quiet s := by
  have hpass : pass .normal s = some .normal := by
    induction s with
    | nil => rfl
    | cons c s ih =>
      have hc : c.isDigit = true := h c List.mem_cons_self
      have hquote : Quote.ofChar? c = none := Quote.ofChar?_of_class hc rfl rfl
      have hdollar : c ≠ '$' := ne_of_class hc rfl
      have hsemicolon : c ≠ ';' := ne_of_class hc rfl
      rw [pass_cons_of_ne hsemicolon]
      show pass (LexState.start c) s = some .normal
      rw [LexState.start_of_not hquote hdollar (isWordStart_of_isDigit hc)]
      apply ih
      intro d hd
      exact h d (List.mem_cons_of_mem c hd)
  exact ⟨.normal, hpass, rfl⟩

theorem Quote.char_ne_semicolon (quote : Quote) : quote.char ≠ ';' := by
  cases quote <;> decide

/-- Between quotes, text with its quotes doubled leaves the quotes open. -/
theorem pass_doubled (quote : Quote) (text rest : List Char) :
    pass (.quoted quote) (doubled quote.char text ++ rest) = pass (.quoted quote) rest := by
  induction text with
  | nil => rfl
  | cons c text ih =>
    by_cases hc : c = quote.char
    · -- the first of the two seems to close the text, the second goes on
      subst hc
      rw [doubled_self, List.cons_append, List.cons_append, pass_cons_of_inside rfl]
      show pass (if quote.char = quote.char then LexState.quoteSeen quote else _) _ = _
      rw [if_pos rfl, pass_cons_of_ne quote.char_ne_semicolon]
      show pass (if quote.char = quote.char then LexState.quoted quote else _) _ = _
      rw [if_pos rfl, ih]
    · rw [doubled_ne hc, List.cons_append, pass_cons_of_inside rfl]
      show pass (if c = quote.char then _ else LexState.quoted quote) _ = _
      rw [if_neg hc, ih]

theorem quiet_quoted (quote : Quote) (s : List Char) :
    Quiet (quote.char :: (doubled quote.char s ++ [quote.char])) := by
  refine ⟨.quoteSeen quote, ?_, rfl⟩
  rw [pass_cons_of_ne quote.char_ne_semicolon]
  have hopen : LexState.next .normal quote.char = .quoted quote := by
    show LexState.start quote.char = .quoted quote
    unfold LexState.start
    rw [Quote.ofChar?_char]
  rw [hopen, pass_doubled, pass_cons_of_inside rfl]
  show pass (if quote.char = quote.char then LexState.quoteSeen quote else _) [] = _
  rw [if_pos rfl]
  rfl

/-! ### Dollar-quoted strings are quiet -/

/-- The reader collects a tag up to the second dollar sign. -/
theorem pass_opening (read : List Char) {tag : List Char} (h : IsTag (read ++ tag))
    (rest : List Char) :
    pass (.opening read) (tag ++ '$' :: rest) = pass (.block (read ++ tag) []) rest := by
  induction tag generalizing read with
  | nil =>
    rw [List.nil_append, List.append_nil, pass_cons_of_ne (by decide)]
    rfl
  | cons c tag ih =>
    have hassoc : read ++ c :: tag = read ++ [c] ++ tag := by simp
    rw [hassoc] at h ⊢
    have hc : isWordChar c = true := h.isWordChar_of_mem (by simp)
    have hdollar : c ≠ '$' := ne_of_class hc rfl
    have hsemicolon : c ≠ ';' := ne_of_class hc rfl
    have hword : isWord (read ++ [c] ++ tag) = true := h.resolve_left (by simp)
    have hpart : isWord (read ++ [c]) = true := isWord_of_append (by simp) hword
    rw [List.cons_append, pass_cons_of_ne hsemicolon]
    show pass (if c = '$' then LexState.block read []
      else if isWord (read ++ [c]) then .opening (read ++ [c]) else LexState.start c) _ = _
    rw [if_neg hdollar, if_pos hpart, ih (read ++ [c]) h]

/-- Inside a dollar-quoted string the reader goes on to its delimiter. -/
theorem pass_block {tag : List Char} (read : List Char) {text : List Char}
    (h : ¬ mark tag <:+: read ++ text) (rest : List Char) :
    pass (.block tag read) (text ++ rest) = pass (.block tag (read ++ text)) rest := by
  induction text generalizing read with
  | nil => rw [List.nil_append, List.append_nil]
  | cons c text ih =>
    have hassoc : read ++ c :: text = read ++ [c] ++ text := by simp
    rw [hassoc] at h ⊢
    have hclosed : (mark tag).isSuffixOf (read ++ [c]) = false := by
      by_contra hsuffix
      rw [Bool.not_eq_false, List.isSuffixOf_iff_suffix] at hsuffix
      exact h (hsuffix.isInfix.trans (List.prefix_append _ _).isInfix)
    rw [List.cons_append, pass_cons_of_inside rfl]
    show pass (if (mark tag).isSuffixOf (read ++ [c]) then LexState.normal
      else .block tag (read ++ [c])) _ = _
    rw [hclosed, if_neg Bool.false_ne_true, ih (read ++ [c]) h]

/-- A dollar-quoted string ends at its second delimiter if no earlier one
    begins in it. -/
theorem quiet_dollarQuoted {tag body : List Char} (htag : IsTag tag)
    (hbody : IsBody tag body) : Quiet (mark tag ++ body ++ mark tag) := by
  have hends : mark tag ++ body ++ mark tag =
      '$' :: (tag ++ '$' :: (body ++ '$' :: tag ++ ['$'])) := by
    simp [mark]
  refine ⟨.normal, ?_, rfl⟩
  rw [hends, pass_cons_of_ne (by decide)]
  show pass (.opening []) (tag ++ '$' :: (body ++ '$' :: tag ++ ['$'])) = some .normal
  -- up to its last character the string holds no delimiter
  have hwhole : ¬ mark tag <:+: [] ++ (body ++ '$' :: tag) := by rwa [List.nil_append]
  rw [pass_opening [] htag, List.nil_append, pass_block [] hwhole, pass_cons_of_inside rfl,
    List.nil_append]
  have hclosed : (mark tag).isSuffixOf (body ++ '$' :: tag ++ ['$']) = true := by
    rw [List.isSuffixOf_iff_suffix]
    exact ⟨body, by simp [mark]⟩
  show pass (if (mark tag).isSuffixOf (body ++ '$' :: tag ++ ['$']) then LexState.normal
    else _) [] = some .normal
  rw [if_pos hclosed]
  rfl

/-! ### Whole scripts -/

/-- The text is read as one statement: nothing ends before its last
    semicolon, and no white space stands in front. -/
def IsStatement (text : List Char) : Prop :=
  ∃ c body, text = c :: body ++ [';'] ∧ Quiet (c :: body) ∧ c.isWhitespace = false

/-- A key word and a quiet text need only their semicolon. -/
theorem isStatement_of_keyword {keyword rest : List Char} (hkeyword : isWord keyword = true)
    (hrest : Quiet rest) : IsStatement (keyword ++ ' ' :: rest ++ [';']) := by
  have hquiet : Quiet (keyword ++ ' ' :: rest) :=
    (quiet_plain (isPlain_of_isWord hkeyword)).cons_separator rfl hrest
  cases keyword with
  | nil => cases hkeyword
  | cons c keyword =>
    rw [isWord, Bool.and_eq_true] at hkeyword
    have hspace : c.isWhitespace = false := by
      by_contra hspace
      simp only [Bool.not_eq_false, Char.isWhitespace, Bool.or_eq_true, decide_eq_true_eq] at hspace
      rcases hspace with ((rfl | rfl) | rfl) | rfl <;> exact absurd hkeyword.1 (by decide)
    exact ⟨c, keyword ++ ' ' :: rest, rfl, hquiet, hspace⟩

/-- A statement is read off the front of a script. -/
theorem readFrom_statement {text : List Char} (h : IsStatement text) (rest : List Char) :
    readFrom .normal [] (text ++ rest) =
      { readFrom .normal [] rest with
        statements := text :: (readFrom .normal [] rest).statements } := by
  obtain ⟨c, body, rfl, ⟨s, hpass, hinside⟩, hspace⟩ := h
  rw [pass] at hpass
  split at hpass
  · cases hpass
  · next hends =>
    have hend : s.ends ';' = true := by simp [LexState.ends, hinside]
    rw [List.append_assoc, List.cons_append, readFrom, if_neg hends, hspace, Bool.and_false,
      if_neg Bool.false_ne_true, readFrom_of_pass hpass (by simp), List.cons_append, readFrom,
      if_pos hend]
    simp

/-- A script of statements on lines of their own splits into them and leaves
    nothing open. -/
theorem readScript_intercalate {texts : List String}
    (h : ∀ text ∈ texts, IsStatement text.toList) :
    readScript ("\n".intercalate texts) = ⟨texts.map String.toList, [], .normal⟩ := by
  unfold readScript
  induction texts with
  | nil => rfl
  | cons text texts ih =>
    have htext := h text List.mem_cons_self
    have hothers : readFrom .normal [] ("\n".intercalate texts).toList =
        ⟨texts.map String.toList, [], .normal⟩ := by
      apply ih
      intro t ht
      exact h t (List.mem_cons_of_mem text ht)
    cases texts with
    | nil =>
      have hone := readFrom_statement htext []
      rw [List.append_nil] at hone
      rw [String.intercalate_singleton, hone]
      rfl
    | cons t texts =>
      have hbreak : ∀ others, readFrom .normal [] ("\n".toList ++ others) =
          readFrom .normal [] others := by
        intro others
        rfl
      rw [String.intercalate_cons_cons, String.toList_append, String.toList_append,
        List.append_assoc, readFrom_statement htext, hbreak, hothers]
      rfl

end SuiteScript.Sql
