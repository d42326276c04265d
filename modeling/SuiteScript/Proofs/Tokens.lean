import SuiteScript.Proofs.Lexer

/-! # Reading tokens

    The reader of statements only follows where it is.  Here it also keeps
    what it reads: words, numbers, the contents of literals and of quoted
    identifiers, dollar-quoted strings, and every other character but white
    space as a symbol.  Otherwise it is the same machine (`Scan.state_next`).
    A dollar-quoted string is first read as one token and can then be opened,
    that is, replaced by the tokens of its body (`readTokens`).

    Tokens end where the next character cannot belong to them.  So a text
    can be read in parts, wherever one part ends or the next begins with a
    character that stands for itself (`lex_append`). -/

namespace SuiteScript.Sql

/-! ### Tokens -/

/-- What the database makes of a text. -/
inductive Token where
  /-- A key word or a name. -/
  | word (text : List Char)
  /-- A number. -/
  | number (digits : List Char)
  /-- Any other character. -/
  | symbol (c : Char)
  /-- A text between quotes, with its content as it was before the quotes in
      it were doubled. -/
  | quoted (quote : Quote) (content : List Char)
  /-- A dollar-quoted string. -/
  | string (tag body : List Char)
  /-- One of the two delimiters of a dollar-quoted string that was opened. -/
  | delimiter (tag : List Char)
deriving DecidableEq, Repr

namespace Token

/-- Is the token a dollar-quoted string? -/
def isString : Token → Bool
  | string _ _ => true
  | _ => false

/-- The token without the content of a literal and without the choice of a
    delimiter. -/
def erase : Token → Token
  | quoted .literal _ => .quoted .literal []
  | delimiter _ => .delimiter []
  | t => t

end Token

/-! ### The reader -/

/-- Where the reader is, with what it has read of a token. -/
inductive Scan where
  /-- Between tokens. -/
  | between
  /-- Inside a word. -/
  | word (text : List Char)
  /-- Inside a number. -/
  | number (digits : List Char)
  /-- Between two quotes. -/
  | quoted (quote : Quote) (content : List Char)
  /-- Behind a quote that ends a quoted text, unless it is doubled. -/
  | quoteSeen (quote : Quote) (content : List Char)
  /-- Behind a dollar sign and what may become a tag. -/
  | opening (tag : List Char)
  /-- Inside a dollar-quoted string, of which `body` has been read. -/
  | block (tag body : List Char)
deriving DecidableEq, Repr

namespace Scan

/-- Outside of all tokens, what a character is and where it leads. -/
def start (c : Char) : List Token × Scan :=
  match Quote.ofChar? c with
  | some quote => ([], .quoted quote [])
  | none =>
    if c = '$' then ([], .opening [])
    else if isWordStart c then ([], .word [c])
    else if c.isDigit then ([], .number [c])
    else if c.isWhitespace then ([], .between)
    else ([.symbol c], .between)

/-- The tokens that end where the reader is, unless it is inside of quotes. -/
def flush : Scan → Option (List Token)
  | between => some []
  | word text => some [.word text]
  | number digits => some [.number digits]
  | quoted _ _ => none
  | quoteSeen quote content => some [.quoted quote content]
  -- a single dollar sign opened nothing
  | opening tag => some (.symbol '$' :: if tag = [] then [] else [.word tag])
  | block _ _ => none

/-- Ends a token and starts with the character behind it. -/
def turn (tokens : List Token) (c : Char) : List Token × Scan :=
  (tokens ++ (start c).1, (start c).2)

/-- One character further, with the tokens that it ends. -/
def next : Scan → Char → List Token × Scan
  | between, c => start c
  | word text, c =>
    if isNameChar c then ([], .word (text ++ [c])) else turn [.word text] c
  | number digits, c =>
    if c.isDigit then ([], .number (digits ++ [c])) else turn [.number digits] c
  | quoted quote content, c =>
    if c = quote.char then ([], .quoteSeen quote content) else ([], .quoted quote (content ++ [c]))
  | quoteSeen quote content, c =>
    if c = quote.char then ([], .quoted quote (content ++ [c])) else turn [.quoted quote content] c
  | opening tag, c =>
    if c = '$' then ([], .block tag [])
    else if isWord (tag ++ [c]) then ([], .opening (tag ++ [c]))
    else turn (.symbol '$' :: if tag = [] then [] else [.word tag]) c
  | block tag body, c =>
    if (mark tag).isSuffixOf (body ++ [c]) then
      ([.string tag ((body ++ [c]).take (body.length + 1 - (mark tag).length))], .between)
    else ([], .block tag (body ++ [c]))

/-- Where the reader of statements would be. -/
def state : Scan → LexState
  | between => .normal
  | word _ => .word
  | number _ => .normal
  | quoted quote _ => .quoted quote
  | quoteSeen quote _ => .quoteSeen quote
  | opening tag => .opening tag
  | block tag body => .block tag body

/-- Reads a text, and tells what tokens it holds and where the reader is
    behind it. -/
def run (s : Scan) : List Char → List Token × Scan
  | [] => ([], s)
  | c :: text => ((s.next c).1 ++ ((s.next c).2.run text).1, ((s.next c).2.run text).2)

end Scan

/-- The tokens of a text that ends outside of quotes. -/
def lex (text : List Char) : Option (List Token) :=
  (Scan.run .between text).2.flush.map ((Scan.run .between text).1 ++ ·)

/-- Replaces dollar-quoted strings by what `inner` reads in their bodies. -/
def openStrings (inner : List Char → Option (List Token)) : List Token → Option (List Token)
  | [] => some []
  | .string tag body :: rest =>
    (inner body).bind fun tokens => (openStrings inner rest).map fun others =>
      .delimiter tag :: tokens ++ .delimiter tag :: others
  | t :: rest => (openStrings inner rest).map (t :: ·)

/-- The tokens of a text in which dollar-quoted strings are opened up to a
    depth. -/
def readTokens : (depth : Nat) → List Char → Option (List Token)
  | 0, text => lex text
  | depth + 1, text => (lex text).bind (openStrings (readTokens depth))

/-! ### The same machine -/

theorem Scan.state_start (c : Char) : (start c).2.state = LexState.start c := by
  unfold start LexState.start
  cases Quote.ofChar? c with
  | some quote => rfl
  | none =>
    by_cases hdollar : c = '$'
    · simp only [if_pos hdollar]
      rfl
    by_cases hword : isWordStart c = true
    · simp only [if_neg hdollar, if_pos hword]
      rfl
    simp only [if_neg hdollar, if_neg hword]
    -- numbers, white space and symbols are nothing to the other reader
    split
    · rfl
    split
    · rfl
    · rfl

/-- Both readers are at the same place after each character. -/
theorem Scan.state_next (s : Scan) (c : Char) : (s.next c).2.state = s.state.next c := by
  have hstart := state_start c
  cases s with
  | between => exact hstart
  | word text =>
    show (if isNameChar c then ([], Scan.word _) else turn _ c).2.state =
      if isNameChar c then .word else LexState.start c
    by_cases hc : isNameChar c = true
    · rw [if_pos hc, if_pos hc]
      rfl
    · rw [if_neg hc, if_neg hc]
      exact hstart
  | number digits =>
    show (if c.isDigit then ([], Scan.number _) else turn _ c).2.state = LexState.start c
    by_cases hc : c.isDigit = true
    · -- the other reader starts nothing with a digit
      have hquote : Quote.ofChar? c = none := Quote.ofChar?_of_class hc rfl rfl
      rw [if_pos hc, LexState.start_of_not hquote (ne_of_class hc rfl) (isWordStart_of_isDigit hc)]
      rfl
    · rw [if_neg hc]
      exact hstart
  | quoted quote content =>
    by_cases hc : c = quote.char <;> simp [next, state, LexState.next, hc]
  | quoteSeen quote content =>
    show (if c = quote.char then ([], Scan.quoted quote _) else turn _ c).2.state =
      if c = quote.char then .quoted quote else LexState.start c
    by_cases hc : c = quote.char
    · rw [if_pos hc, if_pos hc]
      rfl
    · rw [if_neg hc, if_neg hc]
      exact hstart
  | opening tag =>
    show (if c = '$' then ([], Scan.block tag [])
      else if isWord (tag ++ [c]) then ([], .opening (tag ++ [c])) else turn _ c).2.state =
        if c = '$' then .block tag []
        else if isWord (tag ++ [c]) then .opening (tag ++ [c]) else LexState.start c
    by_cases hc : c = '$'
    · rw [if_pos hc, if_pos hc]
      rfl
    by_cases hword : isWord (tag ++ [c]) = true
    · rw [if_neg hc, if_neg hc, if_pos hword, if_pos hword]
      rfl
    · rw [if_neg hc, if_neg hc, if_neg hword, if_neg hword]
      exact hstart
  | block tag body =>
    by_cases hc : (mark tag).isSuffixOf (body ++ [c]) = true
    · simp [next, state, LexState.next, hc]
    · simp [next, state, LexState.next, hc]

theorem Scan.state_run (s : Scan) (text : List Char) :
    (s.run text).2.state = text.foldl LexState.next s.state := by
  induction text generalizing s with
  | nil => rfl
  | cons c text ih =>
    rw [List.foldl_cons, ← Scan.state_next]
    exact ih (s.next c).2

/-! ### Reading in parts -/

theorem Scan.run_append (s : Scan) (a b : List Char) :
    s.run (a ++ b) = ((s.run a).1 ++ ((s.run a).2.run b).1, ((s.run a).2.run b).2) := by
  induction a generalizing s with
  | nil => rfl
  | cons c a ih =>
    simp only [List.cons_append, run, ih, List.append_assoc]

/-- Does `c` end every token in front of it, and is it one of its own or
    white space? -/
def isBreak (c : Char) : Bool := !isNameChar c && (Quote.ofChar? c).isNone

theorem isBreak_iff {c : Char} :
    isBreak c = true ↔ isWordChar c = false ∧ c ≠ '$' ∧ Quote.ofChar? c = none := by
  simp [isBreak, isNameChar, and_assoc]

theorem not_isDigit_of_isBreak {c : Char} (h : isBreak c = true) : ¬ c.isDigit = true := by
  intro hdigit
  have hword := (isBreak_iff.mp h).1
  rw [isWordChar_of_isDigit hdigit] at hword
  cases hword

namespace Scan

variable {c : Char}

theorem start_of_isBreak (h : isBreak c = true) : (start c).2 = .between := by
  obtain ⟨hword, hdollar, hquote⟩ := isBreak_iff.mp h
  have hstart := isWordStart_of_not_isWordChar hword
  have hdigit := not_isDigit_of_isBreak h
  unfold start
  rw [hquote]
  simp only [if_neg hdollar, hstart, if_neg hdigit, if_false, Bool.false_eq_true]
  split
  · rfl
  · rfl

/-- A break ends the token in front of it. -/
theorem next_of_isBreak {s : Scan} {tokens : List Token} (hs : s.flush = some tokens)
    (h : isBreak c = true) : s.next c = (tokens ++ (start c).1, .between) := by
  have hstart := start_of_isBreak h
  obtain ⟨hword, hdollar, hquote⟩ := isBreak_iff.mp h
  have hturn : turn tokens c = (tokens ++ (start c).1, .between) := by
    unfold turn
    rw [hstart]
  cases s with
  | between =>
    cases hs
    exact hturn
  | word text =>
    cases hs
    have hname : isNameChar c = false := by simp [isNameChar, hword, hdollar]
    simp only [next, hname, Bool.false_eq_true, if_false]
    exact hturn
  | number digits =>
    cases hs
    simp only [next, if_neg (not_isDigit_of_isBreak h)]
    exact hturn
  | quoted quote content => cases hs
  | quoteSeen quote content =>
    cases hs
    simp only [next, if_neg (Quote.char_ne hquote)]
    exact hturn
  | opening tag =>
    cases hs
    have htag := isWord_concat_of_not_isWordChar hword tag
    simp only [next, if_neg hdollar, htag, Bool.false_eq_true, if_false]
    exact hturn
  | block tag body => cases hs

/-- A break does not lead out of quotes. -/
theorem flush_of_next {s : Scan} (h : isBreak c = true) (hnext : (s.next c).2.flush.isSome = true) :
    ∃ tokens, s.flush = some tokens := by
  obtain ⟨_, hdollar, hquote⟩ := isBreak_iff.mp h
  cases s with
  | quoted quote content =>
    simp [next, if_neg (Quote.char_ne hquote), flush] at hnext
  | block tag body =>
    -- a delimiter ends in a dollar sign
    have hopen : (mark tag).isSuffixOf (body ++ [c]) = false := by
      by_contra hsuffix
      rw [Bool.not_eq_false, List.isSuffixOf_iff_suffix] at hsuffix
      obtain ⟨front, hfront⟩ := hsuffix
      have hlast : front ++ '$' :: tag ++ ['$'] = body ++ [c] := by
        rw [← hfront]
        simp [mark]
      exact hdollar (List.cons.inj (List.append_inj' hlast rfl).2).1.symm
    simp [next, hopen, flush] at hnext
  | _ => exact ⟨_, rfl⟩

end Scan

/-- Can the two texts be read apart, because the first ends or the second
    begins with a break? -/
def Apart (a b : List Char) : Prop :=
  a.getLast?.any isBreak = true ∨ b.head?.any isBreak = true

/-- Two texts that can be read apart have the tokens of the first and then
    those of the second. -/
theorem lex_append {a b : List Char} {s t : List Token} (ha : lex a = some s)
    (hb : lex b = some t) (h : Apart a b) : lex (a ++ b) = some (s ++ t) := by
  obtain ⟨first, hfirst, rfl⟩ := Option.map_eq_some_iff.mp ha
  obtain ⟨last, hlast, rfl⟩ := Option.map_eq_some_iff.mp hb
  unfold lex
  rcases h with h | h
  · obtain ⟨c, hend, hc⟩ := (Option.any_eq_true _ _).mp h
    obtain ⟨front, rfl⟩ := List.getLast?_eq_some_iff.mp hend
    -- behind the break the reader is between tokens
    have hfront : Scan.run .between (front ++ [c]) =
        ((Scan.run .between front).1 ++ ((Scan.run .between front).2.next c).1,
          ((Scan.run .between front).2.next c).2) := by
      simp [Scan.run_append, Scan.run]
    have hflush : ((Scan.run .between front).2.next c).2.flush = some first := by
      rw [hfront] at hfirst
      exact hfirst
    obtain ⟨tokens, htokens⟩ := Scan.flush_of_next hc (Option.isSome_of_eq_some hflush)
    rw [Scan.next_of_isBreak htokens hc] at hflush hfront
    cases hflush
    rw [Scan.run_append, hfront]
    simp [hlast]
  · obtain ⟨c, hbegin, hc⟩ := (Option.any_eq_true _ _).mp h
    obtain ⟨rest, rfl⟩ := List.head?_eq_some_iff.mp hbegin
    -- the break ends the last token in front of it
    have hnext := Scan.next_of_isBreak hfirst hc
    have hstart : Scan.next .between c = ((Scan.start c).1, .between) := by
      rw [Scan.next_of_isBreak rfl hc, List.nil_append]
    have hrest : (Scan.run .between rest).2.flush = some last := by
      simpa [Scan.run, hstart] using hlast
    simp [Scan.run_append, Scan.run, hnext, hstart, hrest]

/-! ### Tokens of single texts -/

theorem Scan.run_word (read : List Char) {text : List Char} (h : text.all isNameChar = true) :
    Scan.run (.word read) text = ([], .word (read ++ text)) := by
  induction text generalizing read with
  | nil => simp [run]
  | cons c text ih =>
    rw [List.all_cons, Bool.and_eq_true] at h
    simp [run, next, h.1, ih (read ++ [c]) h.2]

/-- A plain identifier is one word, dollar signs included. -/
theorem lex_plain {s : List Char} (h : isPlain s = true) : lex s = some [.word s] := by
  cases s with
  | nil => cases h
  | cons c rest =>
    rw [isPlain, Bool.and_eq_true] at h
    obtain ⟨hstart, hrest⟩ := h
    have hquote : Quote.ofChar? c = none := Quote.ofChar?_of_class hstart rfl rfl
    have hdollar : c ≠ '$' := ne_of_class hstart rfl
    have hfirst : Scan.next .between c = ([], .word [c]) := by
      show Scan.start c = _
      unfold Scan.start
      rw [hquote]
      simp only [if_neg hdollar, hstart, if_true]
    have hword := Scan.run_word [c] hrest
    simp [lex, Scan.run, hfirst, hword, Scan.flush]

theorem Scan.run_number (read : List Char) {digits : List Char}
    (h : ∀ c ∈ digits, c.isDigit = true) :
    Scan.run (.number read) digits = ([], .number (read ++ digits)) := by
  induction digits generalizing read with
  | nil => simp [run]
  | cons c digits ih =>
    rw [List.forall_mem_cons] at h
    simp [run, next, h.1, ih (read ++ [c]) h.2]

theorem lex_digits {digits : List Char} (hne : digits ≠ []) (h : ∀ c ∈ digits, c.isDigit = true) :
    lex digits = some [.number digits] := by
  cases digits with
  | nil => exact absurd rfl hne
  | cons c digits =>
    rw [List.forall_mem_cons] at h
    obtain ⟨hc, hdigits⟩ := h
    have hquote : Quote.ofChar? c = none := Quote.ofChar?_of_class hc rfl rfl
    have hdollar : c ≠ '$' := ne_of_class hc rfl
    have hfirst : Scan.next .between c = ([], .number [c]) := by
      show Scan.start c = _
      unfold Scan.start
      rw [hquote]
      simp only [if_neg hdollar, isWordStart_of_isDigit hc, hc, if_true, if_false,
        Bool.false_eq_true]
    have hnumber := Scan.run_number [c] hdigits
    simp [lex, Scan.run, hfirst, hnumber, Scan.flush]

/-- Between quotes, doubled quotes are read as single ones. -/
theorem Scan.run_doubled (quote : Quote) (read text : List Char) :
    Scan.run (.quoted quote read) (doubled quote.char text) =
      ([], .quoted quote (read ++ text)) := by
  induction text generalizing read with
  | nil => simp [run]
  | cons c text ih =>
    by_cases hc : c = quote.char
    · subst hc
      rw [doubled_self]
      simp [run, next, ih (read ++ [quote.char])]
    · rw [doubled_ne hc]
      simp [run, next, hc, ih (read ++ [c])]

/-- A quoted text is one token, whose content is the text. -/
theorem lex_quoted (quote : Quote) (s : List Char) :
    lex (quote.char :: (doubled quote.char s ++ [quote.char])) = some [.quoted quote s] := by
  have hopen : Scan.next .between quote.char = ([], .quoted quote []) := by
    show Scan.start quote.char = _
    unfold Scan.start
    rw [Quote.ofChar?_char]
  have hclose : Scan.next (.quoted quote s) quote.char = ([], .quoteSeen quote s) := by
    simp only [Scan.next, if_true]
  have hinside := Scan.run_doubled quote [] s
  rw [List.nil_append] at hinside
  have hrun : Scan.run .between (quote.char :: (doubled quote.char s ++ [quote.char])) =
      ([], .quoteSeen quote s) := by
    simp only [Scan.run, hopen, Scan.run_append, hinside, hclose, List.append_nil]
  unfold lex
  rw [hrun]
  rfl

/-! ### Dollar-quoted strings -/

theorem Scan.run_opening (read : List Char) {tag : List Char} (h : IsTag (read ++ tag)) :
    Scan.run (.opening read) (tag ++ ['$']) = ([], .block (read ++ tag) []) := by
  induction tag generalizing read with
  | nil => simp [run, next]
  | cons c tag ih =>
    have hassoc : read ++ c :: tag = read ++ [c] ++ tag := by simp
    rw [hassoc] at h ⊢
    have hc : isWordChar c = true := h.isWordChar_of_mem (by simp)
    have hdollar : c ≠ '$' := ne_of_class hc rfl
    have hword : isWord (read ++ [c] ++ tag) = true := h.resolve_left (by simp)
    have hpart : isWord (read ++ [c]) = true := isWord_of_append (by simp) hword
    simp only [List.cons_append, run, next, if_neg hdollar, if_pos hpart, ih (read ++ [c]) h,
      List.nil_append]

theorem Scan.run_block {tag : List Char} (read : List Char) {text : List Char}
    (h : ¬ mark tag <:+: read ++ text) :
    Scan.run (.block tag read) text = ([], .block tag (read ++ text)) := by
  induction text generalizing read with
  | nil => simp [run]
  | cons c text ih =>
    have hassoc : read ++ c :: text = read ++ [c] ++ text := by simp
    rw [hassoc] at h ⊢
    have hclosed : (mark tag).isSuffixOf (read ++ [c]) = false := by
      by_contra hsuffix
      rw [Bool.not_eq_false, List.isSuffixOf_iff_suffix] at hsuffix
      exact h (hsuffix.isInfix.trans (List.prefix_append _ _).isInfix)
    simp only [run, next, hclosed, Bool.false_eq_true, if_false, ih (read ++ [c]) h,
      List.nil_append]

/-- A dollar-quoted string is one token. -/
theorem lex_dollarQuoted {tag body : List Char} (htag : IsTag tag) (hbody : IsBody tag body) :
    lex (mark tag ++ body ++ mark tag) = some [.string tag body] := by
  have hopen : Scan.run .between (mark tag) = ([], .block tag []) := by
    have hdollar : Scan.next .between '$' = ([], .opening []) := rfl
    have htail := Scan.run_opening [] htag
    simp only [mark, Scan.run, hdollar, htail, List.nil_append]
  -- up to its last character the string holds no delimiter
  have hwhole : ¬ mark tag <:+: [] ++ (body ++ '$' :: tag) := by rwa [List.nil_append]
  have hinside := Scan.run_block [] hwhole
  have hclosed : (mark tag).isSuffixOf (body ++ '$' :: tag ++ ['$']) = true := by
    rw [List.isSuffixOf_iff_suffix]
    exact ⟨body, by simp [mark]⟩
  have hlength : (body ++ '$' :: tag).length + 1 - (mark tag).length = body.length := by
    simp only [mark, List.length_append, List.length_cons, List.length_nil]
    omega
  have hcontent : (body ++ '$' :: tag ++ ['$']).take body.length = body := by
    rw [List.append_assoc, List.take_left]
  have hclose : Scan.next (.block tag ([] ++ (body ++ '$' :: tag))) '$' =
      ([.string tag body], .between) := by
    rw [List.nil_append]
    simp only [Scan.next, hclosed, if_true, hlength, hcontent]
  have hends : mark tag ++ body ++ mark tag = mark tag ++ ((body ++ '$' :: tag) ++ ['$']) := by
    simp [mark]
  have hrun : Scan.run .between (mark tag ++ body ++ mark tag) =
      ([.string tag body], .between) := by
    rw [hends, Scan.run_append, hopen, Scan.run_append, hinside]
    simp only [Scan.run, hclose, List.append_nil]
    rfl
  unfold lex
  rw [hrun]
  rfl

/-! ### Opening strings -/

theorem openStrings_append (inner : List Char → Option (List Token)) (s t : List Token) :
    openStrings inner (s ++ t) =
      (openStrings inner s).bind fun first => (openStrings inner t).map (first ++ ·) := by
  induction s with
  | nil => simp [openStrings]
  | cons token s ih =>
    cases token with
    | string tag body =>
      simp only [List.cons_append, openStrings, ih]
      cases inner body <;> cases openStrings inner s <;> cases openStrings inner t <;> simp
    | _ =>
      simp only [List.cons_append, openStrings, ih]
      cases openStrings inner s <;> cases openStrings inner t <;> simp

theorem openStrings_of_no_string (inner : List Char → Option (List Token)) {s : List Token}
    (h : ∀ t ∈ s, t.isString = false) : openStrings inner s = some s := by
  induction s with
  | nil => rfl
  | cons token s ih =>
    rw [List.forall_mem_cons] at h
    cases token with
    | string tag body => cases h.1
    | _ => simp [openStrings, ih h.2]

/-- A text without dollar-quoted strings reads the same at every depth. -/
theorem readTokens_of_no_string (depth : Nat) {text : List Char} {s : List Token}
    (htext : lex text = some s) (h : ∀ t ∈ s, t.isString = false) :
    readTokens depth text = some s := by
  cases depth with
  | zero => exact htext
  | succ depth =>
    rw [readTokens, htext]
    exact openStrings_of_no_string _ h

/-- At every depth, texts that can be read apart are read one after the
    other. -/
theorem readTokens_append (depth : Nat) {a b : List Char} {s t : List Token}
    (ha : readTokens depth a = some s) (hb : readTokens depth b = some t) (h : Apart a b) :
    readTokens depth (a ++ b) = some (s ++ t) := by
  cases depth with
  | zero => exact lex_append ha hb h
  | succ depth =>
    obtain ⟨first, hfirst, hs⟩ := Option.bind_eq_some_iff.mp ha
    obtain ⟨last, hlast, ht⟩ := Option.bind_eq_some_iff.mp hb
    rw [readTokens, lex_append hfirst hlast h, Option.bind_some, openStrings_append, hs, ht]
    rfl

end SuiteScript.Sql
