import SuiteScript.Proofs.TwoRuns

/-! # Event rows in a script

    An observer receives each event as one row.  Here rows are read back from
    the tokens of a script, wherever they stand, also inside of code blocks
    (`rowsOf`).  Paths and directories are contents of literals and no tokens
    of their own, so no text of a plan adds a row or hides one.

    What is read in a statement is computed part by part: each list of parts
    `Delivers` some events, whatever is written behind it.  Most parts deliver
    none because they do not hold the key word with which a row begins. -/

namespace SuiteScript

open Sql

/-! ### Reading a row -/

namespace Sql

/-- Reads one given token. -/
def expect (t : Token) : List Token → Option (List Token)
  | [] => none
  | u :: rest => if u = t then some rest else none

/-- Reads a literal. -/
def literal? : List Token → Option (String × List Token)
  | .quoted .literal content :: rest => some (String.ofList content, rest)
  | _ => none

/-- Reads a literal or the key word for an absent value. -/
def nullable? : List Token → Option (Option String × List Token)
  | .quoted .literal content :: rest => some (some (String.ofList content), rest)
  | .word text :: rest => if text = "NULL".toList then some (none, rest) else none
  | _ => none

/-- How an optional text is read. -/
def Token.ofNullable : Option String → Token
  | some s => .quoted .literal s.toList
  | none => .word "NULL".toList

/-- Reads a number of at most 32 bits. -/
def number? : List Token → Option (UInt32 × List Token)
  | .number digits :: rest =>
    let n := Nat.ofDigitChars 10 digits 0
    if n < UInt32.size then some (UInt32.ofNat n, rest) else none
  | _ => none

@[simp] theorem expect_cons (t : Token) (rest : List Token) :
    expect t (t :: rest) = some rest := if_pos rfl

theorem expect_of_ne {t u : Token} (rest : List Token) (h : u ≠ t) :
    expect t (u :: rest) = none := if_neg h

@[simp] theorem literal?_quoted (s : String) (rest : List Token) :
    literal? (.quoted .literal s.toList :: rest) = some (s, rest) := by
  rw [literal?, String.ofList_toList]

@[simp] theorem nullable?_ofNullable (s : Option String) (rest : List Token) :
    nullable? (Token.ofNullable s :: rest) = some (s, rest) := by
  cases s with
  | none => rfl
  | some s => rw [Token.ofNullable, nullable?, String.ofList_toList]

@[simp] theorem number?_toString (n : UInt32) (rest : List Token) :
    number? (.number (toString n.toNat).toList :: rest) = some (n, rest) := by
  have hdigits : (toString n.toNat).toList = Nat.toDigits 10 n.toNat := Nat.toList_repr
  have hvalue : Nat.ofDigitChars 10 (toString n.toNat).toList 0 = n.toNat := by
    rw [hdigits]
    exact Nat.ofDigitChars_toDigits (by omega) (by omega)
  have hfits : n.toNat < UInt32.size := n.toNat_lt
  simp only [number?, hvalue, if_pos hfits, UInt32.ofNat_toNat]

end Sql

/-- The token with which a row begins. -/
def rowWord : Token := .word "ROW".toList

/-- The event whose values stand at the beginning of some tokens, up to a
    closing parenthesis. -/
def Event.ofValues? (tokens : List Token) : Option Event := do
  let (name, tokens) ← literal? tokens
  let tokens ← expect (.symbol ',') tokens
  let (scriptPath, tokens) ← nullable? tokens
  let tokens ← expect (.symbol ',') tokens
  let (directory, tokens) ← literal? tokens
  let tokens ← expect (.symbol ',') tokens
  let (depth, tokens) ← number? tokens
  let tokens ← expect (.symbol ',') tokens
  let (ordinal, tokens) ← number? tokens
  let tokens ← expect (.symbol ',') tokens
  let tokens ← expect (.word "NULL".toList) tokens
  let _ ← expect (.symbol ')') tokens
  let kind ← EventKind.all.find? (·.name = name)
  return ⟨kind, scriptPath, ⟨directory, depth⟩, ordinal⟩

/-- The event whose row stands at the beginning of some tokens. -/
def Event.ofTokens? (tokens : List Token) : Option Event :=
  (expect rowWord tokens).bind fun tokens =>
    (expect (.symbol '(') tokens).bind Event.ofValues?

/-- The events whose rows stand anywhere among tokens. -/
def rowsIn : List Token → List Event
  | [] => []
  | t :: rest => (Event.ofTokens? (t :: rest)).toList ++ rowsIn rest

/-- The events whose rows stand anywhere in a text, with its code blocks
    opened. -/
def rowsOf (text : String) : Option (List Event) := (readTokens 1 text.toList).map rowsIn

/-! ### Tokens without a row -/

theorem Event.ofTokens?_of_ne {t : Token} (rest : List Token) (h : t ≠ rowWord) :
    Event.ofTokens? (t :: rest) = none := by
  rw [ofTokens?, expect_of_ne rest h, Option.bind_none]

theorem rowsIn_append_of_forall_ne {s : List Token} (h : ∀ t ∈ s, t ≠ rowWord)
    (rest : List Token) : rowsIn (s ++ rest) = rowsIn rest := by
  induction s with
  | nil => rfl
  | cons t s ih =>
    rw [List.forall_mem_cons] at h
    rw [List.cons_append, rowsIn, Event.ofTokens?_of_ne _ h.1, ih h.2]
    rfl

/-- Is the token a text between single quotes? -/
def Sql.Token.isLiteral : Token → Bool
  | .quoted .literal _ => true
  | _ => false

theorem Sql.Token.isLiteral_of_isOfName {p : List Char → Bool} {t : Token}
    (h : t.isOfName p = true) : t.isLiteral = false := by
  match t with
  | .quoted .identifier _ => rfl
  | .word _ => rfl
  | .symbol _ => rfl

/-- The third token of a row is a literal. -/
theorem Event.ofTokens?_of_not_isLiteral (t u : Token) {v : Token} (rest : List Token)
    (h : v.isLiteral = false) : Event.ofTokens? (t :: u :: v :: rest) = none := by
  have hvalues : ofValues? (v :: rest) = none := by
    have hliteral : literal? (v :: rest) = none := by
      match v with
      | .quoted .identifier _ => rfl
      | .word _ | .number _ | .symbol _ | .string _ _ | .delimiter _ => rfl
    rw [ofValues?, hliteral]
    rfl
  unfold ofTokens?
  by_cases ht : t = rowWord
  · rw [ht, expect_cons, Option.bind_some]
    by_cases hu : u = .symbol '('
    · rw [hu, expect_cons, Option.bind_some, hvalues]
    · rw [expect_of_ne _ hu, Option.bind_none]
  · rw [expect_of_ne _ ht, Option.bind_none]

/-- So no row begins where no literal follows soon. -/
theorem rowsIn_append_of_not_isLiteral {s : List Token} {u v : Token}
    (hs : ∀ t ∈ s, t.isLiteral = false) (hu : u.isLiteral = false) (hv : v.isLiteral = false)
    (rest : List Token) : rowsIn (s ++ u :: v :: rest) = rowsIn (u :: v :: rest) := by
  induction s with
  | nil => rfl
  | cons t s ih =>
    rw [List.forall_mem_cons] at hs
    have hnone : Event.ofTokens? (t :: (s ++ u :: v :: rest)) = none := by
      -- the token after the next is one of `s`, or it is `u` or `v`
      match s, hs.2 with
      | [], _ => exact Event.ofTokens?_of_not_isLiteral t u rest hv
      | [t'], _ => exact Event.ofTokens?_of_not_isLiteral t t' _ hu
      | t' :: t'' :: s, hs' =>
        exact Event.ofTokens?_of_not_isLiteral t t' _ (hs' t'' (by simp))
    rw [List.cons_append, rowsIn, hnone, ih hs.2]
    rfl

/-! ### Parts without a word -/

/-- Is the word absent from what is read in the part? -/
def Part.Lacks (word : String) (part : Part) : Prop :=
  ∀ texts, ∀ t ∈ part.tokens texts, t ≠ .word word.toList

section Lacks

variable {word : String}

theorem Part.lacks_literal (slot : Slot) : (Part.literal slot).Lacks word := by
  intro texts
  simp [tokens]

theorem Part.lacks_code {text : String}
    (h : ∀ t ∈ (lex text.toList).getD [], t ≠ .word word.toList) : (Part.code text).Lacks word :=
  fun _ => h

/-- A literal that is known beforehand has no words either. -/
theorem Part.lacks_quoteLiteral (s : String) : (Part.code (quoteLiteral s)).Lacks word := by
  apply lacks_code
  rw [lex_quoteLiteral]
  simp

/-- An escaped name has no word with a capital letter. -/
theorem Part.lacks_escapeQualifiedName (hword : isSimple word.toList = false) (name : String) :
    (Part.code (escapeQualifiedName name)).Lacks word := by
  obtain ⟨tokens, htokens, hname⟩ := lex_escapeQualifiedName name
  apply lacks_code
  rw [htokens]
  intro t ht heq
  have hsimple : t.isOfName isSimple = true := hname t ht
  rw [heq, Token.isOfName, hword] at hsimple
  cases hsimple

theorem Part.lacks_savepoint (sp : Savepoint) : (Part.code sp.name).Lacks "ROW" := by
  apply lacks_code
  rw [lex_plain (isPlain_of_isWord sp.isWord_name)]
  have hname : sp.name.toList ≠ "ROW".toList := by
    intro hname
    rw [sp.toList_name] at hname
    have hfirst : '_' = 'R' := Option.some.inj (congrArg List.head? hname)
    exact absurd hfirst (by decide)
  simpa using hname

end Lacks

/-- Is the word absent from what is read in any of the parts? -/
def Lacks (word : String) (parts : List Part) : Prop := ∀ part ∈ parts, part.Lacks word

@[simp] theorem lacks_nil (word : String) : Lacks word [] := List.forall_mem_nil _

@[simp] theorem lacks_cons {word : String} {part : Part} {parts : List Part} :
    Lacks word (part :: parts) ↔ part.Lacks word ∧ Lacks word parts := List.forall_mem_cons

@[simp] theorem lacks_append {word : String} {p q : List Part} :
    Lacks word (p ++ q) ↔ Lacks word p ∧ Lacks word q := List.forall_mem_append

/-! ### Texts and their tokens -/

namespace Sql

/-- Is the text read as these tokens, without a dollar-quoted string? -/
def ReadsAs (text : String) (tokens : List Token) : Prop :=
  lex text.toList = some tokens ∧ ∀ t ∈ tokens, t.isString = false

instance (text : String) (tokens : List Token) : Decidable (ReadsAs text tokens) :=
  inferInstanceAs (Decidable (_ ∧ _))

theorem ReadsAs.append {a b : String} {s t : List Token} (ha : ReadsAs a s) (hb : ReadsAs b t)
    (h : Apart a.toList b.toList) : ReadsAs (a ++ b) (s ++ t) := by
  unfold ReadsAs
  rw [String.toList_append, List.forall_mem_append]
  exact ⟨lex_append ha.1 hb.1 h, ha.2, hb.2⟩

/-- Code that ends in a break goes in front of any text. -/
theorem ReadsAs.behind {lead a : String} {s t : List Token} (hlead : ReadsAs lead s)
    (hlast : lead.toList.getLast?.any isBreak = true) (ha : ReadsAs a t) :
    ReadsAs (lead ++ a) (s ++ t) :=
  hlead.append ha (.inl hlast)

/-- A fence goes between any texts. -/
theorem ReadsAs.fenced {a fence b : String} {s t u : List Token} (ha : ReadsAs a s)
    (hfence : ReadsAs fence t) (hends : isFence fence.toList = true) (hb : ReadsAs b u) :
    ReadsAs (a ++ (fence ++ b)) (s ++ (t ++ u)) := by
  simp only [isFence, Bool.and_eq_true] at hends
  obtain ⟨⟨hfirst, hlast⟩, _⟩ := hends
  apply ha.append (hfence.behind hlast hb)
  obtain ⟨c, hc, hbreak⟩ := (Option.any_eq_true _ _).mp hfirst
  right
  simp [hc, hbreak]

/-- Values joined by commas are read one by one. -/
theorem ReadsAs.intercalate {values : List String} {tokens : List (List Token)}
    (h : List.Forall₂ ReadsAs values tokens) :
    ReadsAs (", ".intercalate values) ([.symbol ','].intercalate tokens) := by
  induction h with
  | nil => exact ⟨rfl, by simp⟩
  | @cons value s values tokens hvalue hvalues ih =>
    cases hvalues with
    | nil => simpa using hvalue
    | cons hnext hvalues =>
      have hcomma : ReadsAs ", " [.symbol ','] := by decide +kernel
      rw [String.intercalate_cons_cons, List.intercalate_cons_cons, String.append_assoc,
        List.append_assoc]
      exact hvalue.fenced hcomma (by decide +kernel) ih

theorem readsAs_quoteLiteral (s : String) :
    ReadsAs (quoteLiteral s) [.quoted .literal s.toList] :=
  ⟨lex_quoteLiteral s, List.forall_mem_singleton.mpr rfl⟩

theorem readsAs_quoteNullable (s : Option String) :
    ReadsAs (quoteNullable s) [.ofNullable s] := by
  cases s with
  | none => decide +kernel
  | some s => exact readsAs_quoteLiteral s

theorem readsAs_escapeQualifiedName (name : String) :
    ReadsAs (escapeQualifiedName name) ((lex (escapeQualifiedName name).toList).getD []) := by
  obtain ⟨tokens, htokens, hname⟩ := lex_escapeQualifiedName name
  rw [htokens]
  exact ⟨htokens, fun t ht => Token.isString_of_isOfName (hname t ht)⟩

/-- A plain name is read as words and dots. -/
theorem readsAs_of_isPlainQualifiedName {name : String} (h : isPlainQualifiedName name = true) :
    ∃ tokens, ReadsAs name tokens ∧ ∀ t ∈ tokens, t.isLiteral = false := by
  obtain ⟨tokens, htokens, hname⟩ := lex_of_isPlainQualifiedName h
  exact ⟨tokens, ⟨htokens, fun t ht => Token.isString_of_isOfName (hname t ht)⟩,
    fun t ht => Token.isLiteral_of_isOfName (hname t ht)⟩

theorem readsAs_number (n : Nat) : ReadsAs (toString n) [.number (toString n).toList] :=
  ⟨lex_digits (by simp) (isDigit_of_mem_number n), List.forall_mem_singleton.mpr rfl⟩

end Sql

/-! ### What parts deliver -/

/-- Are these the events that are read in the parts, whatever follows? -/
def Delivers (texts : Texts) (parts : List Part) (events : List Event) : Prop :=
  ∀ rest, rowsIn (parts.flatMap (Part.tokens texts) ++ rest) = events ++ rowsIn rest

section Delivers

variable {texts : Texts} {callback : String} {e : Event}

theorem Delivers.append {p q : List Part} {events others : List Event}
    (hp : Delivers texts p events) (hq : Delivers texts q others) :
    Delivers texts (p ++ q) (events ++ others) := by
  intro rest
  rw [List.flatMap_append, List.append_assoc, hp, hq, List.append_assoc]

theorem delivers_of_lacks {parts : List Part} (h : Lacks "ROW" parts) :
    Delivers texts parts [] := by
  intro rest
  apply rowsIn_append_of_forall_ne
  rw [List.forall_mem_flatMap]
  intro part hpart
  exact h part hpart texts

theorem delivers_code {text : String} (h : (Part.code text).Lacks "ROW") :
    Delivers texts [.code text] [] :=
  delivers_of_lacks (lacks_cons.mpr ⟨h, lacks_nil "ROW"⟩)

/-- The tokens of an event's row. -/
def Event.rowTokens (e : Event) : List Token := [
  rowWord, .symbol '(', .quoted .literal e.kind.name.toList, .symbol ',',
  .ofNullable e.scriptPath, .symbol ',',
  .quoted .literal e.place.directory.toList, .symbol ',',
  .number (toString e.place.depth.toNat).toList, .symbol ',',
  .number (toString e.ordinal.toNat).toList, .symbol ',', .word "NULL".toList, .symbol ')']

/-- No other row begins inside of a row. -/
theorem Event.forall_mem_tail_rowTokens (e : Event) : ∀ t ∈ e.rowTokens.tail, t ≠ rowWord := by
  have hpath : Token.ofNullable e.scriptPath ≠ rowWord := by
    cases e.scriptPath with
    | none => decide
    | some path => exact Token.noConfusion
  simpa [rowTokens, rowWord] using hpath

/-- They are read as this event. -/
theorem Event.rowsIn_rowTokens (e : Event) (rest : List Token) :
    rowsIn (e.rowTokens ++ rest) = e :: rowsIn rest := by
  have hkind : EventKind.all.find? (·.name = e.kind.name) = some e.kind := by
    cases e.kind <;> rfl
  have hfirst : Event.ofTokens? (e.rowTokens ++ rest) = some e := by
    simp only [ofTokens?, ofValues?, rowTokens, List.cons_append, expect_cons, literal?_quoted,
      nullable?_ofNullable, number?_toString, hkind, Option.bind_eq_bind, Option.bind_some,
      Option.pure_def]
  have hcons : e.rowTokens = rowWord :: e.rowTokens.tail := rfl
  rw [hcons, List.cons_append] at hfirst ⊢
  rw [rowsIn, hfirst, rowsIn_append_of_forall_ne e.forall_mem_tail_rowTokens]
  rfl

/-- The tokens of a row's type. -/
def typeTokens (rowType : String) : List Token :=
  .symbol ':' :: .symbol ':' :: (lex (escapeQualifiedName rowType).toList).getD []

theorem rowWord_not_mem_typeTokens (rowType : String) : ∀ t ∈ typeTokens rowType, t ≠ rowWord := by
  obtain ⟨tokens, htokens, hname⟩ := lex_escapeQualifiedName rowType
  have hcolon : Token.symbol ':' ≠ rowWord := by decide
  unfold typeTokens
  rw [htokens, List.forall_mem_cons, List.forall_mem_cons]
  refine ⟨hcolon, hcolon, ?_⟩
  rintro t ht rfl
  -- the words of an escaped name have no capital letters
  exact absurd (hname rowWord ht) (by decide)

/-- A row and its type hold the event. -/
theorem Event.rowsIn_typed (e : Event) (rowType : String) (rest : List Token) :
    rowsIn (e.rowTokens ++ typeTokens rowType ++ rest) = e :: rowsIn rest := by
  rw [List.append_assoc, e.rowsIn_rowTokens,
    rowsIn_append_of_forall_ne (rowWord_not_mem_typeTokens rowType)]

/-- So they do behind the name of a function.  The name may itself be the key
    word of a row, but no literal comes soon enough. -/
theorem Event.rowsIn_called (e : Event) (rowType : String) {name : List Token}
    (hname : ∀ t ∈ name, t.isLiteral = false) (rest : List Token) :
    rowsIn (name ++ .symbol '(' :: (e.rowTokens ++ typeTokens rowType ++ rest)) =
      e :: rowsIn rest := by
  have hparen : Token.symbol '(' ≠ rowWord := by decide
  have hrow : e.rowTokens = rowWord :: e.rowTokens.tail := rfl
  have hskip : rowsIn (name ++ .symbol '(' :: (e.rowTokens ++ typeTokens rowType ++ rest)) =
      rowsIn (.symbol '(' :: (e.rowTokens ++ typeTokens rowType ++ rest)) := by
    rw [hrow]
    exact rowsIn_append_of_not_isLiteral hname rfl rfl _
  rw [hskip, rowsIn, Event.ofTokens?_of_ne _ hparen, e.rowsIn_typed]
  rfl

/-- A row is read as its tokens, whatever texts its values hold. -/
theorem Event.readsAs_row (e : Event) (rowType : String) :
    ReadsAs (e.row (escapeQualifiedName rowType)) (e.rowTokens ++ typeTokens rowType) := by
  have hvalues : List.Forall₂ ReadsAs
      [quoteLiteral e.kind.name, quoteNullable e.scriptPath, quoteLiteral e.place.directory,
        toString e.place.depth.toNat, toString e.ordinal.toNat, "NULL"]
      [[.quoted .literal e.kind.name.toList], [.ofNullable e.scriptPath],
        [.quoted .literal e.place.directory.toList],
        [.number (toString e.place.depth.toNat).toList],
        [.number (toString e.ordinal.toNat).toList], [.word "NULL".toList]] :=
    .cons (readsAs_quoteLiteral _) <| .cons (readsAs_quoteNullable _) <|
      .cons (readsAs_quoteLiteral _) <| .cons (readsAs_number _) <| .cons (readsAs_number _) <|
      .cons (by decide +kernel) .nil
  have hopen : ReadsAs "ROW(" [rowWord, .symbol '('] := by decide +kernel
  have hclose : ReadsAs ")::" [.symbol ')', .symbol ':', .symbol ':'] := by decide +kernel
  have hrow := hopen.behind (by decide +kernel) ((ReadsAs.intercalate hvalues).fenced hclose
    (by decide +kernel) (readsAs_escapeQualifiedName rowType))
  rw [← String.append_assoc, ← String.append_assoc] at hrow
  exact hrow

/-- How the parts of a row are read. -/
theorem row_tokens (config : Config) (h : e.HasTexts callback texts) :
    (Skeleton.row config e.kind e.place.depth e.ordinal).flatMap (Part.tokens texts) =
      e.rowTokens ++ typeTokens config.eventType := by
  obtain ⟨hlex, _⟩ := Skeleton.reads_row config e.kind e.place.depth e.ordinal texts
  rw [← Event.row_written config h, (e.readsAs_row config.eventType).1] at hlex
  exact (Option.some.inj hlex).symm

/-- They deliver the event. -/
theorem delivers_row (config : Config) (h : e.HasTexts callback texts) :
    Delivers texts (Skeleton.row config e.kind e.place.depth e.ordinal) [e] := by
  intro rest
  rw [row_tokens config h, e.rowsIn_typed]
  rfl

/-- How they are read behind a name and an opening parenthesis. -/
theorem directCall_tokens (config : Config) {name : String} {tokens : List Token}
    (hname : lex name.toList = some tokens) (h : e.HasTexts callback texts) :
    (Part.code name :: .code "(" :: Skeleton.row config e.kind e.place.depth e.ordinal).flatMap
        (Part.tokens texts) =
      tokens ++ .symbol '(' :: (e.rowTokens ++ typeTokens config.eventType) := by
  have hcode : (Part.code name).tokens texts = tokens := by
    rw [Part.tokens, hname]
    rfl
  have hopen : (Part.code "(").tokens texts = [.symbol '('] :=
    show (lex "(".toList).getD [] = _ by decide +kernel
  rw [List.flatMap_cons, List.flatMap_cons, row_tokens config h, hcode, hopen]
  rfl

/-- Nothing else is delivered there. -/
theorem delivers_directCall (config : Config) {name : String}
    (hname : isPlainQualifiedName name = true) (h : e.HasTexts callback texts) :
    Delivers texts (.code name :: .code "(" ::
      Skeleton.row config e.kind e.place.depth e.ordinal) [e] := by
  intro rest
  obtain ⟨tokens, ⟨htokens, _⟩, hliteral⟩ := readsAs_of_isPlainQualifiedName hname
  rw [directCall_tokens config htokens h, List.append_assoc, List.cons_append]
  exact e.rowsIn_called config.eventType hliteral rest

/-- A call delivers the event of its row. -/
theorem delivers_call (config : Config) (hne : callback ≠ "") (h : e.HasTexts callback texts)
    {keyword : String} (hkeyword : (Part.code keyword).Lacks "ROW") :
    Delivers texts
      (Skeleton.call config (.ofCallback callback) keyword e.kind e.place.depth e.ordinal) [e] := by
  unfold CallForm.ofCallback
  rw [if_neg hne]
  by_cases hname : isPlainQualifiedName callback = true
  · have hlead : Delivers texts [.code keyword] [] := delivers_code hkeyword
    have hclose : Delivers texts [.code ");"] [] :=
      delivers_code (Part.lacks_code (by decide +kernel))
    rw [if_pos hname]
    exact (hlead.append (delivers_directCall config hname h)).append hclose
  · have hlead : Delivers texts [.code "EXECUTE format('SELECT %s($1)', ", .literal .callback,
        .code "::regproc) USING "] [] := by
      apply delivers_of_lacks
      simp only [lacks_cons, lacks_nil, and_true]
      exact ⟨Part.lacks_code (by decide +kernel), Part.lacks_literal .callback,
        Part.lacks_code (by decide +kernel)⟩
    have hclose : Delivers texts [.code ";"] [] :=
      delivers_code (Part.lacks_code (by decide +kernel))
    rw [if_neg hname]
    exact (hlead.append (delivers_row config h)).append hclose

end Delivers

/-! ### Blocks -/

/-- What executes a script holds no word that begins a row or a handler. -/
theorem lacks_execute (config : Config) {word : String} (hword : word ∈ ["ROW", "EXCEPTION"]) :
    Lacks word (Skeleton.execute config) := by
  have hsimple : ∀ word ∈ ["ROW", "EXCEPTION"], isSimple word.toList = false := by decide
  have hcode : ∀ word ∈ ["ROW", "EXCEPTION"],
      ∀ text ∈ ["EXECUTE (SELECT content FROM ", " WHERE path = ", ");"],
        ∀ t ∈ (lex text.toList).getD [], t ≠ .word word.toList := by decide +kernel
  have hlacks : ∀ text ∈ ["EXECUTE (SELECT content FROM ", " WHERE path = ", ");"],
      (Part.code text).Lacks word := fun text htext => Part.lacks_code (hcode word hword text htext)
  simp only [Skeleton.execute, lacks_cons, lacks_nil, and_true]
  exact ⟨hlacks _ (by simp), Part.lacks_escapeQualifiedName (hsimple word hword) _,
    hlacks _ (by simp), Part.lacks_literal .path, hlacks _ (by simp)⟩

theorem lacks_indented (config : Config) {word : String} {parts : List Part}
    (h : Lacks word parts) : Lacks word (Skeleton.indented config parts) := by
  refine lacks_cons.mpr ⟨Part.lacks_code ?_, h⟩
  rw [String.toList_ofList, lex_replicate_space]
  simp

/-- A line break is no token. -/
theorem lacks_lineBreak (word : String) : (Part.code "\n").Lacks word := by
  have hbreak : lex "\n".toList = some [] := by decide +kernel
  apply Part.lacks_code
  rw [hbreak]
  simp

theorem lacks_warning (config : Config) :
    ∀ parts ∈ Skeleton.warning config, Lacks "ROW" parts := by
  unfold Skeleton.warning
  split
  · rw [List.forall_mem_singleton]
    simp only [lacks_cons, lacks_nil, and_true]
    exact ⟨Part.lacks_code (by decide +kernel), Part.lacks_literal .path,
      Part.lacks_code (by decide +kernel)⟩
  · simp

theorem lacks_check (config : Config) : Lacks "ROW" (Skeleton.check config) := by
  simp only [Skeleton.check, lacks_cons, lacks_nil, and_true]
  exact ⟨Part.lacks_code (by decide +kernel), Part.lacks_literal .callback,
    Part.lacks_code (by decide +kernel), Part.lacks_literal .callback,
    Part.lacks_code (by decide +kernel), Part.lacks_quoteLiteral _,
    Part.lacks_code (by decide +kernel)⟩

namespace Skeleton

/-- What stands in a test's block in front of its failure handler. -/
def testFront (config : Config) : List Part :=
  .code "\n" :: .code "BEGIN" :: .code "\n" :: indented config (execute config) ++ [.code "\n"]

/-- The lines of a failure handler. -/
def handlerLines (config : Config) (handler : List (List Part)) : List Part :=
  (handler.map (indented config)).flatMap (· ++ [.code "\n"])

/-- With an observer, the handler reports to it before it warns. -/
theorem handler_eq (config : Config) {form : CallForm} (hform : form ≠ .unheard)
    (depth ordinal : UInt32) :
    handler config form depth ordinal =
      call config form "PERFORM " .rollback depth ordinal :: warning config := by
  rw [handler, report, if_neg hform]
  rfl

/-- A test's block up to its handler, and the handler. -/
theorem test_eq (config : Config) (form : CallForm) (depth ordinal : UInt32) :
    test config form depth ordinal = testFront config ++
      .code "EXCEPTION WHEN OTHERS OR assert_failure THEN" :: .code "\n" ::
        (handlerLines config (handler config form depth ordinal) ++
          [.code "END", .code "\n"]) := by
  simp [test, testLines, testFront, handlerLines]

end Skeleton

theorem lacks_testFront (config : Config) {word : String} (hword : word ∈ ["ROW", "EXCEPTION"]) :
    Lacks word (Skeleton.testFront config) := by
  have hcode : ∀ word ∈ ["ROW", "EXCEPTION"],
      ∀ t ∈ (lex "BEGIN".toList).getD [], t ≠ .word word.toList := by decide +kernel
  have hexecute := lacks_indented config (lacks_execute config hword)
  simp only [Skeleton.testFront, List.cons_append, lacks_cons, lacks_append, lacks_nil, and_true]
  exact ⟨lacks_lineBreak word, Part.lacks_code (hcode word hword), lacks_lineBreak word, hexecute,
    lacks_lineBreak word⟩

section Delivers

variable {texts : Texts} {callback : String} {e : Event}

theorem delivers_handlerLines_of_lacks (config : Config) {lines : List (List Part)}
    (h : ∀ parts ∈ lines, Lacks "ROW" parts) :
    Delivers texts (Skeleton.handlerLines config lines) [] := by
  apply delivers_of_lacks
  unfold Skeleton.handlerLines
  unfold Lacks
  rw [List.forall_mem_flatMap, List.forall_mem_map]
  intro parts hparts
  exact lacks_append.mpr ⟨lacks_indented config (h parts hparts),
    lacks_cons.mpr ⟨lacks_lineBreak "ROW", lacks_nil "ROW"⟩⟩

/-- The handler delivers the event of the failed test, if anyone listens. -/
theorem delivers_handler (config : Config) (h : e.HasTexts callback texts)
    (hkind : e.kind = .rollback) :
    Delivers texts (Skeleton.handlerLines config
      (Skeleton.handler config (.ofCallback callback) e.place.depth e.ordinal))
      (if callback = "" then [] else [e]) := by
  have hwarning := lacks_warning config
  by_cases hcallback : callback = ""
  · have hreport : Skeleton.report config (.ofCallback callback) e.place.depth e.ordinal = [] :=
      if_pos (CallForm.ofCallback_eq_unheard_iff.mpr hcallback)
    rw [if_pos hcallback]
    -- what is left is the warning, or an empty statement in its place
    apply delivers_handlerLines_of_lacks
    unfold Skeleton.handler
    rw [hreport, List.nil_append]
    split
    · rw [List.forall_mem_singleton]
      exact lacks_cons.mpr ⟨Part.lacks_code (by decide +kernel), lacks_nil "ROW"⟩
    · exact hwarning
  · have hform : CallForm.ofCallback callback ≠ .unheard :=
      CallForm.ofCallback_eq_unheard_iff.not.mpr hcallback
    have hindent : Delivers texts (Skeleton.indented config []) [] :=
      delivers_of_lacks (lacks_indented config (lacks_nil "ROW"))
    have hkeyword : (Part.code "PERFORM ").Lacks "ROW" := Part.lacks_code (by decide +kernel)
    have hcall := delivers_call config hcallback h hkeyword
    have hbreak : Delivers texts [.code "\n"] [] :=
      delivers_code (lacks_lineBreak "ROW")
    rw [if_neg hcallback, Skeleton.handler_eq config hform, ← hkind]
    exact ((hindent.append hcall).append hbreak).append
      (delivers_handlerLines_of_lacks config hwarning)

end Delivers

/-! ### Statements -/

/-- The events whose rows stand in the statement of an action, for an observer
    of the name `callback`. -/
def Action.rows (callback : String) (a : Action) : List Event :=
  if callback = "" then []
  else
    match a with
    | .notify e => [e]
    | .runTest step _ => [.ofStep .rollback step]
    | _ => []

theorem Action.rows_eq_nil (callback : String) {a : Action} (hnotify : ∀ e, a ≠ .notify e)
    (htest : ∀ step path, a ≠ .runTest step path) : a.rows callback = [] := by
  cases a with
  | notify e => exact absurd rfl (hnotify e)
  | runTest step path => exact absurd rfl (htest step path)
  | _ => exact ite_self []

theorem rowsIn_open (tag : List Char) (rest : List Token) :
    rowsIn ([.word "DO".toList, .delimiter tag] ++ rest) = rowsIn rest := by
  apply rowsIn_append_of_forall_ne
  simp [rowWord]

theorem rowsIn_close (tag : List Char) (rest : List Token) :
    rowsIn ([.delimiter tag, .symbol ';'] ++ rest) = rowsIn rest := by
  apply rowsIn_append_of_forall_ne
  simp [rowWord]

/-- A block holds the rows of its body. -/
theorem rowsIn_block {texts : Texts} {parts : List Part} {events : List Event}
    (h : Delivers texts parts events) (tag : List Char) (rest : List Token) :
    rowsIn ((Skeleton.block parts).tokens texts tag ++ rest) = events ++ rowsIn rest := by
  calc rowsIn ((Skeleton.block parts).tokens texts tag ++ rest)
      = rowsIn ([.word "DO".toList, .delimiter tag] ++ (parts.flatMap (Part.tokens texts) ++
          ([.delimiter tag, .symbol ';'] ++ rest))) := by
        simp only [Skeleton.tokens, List.cons_append, List.nil_append, List.append_assoc]
    _ = events ++ rowsIn rest := by
        rw [rowsIn_open, h, rowsIn_close]

/-- A statement about a savepoint holds none. -/
theorem delivers_savepoint {texts : Texts} {lead : String} (hlead : (Part.code lead).Lacks "ROW")
    (sp : Savepoint) : Delivers texts [.code lead, .code sp.name, .code ";"] [] := by
  apply delivers_of_lacks
  simp only [lacks_cons, lacks_nil, and_true]
  exact ⟨hlead, Part.lacks_savepoint sp, Part.lacks_code (by decide +kernel)⟩

/-- Code between blanks. -/
theorem Delivers.oneLine {texts : Texts} {parts : List Part} {events : List Event}
    (h : Delivers texts parts events) :
    Delivers texts (.code " BEGIN " :: parts ++ [.code " END "]) events := by
  have hbegin : Delivers texts [.code " BEGIN "] [] :=
    delivers_code (Part.lacks_code (by decide +kernel))
  have hend : Delivers texts [.code " END "] [] :=
    delivers_code (Part.lacks_code (by decide +kernel))
  have hboth := (hbegin.append h).append hend
  rwa [List.nil_append, List.append_nil] at hboth

/-- A delivery holds one row, if anyone listens. -/
theorem Event.rowsIn_tokens (config : Config) {callback : String} {texts : Texts} {e : Event}
    (h : e.HasTexts callback texts) (tag : List Char) (rest : List Token) :
    rowsIn ((Skeleton.ofShape config (.ofCallback callback)
      (.event e.kind e.place.depth e.ordinal)).tokens texts tag ++ rest) =
        (if callback = "" then [] else [e]) ++ rowsIn rest := by
  by_cases hcallback : callback = ""
  · have hform := CallForm.ofCallback_eq_unheard_iff.mpr hcallback
    rw [if_pos hcallback, hform]
    rfl
  · have hkeyword : (Part.code "SELECT ").Lacks "ROW" := Part.lacks_code (by decide +kernel)
    have hcall := delivers_call config hcallback h hkeyword
    rw [if_neg hcallback, Skeleton.ofShape]
    by_cases hform : CallForm.ofCallback callback = .resolved
    · rw [if_pos hform]
      exact rowsIn_block hcall.oneLine tag rest
    · rw [if_neg hform]
      exact hcall rest

/-- The block of a test has a front without a row, and a handler with one if
    anyone listens. -/
theorem delivers_test (config : Config) {callback : String} {texts : Texts} {e : Event}
    (h : e.HasTexts callback texts) (hkind : e.kind = .rollback) :
    Delivers texts (Skeleton.testFront config) [] ∧
    Delivers texts (.code "EXCEPTION WHEN OTHERS OR assert_failure THEN" :: .code "\n" ::
        (Skeleton.handlerLines config
          (Skeleton.handler config (.ofCallback callback) e.place.depth e.ordinal) ++
          [.code "END", .code "\n"])) (if callback = "" then [] else [e]) := by
  have hlead : Delivers texts
      [.code "EXCEPTION WHEN OTHERS OR assert_failure THEN", .code "\n"] [] := by
    apply delivers_of_lacks
    simp only [lacks_cons, lacks_nil, and_true]
    exact ⟨Part.lacks_code (by decide +kernel), lacks_lineBreak "ROW"⟩
  have hend : Delivers texts [.code "END", .code "\n"] [] := by
    apply delivers_of_lacks
    simp only [lacks_cons, lacks_nil, and_true]
    exact ⟨Part.lacks_code (by decide +kernel), lacks_lineBreak "ROW"⟩
  have hhandler := hlead.append ((delivers_handler config h hkind).append hend)
  rw [List.nil_append, List.append_nil] at hhandler
  exact ⟨delivers_of_lacks (lacks_testFront config (by decide)), hhandler⟩

/-- The rows of an action are read in the tokens of its statement. -/
theorem Action.rowsIn_tokens (config : Config) (callback : String) {a : Action}
    (ha : a.Complete) (tag : List Char) (rest : List Token) :
    rowsIn (a.tokens config callback tag ++ rest) = a.rows callback ++ rowsIn rest := by
  unfold tokens
  cases a with
  | checkObserver =>
    simp only [rows, ite_self]
    exact rowsIn_block (delivers_of_lacks (lacks_check config)) tag rest
  | notify e => exact Event.rowsIn_tokens config (Event.hasTexts_of_complete callback ha) tag rest
  | openSavepoint sp =>
    simp only [rows, ite_self]
    exact delivers_savepoint (Part.lacks_code (by decide +kernel)) sp rest
  | rollBackTo sp =>
    simp only [rows, ite_self]
    exact delivers_savepoint (Part.lacks_code (by decide +kernel)) sp rest
  | release sp =>
    simp only [rows, ite_self]
    exact delivers_savepoint (Part.lacks_code (by decide +kernel)) sp rest
  | runFixture step path =>
    simp only [rows, ite_self]
    exact rowsIn_block (delivers_of_lacks (lacks_execute config (by decide))).oneLine tag rest
  | runTest step path =>
    have htexts : (Event.ofStep .rollback step).HasTexts callback
        ((Action.runTest step path).texts callback) := ⟨ha, rfl, rfl⟩
    obtain ⟨hfront, hhandler⟩ := delivers_test config htexts rfl
    have hblock := hfront.append hhandler
    rw [← Skeleton.test_eq] at hblock
    exact rowsIn_block hblock tag rest

/-- The block of a test has its row behind the word with which the handler
    begins. -/
theorem Action.tokens_runTest (config : Config) (callback : String) {step : Step} {path : String}
    (ha : (Action.runTest step path).Complete) (tag : List Char) :
    ∃ front handler,
      (Action.runTest step path).tokens config callback tag =
        front ++ .word "EXCEPTION".toList :: handler ∧
      .word "EXCEPTION".toList ∉ front ∧ rowsIn front = [] ∧
      rowsIn handler = (Action.runTest step path).rows callback := by
  have htexts : (Event.ofStep .rollback step).HasTexts callback
      ((Action.runTest step path).texts callback) := ⟨ha, rfl, rfl⟩
  obtain ⟨hfront, hhandler⟩ := delivers_test config htexts rfl
  have hexception : (Part.code "EXCEPTION WHEN OTHERS OR assert_failure THEN").tokens
      ((Action.runTest step path).texts callback) =
        ["EXCEPTION", "WHEN", "OTHERS", "OR", "assert_failure", "THEN"].map
          fun word => .word word.toList :=
    show (lex "EXCEPTION WHEN OTHERS OR assert_failure THEN".toList).getD [] = _ by decide +kernel
  have hclose : rowsIn [.delimiter tag, .symbol ';'] = [] := rowsIn_close tag []
  have hword : Token.word "EXCEPTION".toList ≠ rowWord := by decide
  have hlast := hhandler [.delimiter tag, .symbol ';']
  rw [List.flatMap_cons, hexception, List.map_cons, List.cons_append, List.cons_append, rowsIn,
    Event.ofTokens?_of_ne _ hword, hclose, List.append_nil] at hlast
  refine ⟨[.word "DO".toList, .delimiter tag] ++ (Skeleton.testFront config).flatMap
    (Part.tokens ((Action.runTest step path).texts callback)), _, ?_, ?_, ?_, hlast⟩
  · unfold tokens
    show (Skeleton.block (Skeleton.test _ _ _ _)).tokens _ _ = _
    rw [Skeleton.test_eq, Skeleton.tokens, List.flatMap_append, List.flatMap_cons, hexception]
    simp only [List.map_cons, List.cons_append, List.nil_append, List.append_assoc]
    rfl
  · have hlacks : ∀ t ∈ (Skeleton.testFront config).flatMap
        (Part.tokens ((Action.runTest step path).texts callback)),
          t ≠ .word "EXCEPTION".toList := by
      rw [List.forall_mem_flatMap]
      intro part hpart
      exact lacks_testFront config (by decide) part hpart _
    intro hmem
    rcases List.mem_append.mp hmem with hmem | hmem
    · simp at hmem
    · exact hlacks _ hmem rfl
  · have hrows := hfront []
    rw [List.append_nil] at hrows
    rw [rowsIn_open, hrows]
    rfl

/-- The rows of an action are read in its statement. -/
theorem Wording.rowsOf_statementText {config : Config} {callback : String}
    (htag : isValidTag config.blockTag = true) {a : Action}
    (hwrites : (ofCallback config callback).writes a = true) (ha : a.Complete) :
    rowsOf ((ofCallback config callback).statementText a) = some (a.rows callback) := by
  obtain ⟨tag, _, hread⟩ := readTokens_statementText htag hwrites ha 0
  have htokens : rowsIn (a.tokens config callback tag) = a.rows callback := by
    simpa [rowsIn] using Action.rowsIn_tokens config callback ha tag []
  exact (congrArg (Option.map rowsIn) hread).trans (congrArg some htokens)

theorem Action.rowsIn_flatMap_tokens (config : Config) (callback : String) {script : List Action}
    (h : ∀ a ∈ script, a.Complete) (tagOf : Action → List Char) :
    rowsIn (script.flatMap fun a => a.tokens config callback (tagOf a)) =
      script.flatMap (Action.rows callback) := by
  induction script with
  | nil => rfl
  | cons a rest ih =>
    rw [List.forall_mem_cons] at h
    rw [List.flatMap_cons, List.flatMap_cons, rowsIn_tokens config callback h.1, ih h.2]

/-- The rows of a script are those of its statements. -/
theorem rowsOf_statementsOf {config : Config} {callback : String} {steps : List Step}
    {script : List Action} (h : statementsOf config callback steps = .ok script) :
    rowsOf ((Wording.ofCallback config callback).text script) =
      some (script.flatMap (Action.rows callback)) := by
  have hcomplete : ∀ a ∈ script, a.Complete := by
    intro a ha
    exact (ofPlan_of_mem_statementsOf h a ha).complete
  obtain ⟨tagOf, _, hread⟩ := readTokens_statementsOf h 0
  have htokens := Action.rowsIn_flatMap_tokens config callback hcomplete tagOf
  exact (congrArg (Option.map rowsIn) hread).trans (congrArg some htokens)

end SuiteScript
