import Mathlib.Data.List.Forall2
import SuiteScript.Json.Value

/-! # The tokens of written values

    What is written is cut into the tokens that were meant, whatever stands
    behind it: a string ends at its own quote, and a whole number ends where
    no digit, point or exponent follows.  So every statement here is about a
    text in front of any other text (`Lexes`), and the tokens of an array or
    object are put together from those of its parts.

    A string is written in many ways.  What is one token, with a given value,
    is therefore said of all of them (`IsStringOf`), and the written form is
    one of these (`isStringOf_quote`). -/

namespace SuiteScript.Json

/-! ### Reading on from any mode -/

/-- The tokens of a text that starts in the middle of something. -/
def LexMode.tokensFrom (mode : LexMode) : List Char → List Token
  | [] => mode.finish
  | c :: rest => (mode.step c).2 ++ (mode.step c).1.tokensFrom rest

theorem foldl_step_eq (l : Lexer) (text : List Char) :
    (text.foldl Lexer.step l).emitted.reverse ++ (text.foldl Lexer.step l).mode.finish =
      l.emitted.reverse ++ l.mode.tokensFrom text := by
  induction text generalizing l with
  | nil => rfl
  | cons c rest ih =>
    rw [List.foldl_cons, ih, LexMode.tokensFrom]
    simp [Lexer.step]

theorem tokens_eq (text : List Char) : tokens text = LexMode.between.tokensFrom text :=
  foldl_step_eq {} text

/-- Would a number end in front of this text? -/
def EndsNumber (text : List Char) : Prop :=
  ∀ c ∈ text.head?, c.isDigit = false ∧ c ≠ '.' ∧ c ≠ 'e' ∧ c ≠ 'E'

/-- The text is cut into these tokens wherever no number could go on behind
    it. -/
def Lexes (text : List Char) (ts : List Token) : Prop :=
  ∀ rest, EndsNumber rest →
    LexMode.between.tokensFrom (text ++ rest) = ts ++ LexMode.between.tokensFrom rest

theorem endsNumber_nil : EndsNumber [] := by
  intro c hc
  cases hc

theorem endsNumber_cons {c : Char} (h : c.isDigit = false ∧ c ≠ '.' ∧ c ≠ 'e' ∧ c ≠ 'E')
    (rest : List Char) : EndsNumber (c :: rest) := by
  intro d hd
  cases hd
  exact h

theorem tokens_of_lexes {text : List Char} {ts : List Token} (h : Lexes text ts) :
    tokens text = ts := by
  have := h [] endsNumber_nil
  rw [List.append_nil] at this
  rw [tokens_eq, this]
  simp [LexMode.tokensFrom, LexMode.finish]

/-! ### Blanks -/

theorem isWhitespace_iff {c : Char} :
    c.isWhitespace = true ↔ c = ' ' ∨ c = '\t' ∨ c = '\r' ∨ c = '\n' := by
  simp [Char.isWhitespace, or_assoc]

/-- Blanks are no tokens. -/
theorem tokensFrom_blanks {gap : List Char} (h : ∀ c ∈ gap, c.isWhitespace = true)
    (rest : List Char) :
    LexMode.between.tokensFrom (gap ++ rest) = LexMode.between.tokensFrom rest := by
  induction gap with
  | nil => rfl
  | cons c gap ih =>
    obtain ⟨hc, hgap⟩ := List.forall_mem_cons.mp h
    rw [← ih hgap]
    rcases isWhitespace_iff.mp hc with rfl | rfl | rfl | rfl <;> rfl

theorem endsNumber_blanks {gap : List Char} (h : ∀ c ∈ gap, c.isWhitespace = true)
    {rest : List Char} (hrest : EndsNumber rest) : EndsNumber (gap ++ rest) := by
  cases gap with
  | nil => exact hrest
  | cons c gap =>
    apply endsNumber_cons
    rcases isWhitespace_iff.mp (h c (by simp)) with rfl | rfl | rfl | rfl <;> decide

theorem Lexes.behind_blanks {gap text : List Char} {ts : List Token} (h : Lexes text ts)
    (hgap : ∀ c ∈ gap, c.isWhitespace = true) : Lexes (gap ++ text) ts := by
  intro rest hrest
  rw [List.append_assoc, tokensFrom_blanks hgap, h rest hrest]

/-! ### Passing a text -/

/-- Behind the text the machine is in the second mode, and it has emitted
    nothing. -/
def LexMode.Passes (mode : LexMode) (text : List Char) (mode' : LexMode) : Prop :=
  ∀ rest, mode.tokensFrom (text ++ rest) = mode'.tokensFrom rest

namespace LexMode

variable {mode mode' mode'' : LexMode} {text text' : List Char}

theorem passes_nil (mode : LexMode) : mode.Passes [] mode := fun _ => rfl

theorem Passes.append (h : mode.Passes text mode') (h' : mode'.Passes text' mode'') :
    mode.Passes (text ++ text') mode'' := by
  intro rest
  rw [List.append_assoc, h, h']

theorem Passes.cons {c : Char} (hc : mode.step c = (mode', [])) (h : mode'.Passes text mode'') :
    mode.Passes (c :: text) mode'' := by
  intro rest
  rw [List.cons_append, tokensFrom, hc, List.nil_append, h]

end LexMode

/-! ### Strings -/

/-- The text between the quotes of a string, and what it writes. -/
inductive Writes : List Char → List TextUnit → Prop
  /-- Nothing. -/
  | nil : Writes [] []
  /-- A character that stands for itself. -/
  | char {c : Char} {text : List Char} {units : List TextUnit} (hquote : c ≠ '"')
      (hslash : c ≠ '\\') (hcontrol : 0x20 ≤ c.toNat) (h : Writes text units) :
      Writes (c :: text) (.char c :: units)
  /-- An escape of one letter. -/
  | escape {letter c : Char} {text : List Char} {units : List TextUnit}
      (hletter : unescape? letter = some c) (h : Writes text units) :
      Writes ('\\' :: letter :: text) (.char c :: units)
  /-- An escape with four hexadecimal digits. -/
  | code {a b c d : Char} {w x y z : Nat} {text : List Char} {units : List TextUnit}
      (ha : hexValue? a = some w) (hb : hexValue? b = some x) (hc : hexValue? c = some y)
      (hd : hexValue? d = some z) (h : Writes text units) :
      Writes ('\\' :: 'u' :: a :: b :: c :: d :: text)
        (.code (0x1000 * w + 0x100 * x + 0x10 * y + z) :: units)

/-- The characters that code units stand for. -/
inductive StandFor : List TextUnit → List Char → Prop
  /-- None for none. -/
  | nil : StandFor [] []
  /-- A character stands for itself. -/
  | char {c : Char} {units : List TextUnit} {chars : List Char} (h : StandFor units chars) :
      StandFor (.char c :: units) (c :: chars)
  /-- A number that is no half of a pair stands for its character. -/
  | code {unit : Nat} {units : List TextUnit} {chars : List Char}
      (hunit : unit < 0xD800 ∨ 0xDFFF < unit) (h : StandFor units chars) :
      StandFor (.code unit :: units) (Char.ofNat unit :: chars)
  /-- The two halves of a pair stand for one character. -/
  | pair {high low : Nat} {units : List TextUnit} {chars : List Char}
      (hhigh : 0xD800 ≤ high ∧ high ≤ 0xDBFF) (hlow : 0xDC00 ≤ low ∧ low ≤ 0xDFFF)
      (h : StandFor units chars) :
      StandFor (.code high :: .code low :: units)
        (Char.ofNat (0x10000 + (high - 0xD800) * 0x400 + (low - 0xDC00)) :: chars)

/-- A string, whatever its escapes stand for. -/
inductive IsString : List Char → Prop
  /-- What is written stands between quotes. -/
  | quoted {body : List Char} {units : List TextUnit} (h : Writes body units) :
      IsString ('"' :: (body ++ ['"']))

/-- A string with this value. -/
inductive IsStringOf : List Char → String → Prop
  /-- What is written stands for the characters of the value. -/
  | quoted {body chars : List Char} {units : List TextUnit} (h : Writes body units)
      (hchars : StandFor units chars) : IsStringOf ('"' :: (body ++ ['"'])) (String.ofList chars)

namespace LexMode

theorem passes_code {a b c d : Char} {w x y z : Nat} (units : List TextUnit)
    (ha : hexValue? a = some w) (hb : hexValue? b = some x) (hc : hexValue? c = some y)
    (hd : hexValue? d = some z) :
    (text units).Passes ['\\', 'u', a, b, c, d]
      (text (.code (0x1000 * w + 0x100 * x + 0x10 * y + z) :: units)) := by
  have hvalue : 16 * (16 * (16 * w + x) + y) + z = 0x1000 * w + 0x100 * x + 0x10 * y + z := by
    omega
  intro rest
  simp [tokensFrom, step, ha, hb, hc, hd, hvalue]

/-- What is written in a string is put in front of the units so far, which
    stand in reverse. -/
theorem passes_writes {body : List Char} {units : List TextUnit} (h : Writes body units)
    (before : List TextUnit) : (text before).Passes body (text (units.reverse ++ before)) := by
  induction h generalizing before with
  | nil => exact passes_nil _
  | char hquote hslash hcontrol _ ih =>
    rw [List.reverse_cons, List.append_assoc]
    refine .cons ?_ (ih _)
    simp only [step, if_neg hquote, if_neg hslash, if_neg (Nat.not_lt.mpr hcontrol),
      List.singleton_append]
  | @escape letter _ _ _ hletter _ ih =>
    rw [List.reverse_cons, List.append_assoc]
    -- no escape of one letter starts like one with four digits
    have hu : letter ≠ 'u' := by
      rintro rfl
      cases hletter
    refine .cons rfl (.cons ?_ (ih _))
    simp only [step, if_neg hu, hletter, List.singleton_append]
  | code ha hb hc hd _ ih =>
    rw [List.reverse_cons, List.append_assoc]
    exact (passes_code before ha hb hc hd).append (ih _)

end LexMode

theorem lexes_quoted {body : List Char} {units : List TextUnit} (h : Writes body units) :
    Lexes ('"' :: (body ++ ['"'])) [.text ((TextUnit.decode units).map String.ofList)] := by
  intro rest _
  have hopen : LexMode.between.Passes ('"' :: body) (.text units.reverse) := by
    have hbody := LexMode.passes_writes h []
    rw [List.append_nil] at hbody
    exact .cons rfl hbody
  have htext : '"' :: (body ++ ['"']) ++ rest = '"' :: body ++ '"' :: rest := by simp
  rw [htext, hopen, LexMode.tokensFrom]
  simp [LexMode.step, LexMode.textToken]

theorem IsString.exists_lexes {text : List Char} (h : IsString text) :
    ∃ value, Lexes text [.text value] := by
  obtain ⟨h⟩ := h
  exact ⟨_, lexes_quoted h⟩

/-- A unit that is no half of a pair stands for itself, whatever follows it. -/
theorem TextUnit.decode_code {unit : Nat} (h : unit < 0xD800 ∨ 0xDFFF < unit)
    (units : List TextUnit) :
    decode (.code unit :: units) = (decode units).map (Char.ofNat unit :: ·) := by
  have hhigh : isHighHalf unit = false := by simp [isHighHalf]; omega
  have hlow : isLowHalf unit = false := by simp [isLowHalf]; omega
  cases units with
  | nil => simp [decode, hhigh, hlow]
  | cons u units => cases u <;> simp [decode, hhigh, hlow]

theorem StandFor.decode_eq {units : List TextUnit} {chars : List Char}
    (h : StandFor units chars) : TextUnit.decode units = some chars := by
  induction h with
  | nil => rfl
  | char _ ih => rw [TextUnit.decode, ih, Option.map_some]
  | code hunit _ ih => rw [TextUnit.decode_code hunit, ih, Option.map_some]
  | pair hhigh hlow _ ih =>
    simp [TextUnit.decode, TextUnit.isHighHalf, TextUnit.isLowHalf, hhigh, hlow, ih,
      TextUnit.joinHalves]

theorem IsStringOf.lexes {text : List Char} {s : String} (h : IsStringOf text s) :
    Lexes text [.text (some s)] := by
  obtain ⟨hbody, hchars⟩ := h
  have hlexes := lexes_quoted hbody
  rwa [hchars.decode_eq] at hlexes

theorem IsStringOf.isString {text : List Char} {s : String} (h : IsStringOf text s) :
    IsString text := by
  obtain ⟨hbody, -⟩ := h
  exact .quoted hbody

/-! ### Written strings -/

/-- What a character is written as. -/
def TextUnit.ofChar (c : Char) : TextUnit :=
  if c.toNat < 0x20 ∧ c ∉ ['\x08', '\x0c', '\n', '\r', '\t'] then .code c.toNat else .char c

theorem hexValue?_digitChar : ∀ d < 16, hexValue? (Nat.digitChar d) = some d := by
  decide

theorem writes_escapeChar (c : Char) {text : List Char} {units : List TextUnit}
    (h : Writes text units) : Writes (escapeChar c ++ text) (.ofChar c :: units) := by
  by_cases hshort : c ∈ ['"', '\\', '\x08', '\x0c', '\n', '\r', '\t']
  · simp only [List.mem_cons, List.not_mem_nil, or_false] at hshort
    rcases hshort with rfl | rfl | rfl | rfl | rfl | rfl | rfl <;> exact .escape rfl h
  · simp only [List.mem_cons, List.not_mem_nil, or_false, not_or] at hshort
    obtain ⟨hquote, hslash, hb, hf, hn, hr, ht⟩ := hshort
    by_cases hcontrol : c.toNat < 0x20
    · have hvalue : 0x1000 * 0 + 0x100 * 0 + 0x10 * (c.toNat / 16) + c.toNat % 16 = c.toNat := by
        omega
      have hzero : hexValue? '0' = some 0 := by decide
      have hcode := Writes.code hzero hzero (hexValue?_digitChar (c.toNat / 16) (by omega))
        (hexValue?_digitChar (c.toNat % 16) (by omega)) h
      rw [hvalue] at hcode
      simpa [escapeChar, TextUnit.ofChar, hcontrol, hquote, hslash, hb, hf, hn, hr, ht] using hcode
    · have hchar := Writes.char hquote hslash (Nat.not_lt.mp hcontrol) h
      simpa [escapeChar, TextUnit.ofChar, hcontrol, hquote, hslash, hb, hf, hn, hr, ht] using hchar

theorem standFor_map_ofChar (chars : List Char) : StandFor (chars.map .ofChar) chars := by
  induction chars with
  | nil => exact .nil
  | cons c chars ih =>
    rw [List.map_cons, TextUnit.ofChar]
    split
    · next hcontrol =>
      have hcode : StandFor (.code c.toNat :: chars.map .ofChar) (Char.ofNat c.toNat :: chars) :=
        .code (.inl (by omega)) ih
      rwa [Char.ofNat_toNat] at hcode
    · exact .char ih

/-- What is written for a string is such a string. -/
theorem isStringOf_quote (s : String) : IsStringOf (quote s) s := by
  have hbody : ∀ chars : List Char,
      Writes (chars.flatMap escapeChar) (chars.map .ofChar) := by
    intro chars
    induction chars with
    | nil => exact .nil
    | cons c chars ih => exact writes_escapeChar c ih
  have hquoted := IsStringOf.quoted (hbody s.toList) (standFor_map_ofChar s.toList)
  rwa [String.ofList_toList] at hquoted

theorem lexes_quote (s : String) : Lexes (quote s) [.text (some s)] := (isStringOf_quote s).lexes

/-! ### Whole numbers -/

theorem digitValue?_digitChar : ∀ d < 10, digitValue? (Nat.digitChar d) = some d := by
  decide

theorem start_digitChar : ∀ d < 10, d ≠ 0 →
    LexMode.start (Nat.digitChar d) = (.numeral { whole := [d] } .whole, []) := by
  decide

theorem absorb_append {m k d : Nat} {ds : List Nat} (h : Numeral.absorb m ds = (k, 0))
    (hd : 10 * k + d < Numeral.naturalBound) :
    Numeral.absorb m (ds ++ [d]) = (10 * k + d, 0) := by
  induction ds generalizing m with
  | nil =>
    obtain ⟨rfl, _⟩ := Prod.mk.inj h
    simp [Numeral.absorb, hd]
  | cons e ds ih =>
    rw [Numeral.absorb] at h
    split at h
    · next he =>
      rw [List.cons_append, Numeral.absorb, if_pos he]
      exact ih h
    · cases h

/-- The digits of a number that is not zero are the whole part of a numeral
    with that value. -/
theorem exists_whole {n : Nat} (hpos : 0 < n) (h : n < Numeral.naturalBound) :
    ∃ whole, Numeral.absorb 0 whole.reverse = (n, 0) ∧
      LexMode.between.Passes (Nat.toDigits 10 n) (.numeral { whole := whole } .whole) := by
  induction n using Nat.strongRecOn with
  | ind n ih =>
    by_cases hsmall : n < 10
    · refine ⟨[n], by simp [Numeral.absorb, h], ?_⟩
      rw [Nat.toDigits_of_lt_base hsmall]
      exact .cons (start_digitChar n hsmall (by omega)) (LexMode.passes_nil _)
    · -- the last digit is read behind the digits of the tenth part
      obtain ⟨whole, habsorb, hpass⟩ := ih (n / 10) (by omega) (by omega) (by omega)
      have hvalue : 10 * (n / 10) + n % 10 = n := Nat.div_add_mod n 10
      have hdigit := digitValue?_digitChar (n % 10) (by omega)
      refine ⟨n % 10 :: whole, ?_, ?_⟩
      · rw [List.reverse_cons, absorb_append habsorb (by omega), hvalue]
      · rw [Nat.toDigits_of_base_le (by omega) (by omega)]
        refine hpass.append (.cons ?_ (LexMode.passes_nil _))
        simp only [LexMode.step, Numeral.extend, hdigit]

/-- A numeral that may end does so where no number could go on. -/
theorem tokensFrom_numeral {n : Numeral} {part : NumeralPart} (hpart : part.isComplete = true)
    {rest : List Char} (hrest : EndsNumber rest) :
    (LexMode.numeral n part).tokensFrom rest =
      .number n.value :: LexMode.between.tokensFrom rest := by
  cases rest with
  | nil => simp [LexMode.tokensFrom, LexMode.finish, hpart]
  | cons c rest =>
    obtain ⟨hdigit, hpoint, he, hE⟩ := hrest c rfl
    have hdone : n.extend part c = .done := by
      have hvalue : digitValue? c = none := by simp [digitValue?, hdigit]
      rw [Numeral.extend, hvalue]
      cases part <;> simp [NumeralPart.isComplete] at hpart <;>
        simp [Numeral.leave, hpoint, he, hE, NumeralPart.isComplete]
    rw [LexMode.tokensFrom, LexMode.tokensFrom, LexMode.step, LexMode.step, hdone]
    rfl

theorem lexes_toDigits {n : Nat} (h : n < Numeral.naturalBound) :
    Lexes (Nat.toDigits 10 n) [.number (some (.natural n))] := by
  intro rest hrest
  by_cases hzero : n = 0
  · subst hzero
    have hread : LexMode.between.tokensFrom (Nat.toDigits 10 0 ++ rest) =
        (LexMode.numeral { whole := [0] } .zero).tokensFrom rest := rfl
    rw [hread, tokensFrom_numeral rfl hrest]
    rfl
  · obtain ⟨whole, habsorb, hpass⟩ := exists_whole (by omega) h
    rw [hpass, tokensFrom_numeral rfl hrest]
    simp [Numeral.value, habsorb]

theorem lexes_natural {n : Nat} (h : n < Numeral.naturalBound) :
    Lexes (Number.natural n).render.toList [.number (some (.natural n))] := by
  rw [Number.render, Nat.toString_eq_ofList_toDigits, String.toList_ofList]
  exact lexes_toDigits h

/-! ### Arrays and objects -/

theorem lexes_intercalate {parts : List (List Char)} {tss : List (List Token)}
    (h : List.Forall₂ Lexes parts tss) (hne : parts ≠ []) :
    Lexes ([','].intercalate parts) ([Token.comma].intercalate tss) := by
  induction h with
  | nil => exact absurd rfl hne
  | @cons part ts parts tss hpart hparts ih =>
    cases hparts with
    | nil => simpa using hpart
    | cons =>
      intro rest hrest
      rw [List.intercalate_cons_cons, List.intercalate_cons_cons]
      simp only [List.append_assoc, List.cons_append, List.nil_append]
      rw [hpart _ (endsNumber_cons (by decide) _), ← ih (by simp) rest hrest]
      rfl

/-- A character that is a token by itself. -/
theorem tokensFrom_token {c : Char} {t : Token} (h : LexMode.start c = (.between, [t]))
    (rest : List Char) :
    LexMode.between.tokensFrom (c :: rest) = t :: LexMode.between.tokensFrom rest := by
  rw [LexMode.tokensFrom, LexMode.step, h]
  rfl

/-- A key and a value with a colon between them. -/
theorem lexes_keyed {key value : List Char} {k : Option String} {ts : List Token}
    (hkey : Lexes key [.text k]) (h : Lexes value ts) :
    Lexes (key ++ ':' :: value) (.text k :: .colon :: ts) := by
  have hcolon : LexMode.start ':' = (.between, [.colon]) := rfl
  intro rest hrest
  rw [List.append_assoc, List.cons_append, hkey _ (endsNumber_cons (by decide) _),
    tokensFrom_token hcolon, h rest hrest]
  rfl

/-- What is enclosed in two characters that are tokens, with commas between its
    parts and blanks around them. -/
theorem lexes_enclose {first final : Char} {opening closing : Token} {gap last : List Char}
    {parts : List (List Char)} {tss : List (List Token)}
    (hopening : LexMode.start first = (.between, [opening]))
    (hclosing : LexMode.start final = (.between, [closing]))
    (hfinal : final.isDigit = false ∧ final ≠ '.' ∧ final ≠ 'e' ∧ final ≠ 'E')
    (hgap : ∀ c ∈ gap, c.isWhitespace = true) (hlast : ∀ c ∈ last, c.isWhitespace = true)
    (h : List.Forall₂ Lexes parts tss) :
    Lexes (enclose first final gap last parts)
      (opening :: [Token.comma].intercalate tss ++ [closing]) := by
  intro rest hrest
  cases h with
  | nil =>
    show LexMode.between.tokensFrom (first :: final :: rest) = _
    rw [tokensFrom_token hopening, tokensFrom_token hclosing]
    rfl
  | @cons part ts parts tss hpart hparts =>
    have hspaced : List.Forall₂ Lexes ((part :: parts).map (gap ++ ·)) (ts :: tss) := by
      rw [List.forall₂_map_left_iff]
      exact (List.Forall₂.cons hpart hparts).imp fun _ _ hlexes => hlexes.behind_blanks hgap
    have hinner := lexes_intercalate hspaced (by simp) (last ++ final :: rest)
      (endsNumber_blanks hlast (endsNumber_cons hfinal rest))
    have htext : enclose first final gap last (part :: parts) ++ rest =
        first :: ([','].intercalate ((part :: parts).map (gap ++ ·)) ++
          (last ++ final :: rest)) := by
      simp [enclose]
    rw [htext, tokensFrom_token hopening, hinner, tokensFrom_blanks hlast,
      tokensFrom_token hclosing]
    simp

end SuiteScript.Json
