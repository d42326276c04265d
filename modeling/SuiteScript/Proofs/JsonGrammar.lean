import SuiteScript.Proofs.JsonReadings

/-! # The grammar of JSON

    What JSON text is, said without the machine that cuts it into tokens:
    numbers by their parts, strings by what they write (`IsString`), arrays
    and objects by their parts with blanks around them (`IsValue`).  A number
    may be out of range and a string may hold half a surrogate pair.

    The machine agrees.  Every such text is cut into the tokens of a reading
    without faults (`IsValue.exists_isReadAs`), so whoever skips a value stops
    right behind its last character, however deeply it is nested. -/

namespace SuiteScript.Json

/-! ### Numbers -/

/-- Decimal digits, at least one. -/
structure IsDigits (text : List Char) : Prop where
  /-- There is one. -/
  ne_nil : text ≠ []
  /-- There is nothing else. -/
  digits : ∀ c ∈ text, c.isDigit = true

/-- Digits in front of a point.  A leading zero stands alone. -/
inductive IsWhole : List Char → Prop
  /-- Nothing but a zero. -/
  | zero : IsWhole ['0']
  /-- Digits that start with another one. -/
  | digits {first : Char} {more : List Char} (hfirst : first ≠ '0')
      (h : IsDigits (first :: more)) : IsWhole (first :: more)

/-- A point and the digits behind it, if there are any. -/
inductive IsFraction : List Char → Prop
  /-- No point. -/
  | absent : IsFraction []
  /-- A point and digits. -/
  | digits {text : List Char} (h : IsDigits text) : IsFraction ('.' :: text)

/-- An exponent, if there is one. -/
inductive IsExponent : List Char → Prop
  /-- No exponent. -/
  | absent : IsExponent []
  /-- A letter, any sign or none, and digits. -/
  | digits {mark : Char} {sign text : List Char} (hmark : mark = 'e' ∨ mark = 'E')
      (hsign : sign = [] ∨ sign = ['+'] ∨ sign = ['-']) (h : IsDigits text) :
      IsExponent (mark :: (sign ++ text))

/-- A number of any size. -/
inductive IsNumeral : List Char → Prop
  /-- Its parts, one behind the other. -/
  | parts {sign whole fraction exponent : List Char} (hsign : sign = [] ∨ sign = ['-'])
      (hwhole : IsWhole whole) (hfraction : IsFraction fraction)
      (hexponent : IsExponent exponent) :
      IsNumeral (sign ++ (whole ++ (fraction ++ exponent)))

/-! ### Values -/

/-- Spaces, tabs and line ends. -/
structure Blanks where
  /-- They, in order. -/
  chars : List Char
  /-- There is nothing else. -/
  blank : ∀ c ∈ chars, c = ' ' ∨ c = '\t' ∨ c = '\r' ∨ c = '\n'

/-- A text with blanks around it. -/
structure Padded where
  /-- The blanks in front. -/
  before : Blanks
  /-- The text. -/
  text : List Char
  /-- The blanks behind it. -/
  after : Blanks

/-- The text with its blanks. -/
def Padded.written (p : Padded) : List Char := p.before.chars ++ (p.text ++ p.after.chars)

/-- A member of an object. -/
structure MemberText where
  /-- The key. -/
  key : Padded
  /-- The value. -/
  value : Padded

/-- The key and the value, with a colon between them. -/
def MemberText.written (m : MemberText) : List Char := m.key.written ++ ':' :: m.value.written

/-- Parts between brackets, with commas between them.  Where there is none,
    there may be a gap. -/
def bracketed (first final : Char) (gap : Blanks) : List (List Char) → List Char
  | [] => first :: (gap.chars ++ [final])
  | parts => first :: ([','].intercalate parts ++ [final])

/-- An array. -/
def arrayText (gap : Blanks) (items : List Padded) : List Char :=
  bracketed '[' ']' gap (items.map Padded.written)

/-- An object. -/
def objectText (gap : Blanks) (members : List MemberText) : List Char :=
  bracketed '\x7b' '\x7d' gap (members.map MemberText.written)

/-- A lexically valid value. -/
inductive IsValue : List Char → Prop
  /-- The key word `null`. -/
  | null : IsValue "null".toList
  /-- The key words of the two truth values. -/
  | bool (b : Bool) : IsValue (if b then "true".toList else "false".toList)
  /-- A number. -/
  | number {text : List Char} (h : IsNumeral text) : IsValue text
  /-- A string. -/
  | string {text : List Char} (h : IsString text) : IsValue text
  /-- An array of values. -/
  | array (gap : Blanks) {items : List Padded} (h : ∀ p ∈ items, IsValue p.text) :
      IsValue (arrayText gap items)
  /-- An object whose members have values. -/
  | object (gap : Blanks) {members : List MemberText} (hkeys : ∀ m ∈ members, IsString m.key.text)
      (h : ∀ m ∈ members, IsValue m.value.text) : IsValue (objectText gap members)

/-! ### Numbers are passed -/

namespace LexMode

theorem exists_eq_digitChar {c : Char} (h : c.isDigit = true) :
    ∃ d < 10, c = Nat.digitChar d := by
  rw [Char.isDigit, Bool.and_eq_true, decide_eq_true_eq, decide_eq_true_eq] at h
  have hlow : 48 ≤ c.toNat := UInt32.le_iff_toNat_le.mp h.1
  have hhigh : c.toNat ≤ 57 := UInt32.le_iff_toNat_le.mp h.2
  refine ⟨c.toNat - 48, by omega, ?_⟩
  have hall : ∀ n < 10, Char.ofNat (n + 48) = Nat.digitChar n := by decide
  rw [← hall _ (by omega), Nat.sub_add_cancel hlow, Char.ofNat_toNat]

theorem exists_digitValue? {c : Char} (h : c.isDigit = true) : ∃ d, digitValue? c = some d :=
  ⟨_, if_pos h⟩

/-- More digits change the numeral and not the part that is read. -/
theorem exists_passes_digits {part : NumeralPart}
    (hpart : part = .whole ∨ part = .fraction ∨ part = .exponent) {ds : List Char}
    (h : ∀ c ∈ ds, c.isDigit = true) (n : Numeral) :
    ∃ n', (numeral n part).Passes ds (numeral n' part) := by
  induction ds generalizing n with
  | nil => exact ⟨n, passes_nil _⟩
  | cons c ds ih =>
    obtain ⟨hc, hds⟩ := List.forall_mem_cons.mp h
    obtain ⟨d, hd⟩ := exists_digitValue? hc
    have hstep : ∃ n', (numeral n part).step c = (numeral n' part, []) := by
      rcases hpart with rfl | rfl | rfl <;> exact ⟨_, by simp [step, Numeral.extend, hd]; rfl⟩
    obtain ⟨n', hn'⟩ := hstep
    obtain ⟨n'', hn''⟩ := ih hds n'
    exact ⟨n'', .cons hn' hn''⟩

/-- So do the digits behind a point, a letter or a sign, except for the first. -/
theorem exists_passes_isDigits {part next : NumeralPart}
    (hnext : next = .fraction ∨ next = .exponent)
    (hfirst : ∀ n c d, digitValue? c = some d →
      ∃ n', (numeral n part).step c = (numeral n' next, []))
    {ds : List Char} (h : IsDigits ds) (n : Numeral) :
    ∃ n', (numeral n part).Passes ds (numeral n' next) := by
  obtain ⟨c, more, rfl⟩ := List.exists_cons_of_ne_nil h.ne_nil
  obtain ⟨hc, hmore⟩ := List.forall_mem_cons.mp h.digits
  obtain ⟨d, hd⟩ := exists_digitValue? hc
  obtain ⟨n', hn'⟩ := hfirst n c d hd
  obtain ⟨n'', hn''⟩ := exists_passes_digits (.inr hnext) hmore n'
  exact ⟨n'', .cons hn' hn''⟩

/-- The first digit of a number. -/
theorem exists_step_first {sign : List Char} (hsign : sign = [] ∨ sign = ['-']) :
    ∃ mode, between.Passes sign mode ∧
      (∃ n, mode.step '0' = (numeral n .zero, [])) ∧
      ∀ c, c.isDigit = true → c ≠ '0' → ∃ n, mode.step c = (numeral n .whole, []) := by
  have hdigit : ∀ mode : LexMode, (∀ d < 10, d ≠ 0 →
      ∃ n, mode.step (Nat.digitChar d) = (numeral n .whole, [])) →
      ∀ c, c.isDigit = true → c ≠ '0' → ∃ n, mode.step c = (numeral n .whole, []) := by
    intro mode hmode c hc hne
    obtain ⟨d, hd, rfl⟩ := exists_eq_digitChar hc
    refine hmode d hd ?_
    rintro rfl
    exact hne rfl
  rcases hsign with rfl | rfl
  · exact ⟨between, passes_nil _, ⟨_, rfl⟩,
      hdigit _ fun d hd hne => ⟨_, start_digitChar d hd hne⟩⟩
  · refine ⟨numeral { isNegative := true } .sign, .cons rfl (passes_nil _), ⟨_, rfl⟩,
      hdigit _ fun d hd hne => ⟨{ isNegative := true, whole := [d] }, ?_⟩⟩
    simp only [step, Numeral.extend, digitValue?_digitChar d hd, Numeral.start, if_neg hne]

theorem exists_passes_whole {sign whole : List Char} (hsign : sign = [] ∨ sign = ['-'])
    (h : IsWhole whole) :
    ∃ n part, (part = .zero ∨ part = .whole) ∧
      between.Passes (sign ++ whole) (numeral n part) := by
  obtain ⟨mode, hpass, ⟨n, hzero⟩, hother⟩ := exists_step_first hsign
  cases h with
  | zero => exact ⟨n, .zero, .inl rfl, hpass.append (.cons hzero (passes_nil _))⟩
  | digits hfirst h =>
    obtain ⟨hc, hmore⟩ := List.forall_mem_cons.mp h.digits
    obtain ⟨n, hn⟩ := hother _ hc hfirst
    obtain ⟨n', hn'⟩ := exists_passes_digits (.inl rfl) hmore n
    exact ⟨n', .whole, .inr rfl, hpass.append (.cons hn hn')⟩

theorem exists_passes_fraction {n : Numeral} {part : NumeralPart} {fraction : List Char}
    (hpart : part = .zero ∨ part = .whole) (h : IsFraction fraction) :
    ∃ n' part', (part' = .zero ∨ part' = .whole ∨ part' = .fraction) ∧
      (numeral n part).Passes fraction (numeral n' part') := by
  cases h with
  | absent => exact ⟨n, part, hpart.imp_right .inl, passes_nil _⟩
  | digits h =>
    have hpoint : (numeral n part).step '.' = (numeral n .point, []) := by
      rcases hpart with rfl | rfl <;> rfl
    have hfirst : ∀ n c d, digitValue? c = some d →
        ∃ n', (numeral n .point).step c = (numeral n' .fraction, []) :=
      fun n c d hd => ⟨_, by simp [step, Numeral.extend, hd]; rfl⟩
    obtain ⟨n', hn'⟩ := exists_passes_isDigits (.inl rfl) hfirst h n
    exact ⟨n', .fraction, .inr (.inr rfl), .cons hpoint hn'⟩

theorem exists_passes_exponent {n : Numeral} {part : NumeralPart} {exponent : List Char}
    (hpart : part = .zero ∨ part = .whole ∨ part = .fraction) (h : IsExponent exponent) :
    ∃ n' part', part'.isComplete = true ∧ (numeral n part).Passes exponent (numeral n' part') := by
  cases h with
  | absent =>
    refine ⟨n, part, ?_, passes_nil _⟩
    rcases hpart with rfl | rfl | rfl <;> rfl
  | @digits _ sign _ hmark hsign h =>
    have hletter : ∀ mark, mark = 'e' ∨ mark = 'E' →
        (numeral n part).step mark = (numeral n .mark, []) := by
      rintro mark (rfl | rfl) <;> rcases hpart with rfl | rfl | rfl <;> rfl
    have hdigit : ∀ start : NumeralPart, start = .mark ∨ start = .exponentSign →
        ∀ n c d, digitValue? c = some d →
          ∃ n', (numeral n start).step c = (numeral n' .exponent, []) := by
      rintro start (rfl | rfl) n c d hd <;> exact ⟨_, by simp [step, Numeral.extend, hd]; rfl⟩
    have hsigned : ∃ n' start, (start = NumeralPart.mark ∨ start = .exponentSign) ∧
        (numeral n .mark).Passes sign (numeral n' start) := by
      rcases hsign with rfl | rfl | rfl
      · exact ⟨n, .mark, .inl rfl, passes_nil _⟩
      · exact ⟨n, .exponentSign, .inr rfl, .cons rfl (passes_nil _)⟩
      · exact ⟨_, .exponentSign, .inr rfl, .cons rfl (passes_nil _)⟩
    obtain ⟨n', start, hfrom, hpass⟩ := hsigned
    obtain ⟨n'', hn''⟩ := exists_passes_isDigits (.inr rfl) (hdigit start hfrom) h n'
    exact ⟨n'', .exponent, rfl, .cons (hletter _ hmark) (hpass.append hn'')⟩

end LexMode

/-- A number is one token, in range or not. -/
theorem IsNumeral.exists_lexes {text : List Char} (h : IsNumeral text) :
    ∃ value, Lexes text [.number value] := by
  -- behind each part the machine is still in the numeral; the text behind the
  -- last one ends it
  obtain ⟨hsign, hwhole, hfraction, hexponent⟩ := h
  obtain ⟨n, part, hpart, hpass⟩ := LexMode.exists_passes_whole hsign hwhole
  obtain ⟨n', part', hpart', hpass'⟩ := LexMode.exists_passes_fraction hpart hfraction
  obtain ⟨n'', part'', hcomplete, hpass''⟩ := LexMode.exists_passes_exponent hpart' hexponent
  refine ⟨n''.value, fun rest hrest => ?_⟩
  rw [← List.append_assoc _ _ (_ ++ _), hpass.append (hpass'.append hpass'') rest,
    tokensFrom_numeral hcomplete hrest]
  rfl

/-! ### Values are read -/

/-- The text is cut into the tokens of the reading, which has no fault. -/
structure IsReadAs (text : List Char) (r : Reading) : Prop where
  /-- The reading has no fault. -/
  isIntact : r.isIntact = true
  /-- Its tokens are those of the text. -/
  lexes : Lexes text r.tokens

/-- The key and the value of the member are read as those of the other. -/
structure MemberText.IsReadAs (m : MemberText) (member : Reading.Member) : Prop where
  /-- The key is one token. -/
  key : Lexes m.key.text [.text member.1]
  /-- The value is read. -/
  value : Json.IsReadAs m.value.text member.2

theorem Blanks.isWhitespace (gap : Blanks) : ∀ c ∈ gap.chars, c.isWhitespace = true :=
  fun c hc => isWhitespace_iff.mpr (gap.blank c hc)

theorem Padded.lexes {p : Padded} {ts : List Token} (h : Lexes p.text ts) :
    Lexes p.written ts := by
  have hbehind : Lexes (p.text ++ p.after.chars) ts := by
    intro rest hrest
    rw [List.append_assoc, h _ (endsNumber_blanks p.after.isWhitespace hrest),
      tokensFrom_blanks p.after.isWhitespace]
  exact hbehind.behind_blanks p.before.isWhitespace

theorem MemberText.IsReadAs.lexes {m : MemberText} {member : Reading.Member}
    (h : m.IsReadAs member) : Lexes m.written (.text member.1 :: .colon :: member.2.tokens) :=
  lexes_keyed (Padded.lexes h.key) (Padded.lexes h.value.lexes)

theorem lexes_bracketed {first final : Char} {opening closing : Token} {gap : Blanks}
    {parts : List (List Char)} {tss : List (List Token)}
    (hopening : LexMode.start first = (.between, [opening]))
    (hclosing : LexMode.start final = (.between, [closing]))
    (hfinal : final.isDigit = false ∧ final ≠ '.' ∧ final ≠ 'e' ∧ final ≠ 'E')
    (h : List.Forall₂ Lexes parts tss) :
    Lexes (bracketed first final gap parts)
      (opening :: [Token.comma].intercalate tss ++ [closing]) := by
  cases h with
  | nil =>
    -- only here may blanks stand between the brackets that belong to no part
    intro rest hrest
    show LexMode.between.tokensFrom (first :: (gap.chars ++ [final]) ++ rest) = _
    rw [List.cons_append, tokensFrom_token hopening, List.append_assoc,
      tokensFrom_blanks gap.isWhitespace, List.singleton_append, tokensFrom_token hclosing]
    rfl
  | cons hpart hparts =>
    have hblank : ∀ c ∈ ([] : List Char), c.isWhitespace = true := List.forall_mem_nil _
    have henclosed := lexes_enclose hopening hclosing hfinal hblank hblank (.cons hpart hparts)
    simpa [enclose, bracketed] using henclosed

theorem Padded.isReadAs {p : Padded} {r : Reading} (h : Json.IsReadAs p.text r) :
    Json.IsReadAs p.written r :=
  ⟨h.isIntact, Padded.lexes h.lexes⟩

theorem isReadAs_arrayText {gap : Blanks} {items : List Padded} {rs : List Reading}
    (h : List.Forall₂ (fun p r => IsReadAs p.text r) items rs) :
    IsReadAs (arrayText gap items) (.array rs true) := by
  constructor
  · rw [Reading.isIntact, Bool.true_and, Reading.areIntact_iff]
    intro r hr
    obtain ⟨p, -, hp⟩ := exists_of_forall₂ h.flip hr
    exact hp.isIntact
  · refine lexes_bracketed rfl rfl (by decide) ?_
    induction h with
    | nil => exact .nil
    | cons hr _ ih => exact .cons (Padded.lexes hr.lexes) ih

theorem isReadAs_objectText {gap : Blanks} {members : List MemberText} {rms : List Reading.Member}
    (h : List.Forall₂ MemberText.IsReadAs members rms) :
    IsReadAs (objectText gap members) (.object rms true) := by
  constructor
  · rw [Reading.isIntact, Bool.true_and, Reading.areMembersIntact_iff]
    intro rm hrm
    obtain ⟨m, -, hm⟩ := exists_of_forall₂ h.flip hrm
    exact hm.value.isIntact
  · refine lexes_bracketed rfl rfl (by decide) ?_
    induction h with
    | nil => exact .nil
    | cons hm _ ih => exact .cons hm.lexes ih

/-- If each has a partner, there is a list of partners. -/
theorem exists_forall₂ {α β : Type} {R : α → β → Prop} {as : List α}
    (h : ∀ a ∈ as, ∃ b, R a b) : ∃ bs, List.Forall₂ R as bs := by
  induction as with
  | nil => exact ⟨[], .nil⟩
  | cons a as ih =>
    obtain ⟨⟨b, hb⟩, has⟩ := List.forall_mem_cons.mp h
    obtain ⟨bs, hbs⟩ := ih has
    exact ⟨b :: bs, .cons hb hbs⟩

/-- If each pair has a partner, there is a list of partners of both. -/
theorem exists_forall₂_both {α β γ : Type} {R : α → β → Prop} {S : β → γ → Prop}
    {T : α → γ → Prop} {as : List α} {bs : List β} (h : List.Forall₂ R as bs)
    (hpartner : ∀ a b, R a b → ∃ c, S b c ∧ T a c) :
    ∃ cs, List.Forall₂ S bs cs ∧ List.Forall₂ T as cs := by
  induction h with
  | nil => exact ⟨[], .nil, .nil⟩
  | cons hab _ ih =>
    obtain ⟨c, hS, hT⟩ := hpartner _ _ hab
    obtain ⟨cs, hSs, hTs⟩ := ih
    exact ⟨c :: cs, .cons hS hSs, .cons hT hTs⟩

theorem MemberText.exists_isReadAs {m : MemberText} (hkey : IsString m.key.text)
    (hvalue : ∃ r, Json.IsReadAs m.value.text r) : ∃ member, m.IsReadAs member := by
  obtain ⟨key, hlexes⟩ := hkey.exists_lexes
  obtain ⟨r, hr⟩ := hvalue
  exact ⟨(key, r), hlexes, hr⟩

/-- Every lexically valid value is read without a fault, up to its end. -/
theorem IsValue.exists_isReadAs {text : List Char} (h : IsValue text) : ∃ r, IsReadAs text r := by
  induction h with
  | null => exact ⟨.null, rfl, Value.lexes_null⟩
  | bool b => exact ⟨.bool b, rfl, Value.lexes_bool b⟩
  | number h =>
    obtain ⟨value, hlexes⟩ := h.exists_lexes
    exact ⟨.number value, rfl, hlexes⟩
  | string h =>
    obtain ⟨value, hlexes⟩ := h.exists_lexes
    exact ⟨.text value, rfl, hlexes⟩
  | array gap _ ih =>
    obtain ⟨rs, hrs⟩ := exists_forall₂ ih
    exact ⟨_, isReadAs_arrayText hrs⟩
  | object gap hkeys _ ih =>
    obtain ⟨rms, hrms⟩ := exists_forall₂ fun m hm =>
      MemberText.exists_isReadAs (hkeys m hm) (ih m hm)
    exact ⟨_, isReadAs_objectText hrms⟩

end SuiteScript.Json
