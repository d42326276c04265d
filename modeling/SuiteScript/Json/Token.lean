import SuiteScript.Json.Number

/-! # JSON tokens

    Text is cut into tokens by a machine that reads one character at a time.
    Where the text is lexically wrong it emits `invalid` and stops, so a
    reader of the tokens meets the first fault in its place.

    Two faults are left to the reader, because a value that is not used may
    have them: a number out of range, and an escape that is one half of a
    surrogate pair.  Such a token has no value. -/

namespace SuiteScript.Json

/-- A token, with its value if it has one. -/
inductive Token where
  /-- The bracket in front of an array. -/
  | openArray
  /-- The bracket behind an array. -/
  | closeArray
  /-- The brace in front of an object. -/
  | openObject
  /-- The brace behind an object. -/
  | closeObject
  /-- What stands between two elements or members. -/
  | comma
  /-- What stands between a key and its value. -/
  | colon
  /-- The key word `null`. -/
  | null
  /-- The key words of the two truth values. -/
  | bool (b : Bool)
  /-- A number; out of range without a value. -/
  | number (value : Option Number)
  /-- A string; without a value it has half a surrogate pair. -/
  | text (value : Option String)
  /-- The rest of the text is not lexically valid. -/
  | invalid
deriving DecidableEq, Repr

/-! ### Strings -/

/-- What stands for one code unit in a string: a character, or an escape
    with four hexadecimal digits. -/
inductive TextUnit where
  /-- A character, written as it is or after a backslash. -/
  | char (c : Char)
  /-- An escape by number. -/
  | code (unit : Nat)
deriving DecidableEq, Repr

namespace TextUnit

/-- Is `unit` the first half of a surrogate pair? -/
def isHighHalf (unit : Nat) : Bool := 0xD800 ≤ unit && unit ≤ 0xDBFF

/-- Is `unit` the second half of a surrogate pair? -/
def isLowHalf (unit : Nat) : Bool := 0xDC00 ≤ unit && unit ≤ 0xDFFF

/-- The character of a surrogate pair. -/
def joinHalves (high low : Nat) : Char :=
  Char.ofNat (0x10000 + (high - 0xD800) * 0x400 + (low - 0xDC00))

/-- The characters that units stand for, unless half a pair stands alone. -/
def decode : List TextUnit → Option (List Char)
  | [] => some []
  | .char c :: rest => (decode rest).map (c :: ·)
  | .code high :: .code low :: rest =>
    -- A first half counts only with a second half right behind it.
    if isHighHalf high then
      if isLowHalf low then (decode rest).map (joinHalves high low :: ·) else none
    else if isLowHalf high then none
    else (decode (.code low :: rest)).map (Char.ofNat high :: ·)
  | .code unit :: rest =>
    if isHighHalf unit || isLowHalf unit then none
    else (decode rest).map (Char.ofNat unit :: ·)

end TextUnit

/-- The character that a one-letter escape stands for. -/
def unescape? : Char → Option Char
  | '"' => some '"'
  | '\\' => some '\\'
  | '/' => some '/'
  | 'b' => some '\x08'
  | 'f' => some '\x0c'
  | 'n' => some '\n'
  | 'r' => some '\r'
  | 't' => some '\t'
  | _ => none

/-- The value of a hexadecimal digit of either case. -/
def hexValue? (c : Char) : Option Nat :=
  if c.isDigit then some (c.toNat - '0'.toNat)
  else if 'a' ≤ c ∧ c ≤ 'f' then some (c.toNat - 'a'.toNat + 10)
  else if 'A' ≤ c ∧ c ≤ 'F' then some (c.toNat - 'A'.toNat + 10)
  else none

/-! ### Numbers -/

/-- How far a numeral has been read. -/
inductive NumeralPart where
  /-- After the sign. -/
  | sign
  /-- After a leading zero, which no digit may follow. -/
  | zero
  /-- Among the digits in front of the point. -/
  | whole
  /-- After the point. -/
  | point
  /-- Among the digits after the point. -/
  | fraction
  /-- After the letter of the exponent. -/
  | mark
  /-- After the sign of the exponent. -/
  | exponentSign
  /-- Among the digits of the exponent. -/
  | exponent
deriving DecidableEq, Repr

/-- May the numeral end here? -/
def NumeralPart.isComplete : NumeralPart → Bool
  | zero | whole | fraction | exponent => true
  | sign | point | mark | exponentSign => false

/-- The value of a decimal digit. -/
def digitValue? (c : Char) : Option Nat :=
  if c.isDigit then some (c.toNat - '0'.toNat) else none

/-- What a character does to a numeral. -/
inductive NumeralStep where
  /-- It belongs to the numeral. -/
  | more (numeral : Numeral) (part : NumeralPart)
  /-- The numeral ends in front of it. -/
  | done
  /-- It cannot stand here. -/
  | wrong
deriving DecidableEq, Repr

namespace Numeral

/-- The first digit in front of the point. -/
def start (n : Numeral) (digit : Nat) : NumeralStep :=
  .more { n with whole := [digit] } (if digit = 0 then .zero else .whole)

/-- A character that no digit rule of `part` takes. -/
def leave (n : Numeral) (part : NumeralPart) (c : Char) : NumeralStep :=
  match part, c with
  | .zero, '.' | .whole, '.' => .more n .point
  | .zero, 'e' | .whole, 'e' | .fraction, 'e' => .more n .mark
  | .zero, 'E' | .whole, 'E' | .fraction, 'E' => .more n .mark
  | .mark, '+' => .more n .exponentSign
  | .mark, '-' => .more { n with isExponentNegative := true } .exponentSign
  | _, _ => if part.isComplete then .done else .wrong

/-- Reads one more character. -/
def extend (n : Numeral) (part : NumeralPart) (c : Char) : NumeralStep :=
  match digitValue? c with
  | none => n.leave part c
  | some d =>
    match part with
    | .sign => n.start d
    -- After a leading zero no digit may follow.
    | .zero => .wrong
    | .whole => .more { n with whole := d :: n.whole } .whole
    | .point | .fraction => .more { n with fraction := d :: n.fraction } .fraction
    | .mark | .exponentSign | .exponent =>
      .more { n with exponent := d :: n.exponent } .exponent

end Numeral

/-! ### The machine -/

/-- What the machine is in the middle of. -/
inductive LexMode where
  /-- Between tokens. -/
  | between
  /-- In a key word, of which `next` and `rest` are missing. -/
  | word (next : Char) (rest : List Char) (token : Token)
  /-- In a number. -/
  | numeral (numeral : Numeral) (part : NumeralPart)
  /-- In a string, whose units so far stand in reverse. -/
  | text (units : List TextUnit)
  /-- After a backslash in a string. -/
  | escape (units : List TextUnit)
  /-- In an escape by number, with some digits missing. -/
  | hex (units : List TextUnit) (value missing : Nat)
  /-- After a fault. -/
  | stuck
deriving DecidableEq, Repr

namespace LexMode

/-- The token of a string with the given units, in reverse. -/
def textToken (units : List TextUnit) : Token :=
  .text ((TextUnit.decode units.reverse).map String.ofList)

/-- Reads a character between tokens. -/
def start (c : Char) : LexMode × List Token :=
  match c with
  | ' ' | '\t' | '\n' | '\r' => (between, [])
  | '[' => (between, [.openArray])
  | ']' => (between, [.closeArray])
  | '\x7b' => (between, [.openObject])
  | '\x7d' => (between, [.closeObject])
  | ',' => (between, [.comma])
  | ':' => (between, [.colon])
  | 'n' => (word 'u' ['l', 'l'] .null, [])
  | 't' => (word 'r' ['u', 'e'] (.bool true), [])
  | 'f' => (word 'a' ['l', 's', 'e'] (.bool false), [])
  | '"' => (text [], [])
  | '-' => (numeral { isNegative := true } .sign, [])
  | c =>
    match digitValue? c with
    | some 0 => (numeral { whole := [0] } .zero, [])
    | some d => (numeral { whole := [d] } .whole, [])
    | none => (stuck, [.invalid])

/-- Reads a character: the mode after it and the tokens that it ends. -/
def step (mode : LexMode) (c : Char) : LexMode × List Token :=
  match mode with
  | between => start c
  | word next rest token =>
    if c = next then
      match rest with
      | [] => (between, [token])
      | following :: rest => (word following rest token, [])
    else (stuck, [.invalid])
  | numeral n part =>
    match n.extend part c with
    | .more n part => (numeral n part, [])
    -- The character behind a numeral may begin a token of its own.
    | .done => ((start c).1, .number n.value :: (start c).2)
    | .wrong => (stuck, [.invalid])
  | text units =>
    if c = '"' then (between, [textToken units])
    else if c = '\\' then (escape units, [])
    else if c.toNat < 0x20 then (stuck, [.invalid])
    else (text (.char c :: units), [])
  | escape units =>
    if c = 'u' then (hex units 0 4, [])
    else
      match unescape? c with
      | some d => (text (.char d :: units), [])
      | none => (stuck, [.invalid])
  | hex units value missing =>
    match hexValue? c with
    | none => (stuck, [.invalid])
    | some d =>
      if missing ≤ 1 then (text (.code (16 * value + d) :: units), [])
      else (hex units (16 * value + d) (missing - 1), [])
  | stuck => (stuck, [])

/-- The tokens that the end of the text ends. -/
def finish : LexMode → List Token
  | between | stuck => []
  | numeral n part => if part.isComplete then [.number n.value] else [.invalid]
  | word .. | text _ | escape _ | hex .. => [.invalid]

end LexMode

/-- A run of the machine. -/
structure Lexer where
  /-- What the machine is in the middle of. -/
  mode : LexMode := .between
  /-- The tokens that have ended, the last one first. -/
  emitted : List Token := []

/-- Reads one character. -/
def Lexer.step (l : Lexer) (c : Char) : Lexer :=
  let (mode, tokens) := l.mode.step c
  ⟨mode, tokens.reverse ++ l.emitted⟩

/-- The tokens of a text. -/
def tokens (text : List Char) : List Token :=
  let l := text.foldl Lexer.step {}
  l.emitted.reverse ++ l.mode.finish

end SuiteScript.Json
