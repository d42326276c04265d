import SuiteScript.Json.Reading

/-! # JSON values

    A value is a reading without faults whose numbers and strings all have
    values and whose arrays and objects are not nested too deeply.  Values
    are what is written; there is a compact form and one with a line for
    every member. -/

namespace SuiteScript.Json

/-- A JSON value.  Objects keep their members in order, repeated keys
    included. -/
inductive Value where
  /-- The value of the key word `null`. -/
  | null
  /-- A truth value. -/
  | bool (b : Bool)
  /-- A number. -/
  | number (n : Number)
  /-- A string. -/
  | text (s : String)
  /-- An array. -/
  | array (items : List Value)
  /-- An object. -/
  | object (members : List (String × Value))

/-! ### From readings -/

mutual

/-- The value of a reading of at most `depth` nested arrays and objects. -/
def Reading.toValue? (depth : Nat) : Reading → Option Value
  | .null => some .null
  | .bool b => some (.bool b)
  | .number n => n.map .number
  | .text s => s.map .text
  | .array items isClosed =>
    if isClosed && 0 < depth then (toValues? (depth - 1) items).map .array else none
  | .object members isClosed =>
    if isClosed && 0 < depth then (toMembers? (depth - 1) members).map .object else none
  | .broken => none

/-- The values of some readings, if each has one. -/
def Reading.toValues? (depth : Nat) : List Reading → Option (List Value)
  | [] => some []
  | r :: rest =>
    match r.toValue? depth, toValues? depth rest with
    | some v, some vs => some (v :: vs)
    | _, _ => none

/-- The members of a reading, if each key and each value has one. -/
def Reading.toMembers? (depth : Nat) :
    List (Option String × Reading) → Option (List (String × Value))
  | [] => some []
  | (k, r) :: rest =>
    match k, r.toValue? depth, toMembers? depth rest with
    | some k, some v, some ms => some ((k, v) :: ms)
    | _, _, _ => none

end

/-- How deeply arrays and objects may be nested. -/
def maxDepth : Nat := 127

/-- The value that a text consists of. -/
def parse? (text : String) : Option Value :=
  let doc := read text
  if doc.isClean then doc.root.toValue? maxDepth else none

/-! ### Writing -/

/-- A character of a string. -/
def escapeChar (c : Char) : List Char :=
  match c with
  | '"' => ['\\', '"']
  | '\\' => ['\\', '\\']
  | '\x08' => ['\\', 'b']
  | '\x0c' => ['\\', 'f']
  | '\n' => ['\\', 'n']
  | '\r' => ['\\', 'r']
  | '\t' => ['\\', 't']
  | c =>
    if c.toNat < 0x20 then
      ['\\', 'u', '0', '0', Nat.digitChar (c.toNat / 16), Nat.digitChar (c.toNat % 16)]
    else [c]

/-- A string between double quotes. -/
def quote (s : String) : List Char :=
  '"' :: s.toList.flatMap escapeChar ++ ['"']

/-- Joins the parts of an array or object: `gap` stands in front of each
    part and `last` in front of the end. -/
def enclose (first final : Char) (gap last : List Char) : List (List Char) → List Char
  | [] => [first, final]
  | parts => first :: [','].intercalate (parts.map (gap ++ ·)) ++ last ++ [final]

mutual

/-- A value without any space. -/
def Value.compact : Value → List Char
  | .null => "null".toList
  | .bool b => if b then "true".toList else "false".toList
  | .number n => n.render.toList
  | .text s => quote s
  | .array items => enclose '[' ']' [] [] (compactItems items)
  | .object members => enclose '\x7b' '\x7d' [] [] (compactMembers members)

/-- Each of the values without any space. -/
def Value.compactItems : List Value → List (List Char)
  | [] => []
  | v :: rest => v.compact :: compactItems rest

/-- Each of the members without any space. -/
def Value.compactMembers : List (String × Value) → List (List Char)
  | [] => []
  | (k, v) :: rest => (quote k ++ ':' :: v.compact) :: compactMembers rest

end

/-- A line break and the indentation of a level. -/
def lineStart (level : Nat) : List Char :=
  '\n' :: List.replicate (2 * level) ' '

mutual

/-- A value with a line for each element and member, indented by two spaces
    a level. -/
def Value.pretty (level : Nat) : Value → List Char
  | .null => "null".toList
  | .bool b => if b then "true".toList else "false".toList
  | .number n => n.render.toList
  | .text s => quote s
  | .array items =>
    enclose '[' ']' (lineStart (level + 1)) (lineStart level) (prettyItems (level + 1) items)
  | .object members =>
    enclose '\x7b' '\x7d' (lineStart (level + 1)) (lineStart level)
      (prettyMembers (level + 1) members)

/-- Each of the values, written for a level. -/
def Value.prettyItems (level : Nat) : List Value → List (List Char)
  | [] => []
  | v :: rest => v.pretty level :: prettyItems level rest

/-- Each of the members, written for a level. -/
def Value.prettyMembers (level : Nat) : List (String × Value) → List (List Char)
  | [] => []
  | (k, v) :: rest => (quote k ++ ':' :: ' ' :: v.pretty level) :: prettyMembers level rest

end

end SuiteScript.Json
