/-! # SQL literals

    A literal stands between single quotes, and a quote inside it is
    written twice.  No other character is special, so any text at all can
    be carried into a script this way and read back unchanged. -/

namespace SuiteScript.Sql

/-- Writes each `q` twice and every other character once. -/
def doubled (q : Char) : List Char → List Char
  | [] => []
  | c :: rest => if c = q then q :: q :: doubled q rest else c :: doubled q rest

/-- The inside of a literal that stands for `s`. -/
def escapeLiteral (s : String) : String :=
  String.ofList (doubled '\'' s.toList)

/-- The literal that stands for `s`. -/
def quoteLiteral (s : String) : String :=
  "'" ++ escapeLiteral s ++ "'"

/-- A literal, or the bare key word for an absent value. -/
def quoteNullable : Option String → String
  | some s => quoteLiteral s
  | none => "NULL"

/-! ### Laws of doubling -/

@[simp] theorem doubled_nil (q : Char) : doubled q [] = [] := rfl

@[simp] theorem doubled_self (q : Char) (rest : List Char) :
    doubled q (q :: rest) = q :: q :: doubled q rest := by
  simp [doubled]

theorem doubled_ne {q c : Char} (h : c ≠ q) (rest : List Char) :
    doubled q (c :: rest) = c :: doubled q rest := by
  simp [doubled, h]

theorem doubled_append (q : Char) (s t : List Char) :
    doubled q (s ++ t) = doubled q s ++ doubled q t := by
  induction s with
  | nil => rfl
  | cons c rest ih => by_cases h : c = q <;> simp [doubled, h, ih]

/-! ### The characters of a literal -/

theorem toList_quoteLiteral (s : String) :
    (quoteLiteral s).toList = '\'' :: (doubled '\'' s.toList ++ ['\'']) := by
  simp [quoteLiteral, escapeLiteral]

end SuiteScript.Sql
