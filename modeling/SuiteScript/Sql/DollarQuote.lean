import SuiteScript.Sql.Identifier

/-! # Dollar quoting

    A dollar-quoted body stands between two copies of one delimiter,
    `$tag$`, and ends at the first copy after the opening one.  The body is
    never changed; instead the delimiter is chosen so that it does not occur
    in the body.  The candidates are `$tag$`, `$tag_1$`, `$tag_2$`, …, and
    the first that is absent is taken.

    No two candidates start with one another, so each place of a body of
    `n` characters is the start of at most one of them and the first `n + 1`
    candidates hold one that is absent: the search is bounded. -/

namespace SuiteScript.Sql

/-- May `tag` stand between the dollar signs?  The empty tag may. -/
def isValidTag (tag : String) : Bool :=
  tag.toList.isEmpty || isWord tag.toList

/-- Does `pattern` occur in the text as a block of neighbours? -/
def occursIn (pattern : List Char) : List Char → Bool
  | [] => pattern.isEmpty
  | c :: rest => pattern.isPrefixOf (c :: rest) || occursIn pattern rest

/-- The `n`-th delimiter to try for a tag. -/
def delimiter (tag : String) : Nat → String
  | 0 => "$" ++ tag ++ "$"
  | n + 1 => "$" ++ tag ++ "_" ++ toString (n + 1) ++ "$"

/-- The first of `attempts` candidates, counted from the `n`-th, that does
    not occur in `body`; the candidate after them if all occur. -/
def firstAbsent (body : List Char) (tag : String) (n : Nat) : (attempts : Nat) → String
  | 0 => delimiter tag n
  | attempts + 1 =>
    if occursIn (delimiter tag n).toList body then firstAbsent body tag (n + 1) attempts
    else delimiter tag n

/-- The delimiter for `body`: the first candidate that does not occur in it. -/
def chooseDelimiter (body tag : String) : String :=
  firstAbsent body.toList tag 0 (body.toList.length + 1)

/-- An anonymous code block on one line. -/
def doBlock (tag body : String) : String :=
  let mark := chooseDelimiter body tag
  "DO " ++ mark ++ body ++ mark ++ ";"

/-- Occurring means being a block of neighbours. -/
theorem occursIn_iff {pattern text : List Char} :
    occursIn pattern text = true ↔ pattern <:+: text := by
  induction text with
  | nil => simp [occursIn]
  | cons c rest ih =>
    simp only [occursIn, Bool.or_eq_true, List.isPrefixOf_iff_prefix, ih]
    exact List.infix_cons_iff.symm

end SuiteScript.Sql
