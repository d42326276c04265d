import SuiteScript.Text.Unprintable
import SuiteScript.Text.Combining

/-! # Quoted text in messages

    A message that repeats text it was given shows it between double
    quotes, with every character visible: the quote and the backslash are
    escaped, and so is whatever would not print or would melt into its
    neighbour.  The single quote stays as it is. -/

namespace SuiteScript.Text

/-- One character as a message shows it. -/
def shownChar (c : Char) : List Char :=
  match c with
  | '"' => ['\\', '"']
  | '\\' => ['\\', '\\']
  | '\n' => ['\\', 'n']
  | '\r' => ['\\', 'r']
  | '\t' => ['\\', 't']
  | '\x00' => ['\\', '0']
  | c =>
    if isPrintable c && !isCombining c then [c]
    else ['\\', 'u', '\x7b'] ++ Nat.toDigits 16 c.toNat ++ ['\x7d']

/-- The text between double quotes, as a message shows it. -/
def quoted (s : String) : String :=
  "\"" ++ String.ofList (s.toList.flatMap shownChar) ++ "\""

end SuiteScript.Text
