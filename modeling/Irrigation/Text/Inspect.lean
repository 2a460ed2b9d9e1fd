import Irrigation.Text.Unseen

/-!
# Texts for inspection

`inspect` shows a text between quotes, for messages that name a text that was found: quotes,
backslashes and unseen characters are escaped.
-/

namespace Irrigation.Text

/-- A character as `inspect` shows it. -/
def inspectChar (c : Char) : List Char :=
  match c with
  | '"' => ['\\', '"']
  | '\\' => ['\\', '\\']
  | '\n' => ['\\', 'n']
  | '\r' => ['\\', 'r']
  | '\t' => ['\\', 't']
  | '\x00' => ['\\', '0']
  | c =>
    if isUnseen c then
      ['\\', 'u', '\x7b'] ++ Nat.toDigits 16 c.toNat ++ ['\x7d']
    else [c]

/-- A text between quotes, with escapes. -/
def inspect (s : String) : String := "\"" ++ String.ofList (s.toList.flatMap inspectChar) ++ "\""

end Irrigation.Text
