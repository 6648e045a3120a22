import FixtureSuite.Text.Hidden

/-!
# Quoted text

`quoted` writes a text between double quotes so that a reader sees every character: the quote, the
backslash and the common controls have short escapes, and a hidden character is given by its number.
-/

namespace FixtureSuite

namespace Quoted

/-- A code point in lower-case hexadecimal, without leading zeros. -/
def hex (n : Nat) : List Char :=
  Nat.toDigits 16 n

def escape (c : Char) : List Char :=
  match c with
  | '\x00' => ['\\', '0']
  | '\t' => ['\\', 't']
  | '\r' => ['\\', 'r']
  | '\n' => ['\\', 'n']
  | '"' => ['\\', '"']
  | '\\' => ['\\', '\\']
  | c => if isHidden c then ['\\', 'u', '\x7b'] ++ hex c.toNat ++ ['\x7d'] else [c]

end Quoted

/-- A text in double quotes, with escapes for what would not show. -/
def quoted (text : String) : String :=
  "\"" ++ String.ofList (text.toList.flatMap Quoted.escape) ++ "\""

end FixtureSuite
