/-
Quoted text on one line. Between two double quotes stand the characters
themselves, apart from these: NUL, tab, line feed, carriage return, the double
quote and the backslash have an escape of two characters, and any other
character that shows nothing has its number in hexadecimal between braces.

Main statement: no character is written as a bare double quote, so the closing
quote is the first that no backslash precedes (`escape_ne_quote`).
-/
import ManagedImage.Text.Hex
import ManagedImage.Text.Unprintable

namespace ManagedImage.Text

/-- How one character stands between the quotes. -/
def escape (c : Char) : List Char :=
  match c with
  | '\x00' => ['\\', '0']
  | '\t' => ['\\', 't']
  | '\n' => ['\\', 'n']
  | '\r' => ['\\', 'r']
  | '"' => ['\\', '"']
  | '\\' => ['\\', '\\']
  | _ => if isUnprintable c then "\\u\x7b".toList ++ Nat.toDigits 16 c.toNat ++ ['\x7d'] else [c]

/-- The quoted form of a text. -/
def quote (text : String) : String :=
  String.ofList ('"' :: text.toList.flatMap escape ++ ['"'])

/-- No character stands as a bare double quote. -/
theorem escape_ne_quote (c : Char) : escape c ≠ ['"'] := by
  unfold escape
  split <;> try decide
  split
  · simp
  · simp_all

end ManagedImage.Text
