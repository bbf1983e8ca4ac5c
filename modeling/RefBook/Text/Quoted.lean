import RefBook.Text.Basic
import RefBook.Unicode.Unprintable

/-!
# RefBook.Text.Quoted — texts quoted for a message

* `quoted`: a text between double quotes in which every character can be told apart on a terminal.
  Quotes and backslashes take a backslash, five controls have a letter, and every other character
  without a glyph of its own is written by its number.
-/

namespace RefBook

open Unicode (isUnprintable)

/-- The hexadecimal digits of a number, letters small. -/
def hexadecimal (n : Nat) : Text :=
  Nat.toDigits 16 n

/-- A character as it stands inside a quoted text. -/
def quotedChar (c : Char) : Text :=
  match c with
  | '\x00' => ['\\', '0']
  | '\t' => ['\\', 't']
  | '\n' => ['\\', 'n']
  | '\r' => ['\\', 'r']
  | '"' => ['\\', '"']
  | '\\' => ['\\', '\\']
  | c => if isUnprintable c then "\\u\x7b".toList ++ hexadecimal c.toNat ++ "\x7d".toList else [c]

/-- The text between double quotes, with no character that is hard to see. -/
def quoted (t : Text) : Text :=
  '"' :: t.flatMap quotedChar ++ ['"']

example : quoted "a\"\u0007".toList = "\"a\\\"\\u\x7b7\x7d\"".toList := by decide +kernel

end RefBook
