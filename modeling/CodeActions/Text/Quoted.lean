import CodeActions.Text.Extender
import CodeActions.Text.Printable

/-!
# Quoted texts

A text shown inside a message stands between double quotes. The quote, the backslash and whatever
would not show as a character of its own are escaped: the message stays on one line, and a reader
sees every character of the text.
-/

namespace CodeActions.Text

/-- A character by its code point, in hexadecimal digits between braces. -/
def escapeCode (c : Char) : String :=
  "\\u\x7b" ++ String.ofList (Nat.toDigits 16 c.toNat) ++ "\x7d"

/-- A character as it stands between double quotes. -/
def escapeQuoted (c : Char) : String :=
  match c with
  | '"' => "\\\""
  | '\\' => "\\\\"
  | '\n' => "\\n"
  | '\r' => "\\r"
  | '\t' => "\\t"
  | '\x00' => "\\0"
  | c => if isPrintable c && !isExtender c then c.toString else escapeCode c

/-- The text between double quotes. -/
def quoted (s : String) : String :=
  "\"" ++ String.join (s.toList.map escapeQuoted) ++ "\""

end CodeActions.Text
