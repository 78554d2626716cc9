/-
Quoted text, for showing names that may hold anything.

Quotes and backslashes stand behind a backslash, and so do the short
forms of NUL, tab, new line and carriage return. A character that cannot
be shown as it is becomes its code point in hexadecimal, in braces.
Everything else stands as it is.
-/
import Dissect.Text.Numeral
import Dissect.Text.Printable

namespace Dissect.Text

/-- A character inside quoted text. -/
def quotedChar (c : Char) : String :=
  match c with
  | '"' => "\\\""
  | '\\' => "\\\\"
  | '\x00' => "\\0"
  | '\t' => "\\t"
  | '\n' => "\\n"
  | '\r' => "\\r"
  | c =>
    if isPrintable c then String.singleton c
    else "\\u\x7b" ++ Numeral.hexDigits c.toNat ++ "\x7d"

/-- A text in quotes. -/
def quoted (s : String) : String :=
  "\"" ++ String.join (s.toList.map quotedChar) ++ "\""

/-- Texts in quotes, in brackets. -/
def quotedList (texts : List String) : String :=
  "[" ++ ", ".intercalate (texts.map quoted) ++ "]"

end Dissect.Text
