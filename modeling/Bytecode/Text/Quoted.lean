/-
Text in double quotes, with what can not be seen written as an escape.

* `escape`: a character as it stands between the quotes. A few have an
  escape of their own; any other that is not seen by itself is written as
  its code point;
* `quoted`: a text between double quotes.
-/
import Bytecode.Text.Invisible
import Bytecode.Text.Numeral

namespace Bytecode.Text

/-- A character as it stands between double quotes. -/
def escape (c : Char) : String :=
  match c with
  | '"' => "\\\""
  | '\\' => "\\\\"
  | '\n' => "\\n"
  | '\t' => "\\t"
  | '\r' => "\\r"
  | '\x00' => "\\0"
  | c =>
    if isInvisible c then "\\u\x7b" ++ hex 1 c.toNat ++ "\x7d" else String.singleton c

/-- A text between double quotes. -/
def quoted (text : String) : String :=
  "\"" ++ String.join (text.toList.map escape) ++ "\""

end Bytecode.Text
