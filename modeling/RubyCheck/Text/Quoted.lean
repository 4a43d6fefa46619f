import RubyCheck.Text.Hex
import RubyCheck.Text.Printable

/-!
# Quoted text

Error messages quote a text between single quotes, or between double quotes when the text holds
a single quote and no double quote. Inside, the backslash and the chosen quote are escaped, tab,
newline and carriage return are written `\t`, `\n`, `\r`, and every other character that is not
printable is written by its code: `\x` and two digits up to U+00FF, `\u` and four digits up to
U+FFFF, `\U` and eight digits beyond.
-/

namespace RubyCheck.Text

/-- How `c` is written between quotes `quote`. -/
def escapeChar (quote : Char) (c : Char) : String :=
  if c == quote || c == '\\' then String.ofList ['\\', c]
  else if c == '\t' then "\\t"
  else if c == '\n' then "\\n"
  else if c == '\r' then "\\r"
  else if isPrintable c then c.toString
  else if c.toNat ≤ 0xFF then "\\x" ++ hexPadded 2 c.toNat
  else if c.toNat ≤ 0xFFFF then "\\u" ++ hexPadded 4 c.toNat
  else "\\U" ++ hexPadded 8 c.toNat

/-- The quote that encloses `s`: double when `s` holds a single quote and no double quote. -/
def quoteFor (s : String) : Char :=
  if s.contains '\'' && !s.contains '"' then '"' else '\''

/-- `s` between quotes, escaped. -/
def quoted (s : String) : String :=
  let q := quoteFor s
  let body := s.toList.foldl (fun acc c => acc ++ escapeChar q c) ""
  q.toString ++ body ++ q.toString

end RubyCheck.Text
