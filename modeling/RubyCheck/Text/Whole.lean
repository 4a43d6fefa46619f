import RubyCheck.Text.Blank
import RubyCheck.Text.Digit
import RubyCheck.Text.Quoted

/-!
# Whole numbers as decimal text

**Reading a whole number from text and writing one out, both bounded in digits.**

- `readWhole` reads text as a whole number: ASCII blanks may stand before and after it, a `+` or
  `-` may lead, and the digits, of any script, may be split by single underscores that stand
  between two digits. Any other blank counts as a space; any other character fails the reading.
- Neither direction handles more than `maxDigits` digits. Reading text with more fails once the
  text is found well formed; writing a number with more fails.
-/

namespace RubyCheck.Text

/-- The most decimal digits a whole number may be read from or written with. -/
def maxDigits : Nat := 4300

/-- Why a whole number is not read or written. -/
inductive NumberError where
  /-- the text is not a whole number -/
  | invalid (text : String)
  /-- the text is a whole number of `count` digits, more than `maxDigits` -/
  | tooManyDigits (count : Nat)
  /-- the number has more than `maxDigits` digits to write -/
  | tooLong
  deriving Repr, DecidableEq

/-- The sentence that reports each failure; the quoted text of a malformed number is cut to 200
characters. -/
def NumberError.message : NumberError → String
  | .invalid text =>
    "invalid literal for int() with base 10: " ++ String.ofList ((quoted text).toList.take 200)
  | .tooManyDigits n =>
    s!"Exceeds the limit ({maxDigits} digits) for integer string conversion: value has {n} digits; use sys.set_int_max_str_digits() to increase the limit"
  | .tooLong =>
    s!"Exceeds the limit ({maxDigits} digits) for integer string conversion; use sys.set_int_max_str_digits() to increase the limit"

/-- A character as the reading sees it: ASCII as it is, another blank as a space, another digit
as the ASCII digit of its value, and anything else as `?`, which no number holds. -/
def asciiForm (c : Char) : Char :=
  if c.toNat < 127 then c
  else if isBlank c then ' '
  else
    match digitValue? c with
    | some d => Char.ofNat ('0'.toNat + d)
    | none => '?'

/-- The ASCII blanks: tab to carriage return, and the space. -/
def isAsciiBlank (c : Char) : Bool := (0x09 ≤ c.toNat && c.toNat ≤ 0x0D) || c == ' '

/-- Whether a character may stand in the digits of a number: an ASCII digit or an underscore. -/
def isDigitOrUnderscore (c : Char) : Bool := c.isDigit || c == '_'

/-- Whether a run of digits and underscores is well formed: it holds a digit, and every
underscore stands between two digits. -/
def wellSplit (run : List Char) : Bool :=
  run.any Char.isDigit && run.head? != some '_' && run.getLast? != some '_' &&
    !(run.zip run.tail).any fun (a, b) => a == '_' && b == '_'

/-- The value of ASCII digits. -/
def digitsValue (digits : List Char) : Nat :=
  digits.foldl (fun acc c => acc * 10 + (c.toNat - '0'.toNat)) 0

/-- The whole number that `text` writes. -/
def readWhole (text : String) : Except NumberError Int :=
  let cs := (text.toList.map asciiForm).dropWhile isAsciiBlank
  let (negative, cs) := match cs with
    | '-' :: more => (true, more)
    | '+' :: more => (false, more)
    | more => (false, more)
  let run := cs.takeWhile isDigitOrUnderscore
  let rest := cs.dropWhile isDigitOrUnderscore
  let digits := run.filter Char.isDigit
  if !wellSplit run || !rest.all isAsciiBlank then .error (.invalid text)
  else if digits.length > maxDigits then .error (.tooManyDigits digits.length)
  else
    let n := digitsValue digits
    .ok (if negative then -(n : Int) else n)

/-- The decimal text of a whole number, `-` first when it is negative. -/
def writeWhole (n : Int) : Except NumberError String :=
  if (toString n.natAbs).length > maxDigits then .error .tooLong else .ok (toString n)

example : (readWhole " +1_000 ").toOption = some 1000 := by decide
example : (readWhole "1__0").toOption = none := by decide

end RubyCheck.Text
