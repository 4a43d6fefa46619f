/-!
# Hexadecimal digits

Octets and code points are written in lowercase hexadecimal, padded with zeros to a fixed width:
`hexPadded 2 0xc3 = "c3"`, `hexPadded 4 0x200b = "200b"`.
-/

namespace RubyCheck.Text

/-- The lowercase hexadecimal digit of `d`, for `d < 16`. -/
def hexDigit (d : Nat) : Char :=
  if d < 10 then Char.ofNat (48 + d) else Char.ofNat (87 + d)

/-- The last `width` hexadecimal digits of `n`, most significant first. -/
def hexDigits : Nat → Nat → List Char
  | 0, _ => []
  | width + 1, n => hexDigits width (n / 16) ++ [hexDigit (n % 16)]

/-- `n` in lowercase hexadecimal, padded with zeros to `width` digits. -/
def hexPadded (width n : Nat) : String :=
  String.ofList (hexDigits width n)

example : hexPadded 2 0xc3 = "c3" := by decide
example : hexPadded 4 0x200b = "200b" := by decide

end RubyCheck.Text
