import RubyCheck.Toml.Scan

/-!
# Numbers, dates and times

**The values of a TOML document that are written without quotes or brackets.**

- A date is `YYYY-MM-DD`, with a month from 01 to 12 and a day from 01 to 31; it must name a day
  of the calendar (year 1 at the earliest, February 29 only in leap years), or the document
  fails. A time of day may follow after `T`, `t` or a space: `HH:MM:SS` with an hour up to 23,
  and optionally a fraction after `.` and an offset, `Z`, `z` or `+HH:MM`, `-HH:MM`. A time of day
  may also stand alone.
- An integer is decimal, with an optional sign and no leading zero, or `0x`, `0o`, `0b` and
  digits of that base; a single `_` may stand between two digits. A decimal integer with a
  fraction, an exponent or both is a float; so are `inf` and `nan`, with an optional sign.
- A decimal integer with more than `Text.maxDigits` digits fails the document, and not as text
  that is not TOML: a number that long is not read.

Each form is matched as far as it goes: what follows the longest match is left for the
statement after the value to refuse.
-/

namespace RubyCheck.Toml

/-- The value of the `n` ASCII digits at `pos`, if all are there. -/
def digitsAt (src : Array Char) (pos n : Nat) : Option Nat :=
  let cs := (src.extract pos (pos + n)).toList
  if cs.length == n && cs.all Char.isDigit then
    some (cs.foldl (fun acc c => acc * 10 + (c.toNat - '0'.toNat)) 0)
  else none

/-- Whether `year` is a leap year of the Gregorian calendar. -/
def isLeapYear (year : Nat) : Bool :=
  year % 4 == 0 && (year % 100 != 0 || year % 400 == 0)

/-- The number of days of `month` in `year`. -/
def daysInMonth (year month : Nat) : Nat :=
  match month with
  | 2 => if isLeapYear year then 29 else 28
  | 4 | 6 | 9 | 11 => 30
  | _ => 31

/-- A time of day at `pos`: `HH:MM:SS` and an optional fraction; the position after it. -/
def timeOfDay (src : Array Char) (pos : Nat) : Option Nat := do
  let hour ← digitsAt src pos 2
  guard (hour ≤ 23 && charAt src (pos + 2) == some ':')
  let minute ← digitsAt src (pos + 3) 2
  guard (minute ≤ 59 && charAt src (pos + 5) == some ':')
  let second ← digitsAt src (pos + 6) 2
  guard (second ≤ 59)
  let stop := pos + 8
  if charAt src stop == some '.' && (charAt src (stop + 1)).any Char.isDigit then
    return skipWhile src Char.isDigit (stop + 1)
  else return stop

/-- An offset at `pos`: `Z`, `z`, or a sign, `HH:MM`; the position after it. -/
def offset (src : Array Char) (pos : Nat) : Option Nat := do
  let c ← charAt src pos
  if c == 'Z' || c == 'z' then return pos + 1
  guard (c == '+' || c == '-')
  let hour ← digitsAt src (pos + 1) 2
  guard (hour ≤ 23 && charAt src (pos + 3) == some ':')
  let minute ← digitsAt src (pos + 4) 2
  guard (minute ≤ 59)
  return pos + 6

/-- What a date at the start of a value reads as. -/
inductive DateForm where
  /-- A date, maybe with a time of day, ending before `stop`; `valid` when it names a day of the
  calendar. -/
  | found (stop : Nat) (hasTime : Bool) (valid : Bool)
  /-- No date starts here. -/
  | none

/-- The date at `pos`, with the time of day and offset that follow it. -/
def dateAt (src : Array Char) (pos : Nat) : DateForm :=
  match digitsAt src pos 4, digitsAt src (pos + 5) 2, digitsAt src (pos + 8) 2 with
  | some year, some month, some day =>
    if charAt src (pos + 4) == some '-' && charAt src (pos + 7) == some '-' &&
        1 ≤ month && month ≤ 12 && 1 ≤ day && day ≤ 31 then
      let valid := 1 ≤ year && day ≤ daysInMonth year month
      let dateEnd := pos + 10
      let sep := charAt src dateEnd
      if sep == some 'T' || sep == some 't' || sep == some ' ' then
        match timeOfDay src (dateEnd + 1) with
        | some timeEnd => .found ((offset src timeEnd).getD timeEnd) true valid
        | none => .found dateEnd false valid
      else .found dateEnd false valid
    else .none
  | _, _, _ => .none

/-- The end of digits of class `p` from `pos`, with single underscores between two of them. -/
def digitRun (src : Array Char) (p : Char → Bool) (pos : Nat) : Option Nat :=
  if (charAt src pos).any p then some (go (pos + 1) (src.size + 1)) else none
where
  /-- Extends the run past `pos`. -/
  go (pos : Nat) : Nat → Nat
    | 0 => pos
    | fuel + 1 =>
      if (charAt src pos).any p then go (pos + 1) fuel
      else if charAt src pos == some '_' && (charAt src (pos + 1)).any p then go (pos + 2) fuel
      else pos

/-- The value of digits of `base`, underscores skipped. -/
def digitsValue (base : Nat) (cs : List Char) : Nat :=
  cs.foldl (fun acc c =>
    if c == '_' then acc
    else
      let d := if '0' ≤ c && c ≤ '9' then c.toNat - '0'.toNat
        else if 'a' ≤ c && c ≤ 'f' then c.toNat - 'a'.toNat + 10
        else c.toNat - 'A'.toNat + 10
      acc * base + d) 0

/-- An integer in base 16, 8 or 2 at `pos`, from its `0x`, `0o` or `0b`. -/
def prefixedInteger (src : Array Char) (pos : Nat) : Option (Nat × Value) := do
  guard (charAt src pos == some '0')
  let (base, p) ← match charAt src (pos + 1) with
    | some 'x' => some (16, isHexDigit)
    | some 'o' => some (8, fun c => '0' ≤ c && c ≤ '7')
    | some 'b' => some (2, fun c => c == '0' || c == '1')
    | _ => none
  let stop ← digitRun src p (pos + 2)
  return (stop, .integer (digitsValue base (src.extract (pos + 2) stop).toList))

/-- A decimal number at `pos`: an integer, or a float when a fraction or an exponent follows. -/
def decimalNumber (src : Array Char) (pos : Nat) : Option (Nat × Value) := do
  let negative := charAt src pos == some '-'
  let start := if charAt src pos == some '-' || charAt src pos == some '+' then pos + 1 else pos
  let intEnd ←
    if charAt src start == some '0' then some (start + 1)
    else if (charAt src start).any fun c => '1' ≤ c && c ≤ '9' then digitRun src Char.isDigit start
    else none
  let fracEnd :=
    if charAt src intEnd == some '.' then (digitRun src Char.isDigit (intEnd + 1)).getD intEnd
    else intEnd
  let expEnd :=
    if charAt src fracEnd == some 'e' || charAt src fracEnd == some 'E' then
      let signed := charAt src (fracEnd + 1) == some '+' || charAt src (fracEnd + 1) == some '-'
      (digitRun src Char.isDigit (fracEnd + 1 + if signed then 1 else 0)).getD fracEnd
    else fracEnd
  if expEnd == intEnd then
    let magnitude := digitsValue 10 (src.extract start intEnd).toList
    return (intEnd, .integer (if negative then -(magnitude : Int) else magnitude))
  else return (expEnd, .float (slice src pos expEnd))

/-- A number at `pos`: prefixed integers first, then decimal ones. -/
def number (src : Array Char) (pos : Nat) : Except Failure (Option (Nat × Value)) :=
  match prefixedInteger src pos with
  | some r => .ok (some r)
  | none =>
    match decimalNumber src pos with
    | some (stop, .integer v) =>
      let count := ((src.extract pos stop).toList.filter Char.isDigit).length
      if count > Text.maxDigits then fail (.tooManyDigits count) pos
      else .ok (some (stop, .integer v))
    | r => .ok r

/-- `inf` or `nan` at `pos`, with an optional sign. -/
def specialFloat (src : Array Char) (pos : Nat) : Option (Nat × Value) :=
  if startsWith src pos "inf" || startsWith src pos "nan" then
    some (pos + 3, .float (slice src pos (pos + 3)))
  else if ["-inf", "+inf", "-nan", "+nan"].any (startsWith src pos) then
    some (pos + 4, .float (slice src pos (pos + 4)))
  else none

end RubyCheck.Toml
