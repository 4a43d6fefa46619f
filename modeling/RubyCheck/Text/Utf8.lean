import RubyCheck.Text.Hex

/-!
# UTF-8 octets

A start octet fixes how many continuation octets follow and the range the first of them must lie
in (RFC 3629 §4). Decoding reads one character at a time; when an octet breaks the rule, the
malformed sequence is the *maximal subpart* read so far (Unicode §3.9): a lone bad start octet,
or a valid prefix of a character cut short by a bad continuation octet or by the end of the data.

* `decode?` refuses the first malformed sequence and reports where it lies and why.
* `decodeLossy` writes U+FFFD for every malformed sequence and goes on after it.
-/

namespace RubyCheck.Text.Utf8

/-- Why a sequence of octets is not a character. -/
inductive Reason where
  /-- No character starts with this octet. -/
  | invalidStart
  /-- A continuation octet is out of range. -/
  | invalidContinuation
  /-- The data ends inside a character. -/
  | unexpectedEnd
  deriving DecidableEq, Repr

/-- The words a decoding error uses for each reason. -/
def Reason.describe : Reason → String
  | .invalidStart => "invalid start byte"
  | .invalidContinuation => "invalid continuation byte"
  | .unexpectedEnd => "unexpected end of data"

/-- The first malformed sequence of some octets: it covers `start` up to, not including, `stop`. -/
structure Malformed where
  start : Nat
  stop : Nat
  /-- The octet at `start`. -/
  first : UInt8
  reason : Reason
  deriving DecidableEq, Repr

/-- The decoder's message: one octet is named by value, a longer sequence by its positions. -/
def Malformed.message (m : Malformed) : String :=
  if m.stop ≤ m.start + 1 then
    s!"'utf-8' codec can't decode byte 0x{hexPadded 2 m.first.toNat} in position {m.start}: {m.reason.describe}"
  else
    s!"'utf-8' codec can't decode bytes in position {m.start}-{m.stop - 1}: {m.reason.describe}"

/-- After a start octet of a multi-octet character: how many continuation octets follow, and the
least and greatest value of the first of them. `none` for an octet no character starts with. -/
def owed (b : UInt8) : Option (Nat × UInt8 × UInt8) :=
  if b < 0xC2 then none
  else if b ≤ 0xDF then some (1, 0x80, 0xBF)
  else if b = 0xE0 then some (2, 0xA0, 0xBF)
  else if b ≤ 0xEC then some (2, 0x80, 0xBF)
  else if b = 0xED then some (2, 0x80, 0x9F)
  else if b ≤ 0xEF then some (2, 0x80, 0xBF)
  else if b = 0xF0 then some (3, 0x90, 0xBF)
  else if b ≤ 0xF3 then some (3, 0x80, 0xBF)
  else if b = 0xF4 then some (3, 0x80, 0x8F)
  else none

/-- Reads up to `count` continuation octets from `pos`, the first within `low`..`high` and the
others within `0x80`..`0xBF`. Gives how many were read and why reading stopped early, if it did. -/
def readTails (bytes : ByteArray) (pos : Nat) (low high : UInt8) : Nat → Nat × Option Reason
  | 0 => (0, none)
  | count + 1 =>
    match bytes[pos]? with
    | none => (0, some .unexpectedEnd)
    | some c =>
      if low ≤ c ∧ c ≤ high then
        let (read, stop) := readTails bytes (pos + 1) 0x80 0xBF count
        (read + 1, stop)
      else (0, some .invalidContinuation)

/-- The code point of the well-formed character of `width` octets at `pos`. -/
def codePoint (bytes : ByteArray) (pos width : Nat) : Nat :=
  let at_ (k : Nat) : Nat := (bytes[pos + k]?.getD 0).toNat
  let tail (k : Nat) : Nat := at_ k % 64
  match width with
  | 2 => (at_ 0 % 32) * 64 + tail 1
  | 3 => (at_ 0 % 16) * 4096 + tail 1 * 64 + tail 2
  | 4 => (at_ 0 % 8) * 262144 + tail 1 * 4096 + tail 2 * 64 + tail 3
  | _ => at_ 0

/-- What the octets at one position hold: a character, or a malformed sequence. -/
inductive Content where
  | char (c : Char)
  | malformed (reason : Reason)

/-- One step of decoding: what starts at a position and how many octets it takes. -/
structure Piece where
  content : Content
  width : Nat
  width_pos : 0 < width

/-- The character or malformed sequence that starts at `pos`. -/
def readAt (bytes : ByteArray) (pos : Nat) (inside : pos < bytes.size) : Piece :=
  let b := bytes[pos]
  if b < 0x80 then ⟨.char (Char.ofNat b.toNat), 1, by decide⟩
  else
    match owed b with
    | none => ⟨.malformed .invalidStart, 1, by decide⟩
    | some (count, low, high) =>
      match readTails bytes (pos + 1) low high count with
      | (_, none) => ⟨.char (Char.ofNat (codePoint bytes pos (count + 1))), count + 1, by omega⟩
      | (read, some reason) => ⟨.malformed reason, read + 1, by omega⟩

/-- Decodes from `pos` on, appending to `acc`, and stops at the first malformed sequence. -/
def decodeFrom (bytes : ByteArray) (pos : Nat) (acc : String) : Except Malformed String :=
  if h : pos < bytes.size then
    let piece := readAt bytes pos h
    match piece.content with
    | .char c => decodeFrom bytes (pos + piece.width) (acc.push c)
    | .malformed reason =>
      .error { start := pos, stop := pos + piece.width, first := bytes[pos], reason }
  else .ok acc
termination_by bytes.size - pos
decreasing_by have := (readAt bytes pos h).width_pos; simp_wf; omega

/-- The text of some octets, or the first malformed sequence among them. -/
def decode? (bytes : ByteArray) : Except Malformed String :=
  decodeFrom bytes 0 ""

/-- Decodes from `pos` on, writing U+FFFD for each malformed sequence. -/
def decodeLossyFrom (bytes : ByteArray) (pos : Nat) (acc : String) : String :=
  if h : pos < bytes.size then
    let piece := readAt bytes pos h
    let c := match piece.content with
      | .char c => c
      | .malformed _ => '�'
    decodeLossyFrom bytes (pos + piece.width) (acc.push c)
  else acc
termination_by bytes.size - pos
decreasing_by have := (readAt bytes pos h).width_pos; simp_wf; omega

/-- The text of some octets, with U+FFFD for each maximal malformed sequence. -/
def decodeLossy (bytes : ByteArray) : String :=
  decodeLossyFrom bytes 0 ""

end RubyCheck.Text.Utf8
