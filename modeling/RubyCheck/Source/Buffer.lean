import RubyCheck.Source.Span
import RubyCheck.Text.Utf8

/-!
# Source buffers

A buffer holds a source text with a name and the text's UTF-8 octets. Byte 0 starts line 1 and
every newline octet (0x0A) starts the next line; a carriage return starts none.

`lineAndColumn` finds the line by counting the line starts at or before the offset. An offset
before every line start counts from the *last* line start and is given line 0: the lookup reads
index `-1` of the line starts as their last element.
-/

namespace RubyCheck.Source

/-- A named source text and its octets. -/
structure Buffer where
  text : String
  name : String
  bytes : ByteArray
  /-- The offset of each line's first byte, in increasing order, beginning with 0. -/
  lineStarts : Array Nat

/-- The offsets after each newline octet of `bytes`, from `pos` on. -/
def newlineEnds (bytes : ByteArray) (pos : Nat) (acc : Array Nat) : Array Nat :=
  if h : pos < bytes.size then
    newlineEnds bytes (pos + 1) (if bytes[pos] == 10 then acc.push (pos + 1) else acc)
  else acc
termination_by bytes.size - pos

namespace Buffer

/-- The buffer of a text. -/
def ofText (text : String) (name : String := "") : Buffer :=
  let bytes := text.toUTF8
  { text, name, bytes, lineStarts := newlineEnds bytes 0 #[0] }

/-- The number of octets. -/
def size (b : Buffer) : Nat := b.bytes.size

def lineCount (b : Buffer) : Nat := b.lineStarts.size

/-- How many line starts are at or before `offset`. -/
def startsUpTo (b : Buffer) (offset : Int) : Nat :=
  (b.lineStarts.toList.filter fun (s : Nat) => decide ((s : Int) ≤ offset)).length

/-- The 1-based line and 0-based byte column of an offset. -/
def lineAndColumn (b : Buffer) (offset : Int) : Int × Int :=
  let count := b.startsUpTo offset
  let start := if count = 0 then b.lineStarts.back?.getD 0 else b.lineStarts[count - 1]?.getD 0
  (count, offset - start)

/-- The octets of a span, cut at the end of the buffer. -/
def octets (b : Buffer) (s : Span) : ByteArray :=
  b.bytes.extract s.start s.stop

/-- The text of a span, each malformed octet sequence written as U+FFFD. -/
def slice (b : Buffer) (s : Span) : String :=
  Text.Utf8.decodeLossy (b.octets s)

end Buffer

end RubyCheck.Source
