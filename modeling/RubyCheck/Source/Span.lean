/-!
# Spans of source

A span is a half-open interval `[start, stop)` of byte offsets into a source text. Spans are
ordered by start, then by stop. Two spans overlap when each starts before the other ends, so an
empty span strictly inside another still overlaps it, while two empty spans at one offset do not.
-/

namespace RubyCheck.Source

/-- A half-open interval of byte offsets; it never ends before it starts. -/
structure Span where
  start : Nat
  stop : Nat
  ordered : start ≤ stop := by omega
  deriving DecidableEq, Repr

/-- Why two offsets make no span. -/
structure InvalidSpan where
  start : Int
  stop : Int
  deriving DecidableEq, Repr

/-- The message for offsets that make no span. -/
def InvalidSpan.message (e : InvalidSpan) : String :=
  s!"Invalid source range ({e.start}, {e.stop})"

namespace Span

/-- The span from `start` to `stop`, refused when `start` is negative or `stop` comes first. -/
def make? (start stop : Int) : Except InvalidSpan Span :=
  if h : 0 ≤ start ∧ start ≤ stop then
    .ok { start := start.toNat, stop := stop.toNat, ordered := by omega }
  else .error { start, stop }

/-- The empty span at `offset`. -/
def point (offset : Nat) : Span := { start := offset, stop := offset }

/-- The number of bytes a span covers. -/
def length (s : Span) : Nat := s.stop - s.start

def isEmpty (s : Span) : Bool := s.start == s.stop

/-- Whether each of the two spans starts before the other ends. -/
def overlaps (s t : Span) : Bool := s.start < t.stop && t.start < s.stop

/-- Whether `t` lies within `s`. -/
def contains (s t : Span) : Bool := s.start ≤ t.start && t.stop ≤ s.stop

/-- The least span that covers both. -/
def join (s t : Span) : Span :=
  { start := min s.start t.start, stop := max s.stop t.stop,
    ordered := by have := s.ordered; omega }

/-- The order of spans: by start, then by stop. -/
def lt (s t : Span) : Bool := s.start < t.start || (s.start == t.start && s.stop < t.stop)

/-- Whether `s` comes before `t` or equals it. -/
def le (s t : Span) : Bool := !(lt t s)

theorem overlaps_comm (s t : Span) : s.overlaps t = t.overlaps s := by
  simp only [overlaps, Bool.and_comm]

end Span

end RubyCheck.Source
