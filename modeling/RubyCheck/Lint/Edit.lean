import RubyCheck.Source.Buffer

/-!
# Edits

**Changes to a text by byte ranges, applied in one batch.**

An edit replaces the octets of a span with a text; removing is replacing with nothing, and an
insertion is an edit of an empty span at one end of a range. `resolve` applies a batch of edits
to the octets of a text, all against the offsets of the unedited text:

- The edits are ordered by span (start, then end), stably: edits of equal spans keep the order
  they were given in, so insertions at one offset come out in that order.
- The first edit, in that order, that reaches past the end of the text is refused.
- The first two neighbours in that order whose spans overlap are refused as a conflict; empty
  spans overlap nothing at their own offset.
- Otherwise the replacements are spliced in from left to right, and the result must be valid
  UTF-8.
-/

namespace RubyCheck.Lint

open RubyCheck.Source

/-- A change to a text: the octets of `span` give way to `replacement`. -/
structure Edit where
  span : Span
  replacement : String
  deriving DecidableEq, Repr

namespace Edit

/-- Replaces a range. -/
def replace (span : Span) (text : String) : Edit := ⟨span, text⟩

/-- Removes a range. -/
def remove (span : Span) : Edit := ⟨span, ""⟩

/-- Inserts before a range. -/
def insertBefore (span : Span) (text : String) : Edit := ⟨Span.point span.start, text⟩

/-- Inserts after a range. -/
def insertAfter (span : Span) (text : String) : Edit := ⟨Span.point span.stop, text⟩

/-- Orders edits by start, then end. -/
def before (a b : Edit) : Bool :=
  a.span.start < b.span.start || (a.span.start == b.span.start && a.span.stop ≤ b.span.stop)

end Edit

/-- Why a batch of edits cannot be applied. -/
inductive EditError where
  /-- an edit reaches past the end of a text of `size` octets -/
  | outside (e : Edit) (size : Nat)
  /-- two edits overlap -/
  | conflict (first second : Edit)
  /-- the result is not valid UTF-8 -/
  | undecodable (m : Text.Utf8.Malformed)
  deriving Repr

/-- A span as a half-open interval. -/
def Span.interval (s : Span) : String := s!"[{s.start}, {s.stop})"

/-- The message of an edit error. -/
def EditError.message : EditError → String
  | .outside e size => s!"Edit {Span.interval e.span} is outside a buffer of {size} bytes"
  | .conflict a b => s!"Edit {Span.interval a.span} overlaps edit {Span.interval b.span}"
  | .undecodable m => m.message

/-- The first pair of neighbours whose spans overlap. -/
def firstConflict : List Edit → Option (Edit × Edit)
  | a :: b :: rest => if a.span.overlaps b.span then some (a, b) else firstConflict (b :: rest)
  | _ => none

/-- The octets with the ordered edits spliced in. -/
def splice (bytes : ByteArray) (ordered : List Edit) : ByteArray :=
  let (acc, last) := ordered.foldl
    (fun (acc, last) e =>
      (acc ++ bytes.extract last e.span.start ++ e.replacement.toUTF8, e.span.stop))
    (ByteArray.empty, 0)
  acc ++ bytes.extract last bytes.size

/-- Applies a batch of edits to the octets of a text. -/
def resolve (bytes : ByteArray) (edits : List Edit) : Except EditError String := do
  let ordered := edits.mergeSort Edit.before
  if let some e := ordered.find? (·.span.stop > bytes.size) then
    throw (.outside e bytes.size)
  if let some (a, b) := firstConflict ordered then
    throw (.conflict a b)
  match Text.Utf8.decode? (splice bytes ordered) with
  | .ok text => return text
  | .error m => throw (.undecodable m)

end RubyCheck.Lint
