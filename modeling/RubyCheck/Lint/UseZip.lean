import RubyCheck.Lint.Rule
import RubyCheck.Pattern.Match

/-!
# Mapping each element into a one-element array

**`xs.map { |x| [x] }` is `xs.zip`.**

The rule visits calls of `map`. It finds one when the call is the call of its parent block and
the block is `map` with one parameter whose body is an array of just that parameter, or a
numbered block of arity one whose body is an array of one local. A call on no receiver is left
alone. The offense runs from the method name to the end of the block; its message quotes the
first line of the block, and the correction replaces the offense with `zip`.
-/

namespace RubyCheck.Lint

open RubyCheck.Source RubyCheck.Tree RubyCheck.Pattern

namespace UseZip

/-- A `map` block with one parameter whose body is an array of that parameter. -/
def wrapsParameter : Pattern :=
  .kind .block
    [.kind .send [.wildcard, .literal (.text "map")],
     .kind .args [.kind .arg [.capture "id"]],
     .kind .array [.kind .lvar [.capture "id"]]]

/-- A numbered `map` block of arity one whose body is an array of one local. -/
def wrapsNumbered : Pattern :=
  .kind .numblock
    [.kind .send [.wildcard, .literal (.text "map")],
     .literal (.int 1),
     .kind .array [.kind .lvar [.wildcard]]]

/-- The first line of a text (the text before its first line feed), without the carriage
returns that end it. -/
def firstLine (s : String) : String :=
  let line := s.toList.takeWhile (· != '\n')
  String.ofList (line.reverse.dropWhile (· == '\r')).reverse

/-- The check of a `map` call. -/
def check : Check Unit := do
  let sc ← read
  let some v := sc.walk[sc.index]? | return
  let some p := v.parent | return
  let some pv := sc.walk[p]? | return
  let call := v.node
  let block := pv.node
  if !block.kind.isBlock then return
  let isBlockCall :=
    match block.children.head? with
    | some (.node _) => pv.childIds.head? == some sc.index
    | _ => false
  if !isBlockCall then return
  if !(Pattern.accepts wrapsParameter block || Pattern.accepts wrapsNumbered block) then return
  if let some (.atom .none) := call.children.head? then return
  let some selector := call.selector
    | throw (.malformed s!"send node {call.label} has no selector range")
  let span ←
    match Span.make? (selector.start : Int) (block.span.stop : Int) with
    | .ok s => pure s
    | .error e => throw (.other e.message)
  let written := firstLine (sc.buffer.slice block.span)
  Check.report span s!"Use 'zip' instead of '{written}'." (some (Edit.replace span "zip"))

end UseZip

/-- The rule that turns `map` into `zip`. -/
def useZip : Rule where
  id := "Performance/UseZipToWrapArrayContents"
  name := "use-zip-to-wrap-array-contents"
  severity := .warning
  fixable := true
  description :=
    "Wrapping each element in a one-element array with map is what zip does without a block."
  restrictOnSend := ["map"]
  checks := [(.send, UseZip.check)]

end RubyCheck.Lint
