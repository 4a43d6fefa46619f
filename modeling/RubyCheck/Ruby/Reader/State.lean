import RubyCheck.Ruby.Token
import RubyCheck.Ruby.Cst

/-!
# The reader's state

**Positions, pending here-documents and floating nodes.**

The reader walks the text once, left to right. Its state holds the position after the last token
taken, the end of that token, the here-documents whose bodies begin at the next newline, and the
*floating* nodes not yet placed in the tree: here-document bodies and recovery nodes.

A node is built from its *pieces* (`build`): children, and hidden tokens that count only for its
range. A floating node is placed in the innermost node built around it: when a node is built, it
takes every floating node inside its range, in text order among its children. What no node takes
ends up under the program.

- `take` reads the next token and commits its gap: each run of characters that start no token
  becomes an `ERROR` node holding an `ERROR` leaf, and each here-document body passed becomes a
  floating `heredoc_body`.
- `missing` makes a zero-width stand-in at the end of the last token.
-/

namespace RubyCheck.Ruby

/-- A part of a node under construction: a child, or a hidden token that only widens the node. -/
inductive Piece where
  | child (c : Cst)
  | hidden (start stop : Nat)
  deriving Repr, Inhabited

namespace Piece

def start : Piece → Nat
  | .child c => c.start
  | .hidden s _ => s

def stop : Piece → Nat
  | .child c => c.stop
  | .hidden _ e => e

end Piece

/-- What the reader knows about its progress through the text. -/
structure ReadState where
  /-- where the next gap starts -/
  pos : Nat := 0
  /-- where the last token taken ends -/
  lastEnd : Nat := 0
  /-- here-documents whose bodies begin at the next newline -/
  pending : List Heredoc := []
  /-- floating nodes not yet placed, in text order -/
  extras : List Cst := []
  deriving Inhabited

/-- Reading Ruby text. -/
abbrev Reader := ReaderT Input (StateM ReadState)

/-- What the surrounding constructs expect. -/
structure Ctx where
  /-- statement level: a newline ends the expression, and modifiers may follow it -/
  lineBreaks : Bool := true
  /-- a `do` here opens the body of an enclosing command or loop, not a block of this call -/
  noDo : Bool := false
  /-- tokens an enclosing construct waits for, innermost first -/
  closers : List String := []
  /-- keywords that end the innermost list of statements -/
  stops : List String := []
  /-- inside a list of command arguments: a comma there separates arguments -/
  inList : Bool := false
  deriving Inhabited

namespace Ctx

/-- The context inside brackets: newlines do not count, `do` opens blocks again, and `closer`
is awaited. -/
def nested (ctx : Ctx) (closer : String) : Ctx :=
  { ctx with lineBreaks := false, noDo := false, closers := closer :: ctx.closers, inList := false }

/-- The context of a list of statements ended by `closer` or the keywords `stops`. -/
def block (ctx : Ctx) (closer : String) (stops : List String) : Ctx :=
  { lineBreaks := true, noDo := false, closers := closer :: ctx.closers, stops }

/-- Whether an enclosing construct waits for `t`. -/
def awaits (ctx : Ctx) (t : String) : Bool := ctx.closers.contains t || ctx.stops.contains t

end Ctx

/-- Children in text order: merges two lists each in text order, keeping `a`'s node first on a
tie. -/
def mergeByStart : List Cst → List Cst → Nat → List Cst
  | a, [], _ => a
  | [], b, _ => b
  | x :: xs, y :: ys, fuel + 1 =>
    if y.start < x.start then y :: mergeByStart (x :: xs) ys fuel
    else x :: mergeByStart xs (y :: ys) fuel
  | a, b, 0 => a ++ b

namespace Reader

/-- The text being read. -/
def input : Reader Input := read

/-- The next token, read in `mode`, without taking it; `lineBreaks` tells whether a newline ends
the statement here. -/
def peek (mode : Mode) (lineBreaks : Bool) : Reader Lexeme := do
  let s ← read
  let st ← get
  return (s.peekAt st.pos mode lineBreaks st.pending).2

/-- Adds a floating node. An `ERROR` node right before or after the last floating `ERROR` node
on its line, with only spaces and tabs between them, joins it: the two are one run of skipped
text. -/
def float (c : Cst) : Reader Unit := do
  let s ← read
  modify fun st =>
    match st.extras.getLast? with
    | some last =>
      if c.type == "ERROR" && last.type == "ERROR" && last.stop ≤ c.start &&
          s.tokenEndBefore c.start ≤ last.stop then
        let joined : Cst := .mk "ERROR" true none false last.start c.stop (last.children ++ c.children)
        { st with extras := st.extras.dropLast ++ [joined] }
      else if c.type == "ERROR" && last.type == "ERROR" && c.stop ≤ last.start &&
          s.tokenEndBefore last.start ≤ c.stop then
        let joined : Cst := .mk "ERROR" true none false c.start last.stop (c.children ++ last.children)
        { st with extras := st.extras.dropLast ++ [joined] }
      else { st with extras := mergeByStart st.extras [c] (st.extras.length + 1) }
    | none => { st with extras := [c] }

/-- A recovery node around a run of characters that start no token. -/
def badRun (start stop : Nat) : Cst :=
  .mk "ERROR" true none false start stop [.mk "ERROR" true none false start stop []]

/-- Takes the next token, read in `mode`, committing the gap before it. `body` builds the node
of a here-document body passed in the gap. -/
def take (body : Heredoc → Nat → Nat → Reader Cst) (mode : Mode) (lineBreaks : Bool) :
    Reader Lexeme := do
  let s ← read
  let st ← get
  let (g, lx) := s.peekAt st.pos mode lineBreaks st.pending
  for (a, b) in g.bad do float (badRun a b)
  if !g.bodies.isEmpty then
    modify fun st => { st with pending := [] }
    for (h, a, b) in g.bodies do
      let node ← body h a b
      float node
  match lx.tok with
  | .lineBreak => modify fun st => { st with pos := lx.start + 1, lastEnd := lx.start }
  | _ => modify fun st => { st with pos := lx.stop, lastEnd := lx.stop }
  return lx

/-- Moves to `pos` without reading a token (inside literals). -/
def seek (pos : Nat) : Reader Unit :=
  modify fun st => { st with pos, lastEnd := pos }

/-- Registers a here-document whose body begins at the next newline. -/
def expectBody (h : Heredoc) : Reader Unit :=
  modify fun st => { st with pending := st.pending ++ [h] }

/-- Builds a node from its pieces, taking the floating nodes inside its range. -/
def build (type : String) (named : Bool) (pieces : List Piece) : Reader Cst := do
  let st ← get
  match pieces.head?, pieces.getLast? with
  | some first, some last =>
    let start := first.start
    let stop := last.stop
    let inside := st.extras.filter fun e => start ≤ e.start && e.stop ≤ stop
    let outside := st.extras.filter fun e => !(start ≤ e.start && e.stop ≤ stop)
    set { st with extras := outside }
    let kids := pieces.filterMap fun
      | .child c => some c
      | .hidden .. => none
    let kids := mergeByStart kids inside (kids.length + inside.length + 1)
    return .mk type named none false start stop kids
  | _, _ => return .mk type named none false st.lastEnd st.lastEnd []

/-- A zero-width stand-in for a missing token, at the end of the last token taken. -/
def missing (type : String) (named : Bool) : Reader Cst := do
  let st ← get
  return .mk type named none true st.lastEnd st.lastEnd []

/-- Places the floating nodes no node took. -/
def leftovers : Reader (List Cst) := do
  let st ← get
  set { st with extras := [] }
  return st.extras

end Reader

/-- A token as a leaf: anonymous unless `named`, spelled `type`. -/
def Lexeme.leaf (lx : Lexeme) (type : String) (named : Bool := false) : Cst :=
  Cst.leaf type named lx.start lx.stop

/-- A token as a piece. -/
def Lexeme.piece (lx : Lexeme) (type : String) (named : Bool := false) : Piece :=
  .child (lx.leaf type named)

end RubyCheck.Ruby
