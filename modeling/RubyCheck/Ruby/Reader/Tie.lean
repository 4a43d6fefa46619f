import RubyCheck.Ruby.Reader.Expr

/-!
# Closing the grammar

**The recursive grammar as a tower of layers, and the program reader.**

`Grammar.tie n` is the grammar whose constructs may nest `n` deep: each layer's entry points
read with the layer below, and the bottom layer reads nothing. Every nesting of one construct in
another takes at least one token for every four layers, so a depth of four times the length of
the text, plus a margin, reads every text in full.

`readProgram` reads the statements of the whole text. The word `__END__` where a statement may
start ends the program; the rest of the text, from right after the word, is an `uninterpreted`
node. Floating nodes that no node took are placed under the
program, in text order.
-/

namespace RubyCheck.Ruby

namespace Grammar

/-- The grammar that reads nothing. -/
def bottom : Grammar where
  statements _ := pure []
  statement _ := pure none
  expression _ _ := pure none
  arg _ _ _ := pure none
  pattern _ _ := pure none
  heredocBody _ start _ := pure (Cst.leaf "heredoc_body" true start start)

/-- One layer of the grammar, reading nested constructs with `inner`. -/
def step (inner : Unit → Grammar) : Grammar where
  statements ctx := ExprReader.statements (inner ()) ctx
  statement ctx := ExprReader.statement (inner ()) ctx
  expression ctx patterns := ExprReader.expression (inner ()) ctx patterns
  arg ctx minPrec cmd := ExprReader.arg (inner ()) ctx minPrec cmd
  pattern ctx top := PatternReader.pattern (inner ()) ctx top
  heredocBody h start stop := Literal.heredocBody (inner ()) h start stop

/-- The grammar whose constructs nest at most `n` deep. -/
def tie : Nat → Grammar
  | 0 => bottom
  | n + 1 => step fun _ => tie n

end Grammar

/-- The program node of the whole text, in character positions. -/
def readProgram (G : Grammar) : Reader Cst := do
  let s ← Reader.input
  let stmts ← G.statements {}
  let lx ← Reader.peek .operand false
  let tail ←
    if lx.tok.isWord "__END__" then do
      let t ← G.take .operand false
      pure [t.piece "__END__", .child (Cst.leaf "uninterpreted" true t.stop s.size)]
    else do
      let _ ← G.take .operand false
      pure []
  let extras ← Reader.leftovers
  let kids := (stmts ++ tail).filterMap fun
    | .child c => some c
    | .hidden .. => none
  let kids := mergeByStart kids extras (kids.length + extras.length + 1)
  return .mk "program" true none false 0 s.size kids

/-- The concrete tree of a text, in character positions. -/
def Input.read (s : Input) : Cst :=
  let G := Grammar.tie (4 * s.size + 64)
  ((readProgram G).run s |>.run {}).1

end RubyCheck.Ruby
