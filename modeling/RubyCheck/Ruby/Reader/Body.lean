import RubyCheck.Ruby.Reader.Grammar

/-!
# Bodies of compound constructs

**Clauses that hold statements.**

- `thenPart` reads what follows a condition or a pattern: a terminator, the keyword `then`, or
  both, and statements. With the keyword or statements they form a `then` node; a bare
  terminator stays a piece of the clause itself.
- `withClauses` reads the body of a method, class, `begin` or `do` block: statements followed by
  `rescue`, `else` and `ensure` clauses, up to `end`.
- A `rescue` clause holds its exception classes, the variable after `=>`, and its statements.
-/

namespace RubyCheck.Ruby

namespace Body

/-- The part after a condition, read with the statement context `body`: a terminator or `then` or
both, and statements. Where neither comes before more text, the terminator is missing. -/
def thenPart (G : Grammar) (body : Ctx) (field : String) : Reader (List Piece) := do
  let term ← G.terminator?
  let kw ← G.word? "then" false
  let term ←
    if term.isNone && kw.isNone && (← Reader.peek .operator false).tok != .eof then
      some <$> Piece.child <$> Reader.missing ";" false
    else pure term
  let stmts ← G.statements body
  let head := term.toList ++ (kw.map (·.piece "then")).toList
  if kw.isNone && stmts.isEmpty then return head
  else
    let node ← Reader.build "then" true (head ++ stmts)
    return [.child (node.withField field)]

/-- A splat in a list of values, from its `*`. -/
def splat (G : Grammar) (ctx : Ctx) : Reader Cst := do
  let star ← G.take .operand false
  let value ← G.arg ctx 0 false
  Reader.build "splat_argument" true ([star.piece "*"] ++ (value.map .child).toList)

/-- A value of a list of exception classes or `when` patterns: a splat or an operand. -/
def listValue (G : Grammar) (ctx : Ctx) : Reader (Option Cst) := do
  let lx ← Reader.peek .operand false
  if lx.tok.isPunct "*@" then some <$> splat G ctx
  else G.arg ctx 0 false

/-- The exception classes of a `rescue` clause. -/
def exceptions (G : Grammar) (ctx : Ctx) : Reader (Option Cst) := do
  let lx ← Reader.peek .operand true
  if !lx.tok.startsOperand then return none
  let items ← G.commaList ctx false (listValue G ctx)
  if items.isEmpty then return none
  let node ← Reader.build "exceptions" true items
  return some (node.withField "exceptions")

/-- A `rescue` clause from its keyword, with `body` the context of its statements. -/
def rescueClause (G : Grammar) (body : Ctx) (kw : Lexeme) : Reader Cst := do
  let head := { body with closers := "then" :: body.closers }
  let classes ← exceptions G head
  let binding ← do
    match ← G.punct? "=>" .operator true with
    | none => pure []
    | some arrow =>
      let target ← G.arg head 90 false
      let node ← Reader.build "exception_variable" true
        ([arrow.piece "=>"] ++ (target.map .child).toList)
      pure [.child (node.withField "variable")]
  let rest ← thenPart G body "body"
  Reader.build "rescue" true
    ([kw.piece "rescue"] ++ (classes.map .child).toList ++ binding ++ rest)

/-- An `else` clause from its keyword. -/
def elseClause (G : Grammar) (body : Ctx) (kw : Lexeme) : Reader Cst := do
  let term ← G.terminator?
  let stmts ← G.statements body
  Reader.build "else" true ([kw.piece "else"] ++ term.toList ++ stmts)

/-- Statements followed by `rescue`, `else` and `ensure` clauses, up to the `end` of the
construct. -/
def withClauses (G : Grammar) (ctx : Ctx) : Reader (List Piece) := do
  let s ← Reader.input
  let body := ctx.block "end" ["rescue", "else", "ensure"]
  let stmts ← G.statements body
  let rec clauses (acc : List Piece) (fuel : Nat) : Reader (List Piece) := do
    match fuel with
    | 0 => return acc
    | fuel + 1 =>
      let lx ← Reader.peek .operator false
      if lx.tok.isWord "rescue" then
        let kw ← G.take .operator false
        let node ← rescueClause G body kw
        clauses (acc ++ [.child node]) fuel
      else if lx.tok.isWord "else" then
        let kw ← G.take .operator false
        let node ← elseClause G { body with stops := ["ensure"] } kw
        clauses (acc ++ [.child node]) fuel
      else if lx.tok.isWord "ensure" then
        let kw ← G.take .operator false
        let stmts ← G.statements { body with stops := [] }
        let node ← Reader.build "ensure" true ([kw.piece "ensure"] ++ stmts)
        clauses (acc ++ [.child node]) fuel
      else return acc
  clauses stmts (s.size + 1)

end Body

end RubyCheck.Ruby
