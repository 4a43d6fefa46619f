import RubyCheck.Ruby.Reader.Call

/-!
# Control structures

**Conditionals, loops, `case` and `begin`.**

- `if` and `unless` hold a condition, a consequence (`then`), and an alternative: an `else`
  clause or an `elsif` that nests the rest of the chain.
- `while` and `until` hold a condition and a `do` node: `do` or a terminator, statements, `end`.
  A `do` in the condition opens the body, not a block of a call there.
- `for` holds the variables, an `in` node with the collection, and a `do` node.
- `case` holds its value and `when` clauses, each with its patterns and body; `case ... in`
  holds `in_clause`s with patterns and guards. An `else` clause may follow either. A closing word
  among the clauses that nothing waits for is skipped as junk.
- A condition that neither a terminator nor `then` (`do` for a loop) follows lacks its
  terminator.
- `begin` holds statements and `rescue`, `else` and `ensure` clauses.
- A construct the text ends inside is left in an `ERROR` node when it holds a statement, or when
  its head lacks the terminator or `then` that must follow a condition; otherwise it gets a
  missing `end`.
-/

namespace RubyCheck.Ruby

namespace Control

/-- The context of a condition that `closer` or `end` ends. -/
def conditionCtx (ctx : Ctx) (closer : String) (noDo : Bool) : Ctx :=
  { lineBreaks := true, noDo, closers := closer :: "end" :: ctx.closers, stops := [] }

/-- A condition: a statement, or a missing identifier. -/
def condition (G : Grammar) (ctx : Ctx) : Reader Cst := do
  match ← G.statement ctx with
  | some c => return c.withField "condition"
  | none => return (← Reader.missing "identifier" true).withField "condition"

/-- Ends a construct with `end`: the pieces of the finished node, or nothing when the construct
is abandoned, which the text ending inside it does when `abandonAtEnd`. -/
def finish (G : Grammar) (type : String) (pieces : List Piece) (abandonAtEnd : Bool) :
    Reader (Option Cst) := do
  match ← G.close "end" true abandonAtEnd with
  | .abandon =>
    Grammar.abandon pieces
    return none
  | .closed p | .missing p => some <$> Reader.build type true (pieces ++ [p])

/-- The alternatives of an `if` or `unless`, an `else` or an `elsif` chain, as the `alternative`
piece. -/
def alternatives (G : Grammar) (ctx : Ctx) : Reader (List Piece) := do
  let s ← Reader.input
  let rec go (fuel : Nat) : Reader (List Piece) := do
    match fuel with
    | 0 => return []
    | fuel + 1 =>
      let lx ← Reader.peek .operator false
      if lx.tok.isWord "elsif" then
        let kw ← G.take .operator false
        let cond ← condition G (conditionCtx ctx "then" false)
        let body ← Body.thenPart G (ctx.block "end" ["elsif", "else"]) "consequence"
        let rest ← go fuel
        let node ← Reader.build "elsif" true ([kw.piece "elsif", .child cond] ++ body ++ rest)
        return [.child (node.withField "alternative")]
      else if lx.tok.isWord "else" then
        let kw ← G.take .operator false
        let node ← Body.elseClause G (ctx.block "end" []) kw
        return [.child (node.withField "alternative")]
      else return []
  go (s.size + 1)

/-- Whether a `;` comes right after a keyword that a condition must follow; the keyword is then
left in an `ERROR` node. -/
def conditionAbsent (kw : Lexeme) (word : String) : Reader Bool := do
  if (← Reader.peek .operand false).tok.isPunct ";" then
    Grammar.abandon [kw.piece word]
    return true
  else return false

/-- `if` or `unless` from its keyword. -/
def conditional (G : Grammar) (ctx : Ctx) (kw : Lexeme) (word : String) : Reader (Option Cst) := do
  if ← conditionAbsent kw word then return none
  let cond ← condition G (conditionCtx ctx "then" false)
  let body ← Body.thenPart G (ctx.block "end" ["elsif", "else"]) "consequence"
  let alternative ← alternatives G ctx
  finish G word ([kw.piece word, .child cond] ++ body ++ alternative)
    (body.isEmpty || Grammar.holdsStatement (body ++ alternative))

/-- The body of a loop: `do` or a terminator, then statements up to `end`, as a `do` node. -/
def loopBody (G : Grammar) (ctx : Ctx) : Reader (Option Cst) := do
  let lx ← Reader.peek .operator true
  let head ←
    if lx.tok.isWord "do" then do
      let t ← G.take .operator true
      pure [t.piece "do"]
    else do
      match ← G.terminator? with
      | some term => pure [term]
      | none =>
        -- a loop head that neither `do` nor a terminator ends lacks its terminator
        if (← Reader.peek .operator false).tok == .eof then pure []
        else pure [Piece.child (← Reader.missing ";" false)]
  let stmts ← G.statements (ctx.block "end" [])
  let node ← finish G "do" (head ++ stmts) (head.isEmpty || Grammar.holdsStatement stmts)
  return node.map (·.withField "body")

/-- `while` or `until` from its keyword. -/
def loop (G : Grammar) (ctx : Ctx) (kw : Lexeme) (word : String) : Reader (Option Cst) := do
  if ← conditionAbsent kw word then return none
  let cond ← condition G (conditionCtx ctx "do" true)
  match ← loopBody G ctx with
  | some body => some <$> Reader.build word true [kw.piece word, .child cond, .child body]
  | none =>
    Grammar.abandon [kw.piece word, .child cond]
    return none

/-- The variables of a `for` loop: one target, or several as a `left_assignment_list`. -/
def forTargets (G : Grammar) (ctx : Ctx) : Reader Cst := do
  let items ← G.commaList ctx false (G.arg ctx 90 false)
  match items with
  | [.child one] => return one.withField "pattern"
  | [] => return (← Reader.missing "identifier" true).withField "pattern"
  | _ => return (← Reader.build "left_assignment_list" true items).withField "pattern"

/-- `for` from its keyword. -/
def forLoop (G : Grammar) (ctx : Ctx) (kw : Lexeme) : Reader (Option Cst) := do
  let head := conditionCtx ctx "in" true
  let targets ← forTargets G head
  let collection ← do
    match ← G.word? "in" false with
    | some inKw =>
      let value ← G.arg (conditionCtx ctx "do" true) 0 true
      let node ← Reader.build "in" true ([inKw.piece "in"] ++ (value.map .child).toList)
      pure [Piece.child (node.withField "value")]
    | none => pure []
  match ← loopBody G ctx with
  | some body =>
    some <$> Reader.build "for" true ([kw.piece "for", .child targets] ++ collection ++ [.child body])
  | none =>
    Grammar.abandon ([kw.piece "for", .child targets] ++ collection)
    return none

/-- A pattern of a `when` clause: a splat or an operand, in a `pattern` node. -/
def whenPattern (G : Grammar) (ctx : Ctx) : Reader (Option Cst) := do
  match ← Body.listValue G ctx with
  | some v =>
    let node ← Reader.build "pattern" true [.child v]
    return some (node.withField "pattern")
  | none => return none

/-- A `when` clause from its keyword, and its pieces when nothing follows its patterns: such a
clause is still open. -/
def whenClause (G : Grammar) (ctx : Ctx) (kw : Lexeme) : Reader (Cst × Option (List Piece)) := do
  let head := conditionCtx ctx "then" false
  let patterns ← G.commaList head false (whenPattern G head)
  let body ← Body.thenPart G (ctx.block "end" ["when", "else"]) "body"
  let pieces := [kw.piece "when"] ++ patterns ++ body
  let openPieces := if body.isEmpty then some pieces else none
  return (← Reader.build "when" true pieces, openPieces)

/-- The guard of an `in` clause, if `if` or `unless` follows the pattern. -/
def guard (G : Grammar) (ctx : Ctx) : Reader (List Piece) := do
  let lx ← Reader.peek .operator true
  match lx.tok with
  | .word "if" | .word "unless" =>
    let w := if lx.tok.isWord "if" then "if" else "unless"
    let kw ← G.take .operator true
    let cond ← G.expression ctx false
    let node ← Reader.build (w ++ "_guard") true
      ([kw.piece w] ++ (cond.map fun c => Piece.child (c.withField "condition")).toList)
    return [.child (node.withField "guard")]
  | _ => return []

/-- An `in` clause from its keyword. -/
def inClause (G : Grammar) (ctx : Ctx) (kw : Lexeme) : Reader (Cst × Option (List Piece)) := do
  let head := conditionCtx ctx "then" false
  let pattern ← G.pattern head true
  let guarded ← guard G head
  let body ← Body.thenPart G (ctx.block "end" ["in", "else"]) "body"
  let pieces := [kw.piece "in"] ++
    (pattern.map fun p => Piece.child (p.withField "pattern")).toList ++ guarded ++ body
  let openPieces := if body.isEmpty then some pieces else none
  return (← Reader.build "in_clause" true pieces, openPieces)

/-- `case` from its keyword: `when` clauses, or `in` clauses for pattern matching. -/
def caseOf (G : Grammar) (ctx : Ctx) (kw : Lexeme) : Reader (Option Cst) := do
  let s ← Reader.input
  let lx ← Reader.peek .operator true
  let value ←
    if lx.tok == .lineBreak || lx.tok.isPunct ";" then pure none
    else G.statement (conditionCtx ctx "when" false)
  let term ← G.terminator?
  let first ← Reader.peek .operator false
  let matching := first.tok.isWord "in"
  -- the clauses, and the pieces of the last one while it is still open
  let rec clauses (acc : List Piece) (last : Option (List Piece)) (fuel : Nat) :
      Reader (List Piece × Option (List Piece)) := do
    match fuel with
    | 0 => return (acc, last)
    | fuel + 1 =>
      let lx ← Reader.peek .operator false
      if !matching && lx.tok.isWord "when" then
        let k ← G.take .operator false
        let (node, openPieces) ← whenClause G ctx k
        clauses (acc ++ [.child node]) openPieces fuel
      else if matching && lx.tok.isWord "in" then
        let k ← G.take .operator false
        let (node, openPieces) ← inClause G ctx k
        clauses (acc ++ [.child node]) openPieces fuel
      else if lx.tok.isPunct ";" then
        let t ← G.take .operator false
        clauses (acc ++ [t.piece ";"]) none fuel
      else if lx.tok.isWord "else" then
        let k ← G.take .operator false
        let node ← Body.elseClause G (ctx.block "end" []) k
        return (acc ++ [.child (node.withField "else")], none)
      else if lx.tok.word?.any fun w => closingWords.contains w && w != "end" && !ctx.awaits w then
        -- a closing word that nothing waits for is junk
        G.skipJunk .operator
        clauses acc last fuel
      else return (acc, last)
  let (body, last) ← clauses [] none (s.size + 1)
  let head := [kw.piece "case"] ++ (value.map fun v => Piece.child (v.withField "value")).toList ++
    term.toList
  -- a clause still open when the text ends is not a node: its pieces stand in the `ERROR` node
  let atEnd := (← Reader.peek .operator false).tok == .eof
  let body := match last with
    | some pieces =>
      if atEnd then body.dropLast ++ pieces.flatMap fun
        | .child c => if c.type == "pattern" then c.children.map .child else [.child c]
        | p => [p]
      else body
    | none => body
  finish G (if matching then "case_match" else "case") (head ++ body) (Grammar.holdsStatement body)

/-- `begin` from its keyword. -/
def beginBlock (G : Grammar) (ctx : Ctx) (kw : Lexeme) : Reader (Option Cst) := do
  let term ← G.terminator?
  let body ← Body.withClauses G ctx
  finish G "begin" ([kw.piece "begin"] ++ term.toList ++ body) (Grammar.holdsStatement body)

end Control

end RubyCheck.Ruby
