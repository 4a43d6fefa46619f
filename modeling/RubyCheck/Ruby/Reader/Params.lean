import RubyCheck.Ruby.Reader.Body

/-!
# Parameters and blocks

**Formal parameters of methods, blocks and lambdas; blocks in braces and `do` blocks.**

- A formal parameter is a name, a name with a default (`a = 1`), a keyword (`a:` or `a: 1`), a
  splat (`*a`), a double splat (`**a`, or `**nil`), a block parameter (`&a`), `...`, or a
  parenthesised list of parameters that destructures its argument.
- Block parameters stand between bars; names after a `;` are block-local variables. `||` is an
  empty list. A `;` or `,` that no name follows is skipped, and a missing closing bar is
  supplied.
- A block in braces holds its parameters and a `block_body`; a `do` block its parameters and a
  `body_statement`. A block the text ends inside, with nothing in it, with a line break after its
  last statement, or inside its parameters, is not a block: its pieces are left in an `ERROR`
  node.
-/

namespace RubyCheck.Ruby

namespace Params

/-- A parameter's name, if a word comes next. -/
def name? (G : Grammar) : Reader (Option Cst) := do
  let lx ← Reader.peek .operand false
  match lx.tok with
  | .word _ =>
    let t ← G.take .operand false
    return some ((t.leaf "identifier" true).withField "name")
  | _ => return none

/-- A node of a prefix token and an optional name. -/
def prefixed (G : Grammar) (type spelling : String) : Reader Cst := do
  let t ← G.take .operand false
  let n ← name? G
  Reader.build type true ([t.piece spelling] ++ (n.map .child).toList)

/-- One formal parameter, or nothing when the next token starts none. `nested` reads the
parameters of a destructuring list. -/
def formal (G : Grammar) (ctx : Ctx) (nested : Unit → Reader (List Piece)) :
    Reader (Option Cst) := do
  let s ← Reader.input
  let lx ← Reader.peek .operand false
  match lx.tok with
  | .punct "*@" | .punct "*" => some <$> prefixed G "splat_parameter" "*"
  | .punct "**@" | .punct "**" =>
    let t ← G.take .operand false
    let next ← Reader.peek .operand false
    if next.tok.isWord "nil" then
      let n ← G.take .operand false
      some <$> Reader.build "hash_splat_nil" true [t.piece "**", n.piece "nil"]
    else
      let n ← name? G
      some <$> Reader.build "hash_splat_parameter" true ([t.piece "**"] ++ (n.map .child).toList)
  | .punct "&@" | .punct "&" => some <$> prefixed G "block_parameter" "&"
  | .punct "..." =>
    let t ← G.take .operand false
    return some (t.leaf "forward_parameter" true)
  | .punct "(" =>
    let t ← G.take .operand false
    let items ← nested ()
    let close ← G.punct? ")" .operator false
    let closing ← match close with
      | some c => pure (c.piece ")")
      | none => Piece.child <$> Reader.missing ")" false
    some <$> Reader.build "destructured_parameter" true ([t.piece "("] ++ items ++ [closing])
  | .word _ =>
    let t ← G.take .operand false
    let ident := t.leaf "identifier" true
    if s.is t.stop ':' && !s.is (t.stop + 1) ':' then
      Reader.seek (t.stop + 1)
      let colon := Cst.leaf ":" false t.stop (t.stop + 1)
      let next ← Reader.peek .operand false
      let value ←
        if next.tok.startsOperand && !next.tok.isPunct "&@" && !next.tok.isPunct "*@" then
          G.arg ctx 51 false
        else pure none
      some <$> Reader.build "keyword_parameter" true
        ([.child (ident.withField "name"), .child colon] ++
          (value.map fun v => Piece.child (v.withField "value")).toList)
    else
      match ← G.punct? "=" .operator false with
      | some eq =>
        let value ← G.arg ctx 51 false
        some <$> Reader.build "optional_parameter" true
          ([.child (ident.withField "name"), eq.piece "="] ++
            (value.map fun v => Piece.child (v.withField "value")).toList)
      | none => return some ident
  | _ => return none

/-- Formal parameters separated by commas, destructuring lists nested at most `depth` deep. -/
def formals (G : Grammar) (ctx : Ctx) : Nat → Reader (List Piece)
  | 0 => pure []
  | depth + 1 => G.commaList ctx false (formal G ctx fun _ => formals G ctx depth)

/-- Formal parameters with the depth bound of the text. -/
def formalList (G : Grammar) (ctx : Ctx) : Reader (List Piece) := do
  let s ← Reader.input
  formals G ctx (s.size + 1)

/-- Block-local names after `;`, separated by commas. A comma that no name follows is skipped. -/
def localNames (G : Grammar) : Reader (List Piece) := do
  let s ← Reader.input
  let rec go (acc : List Piece) (fuel : Nat) : Reader (List Piece) := do
    match fuel with
    | 0 => return acc
    | fuel + 1 =>
      match ← name? G with
      | none => return acc
      | some n =>
        let acc := acc ++ [.child (n.withField "locals")]
        let lx ← Reader.peek .operator false
        if lx.tok.isPunct "," then
          let comma ← G.take .operator false
          let next ← Reader.peek .operand false
          match next.tok with
          | .word _ => go (acc ++ [comma.piece ","]) fuel
          | _ =>
            Reader.float (.mk "ERROR" true none false comma.start comma.stop [comma.leaf ","])
            return acc
        else return acc
  go [] (s.size + 1)

/-- Block parameters from the opening bar. -/
def blockParameters (G : Grammar) (ctx : Ctx) (bar : Lexeme) : Reader Cst := do
  let inner := ctx.nested "|"
  let params ← formalList G inner
  let locals ← do
    match ← G.punct? ";" .operator false with
    | none => pure []
    | some semi =>
      let names ← localNames G
      if names.isEmpty then
        Reader.float (.mk "ERROR" true none false semi.start semi.stop [semi.leaf ";"])
        pure []
      else pure ([semi.piece ";"] ++ names)
  -- tokens that are no parameter are skipped up to a closing bar on the same line
  let s ← Reader.input
  let here := (← get).pos
  let lineRest := s.slice here (s.lineEnd here)
  let barAhead := (lineRest.splitOn "\x7d").head?.any fun t => t.contains '|'
  let rec skip (fuel : Nat) : Reader Unit := do
    match fuel with
    | 0 => pure ()
    | fuel + 1 =>
      let lx ← Reader.peek .operator false
      match lx.tok with
      | .eof | .punct "|" | .punct "\x7d" | .word "end" => pure ()
      | _ =>
        G.skipJunk .operator
        skip fuel
  if barAhead then skip (s.size + 1)
  let closing ← do
    match ← G.punct? "|" .operator false with
    | some c => pure (c.piece "|")
    | none => Piece.child <$> Reader.missing "|" false
  Reader.build "block_parameters" true ([bar.piece "|"] ++ params ++ locals ++ [closing])

/-- Block parameters if a bar comes next, as the `parameters` piece. -/
def blockParameters? (G : Grammar) (ctx : Ctx) : Reader (Option Cst) := do
  let lx ← Reader.peek .operand false
  if lx.tok.isPunct "|" then
    let bar ← G.take .operand false
    let node ← blockParameters G ctx bar
    return some (node.withField "parameters")
  else if lx.tok.isPunct "||" then
    let bars ← G.take .operand false
    let node : Cst := .mk "block_parameters" true none false bars.start bars.stop
      [Cst.leaf "|" false bars.start (bars.start + 1), Cst.leaf "|" false (bars.start + 1) bars.stop]
    return some (node.withField "parameters")
  else return none

/-- Whether the text ends inside block parameters, which then lack their closing bar. -/
def unclosedAtEnd (params : Option Cst) : Reader Bool := do
  if params.any fun p => p.children.getLast?.any (·.missing) then
    return (← Reader.peek .operator false).tok == .eof
  else return false

/-- The tokens and parameters of block parameters, left in an `ERROR` node with the block. -/
def spread (params : Option Cst) : List Piece :=
  (params.map fun p => (p.children.filter (!·.missing)).map .child).getD []

/-- Parameters in parentheses from the `(`, as a node of `type`. A token that cannot follow a
parameter, followed by a name, is left in an `ERROR` node with the parameter before it, and the
list goes on. -/
def parenthesized (G : Grammar) (ctx : Ctx) (opening : Lexeme) (type : String) : Reader Cst := do
  let s ← Reader.input
  let inner := ctx.nested ")"
  let rec recover (params : List Piece) (fuel : Nat) : Reader (List Piece) := do
    match fuel with
    | 0 => return params
    | fuel + 1 =>
      let lx ← Reader.peek .operator false
      let after := (s.peekAt lx.stop .operand false []).2
      match lx.tok, after.tok, params.getLast? with
      | .punct p, .word _, some (.child last) =>
        if p == ")" || p == "," then return params
        let junk ← G.take .operator false
        Grammar.abandon [.child last, .child (junk.asSkipped s)]
        let more ← formalList G inner
        recover (params.dropLast ++ more) fuel
      | _, _, _ => return params
  let params ← recover (← formalList G inner) (s.size + 1)
  let closing ← do
    match ← G.punct? ")" .operator false with
    | some c => pure (c.piece ")")
    | none => Piece.child <$> Reader.missing ")" false
  Reader.build type true ([opening.piece "("] ++ params ++ [closing])

/-- A block in braces from its `{`; nothing when the block is abandoned. -/
def braceBlock (G : Grammar) (ctx : Ctx) (opening : Lexeme) : Reader (Option Cst) := do
  let body := ctx.block "\x7d" []
  let params ← blockParameters? G body
  if ← unclosedAtEnd params then
    Grammar.abandon ([opening.piece "\x7b"] ++ spread params)
    return none
  let stmts ← G.statements body
  let head := [opening.piece "\x7b"] ++ (params.map .child).toList
  let content := params.isSome || !stmts.isEmpty
  match ← G.close "\x7d" false (← Grammar.bracketAbandoned opening.start content) with
  | .abandon =>
    Grammar.abandon (head ++ stmts)
    return none
  | .closed p | .missing p =>
    let bodyPieces ←
      if stmts.isEmpty then pure []
      else do
        let node ← Reader.build "block_body" true stmts
        pure [Piece.child (node.withField "body")]
    some <$> Reader.build "block" true (head ++ bodyPieces ++ [p])

/-- A `do` block from its `do`; nothing when the block is abandoned. -/
def doBlock (G : Grammar) (ctx : Ctx) (kw : Lexeme) : Reader (Option Cst) := do
  let term ← G.terminator?
  let params ← blockParameters? G (ctx.block "end" [])
  if ← unclosedAtEnd params then
    Grammar.abandon ([kw.piece "do"] ++ term.toList ++ spread params)
    return none
  let term2 ← if params.isSome then G.terminator? else pure none
  let body ← Body.withClauses G ctx
  let head := [kw.piece "do"] ++ term.toList ++ (params.map .child).toList ++ term2.toList
  match ← G.close "end" true (Grammar.holdsStatement body) with
  | .abandon =>
    Grammar.abandon (head ++ body)
    return none
  | .closed p | .missing p =>
    let bodyPieces ←
      if body.isEmpty then pure []
      else do
        let node ← Reader.build "body_statement" true body
        pure [Piece.child (node.withField "body")]
    some <$> Reader.build "do_block" true (head ++ bodyPieces ++ [p])

end Params

end RubyCheck.Ruby
