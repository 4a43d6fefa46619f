import RubyCheck.Ruby.Reader.Operand

/-!
# Expressions and statements

**Operators by binding strength, assignments, statements and their lists.**

- `arg` reads an operand and the operators after it that bind at least as tightly as its bound:
  binary operators by `binaryPrecedence`, assignments (only after something assignable), the
  conditional `?:` and ranges. A prefix operator binds its operand at its own strength (`-` and
  `+` at 75, `!` and `~` at 85, `not` at 5, `defined?` at 10).
- An operator whose right operand is missing gets a missing identifier. A keyword after an
  operand that nothing around waits for (`end`, `do`, `then`, ...) is skipped as junk.
- At the level of statements, a list of assignable operands separated by commas assigns to many
  (`a, b = 1, 2`), `value => pattern` and `value in pattern` test patterns, and a statement may
  end with modifiers (`if`, `unless`, `while`, `until`, `rescue`).
- Statements are separated by line breaks or `;`. Where a statement is followed by a token that
  starts another, the separator is missing; a token that starts none is skipped as junk.
- A statement that the text ends in before it is whole is left in an `ERROR` node when its
  tokens cost less to skip than a missing token (`missingCost`): a new `ERROR` node costs
  `recoveryCost`, which a statement right after junk shares with the junk.
-/

namespace RubyCheck.Ruby

/-- Whether the group opened by the `(` at `i` may be a list of assignment targets: its
matching `)` is followed, after blanks, by `,` or by an `=` that starts no longer operator.
Quoted text inside the group is passed over. A group that fails this test is read once, as
statements, rather than first as targets and then again. -/
def Input.mayBeTargets (s : Input) (i : Nat) : Bool :=
  go (i + 1) 1 (s.size + 1)
where
  /-- Scans from `j` with `depth` groups open. -/
  go (j depth : Nat) : Nat → Bool
    | 0 => false
    | fuel + 1 =>
      match s.get j with
      | none => false
      | some '(' => go (j + 1) (depth + 1) fuel
      | some ')' =>
        if depth == 1 then
          let k := s.skipIndent (j + 1)
          s.is k ',' || (s.is k '=' && !s.test (k + 1) fun c => c == '=' || c == '~' || c == '>')
        else go (j + 1) (depth - 1) fuel
      | some '"' => go (quoteEnd '"' (j + 1) (s.size + 1)) depth fuel
      | some '\'' => go (quoteEnd '\'' (j + 1) (s.size + 1)) depth fuel
      | some _ => go (j + 1) depth fuel
  /-- The position after the quote `q` that closes a quoted text, from `j`. -/
  quoteEnd (q : Char) (j : Nat) : Nat → Nat
    | 0 => j
    | fuel + 1 =>
      match s.get j with
      | none => j
      | some '\\' => quoteEnd q (j + 2) fuel
      | some c => if c == q then j + 1 else quoteEnd q (j + 1) fuel

namespace ExprReader

open OperandReader

/-- Whether a token after an operand is junk here: a closing bracket or keyword that no
enclosing construct waits for. -/
def isJunk (ctx : Ctx) (lx : Lexeme) : Bool :=
  match lx.tok with
  | .punct p => (p == "\x7d" || p == ")" || p == "]") && !ctx.closers.contains p
  | .word w => closingWords.contains w && !ctx.awaits w && !(w == "do" && ctx.noDo)
  | _ => false

/-- A unary node of `op` (spelled `spelling`) and its operand; a missing identifier stands for a
missing operand. -/
def unary (op : Lexeme) (spelling : String) (operand : Option Cst) : Reader Cst := do
  let operand ← match operand with
    | some o => pure o
    | none => Reader.missing "identifier" true
  Reader.build "unary" true [op.piece spelling, .child (operand.withField "operand")]

/-- An operand with its prefix operators. -/
def prefixed (G : Grammar) (ctx : Ctx) (cmd : Bool) : Reader (Option Operand) := do
  let lx ← Reader.peek .operand false
  match lx.tok with
  | .punct "-@" | .punct "+@" =>
    let op ← G.take .operand false
    let spelling := if lx.tok.isPunct "-@" then "-" else "+"
    let operand ← G.arg ctx 75 false
    return some { cst := ← unary op spelling operand }
  | .punct "!" | .punct "~" =>
    let op ← G.take .operand false
    let spelling := if lx.tok.isPunct "!" then "!" else "~"
    let operand ← G.arg ctx 85 false
    return some { cst := ← unary op spelling operand }
  | .word "not" =>
    let op ← G.take .operand false
    let operand ← G.arg ctx 5 false
    return some { cst := ← unary op "not" operand }
  | .word "defined?" =>
    let op ← G.take .operand false
    let next ← Reader.peek .operand false
    if next.tok.isPunct "(" then
      let opening ← G.take .operand false
      let inner ← parenthesized G ctx opening
      return some { cst := ← unary op "defined?" inner }
    else
      let operand ← G.arg ctx 10 false
      return some { cst := ← unary op "defined?" operand }
  | .punct ".." | .punct "..." =>
    let op ← G.take .operand false
    let spelling := if lx.tok.isPunct ".." then ".." else "..."
    let upper ← G.arg ctx rangePrecedence false
    let node ← Reader.build "range" true
      ([op.piece spelling] ++ (upper.map fun u => Piece.child (u.withField "end")).toList)
    return some { cst := node }
  | _ => operand G ctx cmd

/-- The value assigned after `=`: a splat, or an operand; at the level of statements, more
values after commas form a `right_assignment_list`, and a `rescue` modifier guards the value. -/
def assignedValue (G : Grammar) (ctx : Ctx) (cmd : Bool) : Reader (Option Cst) := do
  let lx ← Reader.peek .operand false
  let first ←
    if lx.tok.isPunct "*@" then some <$> Body.splat G ctx
    else G.arg ctx assignPrecedence cmd
  match first with
  | none => return none
  | some v =>
    let statementLevel := ctx.lineBreaks && cmd && !ctx.inList
    let v ←
      if statementLevel && (← Reader.peek .operator true).tok.isPunct "," then do
        let comma ← G.take .operator true
        let more ← G.commaList ctx false (Body.listValue G ctx)
        Reader.build "right_assignment_list" true ([.child v, comma.piece ","] ++ more)
      else pure v
    if statementLevel && (← Reader.peek .operator true).tok.isWord "rescue" then
      let kw ← G.take .operator true
      let handler ← G.arg ctx 0 false
      some <$> Reader.build "rescue_modifier" true
        ([.child (v.withField "body"), kw.piece "rescue"] ++
          (handler.map fun h => Piece.child (h.withField "handler")).toList)
    else return some v

/-- The binary node of `left`, the operator token `op` and the right operand, a missing
identifier when it is absent. -/
def binary (left : Cst) (op : Lexeme) (spelling : String) (right : Option Cst) : Reader Cst := do
  let right ← match right with
    | some r => pure r
    | none => Reader.missing "identifier" true
  Reader.build "binary" true
    [.child (left.withField "left"), op.piece spelling, .child (right.withField "right")]

/-- The operators after `left` that bind at least as tightly as `minPrec`. -/
def climb (G : Grammar) (ctx : Ctx) (minPrec : Int) (cmd : Bool) (left : Operand) :
    Reader Operand := do
  let s ← Reader.input
  let rec go (left : Operand) (fuel : Nat) : Reader Operand := do
    match fuel with
    | 0 => return left
    | fuel + 1 =>
      let lx ← Reader.peek .operator ctx.lineBreaks
      match lx.tok with
      | .punct p =>
        if (p == "=" || operatorAssignments.contains p) && left.assignable &&
            minPrec ≤ assignPrecedence then
          let op ← G.take .operator ctx.lineBreaks
          match ← assignedValue G ctx cmd with
          | none =>
            if p == "=" then
              Reader.float (.mk "ERROR" true none false op.start op.stop [op.leaf p])
              return left
            else
              -- an operator assignment lacks only its value
              let v ← Reader.missing "identifier" true
              let node ← Reader.build "operator_assignment" true
                [.child (left.cst.withField "left"), op.piece p, .child (v.withField "right")]
              go { cst := node } fuel
          | some v =>
            let type := if p == "=" then "assignment" else "operator_assignment"
            let node ← Reader.build type true
              [.child (left.cst.withField "left"), op.piece p, .child (v.withField "right")]
            go { cst := node } fuel
        else if p == "?" && !left.command && minPrec ≤ conditionalPrecedence then
          let op ← G.take .operator ctx.lineBreaks
          let consequence ← G.arg (ctx.nested ":") conditionalPrecedence false
          let consequence ← match consequence with
            | some c => pure c
            | none => Reader.missing "identifier" true
          let colon? ← G.punct? ":" .operator false
          if colon?.isNone && (← Reader.peek .operator false).tok == .eof then
            -- the text ends before the colon: the operator and what follows it are left out
            Grammar.abandon [op.piece "?", .child consequence]
            go left fuel
          else
            let colon ← match colon? with
              | some c => pure (c.piece ":")
              | none => Piece.child <$> Reader.missing ":" false
            let alternative ← G.arg ctx conditionalPrecedence false
            let alternative ← match alternative with
              | some a => pure a
              | none => Reader.missing "identifier" true
            let node ← Reader.build "conditional" true
              [.child (left.cst.withField "condition"), op.piece "?",
                .child (consequence.withField "consequence"), colon,
                .child (alternative.withField "alternative")]
            go { cst := node } fuel
        else if (p == ".." || p == "...") && !left.command && minPrec ≤ rangePrecedence then
          let op ← G.take .operator ctx.lineBreaks
          let next ← Reader.peek .operand ctx.lineBreaks
          let upper ←
            if next.tok.startsOperand then G.arg ctx rangePrecedence false else pure none
          let node ← Reader.build "range" true
            ([.child (left.cst.withField "begin"), op.piece p] ++
              (upper.map fun u => Piece.child (u.withField "end")).toList)
          go { cst := node } fuel
        else
          match binaryPrecedence p with
          | some (prec, rightGrouping) =>
            if prec ≥ minPrec && !left.command then
              let op ← G.take .operator ctx.lineBreaks
              let right ← G.arg ctx (if rightGrouping then prec else prec + 1) false
              go { cst := ← binary left.cst op p right } fuel
            else return left
          | none =>
            if isJunk ctx lx then
              G.skipJunk .operator
              go left fuel
            else return left
      | .word w =>
        if (w == "and" || w == "or") && minPrec ≤ -2 then
          let op ← G.take .operator ctx.lineBreaks
          let right ← G.arg ctx (-1) true
          go { cst := ← binary left.cst op w right } fuel
        else if isJunk ctx lx then
          G.skipJunk .operator
          go left fuel
        else return left
      | _ => return left
  go left (s.size + 1)

/-- An operand and the operators after it that bind at least as tightly as `minPrec`. -/
def arg (G : Grammar) (ctx : Ctx) (minPrec : Int) (cmd : Bool) : Reader (Option Cst) := do
  match ← prefixed G ctx cmd with
  | none => return none
  | some first => return some (← climb G ctx minPrec cmd first).cst

/-- One target of a multiple assignment: a splat, a parenthesised list of targets nested at
most `depth` deep, or an operand. -/
def target (G : Grammar) (ctx : Ctx) : Nat → Reader (Option Cst)
  | 0 => pure none
  | depth + 1 => do
    let lx ← Reader.peek .operand false
    if lx.tok.isPunct "*@" || lx.tok.isPunct "*" then
      let star ← G.take .operand false
      let next ← Reader.peek .operand false
      let inner ← if next.tok.startsOperand then G.arg ctx 90 false else pure none
      some <$> Reader.build "rest_assignment" true ([star.piece "*"] ++ (inner.map .child).toList)
    else if lx.tok.isPunct "(" then
      let opening ← G.take .operand false
      let inner := ctx.nested ")"
      let items ← G.commaList inner false (target G inner depth)
      let closing ← do
        match ← G.punct? ")" .operator false with
        | some c => pure (c.piece ")")
        | none => Piece.child <$> Reader.missing ")" false
      some <$> Reader.build "destructured_left_assignment" true
        ([opening.piece "("] ++ items ++ [closing])
    else G.arg ctx 90 false

/-- Whether a parenthesised list of targets may be assigned to: it holds two targets or more, or a
rest. -/
def isTargetGroup (t : Cst) : Bool :=
  let items := t.children.filter (·.named)
  items.length ≥ 2 || items.any (·.type == "rest_assignment")

/-- A lone target in parentheses, which cannot be assigned to, as the statements it reads as. -/
def loneGroup (t : Cst) : Reader Cst :=
  Reader.build "parenthesized_statements" true (t.children.map .child)

/-- A multiple assignment from its first target: more targets after commas, `=`, and the
values. A lone target in parentheses ends the targets and is left in an `ERROR` node. -/
def multiple (G : Grammar) (ctx : Ctx) (first : Cst) : Reader Cst := do
  let s ← Reader.input
  let rec more (acc : List Piece) (fuel : Nat) : Reader (List Piece) := do
    match fuel with
    | 0 => return acc
    | fuel + 1 =>
      match ← G.punct? "," .operator true with
      | none => return acc
      | some comma =>
        match ← target G ctx (s.size + 1) with
        | some t =>
          if t.type == "destructured_left_assignment" && !isTargetGroup t then
            Grammar.abandon [.child (← loneGroup t)]
            return acc ++ [comma.piece ","]
          else more (acc ++ [comma.piece ",", .child t]) fuel
        | none => return acc ++ [comma.piece ","]
  let targets ← more [.child first] (s.size + 1)
  let list ← Reader.build "left_assignment_list" true targets
  let eq ← do
    match ← G.punct? "=" .operator true with
    | some e => pure (e.piece "=")
    | none => Piece.child <$> Reader.missing "=" false
  let values ← G.commaList ctx false (Body.listValue G ctx)
  let right ← match values with
    | [.child one] => pure one
    | [] => Reader.missing "identifier" true
    | _ => Reader.build "right_assignment_list" true values
  Reader.build "assignment" true
    [.child (list.withField "left"), eq, .child (right.withField "right")]

/-- An expression: operators down to `and` and `or`, commands, multiple assignments at the
level of statements, and, with `patterns`, pattern tests after it. -/
def expression (G : Grammar) (ctx : Ctx) (patterns : Bool) : Reader (Option Cst) := do
  let s ← Reader.input
  let statementLevel := ctx.lineBreaks && !ctx.inList
  let lx ← Reader.peek .operand false
  if statementLevel && lx.tok.isPunct "*@" then
    match ← target G ctx (s.size + 1) with
    | some t => return some (← multiple G ctx t)
    | none => return none
  if statementLevel && lx.tok.isPunct "(" && s.mayBeTargets lx.start then
    -- a parenthesised list of targets, closed, when a comma or `=` follows it
    let saved ← get
    match ← target G ctx (s.size + 1) with
    | some t =>
      let next ← Reader.peek .operator true
      let closed := !(t.children.getLast?.any (·.missing))
      if t.type == "destructured_left_assignment" && closed && isTargetGroup t &&
          (next.tok.isPunct "," || next.tok.isPunct "=") then
        return some (← multiple G ctx t)
      else if t.type == "destructured_left_assignment" && closed && next.tok.isPunct "=" then
        -- a lone target in parentheses cannot be assigned to: it and the `=` are left out
        let eq ← G.take .operator true
        Grammar.abandon [.child (← loneGroup t), eq.piece "="]
        return ← G.expression ctx patterns
      else set saved
    | none => set saved
  match ← prefixed G ctx true with
  | none => return none
  | some first =>
    let next ← Reader.peek .operator true
    if statementLevel && first.assignable && next.tok.isPunct "," then
      return some (← multiple G ctx first.cst)
    let e ← climb G ctx (-2) true first
    if !patterns then return some e.cst
    let lx ← Reader.peek .operator ctx.lineBreaks
    if lx.tok.isPunct "=>" || lx.tok.isWord "in" then
      let op ← G.take .operator ctx.lineBreaks
      let spelling := if lx.tok.isPunct "=>" then "=>" else "in"
      if (← Reader.peek .operand false).tok == .eof then
        -- the text ends before the pattern: the operator is left in an `ERROR` node
        Grammar.abandon [op.piece spelling]
        return some e.cst
      let pat ← G.pattern ctx true
      some <$> Reader.build (if spelling == "=>" then "match_pattern" else "test_pattern") true
        ([.child (e.cst.withField "value"), op.piece spelling] ++
          (pat.map fun p => Piece.child (p.withField "pattern")).toList)
    else return some e.cst

/-- A block of `BEGIN` or `END` from the word and its `{`. -/
def hookBlock (G : Grammar) (ctx : Ctx) (word opening : Lexeme) (type spelling : String) :
    Reader Cst := do
  let stmts ← G.statements (ctx.block "\x7d" [])
  let closing ← do
    match ← G.punct? "\x7d" .operator false with
    | some c => pure (c.piece "\x7d")
    | none => Piece.child <$> Reader.missing "\x7d" false
  Reader.build type true ([word.piece spelling, opening.piece "\x7b"] ++ stmts ++ [closing])

/-- The modifiers after a statement. -/
def modifiers (G : Grammar) (ctx : Ctx) (body : Cst) : Reader Cst := do
  let s ← Reader.input
  let rec go (body : Cst) (fuel : Nat) : Reader Cst := do
    match fuel with
    | 0 => return body
    | fuel + 1 =>
      let lx ← Reader.peek .operator true
      match lx.tok with
      | .word w =>
        if ["if", "unless", "while", "until"].contains w then
          let kw ← G.take .operator true
          let cond ← G.expression { ctx with inList := false } false
          let cond ← match cond with
            | some c => pure c
            | none => Reader.missing "identifier" true
          let node ← Reader.build (w ++ "_modifier") true
            [.child (body.withField "body"), kw.piece w, .child (cond.withField "condition")]
          go node fuel
        else if w == "rescue" then
          let kw ← G.take .operator true
          let handler ← G.expression { ctx with inList := false } false
          let handler ← match handler with
            | some c => pure c
            | none => Reader.missing "identifier" true
          let node ← Reader.build "rescue_modifier" true
            [.child (body.withField "body"), kw.piece "rescue", .child (handler.withField "handler")]
          go node fuel
        else return body
      | _ => return body
  go body (s.size + 1)

/-- One statement with its modifiers. -/
def statement (G : Grammar) (ctx : Ctx) : Reader (Option Cst) := do
  let s ← Reader.input
  let lx ← Reader.peek .operand false
  let base ←
    match lx.tok with
    | .word "alias" =>
      let kw ← G.take .operand false
      Define.aliasOf G kw
    | .word "undef" =>
      let kw ← G.take .operand false
      Define.undefOf G ctx kw
    | .constant w =>
      let after := s.skipWhile lx.stop isBlank
      if (w == "BEGIN" || w == "END") && s.is after '{' then
        let word ← G.take .operand false
        let opening ← G.take .operator false
        let type := if w == "BEGIN" then "begin_block" else "end_block"
        some <$> hookBlock G ctx word opening type w
      else G.expression ctx true
    | _ => G.expression ctx true
  match base with
  | none => return none
  | some b => if ctx.lineBreaks then some <$> modifiers G ctx b else return some b

/-- Whether a token ends a list of statements in `ctx`: the end of the text, a closing bracket
an enclosing construct waits for, or a keyword that ends the innermost construct. -/
def endsStatements (ctx : Ctx) (lx : Lexeme) : Bool :=
  match lx.tok with
  | .eof => true
  | .punct p => ctx.closers.contains p
  | .word w => ctx.stops.contains w || ctx.closers.head? == some w
  | _ => false

/-- Whether the data section starts at the token: `__END__` where a statement of the program may
start. -/
def endsProgram (ctx : Ctx) (lx : Lexeme) : Bool :=
  lx.tok.isWord "__END__" && ctx.closers.isEmpty

/-- What a missing token costs the recovery: the cost a statement skipped as junk must stay
under. Each skipped token costs a hundred, and each byte one. -/
def missingCost : Nat := 610

/-- What a new `ERROR` node costs the recovery, before the tokens in it. -/
def recoveryCost : Nat := 500

/-- Statements up to the end of the text, a closer or a stop keyword of `ctx`, with their
separators. -/
def statements (G : Grammar) (ctx : Ctx) : Reader (List Piece) := do
  let s ← Reader.input
  let rec separator (acc : List Piece) (fuel : Nat) : Reader (List Piece × Bool) := do
    match fuel with
    | 0 => return (acc, false)
    | fuel + 1 =>
      let lx ← Reader.peek .operator true
      match lx.tok with
      | .lineBreak =>
        let _ ← G.take .operator true
        return (acc ++ [.hidden lx.start lx.start], true)
      | .punct ";" =>
        let t ← G.take .operator true
        return (acc ++ [t.piece ";"], true)
      | .eof => return (acc, false)
      | _ =>
        if endsStatements ctx lx then return (acc, false)
        else if lx.tok.startsOperand || keywords.contains (lx.tok.word?.getD "") then
          let m ← Reader.missing ";" false
          return (acc ++ [.child m], true)
        else
          let after := (s.peekAt lx.stop .operator true []).2
          match acc.getLast? with
          | some (.child st) =>
            if after.tok.startsOperand && st.children.isEmpty then
              -- a one-token statement, the junk and then an operand: the statement and the
              -- junk are left in one `ERROR` node, and the operand starts the next statement
              let junk ← G.take .operator true
              Grammar.abandon [.child st, .child (junk.asSkipped s)]
              return (acc.dropLast, true)
            else if after.tok.startsOperand && OperandReader.isWholeToken after &&
                ((s.peekAt after.stop .operator true []).2.tok matches .eof | .lineBreak) then
              -- a lone token after the junk is skipped with it
              G.skipJunk .operator
              let t ← G.take .operator true
              Grammar.abandon [.child (t.asSkipped s)]
              separator acc fuel
            else
              G.skipJunk .operator
              separator acc fuel
          | _ =>
            G.skipJunk .operator
            separator acc fuel
  -- `junk` is where the junk skipped right before the statement ends
  let rec go (acc : List Piece) (junk : Option Nat) (fuel : Nat) : Reader (List Piece) := do
    match fuel with
    | 0 => return acc
    | fuel + 1 =>
      let lx ← Reader.peek .operand false
      if endsStatements ctx lx || endsProgram ctx lx then return acc
      else if lx.tok.isPunct ";" then
        let t ← G.take .operand false
        let node ← Reader.build "empty_statement" true [t.piece ";"]
        go (acc ++ [.child node]) none fuel
      else
        let before := (← get).pos
        match ← statement G ctx with
        | none =>
          if (← get).pos == before then
            G.skipJunk .operand
            -- after junk, a closing word on the same line is junk too
            let next ← Reader.peek .operator true
            if next.tok.word?.any closingWords.contains then G.skipJunk .operator
            go acc (some (← get).pos) fuel
          else go acc none fuel
        | some st =>
          let cost := match junk with
            | some j => 100 * st.tokens.length + s.skipCost j st.stop
            | none => recoveryCost + 100 * st.tokens.length + s.skipCost st.start st.stop
          if (← Reader.peek .operator true).tok == .eof && st.hasMissing && cost < missingCost then
            -- a short statement that the text ends in before it is whole is skipped, with the
            -- junk before it, rather than completed by a missing token
            Grammar.abandon (st.tokens.map .child)
            return acc
          let (acc, more) ← separator (acc ++ [.child st]) (s.size + 1)
          if more then go acc none fuel else return acc
  go [] none (s.size + 1)

end ExprReader

end RubyCheck.Ruby
