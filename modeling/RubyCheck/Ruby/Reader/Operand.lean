import RubyCheck.Ruby.Reader.Pattern

/-!
# Operands

**Primaries, method calls and their arguments.**

- A primary is a literal, a variable or name, a bracketed literal, a lambda, a compound
  construct opened by a keyword, or a jump (`return`, `break`, `next`, `yield`) with its
  arguments.
- A name becomes a call when arguments or a block follow it: arguments in parentheses right
  after it, a block, or (where commands may stand) arguments without parentheses. A name ending
  in `?` or `!` is always a call.
- After an operand, `.` and `&.` call a method on it, `::` reaches a constant or calls a method,
  and `[` reads an element reference. Where a command argument could start, `[` with a blank
  before it, and `::` with a blank before it and none after it, start one instead.
- A constant named from the top (`::Foo`) takes no arguments: parentheses right after it are
  read as arguments and left in an `ERROR` node.
- A block in braces belongs to the nearest call that can take one; a `do` block to the
  outermost command, and never inside the condition of a loop.
-/

namespace RubyCheck.Ruby

/-- A call being read: receiver, operator, method name, arguments and block, each optional. -/
structure CallParts where
  receiver : Option Cst := none
  operator : Option Cst := none
  method : Option Cst := none
  arguments : Option Cst := none
  block : Option Cst := none
  deriving Inhabited

/-- An operand being read. -/
inductive Head where
  /-- a finished node, and whether it may stand left of `=` -/
  | done (c : Cst) (assignable : Bool)
  /-- a name that a call may grow from; `fn` when it ends in `?` or `!` -/
  | name (c : Cst) (fn : Bool)
  /-- a constant reached through `::` from `scope`, which a call may grow from -/
  | scoped (scope : Cst) (op : Lexeme) (c : Cst)
  /-- an element reference, which a block may follow -/
  | indexed (c : Cst)
  /-- a call -/
  | call (p : CallParts)
  deriving Inhabited

/-- An operand read in full, whether it is a command call, and whether it may stand left of
`=`. -/
structure Operand where
  cst : Cst
  command : Bool := false
  assignable : Bool := false
  deriving Inhabited

namespace Head

/-- The call parts a call grows from. -/
def parts : Head → CallParts
  | .call p => p
  | .name c _ => { method := some c }
  | .scoped scope op c => { receiver := some scope, operator := some (op.leaf "::"), method := some c }
  | .done c _ | .indexed c => { receiver := some c }

/-- Whether arguments may follow: a name, or a call with no arguments or block yet. -/
def takesArguments : Head → Bool
  | .name .. | .scoped .. => true
  | .call p => p.method.isSome && p.arguments.isNone && p.block.isNone
  | .done .. | .indexed _ => false

/-- Whether a block may follow: a name, or a call without a block. -/
def takesBlock : Head → Bool
  | .name .. | .scoped .. | .indexed _ => true
  | .call p => p.block.isNone
  | .done .. => false

/-- Whether the operand may stand left of `=`. -/
def assignable : Head → Bool
  | .done _ a => a
  | .name c fn => !fn && c.type != "self" && c.type != "super"
  | .scoped .. | .indexed _ => true
  | .call p =>
    p.receiver.isSome && p.arguments.isNone && p.block.isNone &&
      (p.method.map fun m => m.type == "identifier" || m.type == "constant").getD false

end Head

/-- The node of a call. -/
def CallParts.build (p : CallParts) : Reader Cst :=
  let field (f : String) (c : Option Cst) : List Piece :=
    (c.map fun k => Piece.child (k.withField f)).toList
  Reader.build "call" true
    (field "receiver" p.receiver ++ field "operator" p.operator ++ field "method" p.method ++
      field "arguments" p.arguments ++ field "block" p.block)

/-- The node an operand stands for: a name alone stays a name, except one ending in `?` or `!`,
which is a call. -/
def Head.finish : Head → Reader Cst
  | .done c _ | .indexed c => pure c
  | .name c fn => if fn then CallParts.build { method := some c } else pure c
  | .scoped scope op c =>
    Reader.build "scope_resolution" true
      [.child (scope.withField "scope"), op.piece "::", .child (c.withField "name")]
  | .call p => p.build

/-- An operand with the block `b` after it: a call with the block, or an element reference that
holds it. -/
def Head.withBlock (h : Head) (b : Cst) : Reader Head :=
  match h with
  | .indexed c => do
    let node ← Reader.build c.type true
      (c.children.map .child ++ [.child (b.withField "block")])
    return .done node false
  | _ => pure (.call { h.parts with block := some b })

namespace OperandReader

/-- Strings written next to each other, from the first: a `chained_string` when more follow. -/
def chained (G : Grammar) (ctx : Ctx) (first : Cst) : Reader Cst := do
  let s ← Reader.input
  let rec more (acc : List Cst) (fuel : Nat) : Reader (List Cst) := do
    match fuel with
    | 0 => return acc
    | fuel + 1 =>
      let lx ← Reader.peek .operand ctx.lineBreaks
      match lx.tok with
      | .literal .string d =>
        let t ← G.take .operand ctx.lineBreaks
        match ← Literal.delimited G .string d t with
        | some c => more (acc ++ [c]) fuel
        | none => return acc
      | _ => return acc
  let rest ← more [] (s.size + 1)
  if rest.isEmpty then return first
  else Reader.build "chained_string" true ((first :: rest).map .child)

/-- A jump (`return`, `break`, `next`, `yield`) from its keyword, with arguments in parentheses
or, where commands may stand, without. A `[` right after the keyword indexes the bare jump. -/
def jump (G : Grammar) (ctx : Ctx) (cmd : Bool) (kw : Lexeme) (word : String) : Reader Cst := do
  let lx ← Reader.peek .operator ctx.lineBreaks
  let args ←
    if lx.tok.isPunct "(" && !lx.spaced then do
      let opening ← G.take .operator ctx.lineBreaks
      Call.parenthesized G ctx opening
    else if lx.tok.isPunct "[" && !lx.spaced then pure none
    else if cmd then do
      let c ← Reader.peek .command ctx.lineBreaks
      if Call.startsCommandArgument ctx c then Call.commandArguments G ctx else pure none
    else pure none
  Reader.build word true ([kw.piece word] ++ (args.map .child).toList)

/-- A lambda from its `->`: parameters, then a block in braces or a `do` block. A lambda that the
text ends in before its block is left in an `ERROR` node, with the parameters spread when the
text ends inside them. -/
def lambda (G : Grammar) (ctx : Ctx) (arrow : Lexeme) : Reader (Option Cst) := do
  let lx ← Reader.peek .operand false
  let params ←
    if lx.tok.isPunct "(" then do
      let opening ← G.take .operand false
      let p ← Params.parenthesized G ctx opening "lambda_parameters"
      pure [Piece.child (p.withField "parameters")]
    else do
      let ps ← Params.formalList G { ctx with closers := "\x7b" :: "do" :: ctx.closers }
      if ps.isEmpty then pure []
      else do
        let p ← Reader.build "lambda_parameters" true ps
        pure [Piece.child (p.withField "parameters")]
  let next ← Reader.peek .operator false
  let body ←
    if next.tok.isPunct "\x7b" then do
      let opening ← G.take .operator false
      Params.braceBlock G ctx opening
    else if next.tok.isWord "do" then do
      let kw ← G.take .operator false
      Params.doBlock G ctx kw
    else pure none
  if body.isNone && next.tok == .eof then
    let spread := params.flatMap fun
      | .child p => if p.children.getLast?.any (·.missing) then p.children.map .child else [.child p]
      | p => [p]
    Grammar.abandon ([arrow.piece "->"] ++ spread)
    return none
  some <$> Reader.build "lambda" true
    ([arrow.piece "->"] ++ params ++ (body.map fun b => Piece.child (b.withField "body")).toList)

/-- Statements in parentheses from the `(`; nothing when the text ends right after it. -/
def parenthesized (G : Grammar) (ctx : Ctx) (opening : Lexeme) : Reader (Option Cst) := do
  let stmts ← G.statements (ctx.block ")" [])
  match ← G.close ")" false (← Grammar.bracketAbandoned opening.start !stmts.isEmpty) with
  | .abandon =>
    Grammar.abandon [opening.piece "("]
    return none
  | .closed p | .missing p =>
    some <$> Reader.build "parenthesized_statements" true ([opening.piece "("] ++ stmts ++ [p])

/-- The keywords that open a compound construct. -/
def compoundKeywords : List String :=
  ["if", "unless", "while", "until", "for", "case", "begin", "def", "class", "module"]

/-- A construct opened by the keyword `word`, taken as `kw`. -/
def compound (G : Grammar) (ctx : Ctx) (kw : Lexeme) (word : String) : Reader (Option Cst) :=
  match word with
  | "if" | "unless" => Control.conditional G ctx kw word
  | "while" | "until" => Control.loop G ctx kw word
  | "for" => Control.forLoop G ctx kw
  | "case" => Control.caseOf G ctx kw
  | "begin" => Control.beginBlock G ctx kw
  | "def" => Define.method G ctx kw
  | "class" => Define.classDef G ctx kw
  | _ => Define.moduleDef G ctx kw

/-- The primary at the reader's position, or nothing when none starts there. A literal the text
ends inside is skipped (its opening token floats in an `ERROR` node) and reading goes on after
it, for at most `fuel` such literals. -/
def primary (G : Grammar) (ctx : Ctx) (cmd : Bool) : Nat → Reader (Option Head)
  | 0 => pure none
  | fuel + 1 => do
    let lx ← Reader.peek .operand false
    match lx.tok with
    | .word w =>
      if ["nil", "true", "false"].contains w then
        let t ← G.take .operand false
        return some (.done (t.leaf w true) false)
      else if w == "super" || w == "self" then
        let t ← G.take .operand false
        return some (.name (t.leaf w true) false)
      else if compoundKeywords.contains w then
        let t ← G.take .operand false
        return (← compound G ctx t w).map (.done · false)
      else if ["return", "break", "next", "yield"].contains w then
        let t ← G.take .operand false
        return some (.done (← jump G ctx cmd t w) false)
      else if w == "redo" || w == "retry" then
        let t ← G.take .operand false
        return some (.done (← Reader.build w true [t.piece w]) false)
      else
        let t ← G.take .operand false
        return some (.name (t.leaf "identifier" true) (w.endsWith "?" || w.endsWith "!"))
    | .constant _ =>
      let t ← G.take .operand false
      return some (.name (t.leaf "constant" true) false)
    | .ivar => return some (.name ((← G.take .operand false).leaf "instance_variable" true) false)
    | .cvar => return some (.name ((← G.take .operand false).leaf "class_variable" true) false)
    | .gvar => return some (.name ((← G.take .operand false).leaf "global_variable" true) false)
    | .integer | .float =>
      let t ← G.take .operand false
      return some (.done (← Literal.number t) false)
    | .character => return some (.done ((← G.take .operand false).leaf "character" true) false)
    | .symbol => return some (.done ((← G.take .operand false).leaf "simple_symbol" true) false)
    | .literal kind d =>
      let t ← G.take .operand false
      match ← Literal.delimited G kind d t with
      | some c =>
        let c ← if kind == .string then chained G ctx c else pure c
        return some (.done c false)
      | none => primary G ctx cmd fuel
    | .heredoc h =>
      let t ← G.take .operand false
      Reader.expectBody h
      return some (.done (t.leaf "heredoc_beginning" true) false)
    | .punct "(" =>
      let t ← G.take .operand false
      return (← parenthesized G ctx t).map (.done · false)
    | .punct "[" =>
      let t ← G.take .operand false
      return (← Call.literal G ctx t "array" "[" "]").map (.done · false)
    | .punct "\x7b" =>
      let t ← G.take .operand false
      return (← Call.literal G ctx t "hash" "\x7b" "\x7d").map (.done · false)
    | .punct "->" =>
      let t ← G.take .operand false
      return (← lambda G ctx t).map (.done · false)
    | .punct "::@" =>
      let t ← G.take .operand false
      let n ← Reader.peek .name false
      match n.tok with
      | .constant _ =>
        let c ← G.take .name false
        let node ← Reader.build "scope_resolution" true
          [t.piece "::", .child ((c.leaf "constant" true).withField "name")]
        -- a constant named from the top takes no arguments: those in parentheses right after it
        -- are left in an `ERROR` node
        let next ← Reader.peek .operator ctx.lineBreaks
        if next.tok.isPunct "(" && !next.spaced then
          let opening ← G.take .operator ctx.lineBreaks
          if let some args ← Call.parenthesized G ctx opening then
            Reader.float (.mk "ERROR" true none false args.start args.stop args.children)
        return some (.done node true)
      | _ =>
        -- a scope from the top must name a constant
        Grammar.abandon [t.piece "::"]
        primary G ctx cmd fuel
    | _ => return none

/-- The method name after `.`, `&.` or `::`, or nothing when none comes next. -/
def methodName? (G : Grammar) : Reader (Option Cst) := do
  let lx ← Reader.peek .name false
  match lx.tok with
  | .word _ => return some ((← G.take .name false).leaf "identifier" true)
  | .constant _ => return some ((← G.take .name false).leaf "constant" true)
  | .punct p =>
    if operatorNames.contains p && p != "`" then
      return some ((← G.take .name false).leaf "operator" true)
    else return none
  | _ => return none

/-- One step after an operand: a method call, a scope, an element reference, arguments in
parentheses, or a block. Nothing when none follows. -/
def suffix (G : Grammar) (ctx : Ctx) (cmd : Bool) (h : Head) : Reader (Option Head) := do
  let lx ← Reader.peek .operator ctx.lineBreaks
  match lx.tok with
  | .punct "." | .punct "&." =>
    let spelling := if lx.tok.isPunct "." then "." else "&."
    let receiver ← h.finish
    let op ← G.take .operator ctx.lineBreaks
    let next ← Reader.peek .name false
    if next.tok.isPunct "(" then
      let opening ← G.take .name false
      let args ← Call.parenthesized G ctx opening
      return some (.call { receiver := some receiver, operator := some (op.leaf spelling),
                           arguments := args })
    match ← methodName? G with
    | some m =>
      return some (.call { receiver := some receiver, operator := some (op.leaf spelling),
                           method := some m })
    | none =>
      let m ← Reader.missing "identifier" true
      let parts : CallParts :=
        { receiver := some receiver, operator := some (op.leaf spelling), method := some m }
      return some (.done (← parts.build) false)
  | .punct "::" =>
    -- with a blank before it and none after it, `::` starts a command argument
    if lx.spaced && cmd && h.takesArguments && !(← Reader.input).test lx.stop isBlank then
      return none
    let scope ← h.finish
    let op ← G.take .operator ctx.lineBreaks
    let next ← Reader.peek .name false
    match next.tok with
    | .constant _ =>
      let c ← G.take .name false
      return some (.scoped scope op (c.leaf "constant" true))
    | _ =>
      match ← methodName? G with
      | some m =>
        return some (.call { receiver := some scope, operator := some (op.leaf "::"),
                             method := some m })
      | none =>
        let m ← Reader.missing "identifier" true
        let parts : CallParts :=
          { receiver := some scope, operator := some (op.leaf "::"), method := some m }
        return some (.done (← parts.build) false)
  | .punct "[" =>
    if !lx.spaced || !(cmd && h.takesArguments) then
      let obj ← h.finish
      let opening ← G.take .operator ctx.lineBreaks
      return some (.indexed (← Call.elementReference G ctx obj opening))
    else return none
  | .punct "(" =>
    if !lx.spaced && h.takesArguments then
      let opening ← G.take .operator ctx.lineBreaks
      match ← Call.parenthesized G ctx opening with
      | some args => return some (.call { h.parts with arguments := some args })
      | none => return none
    else return none
  | .punct "\x7b" =>
    if h.takesBlock then
      let opening ← G.take .operator ctx.lineBreaks
      match ← Params.braceBlock G ctx opening with
      | some b => some <$> h.withBlock b
      | none => return none
    else return none
  | .word "do" =>
    if !ctx.noDo && h.takesBlock then
      let kw ← G.take .operator ctx.lineBreaks
      match ← Params.doBlock G ctx kw with
      | some b => some <$> h.withBlock b
      | none => return none
    else return none
  | _ => return none

/-- Steps after an operand, as long as they come. -/
def suffixes (G : Grammar) (ctx : Ctx) (cmd : Bool) (h : Head) : Reader Head := do
  let s ← Reader.input
  let rec go (h : Head) (fuel : Nat) : Reader Head := do
    match fuel with
    | 0 => return h
    | fuel + 1 =>
      match ← suffix G ctx cmd h with
      | some h' => go h' fuel
      | none => return h
  go h (s.size + 1)

/-- An operand: a primary, the steps after it, and, where commands may stand (`cmd`), the
arguments of a command call with a block after them. -/
def single (G : Grammar) (ctx : Ctx) (cmd : Bool) : Reader (Option Operand) := do
  let s ← Reader.input
  match ← primary G ctx cmd (s.size + 1) with
  | none => return none
  | some h =>
    let h ← suffixes G ctx cmd h
    if cmd && h.takesArguments then
      let lx ← Reader.peek .command ctx.lineBreaks
      if Call.startsCommandArgument ctx lx then
        match ← Call.commandArguments G ctx with
        | none => return some { cst := ← h.finish, assignable := h.assignable }
        | some args =>
          let parts := { h.parts with arguments := some args }
          let next ← Reader.peek .operator ctx.lineBreaks
          let block ←
            if next.tok.isWord "do" && !ctx.noDo then do
              let kw ← G.take .operator ctx.lineBreaks
              Params.doBlock G ctx kw
            else if next.tok.isPunct "\x7b" then do
              let opening ← G.take .operator ctx.lineBreaks
              Params.braceBlock G ctx opening
            else pure none
          return some { cst := ← CallParts.build { parts with block }, command := true }
      else return some { cst := ← h.finish, assignable := h.assignable }
    else return some { cst := ← h.finish, assignable := h.assignable }

/-- Whether a token read after an operand starts another operand, which nothing lets follow it
there. -/
def startsStray (lx : Lexeme) : Bool :=
  match lx.tok with
  | .word w =>
    !keywords.contains w || (operandKeywords.contains w && !modifierKeywords.contains w)
  | .constant _ | .ivar | .cvar | .gvar | .integer | .float => true
  | .literal .string _ | .literal .subshell _ => true
  | _ => false

/-- Whether a stray token is one token by itself: a name, a variable or a number. -/
def isWholeToken (lx : Lexeme) : Bool :=
  match lx.tok with
  | .word _ | .constant _ | .ivar | .cvar | .gvar | .integer | .float => true
  | _ => false

/-- How the reader gets past an operand start that cannot follow the operand before it. -/
inductive Stray where
  /-- the statement ends, and a separator is missing -/
  | keep
  /-- the operand before is left in an `ERROR` node, and the new one takes its place -/
  | drop
  /-- the new token is left in an `ERROR` node -/
  | skip

/-- The way past the stray token `lx` after the operand `a`: whichever leaves fewer characters in
an `ERROR` node, the operand before (with the blanks before it) or the stray token (with the
blanks before it), when that is fewer than ten; a tie drops the operand before where a line
break ends the statement (command arguments included) and skips the token inside brackets. A
token that more tokens must follow is never skipped. -/
def strayWay (s : Input) (ctx : Ctx) (a : Cst) (lx : Lexeme) : Stray :=
  let dropCost := s.skipCost (s.tokenEndBefore a.start) a.stop
  let after := (s.peekAt lx.stop .operator ctx.lineBreaks []).2
  let ends := match after.tok with
    | .eof | .lineBreak => true
    | .punct p => [";", ".", "&.", ",", ")", "]", "\x7d"].contains p || ctx.closers.contains p
    | _ => false
  let skipCost := if isWholeToken lx && ends then s.skipCost a.stop lx.stop else 100
  if min dropCost skipCost ≥ 10 then .keep
  else if ctx.lineBreaks then (if dropCost ≤ skipCost then .drop else .skip)
  else if skipCost ≤ dropCost + 1 then .skip
  else .drop

/-- An operand, and the way past each operand start after it that cannot follow it. -/
def operand (G : Grammar) (ctx : Ctx) (cmd : Bool) : Reader (Option Operand) := do
  let s ← Reader.input
  match ← single G ctx cmd with
  | none => return none
  | some a => some <$> settle s a (s.size + 1)
where
  /-- Gets past the stray tokens after `a`, at most `fuel` of them. -/
  settle (s : Input) (a : Operand) : Nat → Reader Operand
    | 0 => pure a
    | fuel + 1 => do
      let lx ← Reader.peek .operator ctx.lineBreaks
      let label := s.is lx.stop ':' && !s.is (lx.stop + 1) ':'
      if !startsStray lx || lx.tok.isWord "do" || label then return a
      match strayWay s ctx a.cst lx with
      | .keep => return a
      | .drop =>
        Grammar.abandon [.child a.cst]
        match ← single G ctx cmd with
        | some b => settle s b fuel
        | none => return a
      | .skip =>
        match ← primary G ctx false (s.size + 1) with
        | none => return a
        | some stray =>
          Grammar.abandon [.child (← stray.finish)]
          let h ← suffixes G ctx cmd (.done a.cst a.assignable)
          let c ← h.finish
          settle s { a with cst := c, assignable := h.assignable } fuel

end OperandReader

end RubyCheck.Ruby
