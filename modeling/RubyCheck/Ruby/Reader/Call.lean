import RubyCheck.Ruby.Reader.Params

/-!
# Arguments, arrays and hashes

**Lists of values separated by commas.**

- An argument is a splat (`*a`), a double splat (`**h`), a block argument (`&b`), `...`, a pair
  (`key: value`, `"key": value` or `key => value`), or an expression, command calls included.
- Arguments stand in parentheses right after a method name, or without parentheses after a
  command (`puts a, b`). A command's arguments begin with a token that starts a value; a prefix
  operator (`-`, `*`, `&`, `::`) counts only with a blank before it and none after it.
- Array literals and element references hold the same items in brackets, hash literals in
  braces; an item of a hash that is no pair is left in an `ERROR` node. A bracket that the text
  ends in with nothing inside is left in an `ERROR` node, unless an operator before it needs an
  operand; one that holds something is closed by a missing closer, unless its last token is a
  line break. A stray closing bracket right before the end of the text counts as the end.
-/

namespace RubyCheck.Ruby

namespace Call

/-- Keywords that start a command argument: those that start an operand, less the modifiers. -/
def commandKeywords : List String :=
  operandKeywords.filter fun w => !(["if", "unless", "while", "until"].contains w)

/-- Whether `lx`, read in command position in `ctx`, starts an argument of a command call: a
closing word that no construct waits for counts as a name. -/
def startsCommandArgument (ctx : Ctx) (lx : Lexeme) : Bool :=
  match lx.tok with
  | .word w =>
    !keywords.contains w || commandKeywords.contains w ||
      (closingWords.contains w && w != "do" && !ctx.awaits w)
  | .punct p =>
    ["-@", "*@", "**@", "::@", "->", "(", "["].contains p ||
      ((p == "&@" || p == "!" || p == "~") && lx.spaced)
  | .lineBreak | .eof => false
  | _ => true

/-- The value of a pair after its `:` or `=>`, as the `value` piece; none in the shorthand
`key:`. -/
def pairValue (G : Grammar) (ctx : Ctx) : Reader (List Piece) := do
  let lx ← Reader.peek .operand false
  if !lx.tok.startsOperand then return []
  match ← G.arg ctx 0 false with
  | some v => return [.child (v.withField "value")]
  | none => return []

/-- A pair whose key `key` and separator `sep` are read. A string key before a colon needs a
value: a missing identifier stands for an absent one. -/
def pair (G : Grammar) (ctx : Ctx) (key sep : Cst) : Reader Cst := do
  let value ← pairValue G ctx
  let value ←
    if value.isEmpty && key.type == "string" && sep.type == ":" then do
      let m ← Reader.missing "identifier" true
      pure [Piece.child (m.withField "value")]
    else pure value
  Reader.build "pair" true ([.child (key.withField "key"), .child sep] ++ value)

/-- One argument, or nothing when the next token starts none. -/
def item (G : Grammar) (ctx : Ctx) : Reader (Option Cst) := do
  let s ← Reader.input
  let lx ← Reader.peek .operand false
  let isLabel := s.is lx.stop ':' && !s.is (lx.stop + 1) ':'
  match lx.tok with
  | .punct "*@" => some <$> Body.splat G ctx
  | .punct "**@" =>
    let t ← G.take .operand false
    let v ← G.arg ctx 0 false
    some <$> Reader.build "hash_splat_argument" true ([t.piece "**"] ++ (v.map .child).toList)
  | .punct "&@" =>
    let t ← G.take .operand false
    let next ← Reader.peek .operand false
    let v ← if next.tok.startsOperand then G.arg ctx 0 false else pure none
    some <$> Reader.build "block_argument" true ([t.piece "&"] ++ (v.map .child).toList)
  | .punct "..." =>
    let after := s.skipWhile lx.stop isBlank
    if s.is after ')' || s.is after ',' then
      let t ← G.take .operand false
      return some (t.leaf "forward_argument" true)
    else G.expression ctx false
  | .word _ | .constant _ =>
    if isLabel then
      let t ← G.take .operand false
      Reader.seek (t.stop + 1)
      some <$> pair G ctx (t.leaf "hash_key_symbol" true) (Cst.leaf ":" false t.stop (t.stop + 1))
    else valued s
  | _ => valued s
where
  /-- An expression, or the key of a pair when `=>` or a colon follows it. -/
  valued (s : Input) : Reader (Option Cst) := do
    match ← G.expression ctx false with
    | none => return none
    | some e =>
      if e.type == "string" && s.is e.stop ':' && !s.is (e.stop + 1) ':' then
        Reader.seek (e.stop + 1)
        some <$> pair G ctx e (Cst.leaf ":" false e.stop (e.stop + 1))
      else
        let saved ← get
        match ← G.punct? "=>" .operator ctx.lineBreaks with
        | some arrow =>
          let p ← pair G ctx e (arrow.leaf "=>")
          if !(← Reader.peek .operator ctx.lineBreaks).tok.isPunct "=>" then return some p
          else if ctx.closers.head? == some "\x7d" then
            -- in a hash, a second arrow and the value before it are left out of the pair
            let value := (p.childByField "value").toList
            let arrow2 ← G.take .operator ctx.lineBreaks
            Grammar.abandon (value.map .child ++ [arrow2.piece "=>"])
            let last ← pairValue G ctx
            some <$> Reader.build "pair" true
              ([.child (e.withField "key"), .child (arrow.leaf "=>")] ++ last)
          else
            -- a value tested against a pattern that binds a name
            set saved
            let arrow ← G.take .operator ctx.lineBreaks
            let pat ← G.pattern ctx false
            some <$> Reader.build "match_pattern" true
              ([.child (e.withField "value"), arrow.piece "=>"] ++
                (pat.map fun p => Piece.child (p.withField "pattern")).toList)
        | none => return some e

/-- Items in brackets up to `closer`. -/
def bracketed (G : Grammar) (ctx : Ctx) (closer : String) : Reader (List Piece) := do
  let inner := ctx.nested closer
  G.commaList inner true (item G inner)

/-- Arguments in parentheses from the `(`; nothing when the text ends right after it. -/
def parenthesized (G : Grammar) (ctx : Ctx) (opening : Lexeme) : Reader (Option Cst) := do
  let items ← bracketed G ctx ")"
  match ← G.close ")" false (← Grammar.bracketAbandoned opening.start !items.isEmpty) with
  | .abandon =>
    Grammar.abandon [opening.piece "("]
    return none
  | .closed p | .missing p =>
    some <$> Reader.build "argument_list" true ([opening.piece "("] ++ items ++ [p])

/-- The arguments of a command call, when one starts here. -/
def commandArguments (G : Grammar) (ctx : Ctx) : Reader (Option Cst) := do
  let inner := { ctx with noDo := true, closers := "do" :: ctx.closers, inList := true }
  let items ← G.commaList inner true (item G inner)
  if items.isEmpty then return none
  some <$> Reader.build "argument_list" true items

/-- An element reference on `obj` from its `[`. -/
def elementReference (G : Grammar) (ctx : Ctx) (obj : Cst) (opening : Lexeme) : Reader Cst := do
  let items ← bracketed G ctx "]"
  let closing ← do
    match ← G.punct? "]" .operator false with
    | some c => pure (c.piece "]")
    | none => Piece.child <$> Reader.missing "]" false
  Reader.build "element_reference" true
    ([.child (obj.withField "object"), opening.piece "["] ++ items ++ [closing])

/-- A bracketed literal of `type` from its opener; nothing when the text ends right after it. -/
def literal (G : Grammar) (ctx : Ctx) (opening : Lexeme) (type openType closer : String) :
    Reader (Option Cst) := do
  let items ← bracketed G ctx closer
  -- a hash holds pairs and double splats; any other item is left in an `ERROR` node
  let items ← if type != "hash" then pure items else items.filterMapM fun
    | .child c =>
      if c.named && c.type != "pair" && c.type != "hash_splat_argument" then do
        Grammar.abandon [.child c]
        pure none
      else pure (some (.child c))
    | p => pure (some p)
  match ← G.close closer false (← Grammar.bracketAbandoned opening.start !items.isEmpty) with
  | .abandon =>
    Grammar.abandon [opening.piece openType]
    return none
  | .closed p | .missing p =>
    some <$> Reader.build type true ([opening.piece openType] ++ items ++ [p])

end Call

end RubyCheck.Ruby
