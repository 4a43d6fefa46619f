import RubyCheck.Ruby.Reader.Control
import RubyCheck.Ruby.Reader.Literal

/-!
# Definitions

**Methods, classes, modules, `alias` and `undef`.**

- A method definition holds its name, its parameters (in parentheses, or bare up to the end of
  the line) and a `body_statement` up to `end`; an endless one (`def m = value`) holds the value
  after `=`. A definition on an object (`def self.m`, `def (expr)::m`) is a `singleton_method`.
- A method name is a word, a constant, a setter (`name=`), an operator, or a variable name. Any
  word may name a method, keywords included.
- A class holds its name, its superclass after `<`, and a body; `class << obj` opens a
  `singleton_class`. A module holds its name and a body.
- `def`, `alias` or `undef` with nothing after it is left in an `ERROR` node.
-/

namespace RubyCheck.Ruby

namespace Define

/-- Whether a setter's `=` is at `i`: an `=` that no `=`, `~` or `>` follows. -/
def setterAt (s : Input) (i : Nat) : Bool :=
  s.is i '=' && !s.test (i + 1) fun c => c == '=' || c == '~' || c == '>'

/-- A method name, or nothing when none comes next. `setter` allows `name=`. -/
def methodName (G : Grammar) (setter : Bool) : Reader (Option Cst) := do
  let s ← Reader.input
  let lx ← Reader.peek .name false
  match lx.tok with
  | .word w =>
    let t ← G.take .name false
    let ident := t.leaf "identifier" true
    if setter && setterAt s t.stop && !w.endsWith "?" && !w.endsWith "!" then
      Reader.seek (t.stop + 1)
      return some (.mk "setter" true none false t.start (t.stop + 1)
        [ident.withField "name", Cst.leaf "=" false t.stop (t.stop + 1)])
    else return some ident
  | .constant _ =>
    let t ← G.take .name false
    return some (t.leaf "constant" true)
  | .ivar => return some ((← G.take .name false).leaf "instance_variable" true)
  | .cvar => return some ((← G.take .name false).leaf "class_variable" true)
  | .gvar => return some ((← G.take .name false).leaf "global_variable" true)
  | .punct p =>
    if operatorNames.contains p then
      let t ← G.take .name false
      return some (t.leaf "operator" true)
    else return none
  | _ => return none

/-- A name of `alias` or `undef`: a method name, a setter's name included, or a symbol. -/
def aliasName (G : Grammar) : Reader (Option Cst) := do
  let lx ← Reader.peek .operand false
  match lx.tok with
  | .symbol =>
    let t ← G.take .operand false
    return some (t.leaf "simple_symbol" true)
  | .literal .symbol d =>
    let t ← G.take .operand false
    Literal.delimited G .symbol d t
  | _ => methodName G true

/-- The `.` or `::` after the object of a definition, when one comes next. -/
def objectSeparator? (G : Grammar) : Reader (Option Piece) := do
  let lx ← Reader.peek .operator false
  if lx.tok.isPunct "." || lx.tok.isPunct "::" then
    let t ← G.take .operator false
    return some (t.piece (if lx.tok.isPunct "." then "." else "::"))
  else return none

/-- The object of a definition on an object and the `.` or `::` after it: a variable, or a value
in parentheses. Nothing is read when no separator follows. -/
def object? (G : Grammar) (ctx : Ctx) : Reader (Option (List Piece)) := do
  let saved ← get
  let lx ← Reader.peek .name false
  let type? : Option String :=
    match lx.tok with
    | .word "self" => some "self"
    | .word _ => some "identifier"
    | .constant _ => some "constant"
    | .ivar => some "instance_variable"
    | .cvar => some "class_variable"
    | .gvar => some "global_variable"
    | _ => none
  let found ← match type? with
    | some type => do
      let t ← G.take .name false
      pure (some [Piece.child ((t.leaf type true).withField "object")])
    | none => do
      if !(← Reader.peek .operand false).tok.isPunct "(" then return none
      let opening ← G.take .operand false
      let value ← G.arg (ctx.nested ")") 0 false
      let closing ← G.punct? ")" .operator false
      match value, closing with
      | some v, some c => pure (some [opening.piece "(", .child (v.withField "object"), c.piece ")"])
      | _, _ => pure none
  match found with
  | some pieces =>
    match ← objectSeparator? G with
    | some sep => return some (pieces ++ [sep])
    | none =>
      set saved
      return none
  | none =>
    set saved
    return none

/-- The body of a definition after its head, up to `end`, as a `body_statement`. -/
def body (G : Grammar) (ctx : Ctx) (type : String) (head : List Piece) : Reader (Option Cst) := do
  let stmts ← Body.withClauses G ctx
  match ← G.close "end" true (Grammar.holdsStatement stmts) with
  | .abandon =>
    Grammar.abandon (head ++ stmts)
    return none
  | .closed p | .missing p =>
    let bodyPieces ←
      if stmts.isEmpty then pure []
      else do
        let node ← Reader.build "body_statement" true stmts
        pure [Piece.child (node.withField "body")]
    some <$> Reader.build type true (head ++ bodyPieces ++ [p])

/-- A method definition from its `def`. -/
def method (G : Grammar) (ctx : Ctx) (kw : Lexeme) : Reader (Option Cst) := do
  let lx ← Reader.peek .name false
  if lx.tok == .eof then
    Grammar.abandon [kw.piece "def"]
    return none
  let obj ← object? G ctx
  let type := if obj.isSome then "singleton_method" else "method"
  let name ← do
    match ← methodName G true with
    | some n => pure n
    | none => Reader.missing "identifier" true
  let head := [kw.piece "def"] ++ obj.getD [] ++ [.child (name.withField "name")]
  let next ← Reader.peek .operator true
  if next.tok.isPunct "(" then
    let opening ← G.take .operator true
    let params ← Params.parenthesized G ctx opening "method_parameters"
    if params.children.getLast?.any (·.missing) &&
        (← Reader.peek .operator false).tok == .eof then
      -- the text ends inside the parameters: the definition is left in an `ERROR` node
      Grammar.abandon (head ++ (params.children.filter (!·.missing)).map .child)
      return none
    let head := head ++ [.child (params.withField "parameters")]
    match ← G.punct? "=" .operator true with
    | some eq => endless type head eq
    | none =>
      let term ← G.terminator?
      body G ctx type (head ++ term.toList)
  else if next.tok.isPunct "=" then
    let eq ← G.take .operator true
    endless type head eq
  else
    match ← G.terminator? with
    | some term => body G ctx type (head ++ [term])
    | none =>
      let params ← Params.formalList G { ctx with lineBreaks := true, closers := ";" :: ctx.closers }
      if params.isEmpty then
        if (← Reader.peek .operator true).tok == .eof then
          Grammar.abandon head
          return none
        else body G ctx type head
      else
        let node ← Reader.build "method_parameters" true params
        let term ← G.terminator?
        body G ctx type (head ++ [.child (node.withField "parameters")] ++ term.toList)
where
  /-- An endless definition: `=` and the value, which is no command but may have a `rescue`
  modifier; a missing identifier stands for an absent value. -/
  endless (type : String) (head : List Piece) (eq : Lexeme) : Reader (Option Cst) := do
    let value ← G.arg ctx 15 false
    let value ← match value with
      | some v =>
        if (← Reader.peek .operator ctx.lineBreaks).tok.isWord "rescue" then do
          let kw ← G.take .operator ctx.lineBreaks
          let handler ← G.arg ctx 15 false
          some <$> Reader.build "rescue_modifier" true
            ([.child (v.withField "body"), kw.piece "rescue"] ++
              (handler.map fun h => Piece.child (h.withField "handler")).toList)
        else pure (some v)
      | none => some <$> Reader.missing "identifier" true
    some <$> Reader.build type true
      (head ++ [eq.piece "="] ++ (value.map fun v => Piece.child (v.withField "body")).toList)

/-- The name of a class or module: an operand such as `Foo` or `Foo::Bar`. -/
def constantName (G : Grammar) (ctx : Ctx) : Reader Cst := do
  match ← G.arg { ctx with lineBreaks := true } 90 false with
  | some n => return n.withField "name"
  | none => return (← Reader.missing "constant" true).withField "name"

/-- A class definition from its `class`, or a singleton class after `class <<`. -/
def classDef (G : Grammar) (ctx : Ctx) (kw : Lexeme) : Reader (Option Cst) := do
  match ← G.punct? "<<" .operator false with
  | some shift =>
    let value ← G.arg { ctx with lineBreaks := true } 0 false
    let term ← G.terminator?
    body G ctx "singleton_class"
      ([kw.piece "class", shift.piece "<<"] ++
        (value.map fun v => Piece.child (v.withField "value")).toList ++ term.toList)
  | none =>
    let name ← constantName G ctx
    let parent ← do
      match ← G.punct? "<" .operator true with
      | some lt =>
        let value ← G.expression { ctx with lineBreaks := true } false
        let node ← Reader.build "superclass" true ([lt.piece "<"] ++ (value.map .child).toList)
        pure [Piece.child (node.withField "superclass")]
      | none => pure []
    let term ← G.terminator?
    body G ctx "class" ([kw.piece "class", .child name] ++ parent ++ term.toList)

/-- A module definition from its `module`. -/
def moduleDef (G : Grammar) (ctx : Ctx) (kw : Lexeme) : Reader (Option Cst) := do
  let name ← constantName G ctx
  let term ← G.terminator?
  body G ctx "module" ([kw.piece "module", .child name] ++ term.toList)

/-- Whether the text ends right after a keyword that names must follow; the keyword is then left
in an `ERROR` node. -/
def endsAfterKeyword (kw : Lexeme) (word : String) : Reader Bool := do
  if (← Reader.peek .operand false).tok == .eof then
    Grammar.abandon [kw.piece word]
    return true
  else return false

/-- `alias` from its keyword: the new name and the old. -/
def aliasOf (G : Grammar) (kw : Lexeme) : Reader (Option Cst) := do
  if ← endsAfterKeyword kw "alias" then return none
  let new ← aliasName G
  let old ← aliasName G
  some <$> Reader.build "alias" true
    ([kw.piece "alias"] ++ (new.map fun n => Piece.child (n.withField "name")).toList ++
      (old.map fun n => Piece.child (n.withField "alias")).toList)

/-- `undef` from its keyword: names separated by commas. -/
def undefOf (G : Grammar) (ctx : Ctx) (kw : Lexeme) : Reader (Option Cst) := do
  if ← endsAfterKeyword kw "undef" then return none
  let names ← G.commaList ctx false (aliasName G)
  some <$> Reader.build "undef" true ([kw.piece "undef"] ++ names)

end Define

end RubyCheck.Ruby
