import RubyCheck.Ruby.Reader.Define

/-!
# Patterns

**The patterns of `case ... in`, `=>` and `in` tests.**

- A pattern is a value (a literal, a range, a constant), a binding name, a pinned value (`^x`),
  an array pattern in brackets, a hash pattern in braces, a pattern in parentheses, or a constant
  followed by an array or hash pattern in parentheses or brackets.
- Alternatives are separated by `|`; `pattern => name` binds the matched value.
- Inside an array pattern, `*name` gathers the rest, and a trailing comma stands for an anonymous
  rest; an array pattern that starts and ends with a rest is a find pattern. Inside a hash
  pattern, `key:` or `key: pattern` matches a key (a name or a string) and `**name` or `**nil`
  the rest.
- At the top of a clause, patterns separated by commas form an array pattern without brackets,
  and keys a hash pattern without braces.
-/

namespace RubyCheck.Ruby

namespace PatternReader

/-- A splat of an array pattern, from its `*`. -/
def splat (G : Grammar) : Reader Cst := do
  let t ← G.take .operand false
  let n ← Params.name? G
  Reader.build "splat_parameter" true ([t.piece "*"] ++ (n.map .child).toList)

/-- A double splat of a hash pattern, from its `**`. -/
def doubleSplat (G : Grammar) : Reader Cst := do
  let t ← G.take .operand false
  let next ← Reader.peek .operand false
  if next.tok.isWord "nil" then
    let n ← G.take .operand false
    Reader.build "hash_splat_nil" true [t.piece "**", n.piece "nil"]
  else
    let n ← Params.name? G
    Reader.build "hash_splat_parameter" true ([t.piece "**"] ++ (n.map .child).toList)

/-- A range whose lower end `v` is read, if `..` or `...` follows it. -/
def rangeFrom (G : Grammar) (ctx : Ctx) (v : Cst) : Reader Cst := do
  let lx ← Reader.peek .operator ctx.lineBreaks
  if lx.tok.isPunct ".." || lx.tok.isPunct "..." then
    let op ← G.take .operator ctx.lineBreaks
    let spelling := if lx.tok.isPunct ".." then ".." else "..."
    let next ← Reader.peek .operand ctx.lineBreaks
    let upper ← if next.tok.startsOperand then G.arg ctx 51 false else pure none
    Reader.build "range" true
      ([.child (v.withField "begin"), op.piece spelling] ++
        (upper.map fun u => Piece.child (u.withField "end")).toList)
  else return v

/-- A value pattern: an operand that binds tighter than `|`, and a range if `..` follows. -/
def value (G : Grammar) (ctx : Ctx) : Reader (Option Cst) := do
  match ← G.arg ctx 51 false with
  | none => return none
  | some v => some <$> rangeFrom G ctx v

/-- A constant pattern: a constant and the constants reached from it through `::`. -/
def constantPath (G : Grammar) (first : Lexeme) : Reader Cst := do
  let s ← Reader.input
  let rec go (c : Cst) (fuel : Nat) : Reader Cst := do
    match fuel with
    | 0 => return c
    | fuel + 1 =>
      let lx ← Reader.peek .operator false
      if lx.tok.isPunct "::" && !lx.spaced then
        let next := s.lexAt lx.stop .name false
        match next.tok with
        | .constant _ =>
          let op ← G.take .operator false
          let n ← G.take .name false
          let node ← Reader.build "scope_resolution" true
            [.child (c.withField "scope"), op.piece "::",
              .child ((n.leaf "constant" true).withField "name")]
          go node fuel
        | _ => return c
      else return c
  go (first.leaf "constant" true) (s.size + 1)

/-- The items of an array pattern: a trailing comma becomes an anonymous rest. -/
def arrayItems (items : List Piece) : List Piece :=
  match items.getLast? with
  | some (.child c) =>
    if c.type == "," then items.dropLast ++ [.child (Cst.leaf "splat_parameter" true c.start c.stop)]
    else items
  | _ => items

/-- The kind of an array pattern with these items: a find pattern when its first and last items
are rests with one or more items between them. -/
def arrayKind (items : List Piece) : String :=
  let nodes := items.filterMap fun
    | .child c => if c.named then some c else none
    | _ => none
  let isRest (c : Option Cst) := c.any (·.type == "splat_parameter")
  if nodes.length ≥ 3 && isRest nodes.head? && isRest nodes.getLast? then "find_pattern"
  else "array_pattern"

/-- The rest of a keyword pattern whose key `key` ends at `colon`, where its `:` stands. -/
def keywordRest (ctx : Ctx) (nested : Unit → Ctx → Reader (Option Cst)) (key : Cst)
    (colon : Nat) : Reader Cst := do
  Reader.seek (colon + 1)
  let next ← Reader.peek .operand false
  let inner ←
    if next.tok.startsOperand || next.tok.isPunct "^" then nested () ctx else pure none
  Reader.build "keyword_pattern" true
    ([.child (key.withField "key"), .child (Cst.leaf ":" false colon (colon + 1))] ++
      (inner.map fun v => Piece.child (v.withField "value")).toList)

/-- One pattern with its alternatives and binding; `nested` reads a pattern inside brackets. -/
def single (G : Grammar) (ctx : Ctx) (nested : Unit → Ctx → Reader (Option Cst)) :
    Reader (Option Cst) := do
  let s ← Reader.input
  let primary : Reader (Option Cst) := do
    let lx ← Reader.peek .operand false
    match lx.tok with
    | .punct "[" =>
      let t ← G.take .operand false
      let inner := ctx.nested "]"
      let items := arrayItems (← G.commaList inner false (nested () inner))
      let close ← G.punct? "]" .operator false
      let closing ← match close with
        | some c => pure (c.piece "]")
        | none => Piece.child <$> Reader.missing "]" false
      some <$> Reader.build (arrayKind items) true ([t.piece "["] ++ items ++ [closing])
    | .punct "\x7b" =>
      let t ← G.take .operand false
      let inner := ctx.nested "\x7d"
      let items ← G.commaList inner false (nested () inner)
      let close ← G.punct? "\x7d" .operator false
      let closing ← match close with
        | some c => pure (c.piece "\x7d")
        | none => Piece.child <$> Reader.missing "\x7d" false
      some <$> Reader.build "hash_pattern" true ([t.piece "\x7b"] ++ items ++ [closing])
    | .punct "(" =>
      let t ← G.take .operand false
      let inner ← nested () (ctx.nested ")")
      let close ← G.punct? ")" .operator false
      let closing ← match close with
        | some c => pure (c.piece ")")
        | none => Piece.child <$> Reader.missing ")" false
      some <$> Reader.build "parenthesized_pattern" true
        ([t.piece "("] ++ (inner.map .child).toList ++ [closing])
    | .punct "^" =>
      let t ← G.take .operand false
      let next ← Reader.peek .operand false
      if next.tok.isPunct "(" then
        let opening ← G.take .operand false
        let e ← G.expression (ctx.nested ")") false
        let closing ← match ← G.punct? ")" .operator false with
          | some c => pure (c.piece ")")
          | none => Piece.child <$> Reader.missing ")" false
        some <$> Reader.build "expression_reference_pattern" true
          ([t.piece "^", opening.piece "("] ++ (e.map .child).toList ++ [closing])
      else
        match ← G.arg ctx 90 false with
        | some e => some <$> Reader.build "variable_reference_pattern" true [t.piece "^", .child e]
        | none => some <$> Reader.build "variable_reference_pattern" true [t.piece "^"]
    | .punct "*@" | .punct "*" => some <$> splat G
    | .punct "**@" | .punct "**" => some <$> doubleSplat G
    | .word w =>
      if s.is lx.stop ':' && !s.is (lx.stop + 1) ':' then
        let t ← G.take .operand false
        some <$> keywordRest ctx nested (t.leaf "hash_key_symbol" true) t.stop
      else if !keywords.contains w then
        let t ← G.take .operand false
        return some (t.leaf "identifier" true)
      else value G ctx
    | .literal .string _ =>
      match ← value G ctx with
      | some v =>
        if v.type == "string" && s.is v.stop ':' && !s.is (v.stop + 1) ':' then
          some <$> keywordRest ctx nested v v.stop
        else return some v
      | none => return none
    | .constant _ =>
      let first ← G.take .operand false
      let c ← constantPath G first
      let lx ← Reader.peek .operator false
      if !lx.spaced && (lx.tok.isPunct "(" || lx.tok.isPunct "[") then
          let closer := if lx.tok.isPunct "(" then ")" else "]"
          let spelling := if lx.tok.isPunct "(" then "(" else "["
          let t ← G.take .operator false
          let inner := ctx.nested closer
          let items ← G.commaList inner false (nested () inner)
          let close ← G.punct? closer .operator false
          let closing ← match close with
            | some c => pure (c.piece closer)
            | none => Piece.child <$> Reader.missing closer false
          let hashLike := items.any fun
            | .child k => k.type == "keyword_pattern" || k.type == "hash_splat_parameter"
            | _ => false
          let items := if hashLike then items else arrayItems items
          some <$> Reader.build (if hashLike then "hash_pattern" else arrayKind items) true
            ([.child (c.withField "class"), t.piece spelling] ++ items ++ [closing])
        else some <$> rangeFrom G ctx c
    | _ => value G ctx
  match ← primary with
  | none => return none
  | some first =>
    let rec alternatives (acc : List Piece) (fuel : Nat) : Reader (List Piece) := do
      match fuel with
      | 0 => return acc
      | fuel + 1 =>
        match ← G.punct? "|" .operator ctx.lineBreaks with
        | none => return acc
        | some bar =>
          match ← primary with
          | some p => alternatives (acc ++ [bar.piece "|", .child p]) fuel
          | none => return acc ++ [bar.piece "|"]
    let alts ← alternatives [.child first] (s.size + 1)
    let pat ← if alts.length > 1 then Reader.build "alternative_pattern" true alts
      else pure first
    match ← G.punct? "=>" .operator ctx.lineBreaks with
    | some arrow =>
      let n ← Params.name? G
      some <$> Reader.build "as_pattern" true
        ([.child (pat.withField "value"), arrow.piece "=>"] ++
          (n.map fun k => Piece.child (k.withField "name")).toList)
    | none => return some pat

/-- A pattern, with brackets nested at most `depth` deep. -/
def nestedPattern (G : Grammar) : Nat → Ctx → Reader (Option Cst)
  | 0, _ => pure none
  | depth + 1, ctx => single G ctx fun _ => nestedPattern G depth

/-- The pattern of a clause: at the top, patterns separated by commas form an array pattern and
keys a hash pattern. -/
def pattern (G : Grammar) (ctx : Ctx) (top : Bool) : Reader (Option Cst) := do
  let s ← Reader.input
  let item := nestedPattern G (s.size + 1) ctx
  if !top then return ← item
  let items ← G.commaList ctx false item
  match items with
  | [] => return none
  | [.child one] =>
    if one.type == "keyword_pattern" || one.type == "hash_splat_parameter" then
      some <$> Reader.build "hash_pattern" true items
    else if one.type == "splat_parameter" then some <$> Reader.build "array_pattern" true items
    else return some one
  | _ =>
    let hashLike := items.any fun
      | .child k => k.type == "keyword_pattern"
      | _ => false
    if hashLike then some <$> Reader.build "hash_pattern" true items
    else
      let items := arrayItems items
      some <$> Reader.build (arrayKind items) true items

end PatternReader

end RubyCheck.Ruby
