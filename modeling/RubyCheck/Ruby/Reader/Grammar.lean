import RubyCheck.Ruby.Reader.State

/-!
# The grammar's entry points

**Open recursion for the reader.**

The constructs of Ruby nest in each other: statements hold expressions, expressions hold blocks,
blocks hold statements. Each construct is written as a function of a `Grammar`, the record of
the entry points it may recurse into, and `Grammar.tie` (in `Reader/Tie`) closes the knot with a
depth bound, so that every function here is total.

This module also fixes the words and operators the reader knows:

- `keywords` are the reserved words. A keyword is read as such only where it may stand; elsewhere
  the word is an identifier (`end` at the top of a program names a method).
- `binaryPrecedence` gives each binary operator its binding strength and whether it groups to the
  right: `and`/`or` bind weakest, then `||`, `&&`, the equality operators (grouping right), the
  comparisons, `|` and `^`, `&`, the shifts, `+` and `-`, `*`, `/` and `%`, and `**` (grouping
  right) strongest. Assignment binds at 15, the conditional `?:` at 20, ranges at 25 (grouping right).
-/

namespace RubyCheck.Ruby

/-- The entry points a construct may recurse into. -/
structure Grammar where
  /-- statements up to a closer or a stop keyword of the context -/
  statements : Ctx → Reader (List Piece)
  /-- one statement, with its modifiers -/
  statement : Ctx → Reader (Option Cst)
  /-- an expression; `patterns` allows `=>` and `in` pattern tests after it -/
  expression : Ctx → Bool → Reader (Option Cst)
  /-- an operand expression binding at least as tightly as the precedence; commands allowed when
  the flag is set -/
  arg : Ctx → Int → Bool → Reader (Option Cst)
  /-- a pattern of a `case`/`in` clause -/
  pattern : Ctx → Bool → Reader (Option Cst)
  /-- the node of a here-document body: terminator, start (a newline) and end -/
  heredocBody : Heredoc → Nat → Nat → Reader Cst


/-- The reserved words. -/
def keywords : List String :=
  ["alias", "and", "begin", "break", "case", "class", "def", "defined?", "do", "else", "elsif",
    "end", "ensure", "false", "for", "if", "in", "module", "next", "nil", "not", "or", "redo",
    "rescue", "retry", "return", "self", "super", "then", "true", "undef", "unless", "until",
    "when", "while", "yield"]

/-- Keywords that start an operand. -/
def operandKeywords : List String :=
  ["begin", "break", "case", "class", "def", "defined?", "false", "for", "if", "module", "next",
    "nil", "not", "redo", "retry", "return", "self", "super", "true", "unless", "until", "while",
    "yield"]

/-- Keywords that never start an operand and that only some construct may wait for. Where no
construct waits for one, a statement or an argument may start with it, read as a name. -/
def closingWords : List String := ["do", "then", "end", "else", "elsif", "when", "ensure"]

/-- Keywords that may follow a statement as a modifier. -/
def modifierKeywords : List String := ["if", "unless", "while", "until", "rescue"]

/-- Whether an operand can start with this token. -/
def Tok.startsOperand : Tok → Bool
  | .word w => !keywords.contains w || operandKeywords.contains w
  | .constant _ | .ivar | .cvar | .gvar | .integer | .float | .character | .symbol => true
  | .literal .. | .heredoc _ => true
  | .punct p =>
    ["-@", "+@", "*@", "**@", "&@", "::@", "!", "~", "(", "[", "\x7b", "->", "..", "..."].contains p
  | .lineBreak | .eof => false

/-- Binding strength and right grouping of the binary operators. -/
def binaryPrecedence : String → Option (Int × Bool)
  | "and" | "or" => some (-2, false)
  | "||" => some (30, false)
  | "&&" => some (35, false)
  | "==" | "!=" | "===" | "<=>" | "=~" | "!~" => some (40, true)
  | "<" | "<=" | ">" | ">=" => some (45, false)
  | "|" | "^" => some (50, false)
  | "&" => some (55, false)
  | "<<" | ">>" => some (60, false)
  | "+" | "-" => some (65, false)
  | "*" | "/" | "%" => some (70, false)
  | "**" => some (80, true)
  | _ => none

/-- The binding strength of assignment. -/
def assignPrecedence : Int := 15

/-- The binding strength of the conditional operator. -/
def conditionalPrecedence : Int := 20

/-- The binding strength of ranges. -/
def rangePrecedence : Int := 25

/-- The assignment operators that combine with an operator. -/
def operatorAssignments : List String :=
  ["+=", "-=", "*=", "**=", "/=", "||=", "|=", "&&=", "&=", "%=", ">>=", "<<=", "^="]

/-- The word of a token, if it is one. -/
def Tok.word? : Tok → Option String
  | .word w => some w
  | _ => none

/-- Whether a token is the punctuation `p`. -/
def Tok.isPunct (t : Tok) (p : String) : Bool := t == .punct p

/-- Whether a token is the word `w`. -/
def Tok.isWord (t : Tok) (w : String) : Bool := t == .word w

/-- The spelling of a punctuation token as a grammar type: prefix forms drop their `@`. -/
def punctType (p : String) : String :=
  if p.endsWith "@" && p.length > 1 then (p.dropEnd 1).toString else p

/-- Whether a token ends what is being read in `ctx`: the end of the text, a line break, or a
token an enclosing construct waits for. Any other token that cannot continue is junk. -/
def Ctx.accepts (ctx : Ctx) (lx : Lexeme) : Bool :=
  match lx.tok with
  | .eof | .lineBreak => true
  | .punct p => ctx.closers.contains p || p == ";" || p == "=>"
  | .word w => ctx.awaits w || modifierKeywords.contains w || w == "and" || w == "or" || w == "in"
  | _ => false

/-- How a bracketed construct ends: with its closer, with a missing closer, or not at all. -/
inductive Closing where
  | closed (p : Piece)
  | missing (p : Piece)
  | abandon

/-- A token skipped in recovery, as a leaf: names, variables and numbers keep their node type,
other tokens are anonymous. -/
def Lexeme.asSkipped (lx : Lexeme) (s : Input) : Cst :=
  match lx.tok with
  | .word _ => lx.leaf "identifier" true
  | .constant _ => lx.leaf "constant" true
  | .ivar => lx.leaf "instance_variable" true
  | .cvar => lx.leaf "class_variable" true
  | .gvar => lx.leaf "global_variable" true
  | .integer => lx.leaf "integer" true
  | .float => lx.leaf "float" true
  | _ => lx.leaf (punctType (s.slice lx.start lx.stop))

namespace Grammar

/-- Takes the next token, placing the here-document bodies passed. -/
def take (G : Grammar) (mode : Mode) (lineBreaks : Bool) : Reader Lexeme :=
  Reader.take G.heredocBody mode lineBreaks

/-- Takes the punctuation `p` if it comes next. -/
def punct? (G : Grammar) (p : String) (mode : Mode) (lineBreaks : Bool) :
    Reader (Option Lexeme) := do
  let lx ← Reader.peek mode lineBreaks
  if lx.tok.isPunct p then some <$> G.take mode lineBreaks else return none

/-- Takes the word `w` if it comes next. -/
def word? (G : Grammar) (w : String) (lineBreaks : Bool) : Reader (Option Lexeme) := do
  let lx ← Reader.peek .operator lineBreaks
  if lx.tok.isWord w then some <$> G.take .operator lineBreaks else return none

/-- Takes a terminator if one comes next: a line break (hidden) or `;`. -/
def terminator? (G : Grammar) : Reader (Option Piece) := do
  let lx ← Reader.peek .operator true
  match lx.tok with
  | .lineBreak =>
    let _ ← G.take .operator true
    return some (.hidden lx.start lx.start)
  | .punct ";" =>
    let t ← G.take .operator true
    return some (t.piece ";")
  | _ => return none

/-- Takes the next token, read in `mode`, into a floating `ERROR` node: no construct accepts it
here. -/
def skipJunk (G : Grammar) (mode : Mode) : Reader Unit := do
  let s ← Reader.input
  let lx ← G.take mode false
  Reader.float (.mk "ERROR" true none false lx.start lx.stop
    [lx.leaf (punctType (s.slice lx.start lx.stop))])

/-- Floats the pieces of an abandoned construct as one `ERROR` node. Tokens that were only
supplied as missing are dropped, and nothing is left when no piece remains. -/
def abandon (pieces : List Piece) : Reader Unit := do
  let pieces := pieces.filter fun
    | .child c => !c.missing
    | .hidden .. => true
  if pieces.isEmpty then return
  let node ← Reader.build "ERROR" true pieces
  Reader.float node

/-- Ends a construct. The closer is taken when it comes next. At the end of the text, or before a
stray closing bracket that the text ends after, the construct is abandoned when `abandonAtEnd`
says so; otherwise the closer is missing. -/
def close (G : Grammar) (closer : String) (isWord : Bool) (abandonAtEnd : Bool) :
    Reader Closing := do
  let s ← Reader.input
  let lx ← Reader.peek .operator false
  let found := if isWord then lx.tok.isWord closer else lx.tok.isPunct closer
  let strayBeforeEnd :=
    [")", "]", "\x7d"].any lx.tok.isPunct && (s.peekAt lx.stop .operator false []).2.tok == .eof
  if found then
    let t ← G.take .operator false
    return .closed (t.piece closer)
  else if (lx.tok == .eof || strayBeforeEnd) && abandonAtEnd then return .abandon
  else
    let m ← Reader.missing closer false
    return .missing (.child m)

/-- Whether a bracketed construct opened at `opening`, which the text ends in, is abandoned: when
it holds nothing and the token before it needs no operand after it, or when it holds something
and its last token taken is a line break. -/
def bracketAbandoned (opening : Nat) (content : Bool) : Reader Bool := do
  let s ← Reader.input
  let st ← get
  let before := s.tokenEndBefore opening
  let needsOperand := before > 0 &&
    s.test (before - 1) fun c => "=+-*/%<>&|^!~?:".toList.contains c
  return (!content && !needsOperand) || (content && st.lastEnd < st.pos)

/-- Whether pieces hold a statement: a node, where a `then` node counts only when it holds
one. -/
def holdsStatement (pieces : List Piece) : Bool :=
  pieces.any fun
    | .child c =>
      c.named && (c.type != "then" || c.children.any fun k => k.named)
    | .hidden .. => false

/-- Items read by `item`, separated by commas, as pieces. A comma may end the line, and a comma
that no item follows stays the last piece, unless the text ends after it outside brackets: it is
then left in an `ERROR` node. With `recover`, a token after an item that neither separates items
nor is awaited by `ctx` is skipped as junk, and so are commas and stray closing brackets
before the first item in brackets (a stray closing bracket the text ends after is left to end
the brackets). -/
def commaList (G : Grammar) (ctx : Ctx) (recover : Bool) (item : Reader (Option Cst)) :
    Reader (List Piece) := do
  let s ← Reader.input
  let inBrackets := ctx.closers.head?.any fun c => [")", "]", "\x7d"].contains c
  let rec more (acc : List Piece) (fuel : Nat) : Reader (List Piece) := do
    match fuel with
    | 0 => return acc
    | fuel + 1 =>
      let lx ← Reader.peek .operator ctx.lineBreaks
      if lx.tok.isPunct "," then
        let comma ← G.take .operator ctx.lineBreaks
        match ← item with
        | some it => more (acc ++ [comma.piece ",", .child it]) fuel
        | none =>
          if !inBrackets && (← Reader.peek .operand false).tok == .eof then
            abandon [comma.piece ","]
            return acc
          else return acc ++ [comma.piece ","]
      else if !recover || ctx.accepts lx then return acc
      else if lx.tok.startsOperand then
        if acc.isEmpty || !inBrackets then return acc
        -- an item that no comma separates from the one before: its tokens are skipped up to
        -- the next comma or closer
        let rec skip (pieces : List Piece) (fuel : Nat) : Reader (List Piece) := do
          match fuel with
          | 0 => return pieces
          | fuel + 1 =>
            let t ← Reader.peek .operator ctx.lineBreaks
            if t.tok == .eof || t.tok.isPunct "," || ctx.accepts t then return pieces
            let t ← G.take .operator ctx.lineBreaks
            skip (pieces ++ [.child (t.asSkipped s)]) fuel
        abandon (← skip [] (s.size + 1))
        more acc fuel
      else
        let after := (s.peekAt lx.stop .operator ctx.lineBreaks []).2
        match acc.getLast? with
        | some (.child last) =>
          if after.tok.startsOperand && after.tok != .lineBreak then
            -- an item after the junk takes the place of the item before it, which is left in an
            -- `ERROR` node with the junk
            let junk ← G.take .operator ctx.lineBreaks
            abandon [.child last, junk.piece (punctType (s.slice junk.start junk.stop))]
            match ← item with
            | some it => more (acc.dropLast ++ [.child it]) fuel
            | none => return acc.dropLast
          else
            G.skipJunk .operator
            more acc fuel
        | _ =>
          G.skipJunk .operator
          more acc fuel
  let rec start (fuel : Nat) : Reader (List Piece) := do
    match fuel with
    | 0 => return []
    | fuel + 1 =>
      match ← item with
      | some first => more [.child first] (s.size + 1)
      | none =>
        let lx ← Reader.peek .operator ctx.lineBreaks
        let strayCloser := [")", "]", "\x7d"].any lx.tok.isPunct && !ctx.accepts lx &&
          (s.peekAt lx.stop .operator false []).2.tok != .eof
        if recover && inBrackets && (lx.tok.isPunct "," || strayCloser) then
          G.skipJunk .operator
          start fuel
        else return []
  start (s.size + 1)

end Grammar

end RubyCheck.Ruby
