import RubyCheck.Ruby.Reader.Grammar

/-!
# Literals

**Numbers, symbols, characters, delimited literals and here-documents.**

- A number is an `integer` or a `float`; a directly following `r` makes it `rational`, `i`
  `complex`.
- A delimited literal (`"..."`, `'...'`, `` `...` ``, `:"..."`, `/.../`, the `%` forms) holds
  content segments, escape sequences and interpolations. Bracket delimiters nest. Only
  interpolating literals have escape sequences and `#{...}`; in the others a backslash only
  keeps the next character from closing the literal.
- `%w` and `%i` lists hold one `bare_string` or `bare_symbol` per blank-separated word.
- A malformed escape sequence (`\u` without four hexadecimal digits or digits in braces, `\x`
  without a hexadecimal digit) makes the literal an `ERROR` node up to its closing delimiter: the
  letter after the backslash is an `ERROR` node, runs of digits after it are integers and a
  closing brace is an `ERROR` node.
- A literal whose text ends before its closing delimiter is not a literal: its opening token is
  left in an `ERROR` node, and reading resumes right after it. When code was read inside it
  (`#{`), everything from the opening token to the end of the text is one `ERROR` node.
- A here-document body begins with the line break after its opening line and holds its lines up
  to the terminator line, then the terminator word as `heredoc_end` (empty when the text ends
  first).
-/

namespace RubyCheck.Ruby

namespace Literal

/-- Where an escape sequence starting at `j` (a backslash) ends. -/
def escapeEnd (s : Input) (j : Nat) : Nat :=
  match s.get (j + 1) with
  | none => j + 1
  | some 'u' =>
    if s.is (j + 2) '{' then
      let e := s.skipWhile (j + 3) fun c => isHexDigit c || c == ' '
      if s.is e '}' then e + 1 else j + 2
    else if (List.range 4).all fun k => s.test (j + 2 + k) isHexDigit then j + 6
    else j + 2
  | some 'x' =>
    if s.test (j + 2) isHexDigit then (if s.test (j + 3) isHexDigit then j + 4 else j + 3)
    else j + 2
  | some c =>
    if isOctDigit c then
      if s.test (j + 2) isOctDigit then (if s.test (j + 3) isOctDigit then j + 4 else j + 3)
      else j + 2
    else j + 2

/-- Whether the escape sequence at `j` (a backslash) is malformed: `\u` without four hexadecimal
digits or hexadecimal digits in braces, or `\x` without a hexadecimal digit. -/
def badEscape (s : Input) (j : Nat) : Bool :=
  match s.get (j + 1) with
  | some 'u' =>
    if s.is (j + 2) '\x7b' then
      let e := s.skipWhile (j + 3) fun c => isHexDigit c || c == ' '
      !(s.is e '\x7d' && (s.slice (j + 3) e).any isHexDigit)
    else !(List.range 4).all fun k => s.test (j + 2 + k) isHexDigit
  | some 'x' => !s.test (j + 2) isHexDigit
  | _ => false

/-- How content is read: the delimiter, the type of content segments, and whether a blank ends a
word of a `%w` list. -/
structure Scan where
  delimiter : Delimiter
  segment : String
  words : Bool

/-- What reading content found. -/
inductive Content where
  /-- the content's pieces, up to the closing delimiter at `close` (or a blank ending a word);
  `malformed` when a malformed escape sequence made the rest of it tokens -/
  | closed (pieces : List Piece) (close : Nat) (malformed : Bool)
  /-- the text ended first, after the content's pieces; `interpolated` when code was read
  inside it -/
  | unclosed (pieces : List Piece) (interpolated : Bool)

/-- The content of a word list: its words up to the closing delimiter, if the text does not end
first. -/
def Content.ofWords : Option (List Piece × Nat) → Content
  | some (pieces, close) => .closed pieces close false
  | none => .unclosed [] false

/-- A content segment between two positions, if it is not empty. -/
def segmentPieces (sc : Scan) (a b : Nat) : List Piece :=
  if a < b then [.child (Cst.leaf sc.segment true a b)] else []

/-- The rest of a literal after a malformed escape sequence whose letter is at `j`, up to the
closing delimiter: the letter is an `ERROR` node, runs of digits are integers, and a closing
brace is an `ERROR` node. Nothing when the text ends first. -/
def malformedRest (s : Input) (d : Delimiter) (j : Nat) : Option (List Piece × Nat) :=
  go (j + 1) [.child (.mk "ERROR" true none false j (j + 1) [])] (s.size + 1)
where
  /-- Reads from `k`. -/
  go (k : Nat) (acc : List Piece) : Nat → Option (List Piece × Nat)
    | 0 => none
    | fuel + 1 =>
      match s.get k with
      | none => none
      | some c =>
        if c == d.closing then some (acc, k)
        else if c.isDigit then
          let e := s.skipWhile k Char.isDigit
          go e (acc ++ [.child (Cst.leaf "integer" true k e)]) fuel
        else if c == '\x7d' then
          go (k + 1) (acc ++ [.child (.mk "ERROR" true none false k (k + 1) [])]) fuel
        else go (k + 1) acc fuel

/-- Reads content from position `j` on, up to the closing delimiter or a blank ending a word. -/
def contents (G : Grammar) (sc : Scan) (j : Nat) : Reader Content := do
  let s ← Reader.input
  let rec go (j segStart depth : Nat) (acc : List Piece) (interpolated : Bool) (fuel : Nat) :
      Reader Content := do
    match fuel with
    | 0 => return .unclosed acc interpolated
    | fuel + 1 =>
      let flush := acc ++ segmentPieces sc segStart j
      match s.get j with
      | none => return if sc.words then .closed flush j false else .unclosed flush interpolated
      | some c =>
        let d := sc.delimiter
        if c == d.closing && depth == 0 then return .closed flush j false
        else if sc.words && isBlank c && depth == 0 then return .closed flush j false
        else if d.opening != d.closing && c == d.opening then
          go (j + 1) segStart (depth + 1) acc interpolated fuel
        else if d.opening != d.closing && c == d.closing then
          go (j + 1) segStart (depth - 1) acc interpolated fuel
        else if c == '\\' then
          if d.interpolates && badEscape s j then
            match malformedRest s d (j + 1) with
            | some (rest, close) => return .closed (flush ++ rest) close true
            | none => return .unclosed flush interpolated
          else if d.interpolates then
            let e := escapeEnd s j
            go e e depth (flush ++ [.child (Cst.leaf "escape_sequence" true j e)]) interpolated fuel
          else go (j + 2) segStart depth acc interpolated fuel
        else if d.interpolates && c == '#' && s.is (j + 1) '\x7b' then
          Reader.seek (j + 2)
          let open_ : Piece := .child (Cst.leaf "#\x7b" false j (j + 2))
          let body ← G.statements { lineBreaks := true, closers := ["\x7d"] }
          let close ← Reader.peek .operator false
          if close.tok.isPunct "\x7d" then
            let lx ← G.take .operator false
            let node ← Reader.build "interpolation" true ([open_] ++ body ++ [lx.piece "\x7d"])
            go lx.stop lx.stop depth (flush ++ [.child node]) true fuel
          else
            let miss ← Reader.missing "\x7d" false
            let node ← Reader.build "interpolation" true ([open_] ++ body ++ [.child miss])
            let st ← get
            go (max st.pos (j + 2)) (max st.pos (j + 2)) depth (flush ++ [.child node]) true fuel
        else if d.interpolates && c == '#' && (s.is (j + 1) '@' || s.is (j + 1) '$') then
          let v := j + 1
          let stop? : Option (Nat × String) :=
            if s.is v '$' then (s.globalEnd v).map (·, "global_variable")
            else if s.test (v + 1) isAlphaStart then
              some (s.skipWhile (v + 1) isNameChar, "instance_variable")
            else if s.is (v + 1) '@' && s.test (v + 2) isAlphaStart then
              some (s.skipWhile (v + 2) isNameChar, "class_variable")
            else none
          match stop? with
          | some (e, type) =>
            let node : Cst := .mk "interpolation" true none false j e [Cst.leaf type true v e]
            go e e depth (flush ++ [.child node]) interpolated fuel
          | none => go (j + 1) segStart depth acc interpolated fuel
        else go (j + 1) segStart depth acc interpolated fuel
  go j j 0 [] false (s.size + 2)

/-- The grammar type of a delimited literal of each kind. -/
def typeOf : LiteralKind → String
  | .string => "string"
  | .symbol => "delimited_symbol"
  | .subshell => "subshell"
  | .regex => "regex"
  | .words => "string_array"
  | .symbols => "symbol_array"

/-- Floats the opening token of a literal that does not end, and resumes after it. -/
def abandon (opener : Lexeme) (type : String) : Reader Unit := do
  Reader.float (.mk "ERROR" true none false opener.start opener.stop [opener.leaf type])
  Reader.seek opener.stop

/-- The words of a `%w` or `%i` list from position `j`: each a `bare_string` or `bare_symbol`;
the position of the closing delimiter, or nothing when the text ends first. -/
def wordList (G : Grammar) (d : Delimiter) (element : String) (j : Nat) :
    Reader (Option (List Piece × Nat)) := do
  let s ← Reader.input
  let rec go (j : Nat) (acc : List Piece) (fuel : Nat) : Reader (Option (List Piece × Nat)) := do
    match fuel with
    | 0 => return none
    | fuel + 1 =>
      let k := s.skipWhile j isBlank
      match s.get k with
      | none => return none
      | some c =>
        if c == d.closing then return some (acc, k)
        else
          let sc : Scan := { delimiter := d, segment := "string_content", words := true }
          match ← contents G sc k with
          | .unclosed .. => return none
          | .closed pieces e _ =>
            if e ≤ k then return some (acc, k)
            else
              let node ← Reader.build element true pieces
              go e (acc ++ [.child node]) fuel
  go j [] (s.size + 2)

/-- Reads a delimited literal whose opening token `opener` was taken. Gives nothing, after
floating the opening token, when the text ends before the literal closes. -/
def delimited (G : Grammar) (kind : LiteralKind) (d : Delimiter) (opener : Lexeme) :
    Reader (Option Cst) := do
  let s ← Reader.input
  let openType := s.slice opener.start opener.stop
  let body ←
    match kind with
    | .words => Content.ofWords <$> wordList G d "bare_string" opener.stop
    | .symbols => Content.ofWords <$> wordList G d "bare_symbol" opener.stop
    | _ => contents G { delimiter := d, segment := "string_content", words := false } opener.stop
  match body with
  | .unclosed _ false =>
    abandon opener openType
    return none
  | .unclosed pieces true =>
    -- code was read inside the literal: its tokens, to the end of the text, are one `ERROR` node
    let tokens := pieces.flatMap fun
      | .child c =>
        if c.type == "interpolation" then (c.children.filter (!·.missing)).map .child else [.child c]
      | p => [p]
    let node ← Reader.build "ERROR" true ([opener.piece openType] ++ tokens ++ [.hidden s.size s.size])
    Reader.float (.mk "ERROR" true none false node.start node.stop (node.children.flatMap fun k =>
      if k.type == "ERROR" then k.children else [k]))
    Reader.seek s.size
    return none
  | .closed pieces close malformed =>
    let closeStop :=
      if kind == .regex then s.skipWhile (close + 1) fun c => 'a' ≤ c && c ≤ 'z' else close + 1
    Reader.seek closeStop
    if malformed then
      let node ← Reader.build "ERROR" true
        ([opener.piece openType] ++ pieces ++ [.child (Cst.leaf (s.slice close closeStop) false close closeStop)])
      Reader.float node
      return none
    let node ← Reader.build (typeOf kind) true
      ([opener.piece openType] ++ pieces ++ [.child (Cst.leaf (s.slice close (close + 1)) false close closeStop)])
    return some node

/-- The node of a here-document body from the line break at `start`: content, escape sequences
and interpolations as the body scanner finds them, then the terminator. A body that an
interpolation is left open in is an `ERROR` node around what was read. -/
def heredocBody (G : Grammar) (h : Heredoc) (start _stop : Nat) : Reader Cst := do
  let s ← Reader.input
  let rec go (c : Nat) (look : Bool) (acc : List Piece) (fuel : Nat) : Reader Cst := do
    match fuel with
    | 0 => Reader.build "heredoc_body" true acc
    | fuel + 1 =>
      match s.heredocStep h c look with
      | .content stop =>
        go (max stop (c + 1)) true (acc ++ [.child (Cst.leaf "heredoc_content" true c stop)]) fuel
      | .terminator stop =>
        Reader.build "heredoc_body" true (acc ++ [.child (Cst.leaf "heredoc_end" true c stop)])
      | .special =>
        if s.is c '\\' then
          let e := escapeEnd s c
          go e true (acc ++ [.child (Cst.leaf "escape_sequence" true c e)]) fuel
        else if s.is (c + 1) '\x7b' then
          Reader.seek (c + 2)
          let opening : Piece := .child (Cst.leaf "#\x7b" false c (c + 2))
          let body ← G.statements { lineBreaks := true, closers := ["\x7d"] }
          let close ← Reader.peek .operator false
          if close.tok.isPunct "\x7d" then
            let lx ← G.take .operator false
            let node ← Reader.build "interpolation" true ([opening] ++ body ++ [lx.piece "\x7d"])
            go lx.stop true (acc ++ [.child node]) fuel
          else Reader.build "ERROR" true (acc ++ [opening] ++ body)
        else
          let v := c + 1
          let (e, type) :=
            if s.is v '$' then ((s.globalEnd v).getD (v + 1), "global_variable")
            else if s.is (v + 1) '@' then (s.skipWhile (v + 2) isNameChar, "class_variable")
            else (s.skipWhile (v + 1) isNameChar, "instance_variable")
          let node : Cst := .mk "interpolation" true none false c e [Cst.leaf type true v e]
          go e true (acc ++ [.child node]) fuel
  go start false [.hidden start start] (s.size + 2)

/-- A number token, with a directly following `r` (rational) or `i` (complex). -/
def number (lx : Lexeme) : Reader Cst := do
  let s ← Reader.input
  let base := lx.leaf (if lx.tok == .float then "float" else "integer") true
  let suffixAt (i : Nat) (c : Char) : Bool := s.is i c && !s.test (i + 1) isNameChar
  if suffixAt lx.stop 'r' then
    Reader.seek (lx.stop + 1)
    return .mk "rational" true none false lx.start (lx.stop + 1) [base, Cst.leaf "r" false lx.stop (lx.stop + 1)]
  else if suffixAt lx.stop 'i' then
    Reader.seek (lx.stop + 1)
    return .mk "complex" true none false lx.start (lx.stop + 1) [base, Cst.leaf "i" false lx.stop (lx.stop + 1)]
  else if s.is lx.stop 'r' && suffixAt (lx.stop + 1) 'i' then
    Reader.seek (lx.stop + 2)
    let rational : Cst := .mk "rational" true none false lx.start lx.stop [base]
    return .mk "complex" true none false lx.start (lx.stop + 2)
      [rational, Cst.leaf "ri" false lx.stop (lx.stop + 2)]
  else return base

end Literal

end RubyCheck.Ruby
