import RubyCheck.Ruby.Chars

/-!
# Tokens of Ruby text

**The lexical layer of the reader.**

Ruby text is read as an array of characters. Which token starts at a position depends on what the
reader can accept there (`Mode`): where an operand may start, `/` opens a regular expression and
`-` is a sign; after an operand they are operators. After a method name that can still take
arguments without parentheses (`Mode.command`), spacing decides: `foo -1` passes `-1`, `foo - 1`
subtracts, `foo [1]` passes an array and `foo[1]` indexes; `/=` there is always the operator.

Between tokens lies a *gap* (`scanGap`): blanks, comments, embedded documents (`=begin` to
`=end`), escaped line ends (a backslash that ends the text counts as one), the bodies of pending here-documents, and characters that start no
token. Where a statement may end, the first newline of a gap is a *line break*, unless the next
line continues a method chain with `.` or `&.`.
-/

namespace RubyCheck.Ruby

/-- Ruby text as characters; positions are character indices. -/
structure Input where
  chars : Array Char

namespace Input

def size (s : Input) : Nat := s.chars.size

/-- The character at a position, if any. -/
def get (s : Input) (i : Nat) : Option Char := s.chars[i]?

/-- Whether the character at `i` is `c`. -/
def is (s : Input) (i : Nat) (c : Char) : Bool := s.get i == some c

/-- Whether the character at `i` satisfies `p`. -/
def test (s : Input) (i : Nat) (p : Char → Bool) : Bool := (s.get i).any p

/-- Whether the characters from `i` on spell `word`. -/
def spells (s : Input) (i : Nat) (word : String) : Bool :=
  (word.toList.zipIdx).all fun (c, k) => s.is (i + k) c

/-- The first position from `i` on whose character fails `p`, or the end of the text. -/
def skipWhile (s : Input) (i : Nat) (p : Char → Bool) : Nat :=
  if h : i < s.chars.size then
    if p s.chars[i] then s.skipWhile (i + 1) p else i
  else i
termination_by s.chars.size - i

/-- The text between two positions. -/
def slice (s : Input) (i j : Nat) : String := String.ofList ((s.chars.extract i j).toList)

/-- The position of the newline ending the line that holds `i`, or the end of the text. -/
def lineEnd (s : Input) (i : Nat) : Nat := s.skipWhile i (· != '\n')

/-- The first position from `i` on that is not blank within the line (spaces and tabs). -/
def skipIndent (s : Input) (i : Nat) : Nat := s.skipWhile i fun c => c == ' ' || c == '\t'

/-- The cost of leaving the text from `i` to `j` in an `ERROR` node: one per byte, thirty per line
break. -/
def skipCost (s : Input) (i j : Nat) : Nat :=
  ((s.chars.extract i j).toList.map fun c => if c == '\n' then 31 else c.utf8Size).foldr
    (· + ·) 0

/-- The position after the last token before `i`: `i` less the spaces and tabs before it. -/
def tokenEndBefore (s : Input) (i : Nat) : Nat :=
  go i i
where
  /-- Steps back from `j` at most `fuel` times. -/
  go (j : Nat) : Nat → Nat
    | 0 => j
    | fuel + 1 =>
      if j > 0 && s.test (j - 1) (fun c => c == ' ' || c == '\t') then go (j - 1) fuel else j

end Input

/-- The kinds of delimited literals. -/
inductive LiteralKind where
  | string
  | symbol
  | subshell
  | regex
  | words
  | symbols
  deriving DecidableEq, Repr, Inhabited

/-- How a delimited literal ends: its opening and closing characters (equal unless brackets,
which nest) and whether it interpolates `#{...}` and escapes. -/
structure Delimiter where
  opening : Char
  closing : Char
  interpolates : Bool
  deriving DecidableEq, Repr, Inhabited

/-- The terminator word of a here-document, whether the terminator may be indented, and whether
its body interpolates. -/
structure Heredoc where
  tag : String
  indented : Bool
  interpolates : Bool
  deriving DecidableEq, Repr, Inhabited

/-- Tokens. A `word` starts with a lower start and may end in `?` or `!`; keywords are words,
told apart by the reader. Prefix forms of punctuation are spelled with a trailing `@` (`-@` for a
sign, `*@` for a splat, `&@` for a block argument, `::@` for a scope from the top). -/
inductive Tok where
  | word (w : String)
  | constant (w : String)
  | ivar
  | cvar
  | gvar
  | integer
  | float
  | character
  | symbol
  | literal (kind : LiteralKind) (d : Delimiter)
  | heredoc (h : Heredoc)
  | punct (p : String)
  | lineBreak
  | eof
  deriving DecidableEq, Repr, Inhabited

/-- A token, where it starts and ends, and whether blanks precede it. -/
structure Lexeme where
  tok : Tok
  start : Nat
  stop : Nat
  spaced : Bool
  deriving Repr, Inhabited

/-- What the reader can accept at a position. -/
inductive Mode where
  /-- the start of an operand -/
  | operand
  /-- an operator after an operand -/
  | operator
  /-- after a method name that may take arguments without parentheses -/
  | command
  /-- a method name, after `.`, `::` or `def` -/
  | name
  deriving DecidableEq, Repr

/-- Operators and punctuation, each listed before any that is a prefix of it. -/
def operators : List String :=
  ["**=", "**", "*=", "*", "&&=", "&&", "&.", "&=", "&", "||=", "||", "|=", "|", "^=", "^",
    "<=>", "<<=", "<<", "<=", "<", ">>=", ">>", ">=", ">", "===", "==", "=~", "=>", "=",
    "!=", "!~", "!", "~", "+=", "+", "->", "-=", "-", "/=", "/", "%=", "%", "...", "..", ".",
    "::", ":", ",", ";", "(", ")", "[", "]", "\x7b", "\x7d", "?"]

/-- Operator names a method may have, each listed before any that is a prefix of it. -/
def operatorNames : List String :=
  ["[]=", "[]", "===", "==", "=~", "!=", "!~", "<=>", "<<", "<=", "<", ">>", ">=", ">", "**",
    "*", "+@", "-@", "+", "-", "/", "%", "!", "~@", "~", "&", "|", "^", "`"]

/-- The characters that may follow `$` alone in a global variable. -/
def globalSpecials : List Char :=
  ['!', '@', '&', '`', '\'', '+', '~', '=', '/', '\\', ',', ';', '.', '<', '>', '*', '$', '?',
    ':', '"']

namespace Input

/-- The longest operator spelled at `i`. -/
def operatorAt (s : Input) (i : Nat) : Option String :=
  operators.find? fun op => s.spells i op

/-- Where a global variable starting at `i` (a `$`) ends, if one does. -/
def globalEnd (s : Input) (i : Nat) : Option Nat :=
  match s.get (i + 1) with
  | some c =>
    if c.isDigit then some (s.skipWhile (i + 1) Char.isDigit)
    else if c == '-' then if s.test (i + 2) isNameChar then some (i + 3) else none
    else if isAlphaStart c then some (s.skipWhile (i + 1) isNameChar)
    else if globalSpecials.contains c then some (i + 2)
    else none
  | none => none

/-- Whether some token starts at `i`. Control characters, a lone `@` or `$`, and a backslash
that does not escape a line end start none. -/
def startsToken (s : Input) (i : Nat) : Bool :=
  match s.get i with
  | none => false
  | some c =>
    if isControl c then false
    else if c == '@' then
      s.test (i + 1) isAlphaStart || (s.is (i + 1) '@' && s.test (i + 2) isAlphaStart)
    else if c == '$' then (s.globalEnd i).isSome
    else c != '\\'

/-- The end of digits with single underscores between them, from `j` on, after a digit. -/
def digitsFrom (s : Input) (digit : Char → Bool) (j : Nat) : Nat :=
  if h : j < s.chars.size then
    if digit s.chars[j] then s.digitsFrom digit (j + 1)
    else if s.chars[j] == '_' && s.test (j + 1) digit then s.digitsFrom digit (j + 2)
    else j
  else j
termination_by s.chars.size - j

/-- Digits with single underscores between them, from `i`; the end, if there is a first digit. -/
def digitsEnd (s : Input) (i : Nat) (digit : Char → Bool) : Option Nat :=
  if s.test i digit then some (s.digitsFrom digit (i + 1)) else none

/-- Where a whole number starting at `i` ends: binary, octal, explicit decimal, hexadecimal or
plain decimal, whichever reads furthest. -/
def integerEnd (s : Input) (i : Nat) : Nat :=
  let prefixed (letters : List Char) (digit : Char → Bool) : Option Nat :=
    if s.is i '0' && s.test (i + 1) letters.contains then s.digitsEnd (i + 2) digit else none
  let octal : Option Nat := if s.is i '0' then s.digitsEnd (i + 1) isOctDigit else none
  let plain := (s.digitsEnd i Char.isDigit).getD (i + 1)
  [prefixed ['b', 'B'] isBinDigit, prefixed ['o', 'O'] isOctDigit, prefixed ['d', 'D'] Char.isDigit,
    prefixed ['x', 'X'] isHexDigit, octal].foldl (fun best e => max best (e.getD best)) plain

/-- Where a decimal number with a fraction or an exponent starting at `i` ends, if it has one. -/
def floatEnd (s : Input) (i : Nat) : Option Nat :=
  let whole := (s.digitsEnd i Char.isDigit).getD i
  let fraction :=
    if s.is whole '.' then (s.digitsEnd (whole + 1) Char.isDigit).getD whole else whole
  let signAt := if s.test (fraction + 1) (fun c => c == '+' || c == '-') then fraction + 2
    else fraction + 1
  let exponent :=
    if s.test fraction (fun c => c == 'e' || c == 'E') then
      (s.digitsEnd signAt Char.isDigit).getD fraction
    else fraction
  if exponent > whole then some exponent else none

/-- Where a word or constant starting at `i` ends, with an optional `?` (and `!` for words) that
is not the start of `=`. -/
def nameEnd (s : Input) (i : Nat) (bang : Bool) : Nat :=
  let e := s.skipWhile i isNameChar
  if (s.is e '?' || (bang && s.is e '!')) && !s.is (e + 1) '=' then e + 1 else e

/-- Where the name of a simple symbol starting at `i` ends (after the colon), if it has one. -/
def symbolEnd (s : Input) (i : Nat) : Option Nat :=
  match s.get i with
  | none => none
  | some c =>
    if c == '@' then
      if s.test (i + 1) isAlphaStart then some (s.skipWhile (i + 1) isNameChar)
      else if s.is (i + 1) '@' && s.test (i + 2) isAlphaStart then
        some (s.skipWhile (i + 2) isNameChar)
      else none
    else if c == '$' then s.globalEnd i
    else if isAlphaStart c then
      let e := s.skipWhile i isNameChar
      if s.test e (fun d => d == '?' || d == '!') then some (e + 1)
      else if s.is e '=' && !s.test (e + 1) (fun d => d == '=' || d == '~' || d == '>') then
        some (e + 1)
      else some e
    else (operatorNames.find? fun op => s.spells i op).map (i + ·.length)

/-- The closing character for an opening delimiter. -/
def closerOf (c : Char) : Char :=
  match c with
  | '(' => ')'
  | '[' => ']'
  | '{' => '}'
  | '<' => '>'
  | _ => c

/-- Whether a character may open a percent literal. -/
def isDelimiterChar (c : Char) : Bool :=
  !c.isAlphanum && !isBlank c && c != '=' && 0x20 ≤ c.toNat && c.toNat < 0x80

/-- The percent literal opening at `i` (a `%`), its kind, delimiter and width. -/
def percentAt (s : Input) (i : Nat) : Option (LiteralKind × Delimiter × Nat) :=
  let mk (kind : LiteralKind) (interp : Bool) (at_ : Nat) (width : Nat) :=
    (s.get at_).bind fun d =>
      if isDelimiterChar d then some (kind, { opening := d, closing := closerOf d, interpolates := interp }, width)
      else none
  match s.get (i + 1) with
  | some 'w' => mk .words false (i + 2) 3
  | some 'W' => mk .words true (i + 2) 3
  | some 'i' => mk .symbols false (i + 2) 3
  | some 'I' => mk .symbols true (i + 2) 3
  | some 'q' => mk .string false (i + 2) 3
  | some 'Q' => mk .string true (i + 2) 3
  | some 'r' => mk .regex true (i + 2) 3
  | some 'x' => mk .subshell true (i + 2) 3
  | some 's' => mk .symbol false (i + 2) 3
  | some _ => mk .string true (i + 1) 2
  | none => none

/-- The here-document opening at `i` (a `<<`), and where its opening token ends. -/
def heredocAt (s : Input) (i : Nat) : Option (Heredoc × Nat) :=
  let j := if s.test (i + 2) (fun c => c == '~' || c == '-') then i + 3 else i + 2
  let indented := j == i + 3
  match s.get j with
  | some q =>
    if q == '\'' || q == '"' || q == '`' then
      let e := s.skipWhile (j + 1) fun c => c != q && c != '\n'
      if s.is e q && e > j + 1 then
        some ({ tag := s.slice (j + 1) e, indented, interpolates := q != '\'' }, e + 1)
      else none
    else if isNameChar q && !q.isDigit then
      let e := s.skipWhile j isNameChar
      some ({ tag := s.slice j e, indented, interpolates := true }, e)
    else none
  | none => none

/-- Where a character literal starting at `i` (a `?`) ends, if one starts there. -/
def characterEnd (s : Input) (i : Nat) : Option Nat :=
  match s.get (i + 1) with
  | none => none
  | some c =>
    if isBlank c then none
    else if c == '\\' then
      if s.test (i + 2) (fun d => !isBlank d) then
        let j := i + 3
        if s.is j '{' then
          let e := s.skipWhile (j + 1) isHexDigit
          some (if s.is e '}' then e + 1 else j)
        else if s.is j '-' && s.test (j + 1) (fun d => !isBlank d) then
          if s.test (j + 2) (fun d => d == 'M' || d == 'C') && s.is (j + 3) '-' &&
              s.test (j + 4) (fun d => !isBlank d) then some (j + 5)
          else some (j + 2)
        else some (s.skipWhile j isHexDigit)
      else none
    else some (i + 2)

/-- The token at `i`, read in `mode`; `spaced` tells whether blanks precede it. -/
def lexAt (s : Input) (i : Nat) (mode : Mode) (spaced : Bool) : Lexeme :=
  let mk (tok : Tok) (stop : Nat) : Lexeme := { tok, start := i, stop, spaced }
  let punct (p : String) : Lexeme := mk (.punct p) (i + p.length)
  let next := s.get (i + 1)
  let nextBlank := (next.map isBlank).getD true
  -- in command position, a prefix form needs blanks before it and none after it
  let prefixHere : Bool :=
    mode == .operand || (mode == .command && spaced && !nextBlank)
  match s.get i with
  | none => mk .eof i
  | some c =>
    if mode == .name && (isNameChar c && !c.isDigit) then
      if c.isUpper then mk (.constant (s.slice i (s.nameEnd i false))) (s.nameEnd i false)
      else mk (.word (s.slice i (s.nameEnd i true))) (s.nameEnd i true)
    else if isLowerStart c then
      let e := s.nameEnd i true
      mk (.word (s.slice i e)) e
    else if c.isUpper then
      let e := s.nameEnd i false
      mk (.constant (s.slice i e)) e
    else if c.isDigit then
      let e := s.integerEnd i
      match s.floatEnd i with
      | some f => if f > e then mk .float f else mk .integer e
      | none => mk .integer e
    else if c == '@' then
      if s.is (i + 1) '@' then mk .cvar (s.skipWhile (i + 2) isNameChar)
      else mk .ivar (s.skipWhile (i + 1) isNameChar)
    else if c == '$' then mk .gvar ((s.globalEnd i).getD (i + 1))
    else if c == '"' then mk (.literal .string ⟨'"', '"', true⟩) (i + 1)
    else if c == '\'' then mk (.literal .string ⟨'\'', '\'', false⟩) (i + 1)
    else if c == '`' && mode != .name then mk (.literal .subshell ⟨'`', '`', true⟩) (i + 1)
    else if mode == .name then
      match operatorNames.find? fun op => s.spells i op with
      | some op => punct op
      | none => punct ((s.operatorAt i).getD (String.singleton c))
    else if c == ':' then
      if s.is (i + 1) ':' then
        if mode == .operand || (mode == .command && spaced && !s.test (i + 2) isBlank) then
          mk (.punct "::@") (i + 2)
        else punct "::"
      else if mode != .operator && s.is (i + 1) '"' then
        mk (.literal .symbol ⟨'"', '"', true⟩) (i + 2)
      else if mode != .operator && s.is (i + 1) '\'' then
        mk (.literal .symbol ⟨'\'', '\'', false⟩) (i + 2)
      else if mode != .operator then
        match s.symbolEnd (i + 1) with
        | some e => mk .symbol e
        | none => punct ":"
      else punct ":"
    else if c == '/' && prefixHere && (mode == .operand || next != some '=') then
      mk (.literal .regex ⟨'/', '/', true⟩) (i + 1)
    else if c == '%' && prefixHere then
      match s.percentAt i with
      | some (kind, d, width) => mk (.literal kind d) (i + width)
      | none => punct ((s.operatorAt i).getD "%")
    else if c == '<' && s.is (i + 1) '<' && (mode == .operand ||
        (mode == .command && spaced && !s.test (i + 2) isBlank)) then
      match s.heredocAt i with
      | some (h, e) => mk (.heredoc h) e
      | none => punct ((s.operatorAt i).getD "<")
    else if c == '?' && prefixHere then
      match s.characterEnd i with
      | some e => mk .character e
      | none => punct "?"
    else if c == '-' && mode != .operator && !s.is (i + 1) '>' && !s.is (i + 1) '=' &&
        prefixHere then
      mk (.punct "-@") (i + 1)
    else if c == '+' && mode == .operand && !s.is (i + 1) '=' then
      mk (.punct "+@") (i + 1)
    else if c == '*' && mode != .operator then
      if s.is (i + 1) '*' then
        if !s.is (i + 2) '=' && (mode == .operand || (spaced && !s.test (i + 2) isBlank)) then
          mk (.punct "**@") (i + 2)
        else punct ((s.operatorAt i).getD "*")
      else if !s.is (i + 1) '=' && prefixHere then mk (.punct "*@") (i + 1)
      else punct ((s.operatorAt i).getD "*")
    else if c == '&' && mode != .operator &&
        !s.test (i + 1) (fun d => d == '&' || d == '.' || d == '=' || isBlank d) then
      mk (.punct "&@") (i + 1)
    else
      match s.operatorAt i with
      | some op => punct op
      | none => punct (String.singleton c)

end Input

/-- What lies between the reader's position and the next token. -/
structure Gap where
  /-- where the next token starts -/
  stop : Nat
  /-- the newline that ends the statement, when line breaks count here -/
  lineBreak : Option Nat
  /-- whether blanks precede the next token -/
  spaced : Bool
  /-- runs of characters that start no token, as start and stop -/
  bad : List (Nat × Nat)
  /-- here-document bodies passed, in order -/
  bodies : List (Heredoc × Nat × Nat)
  deriving Repr, Inhabited

namespace Input

/-- Whether only spaces and tabs stand between the start of the line and `i`. -/
def atLineStart (s : Input) (i : Nat) : Bool :=
  let b := s.tokenEndBefore i
  b == 0 || s.is (b - 1) '\n'

/-- The end of an embedded document starting at `i`: `=begin` as the first word of a line, up to
the end of a later line that starts with `=end`. Nothing when no such line follows; the `=`
is then a token. -/
def embeddedDocEnd? (s : Input) (i : Nat) : Option Nat :=
  if s.atLineStart i && s.spells i "=begin" && !s.test (i + 6) isNameChar then go i s.size
  else none
where
  /-- Looks for the `=end` line after the line that holds `j`. -/
  go (j : Nat) : Nat → Option Nat
    | 0 => none
    | fuel + 1 =>
      let e := s.lineEnd j
      if e ≥ s.size then none
      else if s.spells (e + 1) "=end" then some (s.lineEnd (e + 1))
      else go (e + 1) fuel

/-- What the scanner of a here-document body finds at a position. -/
inductive HeredocStep where
  /-- content, up to `stop` -/
  | content (stop : Nat)
  /-- the terminator word, ending at `stop`; empty at the end of the text -/
  | terminator (stop : Nat)
  /-- an escape sequence or an interpolation, with no content before it -/
  | special
  deriving Repr, Inhabited

/-- Whether an escape sequence or an interpolation of a variable or of code starts at `j`. -/
def startsSpecial (s : Input) (j : Nat) : Bool :=
  s.is j '\\' ||
    (s.is j '#' && (s.is (j + 1) '\x7b' || (s.is (j + 1) '$' && (s.globalEnd (j + 1)).isSome) ||
      (s.is (j + 1) '@' &&
        (s.test (j + 2) isAlphaStart || (s.is (j + 2) '@' && s.test (j + 3) isAlphaStart)))))

/-- Where the line break at `nl` starts: at a carriage return right before it. -/
def lineBreakStart (s : Input) (nl : Nat) : Nat :=
  if nl > 0 && s.is (nl - 1) '\r' then nl - 1 else nl

/-- The next token of a here-document body from `c`. Content runs up to the start of a
terminator line (after its indentation), an escape or interpolation, or the end of the text. A
terminator line holds the terminator word, possibly repeated, then spaces or tabs and a line
break; indented only where the here-document allows it. The terminator token is the word that
starts at `c`; the text's end is an empty terminator. `look` tells whether a word at `c` may be
the terminator: not so at the newline that starts the body. -/
def heredocStep (s : Input) (h : Heredoc) (c : Nat) (look : Bool) : HeredocStep :=
  go h.tag.toList c 0 look false c (s.size + 2)
where
  /-- Scans from `j`, having matched `pos` characters of the word `tag`; `found` tells whether
  content was passed, and `mark` is where content ends. -/
  go (tag : List Char) (j pos : Nat) (look found : Bool) (mark : Nat) : Nat → HeredocStep
    | 0 => .content j
    | fuel + 1 =>
      if pos == tag.length && pos > 0 then
        let mark := if found then mark else j
        let k := s.skipIndent j
        if s.is k '\n' || s.is k '\r' then (if found then .content mark else .terminator mark)
        else go tag k 0 look true mark fuel
      else
        match s.get j with
        | none => if found then .content j else .terminator j
        | some ch =>
          if look && tag[pos]? == some ch then go tag (j + 1) (pos + 1) look found mark fuel
          else if h.interpolates && s.startsSpecial j then
            if found then .content j else .special
          else if ch == '\n' || ch == '\r' then
            let next := if ch == '\r' && s.is (j + 1) '\n' then j + 2 else j + 1
            let k := s.skipIndent next
            go tag k 0 (h.indented || k == next) true k fuel
          else go tag (j + 1) 0 false true mark fuel

/-- Where the code of an interpolation opened at `j` (a `#\x7b`) ends: after the brace that
closes it, counting braces; nothing when the text ends first. -/
def interpolationEnd (s : Input) (j : Nat) : Option Nat :=
  go (j + 2) 0 (s.size + 1)
where
  /-- Scans from `k` with `depth` braces open inside the code. -/
  go (k depth : Nat) : Nat → Option Nat
    | 0 => none
    | fuel + 1 =>
      match s.get k with
      | none => none
      | some '\x7b' => go (k + 1) (depth + 1) fuel
      | some '\x7d' => if depth == 0 then some (k + 1) else go (k + 1) (depth - 1) fuel
      | some _ => go (k + 1) depth fuel

/-- Where an escape sequence or interpolation starting at `j` ends, as far as the extent of a
here-document body goes: nothing for an interpolation that the text ends in. -/
def specialEnd (s : Input) (j : Nat) : Option Nat :=
  if s.is j '\\' then some (j + 2)
  else if s.is (j + 1) '\x7b' then s.interpolationEnd j
  else if s.is (j + 1) '$' then s.globalEnd (j + 1)
  else if s.is (j + 2) '@' then some (s.skipWhile (j + 3) isNameChar)
  else some (s.skipWhile (j + 2) isNameChar)

/-- Where the body of a here-document starting at `start` ends: after its terminator, or at
the end of the text. -/
def heredocExtent (s : Input) (h : Heredoc) (start : Nat) : Nat :=
  go start false (s.size + 2)
where
  /-- Steps from `c`. -/
  go (c : Nat) (look : Bool) : Nat → Nat
    | 0 => s.size
    | fuel + 1 =>
      match s.heredocStep h c look with
      | .content stop => go (max stop (c + 1)) true fuel
      | .terminator stop => stop
      | .special =>
        match s.specialEnd c with
        | some e => go (max e (c + 1)) true fuel
        | none => s.size

/-- Whether the text at `i`, just after a newline, continues a method chain. -/
def continuesChain (s : Input) (i : Nat) : Bool :=
  (s.is i '.' && !s.is (i + 1) '.') || (s.is i '&' && s.is (i + 1) '.')

/-- The gap from `i`: `lineBreaks` tells whether a newline may end a statement here, and
`pending` lists the here-documents whose bodies start at the next newline. -/
def scanGap (s : Input) (i : Nat) (lineBreaks : Bool) (pending : List Heredoc) : Gap :=
  let rec go (j : Nat) (spaced : Bool) (crossed : Option Nat) (bad : List (Nat × Nat))
      (bodies : List (Heredoc × Nat × Nat)) (pending : List Heredoc) (fuel : Nat) : Gap :=
    let finish (lb : Option Nat) : Gap :=
      { stop := j, lineBreak := lb, spaced, bad := bad.reverse, bodies := bodies.reverse }
    match fuel with
    | 0 => finish crossed
    | fuel + 1 =>
      match s.get j with
      | none => finish crossed
      | some c =>
        if c == '\n' then
          match pending with
          | [] =>
            let crossed := if lineBreaks && crossed.isNone then some j else crossed
            go (j + 1) true crossed bad bodies [] fuel
          | _ =>
            let step (acc : Nat × Nat × List (Heredoc × Nat × Nat)) (h : Heredoc) :=
              let (nl, _, passed) := acc
              let start := s.lineBreakStart nl
              let e := s.heredocExtent h start
              (s.lineEnd e, e, (h, start, e) :: passed)
            let (_, stop, passed) := pending.foldl step (j, j, [])
            go (max stop (j + 1)) true crossed bad (passed ++ bodies) [] fuel
        else if isBlank c then go (j + 1) true crossed bad bodies pending fuel
        else if c == '\\' && s.is (j + 1) '\n' then go (j + 2) true crossed bad bodies pending fuel
        else if c == '\\' && s.is (j + 1) '\r' && s.is (j + 2) '\n' then
          go (j + 3) true crossed bad bodies pending fuel
        else if c == '\\' && j + 1 == s.size then go (j + 1) true crossed bad bodies pending fuel
        else if c == '#' then go (s.lineEnd j) true crossed bad bodies pending fuel
        else if j == 0 && c == '\uFEFF' then go 1 spaced crossed bad bodies pending fuel
        else if c == '=' && (s.embeddedDocEnd? j).isSome then
          go ((s.embeddedDocEnd? j).getD j) true crossed bad bodies pending fuel
        else if crossed.isSome && s.continuesChain j then
          { stop := j, lineBreak := none, spaced := true, bad := bad.reverse,
            bodies := bodies.reverse }
        else if s.startsToken j then finish crossed
        else
          let bad := match bad with
            | (a, b) :: rest => if b == j then (a, j + 1) :: rest else (j, j + 1) :: bad
            | [] => [(j, j + 1)]
          go (j + 1) spaced crossed bad bodies pending fuel
  go i false none [] [] pending (s.size + 1)

/-- The next token after the gap from `i`: a line break when the gap ends a statement, else the
token read in `mode`. -/
def peekAt (s : Input) (i : Nat) (mode : Mode) (lineBreaks : Bool) (pending : List Heredoc) :
    Gap × Lexeme :=
  let g := s.scanGap i lineBreaks pending
  match g.lineBreak with
  | some p => (g, { tok := .lineBreak, start := p, stop := p, spaced := true })
  | none => (g, s.lexAt g.stop mode g.spaced)

end Input

end RubyCheck.Ruby
