import RubyCheck.Toml.Value
import RubyCheck.Text.Whole

/-!
# Reading TOML text

**Characters, blanks, comments, keys and strings of a TOML document, and why a document fails.**

The text is read as an array of characters in which every `\r\n` has become `\n`; a position is
an index into it. Every reader takes the position it starts at and returns the position after
what it read, or the reason it fails and the position the reason points at.

- Blanks are spaces and tabs; a comment runs from `#` to the end of the line and may hold no
  control character but the tab.
- A key part is a bare name (letters, digits, `-`, `_`), a literal string or a basic string.
- A basic string (`"..."`) reads escapes: `\b \t \n \f \r \" \\`, `\u` with four hex digits and
  `\U` with eight, naming a Unicode scalar value. In a multi-line basic string (`"""..."""`) a
  backslash at the end of a line removes the line break and the blanks after it.
- A literal string (`'...'`) takes its characters as they are. The multi-line forms may hold line
  breaks, and a line break right after the opening quotes is dropped.
- No string may hold a control character other than the tab, and the one-line forms no line
  break.
-/

namespace RubyCheck.Toml

/-- Why a document is not TOML. -/
inductive Reason where
  | invalidStatement
  | expectedLineEnd
  | expectedEquals
  | invalidKeyStart
  | declaredTwice (key : Key)
  | overwrite
  | expectedTableEnd
  | expectedArrayTableEnd
  | immutable (key : Key)
  | redefined (key : Key)
  | invalidValue
  | unclosedArray
  | unclosedInlineTable
  | duplicateInlineKey (name : String)
  | unterminatedString
  | illegalCharacter (c : Char)
  | unescapedBackslash
  | invalidHex
  | notScalarValue
  | expected (text : String)
  | invalidCharacter (c : Char)
  | invalidDate
  /-- a decimal integer of `count` digits, more than a number may be read from -/
  | tooManyDigits (count : Nat)
  deriving Repr

/-- The sentence that names a reason. -/
def Reason.message : Reason → String
  | .invalidStatement => "Invalid statement"
  | .expectedLineEnd => "Expected newline or end of document after a statement"
  | .expectedEquals => "Expected '=' after a key in a key/value pair"
  | .invalidKeyStart => "Invalid initial character for a key part"
  | .declaredTwice key => "Cannot declare " ++ key.render ++ " twice"
  | .overwrite => "Cannot overwrite a value"
  | .expectedTableEnd => "Expected ']' at the end of a table declaration"
  | .expectedArrayTableEnd => "Expected ']]' at the end of an array declaration"
  | .immutable key => "Cannot mutate immutable namespace " ++ key.render
  | .redefined key => "Cannot redefine namespace " ++ key.render
  | .invalidValue => "Invalid value"
  | .unclosedArray => "Unclosed array"
  | .unclosedInlineTable => "Unclosed inline table"
  | .duplicateInlineKey name => "Duplicate inline table key " ++ Text.quoted name
  | .unterminatedString => "Unterminated string"
  | .illegalCharacter c => "Illegal character " ++ Text.quoted c.toString
  | .unescapedBackslash => "Unescaped '\\' in a string"
  | .invalidHex => "Invalid hex value"
  | .notScalarValue => "Escaped character is not a Unicode scalar value"
  | .expected text => "Expected " ++ Text.quoted text
  | .invalidCharacter c => "Found invalid character " ++ Text.quoted c.toString
  | .invalidDate => "Invalid date or datetime"
  | .tooManyDigits count => (Text.NumberError.tooManyDigits count).message

/-- A reason and the position it points at. -/
structure Failure where
  reason : Reason
  pos : Nat
  deriving Repr

/-- Fails with `reason` at `pos`. -/
def fail {α : Type} (reason : Reason) (pos : Nat) : Except Failure α :=
  throw { reason, pos }

/-- A control character: below U+0020, or U+007F. -/
def isControl (c : Char) : Bool := c.toNat < 32 || c.toNat == 127

/-- A character no one-line string or comment may hold: a control character but the tab. -/
def illegalInLine (c : Char) : Bool := isControl c && c != '\t'

/-- A character no multi-line string may hold: a control character but the tab and the line
break. -/
def illegalInBlock (c : Char) : Bool := isControl c && c != '\t' && c != '\n'

/-- A blank: space or tab. -/
def isBlank (c : Char) : Bool := c == ' ' || c == '\t'

/-- A blank or a line break. -/
def isBlankOrBreak (c : Char) : Bool := isBlank c || c == '\n'

/-- A character of a bare key: an ASCII letter or digit, `-` or `_`. -/
def isBareKeyChar (c : Char) : Bool :=
  ('a' ≤ c && c ≤ 'z') || ('A' ≤ c && c ≤ 'Z') || ('0' ≤ c && c ≤ '9') || c == '-' || c == '_'

/-- An ASCII hex digit. -/
def isHexDigit (c : Char) : Bool :=
  ('0' ≤ c && c ≤ '9') || ('a' ≤ c && c ≤ 'f') || ('A' ≤ c && c ≤ 'F')

/-- The text of a document as the reader sees it: its characters, with `\r\n` read as `\n`. -/
def source (text : String) : Array Char :=
  (text.replace "\r\n" "\n").toList.toArray

/-- The character at `pos`, if the text reaches it. -/
def charAt (src : Array Char) (pos : Nat) : Option Char := src[pos]?

/-- Whether the text at `pos` starts with `s`. -/
def startsWith (src : Array Char) (pos : Nat) (s : String) : Bool :=
  (s.toList.zipIdx).all fun (c, i) => src[pos + i]? == some c

/-- The characters from `start` up to `stop`, as a string. -/
def slice (src : Array Char) (start stop : Nat) : String :=
  String.ofList (src.extract start stop).toList

/-- The position of the first character at or after `pos` that is not in the class `p`. -/
def skipWhile (src : Array Char) (p : Char → Bool) (pos : Nat) : Nat :=
  if h : pos < src.size then
    if p src[pos] then skipWhile src p (pos + 1) else pos
  else pos
termination_by src.size - pos

/-- The first position at or after `pos` where `s` starts, if any. -/
def findFrom (src : Array Char) (s : String) (pos : Nat) : Option Nat :=
  if pos < src.size then
    if startsWith src pos s then some pos else findFrom src s (pos + 1)
  else none
termination_by src.size - pos

/-- The first position from `pos` up to `stop` whose character is in the class `p`. -/
def firstIn (src : Array Char) (p : Char → Bool) (pos stop : Nat) : Option Nat :=
  if pos < stop then
    if (src[pos]?.map p).getD false then some pos else firstIn src p (pos + 1) stop
  else none
termination_by stop - pos

/-- The position of the next `expect` at or after `pos`: the end of the text when there is none
and `needed` does not hold. Fails at the first character of class `illegal` before it. -/
def skipUntil (src : Array Char) (pos : Nat) (expect : String) (illegal : Char → Bool)
    (needed : Bool) : Except Failure Nat := do
  let stop ← match findFrom src expect pos with
    | some p => pure p
    | none => if needed then fail (.expected expect) src.size else pure src.size
  match firstIn src illegal pos stop with
  | some bad => fail (.invalidCharacter (src[bad]?.getD ' ')) bad
  | none => pure stop

/-- The position after a comment at `pos`, or `pos` when none starts there. -/
def skipComment (src : Array Char) (pos : Nat) : Except Failure Nat :=
  if charAt src pos == some '#' then skipUntil src (pos + 1) "\n" illegalInLine false
  else pure pos

/-- The position after the blanks, line breaks and comments at `pos`, as between the items of
an array. -/
def skipArrayBlanks (src : Array Char) (pos : Nat) : Except Failure Nat :=
  go pos (src.size + 1)
where
  /-- Skips one run of blanks and a comment, while either is there. -/
  go (pos : Nat) : Nat → Except Failure Nat
    | 0 => pure pos
    | fuel + 1 => do
      let next ← skipComment src (skipWhile src isBlankOrBreak pos)
      if next == pos then pure pos else go next fuel

/-- A Unicode scalar value: a code point that is not a surrogate. -/
def isScalarValue (n : Nat) : Bool := n < 0xD800 || (0xE000 ≤ n && n < 0x110000)

/-- The value of a run of hex digits. -/
def hexValue (s : List Char) : Nat :=
  s.foldl (fun acc c =>
    let d := if '0' ≤ c && c ≤ '9' then c.toNat - '0'.toNat
      else if 'a' ≤ c && c ≤ 'f' then c.toNat - 'a'.toNat + 10
      else c.toNat - 'A'.toNat + 10
    acc * 16 + d) 0

/-- The character named by `width` hex digits at `pos`. -/
def hexChar (src : Array Char) (pos width : Nat) : Except Failure (Nat × String) := do
  let digits := (src.extract pos (pos + width)).toList
  if digits.length != width || !digits.all isHexDigit then fail .invalidHex pos
  let n := hexValue digits
  if !isScalarValue n then fail .notScalarValue (pos + width)
  return (pos + width, (Char.ofNat n).toString)

/-- The character an escape stands for, from its letter. -/
def escapeOf : Char → Option String
  | 'b' => some "\x08"
  | 't' => some "\t"
  | 'n' => some "\n"
  | 'f' => some "\x0c"
  | 'r' => some "\r"
  | '"' => some "\""
  | '\\' => some "\\"
  | _ => none

/-- An escape from its backslash at `pos`: what it stands for, and the position after it. In a
multi-line string, a backslash before blanks and a line break removes them and every blank and
line break after. -/
def escape (src : Array Char) (pos : Nat) (multiline : Bool) : Except Failure (Nat × String) := do
  let letter := charAt src (pos + 1)
  let after := pos + 2
  if multiline && (letter == some ' ' || letter == some '\t' || letter == some '\n') then
    let pos ←
      if letter == some '\n' then pure after
      else
        let p := skipWhile src isBlank after
        match charAt src p with
        | none => return (p, "")
        | some '\n' => pure (p + 1)
        | some _ => fail .unescapedBackslash p
    return (skipWhile src isBlankOrBreak pos, "")
  match letter with
  | some 'u' => hexChar src after 4
  | some 'U' => hexChar src after 8
  | some c =>
    match escapeOf c with
    | some s => return (after, s)
    | none => fail .unescapedBackslash after
  | none => fail .unescapedBackslash after

/-- The rest of a basic string from `pos`, after its opening quotes, up to and after its closing
quotes. -/
def basicString (src : Array Char) (pos : Nat) (multiline : Bool) : Except Failure (Nat × String) :=
  go pos pos "" (src.size + 1)
where
  /-- Reads from `pos`; the characters from `start` are not yet in `acc`. -/
  go (start pos : Nat) (acc : String) : Nat → Except Failure (Nat × String)
    | 0 => fail .unterminatedString pos
    | fuel + 1 =>
      match charAt src pos with
      | none => fail .unterminatedString pos
      | some '"' =>
        if !multiline then pure (pos + 1, acc ++ slice src start pos)
        else if startsWith src pos "\"\"\"" then pure (pos + 3, acc ++ slice src start pos)
        else go start (pos + 1) acc fuel
      | some '\\' => do
        let (next, s) ← escape src pos multiline
        go next next (acc ++ slice src start pos ++ s) fuel
      | some c =>
        if (if multiline then illegalInBlock c else illegalInLine c) then
          fail (.illegalCharacter c) pos
        else go start (pos + 1) acc fuel

/-- A literal string from its opening quote at `pos`. -/
def literalString (src : Array Char) (pos : Nat) : Except Failure (Nat × String) := do
  let stop ← skipUntil src (pos + 1) "'" illegalInLine true
  return (stop + 1, slice src (pos + 1) stop)

/-- A multi-line string from its three opening quotes at `pos`, basic or `literal`. One or two
quotes right before the closing three belong to the string. -/
def blockString (src : Array Char) (pos : Nat) (literal : Bool) : Except Failure (Nat × String) := do
  let pos := pos + 3
  let pos := if charAt src pos == some '\n' then pos + 1 else pos
  let (pos, body) ←
    if literal then do
      let stop ← skipUntil src pos "'''" illegalInBlock true
      pure (stop + 3, slice src pos stop)
    else basicString src pos true
  let quote := if literal then '\'' else '"'
  if charAt src pos != some quote then return (pos, body)
  if charAt src (pos + 1) != some quote then return (pos + 1, body.push quote)
  return (pos + 2, (body.push quote).push quote)

/-- One part of a key at `pos`: a bare name or a quoted string. -/
def keyPart (src : Array Char) (pos : Nat) : Except Failure (Nat × String) :=
  match charAt src pos with
  | some c =>
    if isBareKeyChar c then
      let stop := skipWhile src isBareKeyChar pos
      pure (stop, slice src pos stop)
    else if c == '\'' then literalString src pos
    else if c == '"' then basicString src (pos + 1) false
    else fail .invalidKeyStart pos
  | none => fail .invalidKeyStart pos

/-- A key at `pos`: parts joined by dots, with blanks around the dots; the position after it is
past the blanks that follow. -/
def key (src : Array Char) (pos : Nat) : Except Failure (Nat × Key) := do
  let (pos, first) ← keyPart src pos
  go (skipWhile src isBlank pos) [first] (src.size + 1)
where
  /-- Reads the parts after the first, each after its dot. -/
  go (pos : Nat) (acc : List String) : Nat → Except Failure (Nat × Key)
    | 0 => pure (pos, acc)
    | fuel + 1 =>
      if charAt src pos != some '.' then pure (pos, acc)
      else do
        let (next, part) ← keyPart src (skipWhile src isBlank (pos + 1))
        go (skipWhile src isBlank next) (acc ++ [part]) fuel

end RubyCheck.Toml
