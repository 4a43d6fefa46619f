import RubyCheck.Pattern.Basic
import RubyCheck.Pattern.Token
import RubyCheck.Tree.Kind
import RubyCheck.Text.Quoted
import RubyCheck.Text.Whole

/-!
# Compiling pattern text

The grammar, over tokens:

```
P ::= '(' KIND P* [ '...' ] ')' | '{' P P* '}' | SYMBOL | INT | '_' | '_' NAME | 'nil'
```

where `KIND` is a word naming a node kind. A symbol stands for the text after its colon, a
whole number for its value, `_` for the wildcard, `_name` for a capture of `name` (everything
after the first `_`), and `nil` for the atom nothing. The whole token list must be one `P`.

Errors name the first place where the text leaves the grammar, as a message, a character offset,
and the quoted text.
-/

namespace RubyCheck.Pattern

open RubyCheck.Tree

/-- Why pattern text does not compile. -/
inductive CompileError where
  /-- The text leaves the grammar: a message and the character offset where. -/
  | malformed (message : String) (offset : Nat) (text : String)
  /-- A whole number with more digits than `Text.maxDigits`. -/
  | tooManyDigits (count : Nat)
  deriving Repr

/-- The message of each failure. -/
def CompileError.message : CompileError → String
  | .malformed m offset text => s!"{m} at offset {offset}: {Text.quoted text}"
  | .tooManyDigits n => (Text.NumberError.tooManyDigits n).message

/-- The value of a whole-number token: an optional `-`, then decimal digits of any script. -/
def intValue (text : String) : Except CompileError Int :=
  let (negative, digits) := match text.toList with
    | '-' :: more => (true, more)
    | cs => (false, cs)
  if digits.length > Text.maxDigits then .error (.tooManyDigits digits.length)
  else
    let n := digits.foldl (fun acc c => acc * 10 + (Text.digitValue? c).getD 0) 0
    .ok (if negative then -(n : Int) else n)

/-- Reading a token list; a failure carries its message and offset. -/
abbrev Reading := Except (String × Nat)

/-- A leaf pattern from one token. -/
def leaf (t : Token) : Except CompileError (Option Pattern) :=
  match t.cls with
  | .symbol => .ok (some (.literal (.text (String.ofList (t.text.toList.drop 1)))))
  | .int => do return some (.literal (.int (← intValue t.text)))
  | .word =>
    if t.text == "_" then .ok (some .wildcard)
    else if t.text.startsWith "_" then .ok (some (.capture (String.ofList (t.text.toList.drop 1))))
    else if t.text == "nil" then .ok (some (.literal .none))
    else .ok none
  | _ => .ok none

/-- Whether a token is the punctuation `c`. -/
def Token.isPunct (t : Token) (c : String) : Bool := t.cls == .punct && t.text == c

mutual

/-- Reads one pattern from the head of `ts`; `text` is the whole pattern text. -/
def readOne (text : String) : Nat → List Token → Except CompileError (Pattern × List Token)
  | 0, ts => .ok (.wildcard, ts)
  | _, [] => .error (.malformed "Unexpected end of pattern" text.length text)
  | fuel + 1, t :: more =>
    if t.isPunct "(" then readNode text fuel t.offset more
    else if t.isPunct "\x7b" then readUnion text fuel t.offset [] more
    else do
      match ← leaf t with
      | some p => .ok (p, more)
      | none => .error (.malformed s!"Unexpected token {Text.quoted t.text}" t.offset text)

/-- Reads a node pattern after its `(`, which stands at `opening`. -/
def readNode (text : String) : Nat → Nat → List Token → Except CompileError (Pattern × List Token)
  | 0, _, ts => .ok (.wildcard, ts)
  | _, _, [] => .error (.malformed "Unexpected end of pattern" text.length text)
  | fuel + 1, opening, t :: more =>
    let kind := if t.cls == .word then Kind.ofValue? t.text else none
    match kind with
    | none => .error (.malformed s!"Unknown node kind {Text.quoted t.text}" t.offset text)
    | some k => do
      let (children, more) ← readChildren text fuel opening [] more
      return (.kind k children, more)

/-- Reads the child patterns of a node pattern up to its `)`, collected in reverse in `acc`. -/
def readChildren (text : String) :
    Nat → Nat → List Pattern → List Token → Except CompileError (List Pattern × List Token)
  | 0, _, acc, ts => .ok (acc.reverse, ts)
  | _, opening, _, [] => .error (.malformed "Unclosed '('" opening text)
  | fuel + 1, opening, acc, t :: more =>
    if t.isPunct ")" then .ok (acc.reverse, more)
    else if t.cls == .rest then
      match more with
      | c :: _ =>
        if c.isPunct ")" then readChildren text fuel opening (.rest :: acc) more
        else .error (.malformed "'...' must be the last child" t.offset text)
      | [] => .error (.malformed "'...' must be the last child" t.offset text)
    else do
      let (p, more) ← readOne text fuel (t :: more)
      readChildren text fuel opening (p :: acc) more

/-- Reads the alternatives of a union up to its `}`; its `{` stands at `opening`. -/
def readUnion (text : String) :
    Nat → Nat → List Pattern → List Token → Except CompileError (Pattern × List Token)
  | 0, _, acc, ts => .ok (.anyOf acc.reverse, ts)
  | _, opening, _, [] => .error (.malformed "Unclosed '\x7b'" opening text)
  | fuel + 1, opening, acc, t :: more =>
    if t.isPunct "\x7d" then
      if acc.isEmpty then .error (.malformed "Empty union" opening text)
      else .ok (.anyOf acc.reverse, more)
    else do
      let (p, more) ← readOne text fuel (t :: more)
      readUnion text fuel opening (p :: acc) more

end

/-- Compiles pattern text. -/
def compile (text : String) : Except CompileError Pattern :=
  match tokenize text with
  | .error offset => .error (.malformed "Unexpected character" offset text)
  | .ok [] => .error (.malformed "Empty pattern" 0 text)
  | .ok tokens => do
    let (p, more) ← readOne text (2 * tokens.length + 2) tokens
    match more with
    | [] => return p
    | t :: _ => .error (.malformed "Trailing input" t.offset text)

end RubyCheck.Pattern
