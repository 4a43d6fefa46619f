import RubyCheck.Text.Blank
import RubyCheck.Text.Digit

/-!
# Pattern tokens

Pattern text is read left to right. At each position the first of these that matches is taken:

1. blanks, or a `#` comment up to the end of the line: skipped;
2. `...`;
3. one of `(`, `)`, `{`, `}`;
4. a symbol: `:` and a name (an ASCII letter or `_`, then letters, digits and `_`, with an
   optional `?`, `!` or `=`), or `:` and one of `[]=`, `[]`, `<=>`, `==`, `<=`, `>=`, `<<`, `>>`,
   `+`, `-`, `*`, `/`, `%`, `<`, `>`, `!`;
5. a whole number: an optional `-` and decimal digits of any script;
6. a word: an ASCII letter or `_`, then letters, digits and `_`.

Anything else stops the reading. Offsets count characters.
-/

namespace RubyCheck.Pattern

/-- The classes of pattern tokens. -/
inductive TokenClass where
  | rest
  | punct
  | symbol
  | int
  | word
  deriving DecidableEq, Repr

/-- A token: its class, its text and the offset of its first character. -/
structure Token where
  cls : TokenClass
  text : String
  offset : Nat
  deriving Repr

/-- ASCII letters and `_`. -/
def isNameStart (c : Char) : Bool := c.isAlpha || c == '_'

/-- ASCII letters, digits and `_`. -/
def isNameChar (c : Char) : Bool := c.isAlphanum || c == '_'

/-- The operator names a symbol may have, longest alternatives first where one is a prefix of
another. -/
def operatorNames : List String :=
  ["[]=", "[]", "<=>", "==", "<=", ">=", "<<", ">>", "+", "-", "*", "/", "%", "<", ">", "!"]

/-- How many characters of `cs` the symbol rule takes, after the colon. -/
def symbolBody (cs : List Char) : Option Nat :=
  match cs with
  | c :: rest =>
    if isNameStart c then
      let name := 1 + (rest.takeWhile isNameChar).length
      match cs.drop name with
      | s :: _ => if s == '?' || s == '!' || s == '=' then some (name + 1) else some name
      | [] => some name
    else
      (operatorNames.find? fun op => op.toList.isPrefixOf cs).map (·.length)
  | [] => none

/-- How many characters the whole-number rule takes. -/
def intLength (cs : List Char) : Option Nat :=
  let (sign, body) := match cs with
    | '-' :: rest => (1, rest)
    | _ => (0, cs)
  let digits := (body.takeWhile Text.isDigit).length
  if digits = 0 then none else some (sign + digits)

/-- What the reader finds at the head of `cs`: how many characters to skip, or a token class
and its length. -/
inductive Lexeme where
  | skip (length : Nat)
  | token (cls : TokenClass) (length : Nat)
  | stuck

/-- The first rule that matches the head of `cs`. -/
def lexeme (cs : List Char) : Lexeme :=
  match cs with
  | [] => .stuck
  | c :: rest =>
    if Text.isBlank c then .skip (1 + (rest.takeWhile Text.isBlank).length)
    else if c == '#' then .skip (1 + (rest.takeWhile (· != '\n')).length)
    else if ['.', '.', '.'].isPrefixOf cs then .token .rest 3
    else if c == '(' || c == ')' || c == '{' || c == '}' then .token .punct 1
    else
      let symbol := if c == ':' then (symbolBody rest).map (· + 1) else none
      match symbol with
      | some n => .token .symbol n
      | none =>
        match intLength cs with
        | some n => .token .int n
        | none =>
          if isNameStart c then .token .word (1 + (rest.takeWhile isNameChar).length)
          else .stuck

/-- The tokens of `cs`, whose first character is at `offset`; or the offset of the first
character no rule matches. `fuel` bounds the steps: each step takes at least one character. -/
def tokensFrom : Nat → List Char → Nat → Except Nat (List Token)
  | 0, _, _ => .ok []
  | _, [], _ => .ok []
  | fuel + 1, cs, offset =>
    match lexeme cs with
    | .skip n => tokensFrom fuel (cs.drop n) (offset + n)
    | .token cls n =>
      match tokensFrom fuel (cs.drop n) (offset + n) with
      | .ok ts => .ok ({ cls, text := String.ofList (cs.take n), offset } :: ts)
      | .error e => .error e
    | .stuck => .error offset

/-- The tokens of a pattern text, or the offset of the first character no rule matches. -/
def tokenize (text : String) : Except Nat (List Token) :=
  tokensFrom (text.length + 1) text.toList 0

end RubyCheck.Pattern
