import RubyCheck.Text.Hex

/-!
# JSON text of reports

**JSON values, and their text indented by two spaces a level.**

A report is printed as JSON with one member or item a line, each level indented two spaces
further, and `": "` after each key. Empty arrays and objects are written `[]` and `\x7b\x7d`.

In strings, the quote and the backslash are escaped, the backspace, form feed, line feed,
carriage return and tab are written `\b \f \n \r \t`, every other character below U+0020 as
`\u00` and two lowercase hex digits; all other characters stand as they are.
-/

namespace RubyCheck

/-- A JSON value. -/
inductive JsonValue where
  | null
  | bool (b : Bool)
  | int (i : Int)
  | str (s : String)
  | arr (items : List JsonValue)
  | obj (fields : List (String × JsonValue))
  deriving Repr, Inhabited

namespace JsonValue

/-- How a character is written inside a JSON string. -/
def escapeChar (c : Char) : String :=
  match c with
  | '"' => "\\\""
  | '\\' => "\\\\"
  | '\x08' => "\\b"
  | '\x0c' => "\\f"
  | '\n' => "\\n"
  | '\r' => "\\r"
  | '\t' => "\\t"
  | c => if c.toNat < 0x20 then "\\u00" ++ Text.hexPadded 2 c.toNat else c.toString

/-- A JSON string literal of `s`. -/
def quote (s : String) : String :=
  "\"" ++ s.toList.foldl (fun acc c => acc ++ escapeChar c) "" ++ "\""

/-- Spaces for `depth` levels of indentation. -/
def indentation (depth : Nat) : String := String.ofList (List.replicate (2 * depth) ' ')

mutual

/-- The text of a value whose first line stands at `depth` levels of indentation. -/
def render (depth : Nat) : JsonValue → String
  | .null => "null"
  | .bool b => if b then "true" else "false"
  | .int i => toString i
  | .str s => quote s
  | .arr [] => "[]"
  | .arr (v :: vs) =>
    "[\n" ++ ",\n".intercalate (renderItems (depth + 1) (v :: vs)) ++ "\n" ++
      indentation depth ++ "]"
  | .obj [] => "\x7b\x7d"
  | .obj (f :: fs) =>
    "\x7b\n" ++ ",\n".intercalate (renderFields (depth + 1) (f :: fs)) ++ "\n" ++
      indentation depth ++ "\x7d"

/-- The lines of an array's items at `depth` levels. -/
def renderItems (depth : Nat) : List JsonValue → List String
  | [] => []
  | v :: vs => (indentation depth ++ render depth v) :: renderItems depth vs

/-- The lines of an object's members at `depth` levels. -/
def renderFields (depth : Nat) : List (String × JsonValue) → List String
  | [] => []
  | (k, v) :: rest =>
    (indentation depth ++ quote k ++ ": " ++ render depth v) :: renderFields depth rest

end

/-- The text of a value, indented two spaces a level. -/
def pretty (v : JsonValue) : String := render 0 v

end JsonValue

end RubyCheck
