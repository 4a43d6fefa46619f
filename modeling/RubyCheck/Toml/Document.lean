import RubyCheck.Toml.Marks
import RubyCheck.Toml.Scalar

/-!
# TOML documents

**A document's statements, the values they write, and the table they build.**

A document is a sequence of lines. Each holds nothing, a comment, a key/value pair, a table
header `[key]` or an array-of-tables header `[[key]]`, then an optional comment. Pairs after a
header are written below the header's key.

What a document may not do is said with marks (`Marks`):

- a header may not open a table that a header or a dotted key opened before, nor one under an
  inline table or an array;
- `[[key]]` starts a fresh table at the end of the array at `key`, whose keys are free again;
- a dotted key may not reach into a table that a header opened, nor into a frozen value;
- no key may be written twice.

Values are strings, booleans, arrays, inline tables, dates and times, numbers and the special
floats, tried in this order from their first character.

A failure names its reason and where it happened: a line and column, counted from one, or the end
of the document (`DecodeError.malformed`). A decimal integer too long to be read fails the
document apart from these (`DecodeError.number`).
-/

namespace RubyCheck.Toml

/-- Reads an inline table's pair: its key, `=` and the value, read by `value`. -/
def pairWith (value : Array Char → Nat → Except Failure (Nat × Value)) (src : Array Char) (pos : Nat) :
    Except Failure (Nat × (Key × Value)) := do
  let (pos, k) ← key src pos
  if charAt src pos != some '=' then fail .expectedEquals pos
  let (pos, v) ← value src (skipWhile src isBlank (pos + 1))
  return (pos, (k, v))

/-- Whether a value closes its key to additions: an inline table or an array. -/
def Value.isContainer : Value → Bool
  | .table _ | .array _ => true
  | _ => false

/-- An array from its `[` at `pos`, reading items with `value`. -/
def arrayWith (value : Array Char → Nat → Except Failure (Nat × Value)) (src : Array Char) (pos : Nat) :
    Except Failure (Nat × Value) := do
  let pos ← skipArrayBlanks src (pos + 1)
  if charAt src pos == some ']' then return (pos + 1, .array [])
  items pos [] (src.size + 1)
where
  /-- Reads an item at `pos` and what follows it. -/
  items (pos : Nat) (acc : List Value) : Nat → Except Failure (Nat × Value)
    | 0 => fail .unclosedArray pos
    | fuel + 1 => do
      let (pos, v) ← value src pos
      let acc := acc ++ [v]
      let pos ← skipArrayBlanks src pos
      match charAt src pos with
      | some ']' => return (pos + 1, .array acc)
      | some ',' =>
        let pos ← skipArrayBlanks src (pos + 1)
        if charAt src pos == some ']' then return (pos + 1, .array acc)
        items pos acc fuel
      | _ => fail .unclosedArray pos

/-- An inline table from its `\x7b` at `pos`, reading values with `value`. Dotted keys open
tables inside it; a key may not be written twice, nor reach into an inline table or array
written before. -/
def inlineTableWith (value : Array Char → Nat → Except Failure (Nat × Value)) (src : Array Char) (pos : Nat) :
    Except Failure (Nat × Value) := do
  let pos := skipWhile src isBlank (pos + 1)
  if charAt src pos == some '\x7d' then return (pos + 1, .table [])
  entries pos [] [] (src.size + 1)
where
  /-- Reads a pair at `pos` and what follows it. -/
  entries (pos : Nat) (table : Table) (marks : Marks) : Nat → Except Failure (Nat × Value)
    | 0 => fail .unclosedInlineTable pos
    | fuel + 1 => do
      let (pos, (k, v)) ← pairWith value src pos
      if marks.has .frozen k then fail (.immutable k) pos
      let stem := k.getLast?.getD ""
      let table ← Table.alterNest { reason := .overwrite, pos } false (fun nest =>
        if nest.contains stem then fail (.duplicateInlineKey stem) pos
        else pure (nest.set stem v)) table k.dropLast
      let pos := skipWhile src isBlank pos
      match charAt src pos with
      | some '\x7d' => return (pos + 1, .table table)
      | some ',' =>
        let marks := if v.isContainer then marks.set .frozen true k else marks
        entries (skipWhile src isBlank (pos + 1)) table marks fuel
      | _ => fail .unclosedInlineTable pos

/-- A value at `pos`, reading nested values with `inner`. -/
def valueWith (inner : Array Char → Nat → Except Failure (Nat × Value)) (src : Array Char) (pos : Nat) :
    Except Failure (Nat × Value) :=
  match charAt src pos with
  | some '"' =>
    if startsWith src pos "\"\"\"" then (blockString src pos false).map fun (p, s) => (p, .string s)
    else (basicString src (pos + 1) false).map fun (p, s) => (p, .string s)
  | some '\'' =>
    if startsWith src pos "'''" then (blockString src pos true).map fun (p, s) => (p, .string s)
    else (literalString src pos).map fun (p, s) => (p, .string s)
  | some '[' => arrayWith inner src pos
  | some '\x7b' => inlineTableWith inner src pos
  | _ =>
    if startsWith src pos "true" then pure (pos + 4, .boolean true)
    else if startsWith src pos "false" then pure (pos + 5, .boolean false)
    else
      match dateAt src pos with
      | .found stop hasTime valid =>
        if !valid then fail .invalidDate pos
        else
          let text := slice src pos stop
          pure (stop, if hasTime then .dateTime text else .date text)
      | .none =>
        match timeOfDay src pos with
        | some stop => pure (stop, .time (slice src pos stop))
        | none =>
          match number src pos with
          | .error e => .error e
          | .ok (some r) => pure r
          | .ok none =>
            match specialFloat src pos with
            | some r => pure r
            | none => fail .invalidValue pos

/-- A value at `pos`, with arrays and inline tables nested at most `depth` deep. -/
def valueAt : Nat → Array Char → Nat → Except Failure (Nat × Value)
  | 0, _, pos => fail .invalidValue pos
  | depth + 1, src, pos => valueWith (valueAt depth) src pos

/-- A value at `pos`; every nesting takes a character, so the length of the text bounds it. -/
def value (src : Array Char) (pos : Nat) : Except Failure (Nat × Value) :=
  valueAt (src.size + 1) src pos

/-- What the reader of a document holds between statements. -/
structure Progress where
  /-- The table built so far. -/
  data : Table := []
  /-- The marks set so far. -/
  marks : Marks := []
  /-- Marks that take effect at the next header. -/
  pending : List Key := []
  /-- The key of the last header. -/
  header : Key := []

/-- A key/value pair at `pos`, written below the current header. -/
def Progress.pair (src : Array Char) (st : Progress) (pos : Nat) : Except Failure (Nat × Progress) := do
  let (pos, (k, v)) ← pairWith value src pos
  let parent := st.header ++ k.dropLast
  let stem := k.getLast?.getD ""
  -- the tables a dotted key opens may not be ones a header opened
  let opened := (List.range (k.length - 1)).map fun i => st.header ++ k.take (i + 1)
  let pending ← opened.foldlM (fun acc c => do
    if st.marks.has .explicit c then fail (.redefined c) pos
    pure (if acc.contains c then acc else acc ++ [c])) st.pending
  if st.marks.has .frozen parent then fail (.immutable parent) pos
  let data ← Table.alterNest { reason := .overwrite, pos } true (fun nest =>
    if nest.contains stem then fail .overwrite pos else pure (nest.set stem v)) st.data parent
  let marks := if v.isContainer then st.marks.set .frozen true (st.header ++ k) else st.marks
  return (pos, { st with data, marks, pending })

/-- The marks with the pending ones set, as a header does before it is read. -/
def Progress.settle (st : Progress) : Progress :=
  { st with marks := st.pending.foldl (fun ms k => ms.set .explicit false k) st.marks, pending := [] }

/-- A table header from its `[` at `pos`. -/
def Progress.table (src : Array Char) (st : Progress) (pos : Nat) : Except Failure (Nat × Progress) := do
  let (pos, k) ← key src (skipWhile src isBlank (pos + 1))
  if st.marks.has .explicit k || st.marks.has .frozen k then fail (.declaredTwice k) pos
  let marks := st.marks.set .explicit false k
  let data ← Table.alterNest { reason := .overwrite, pos } true pure st.data k
  if charAt src pos != some ']' then fail .expectedTableEnd pos
  return (pos + 1, { st with data, marks, header := k })

/-- An array-of-tables header from its `[[` at `pos`. -/
def Progress.arrayTable (src : Array Char) (st : Progress) (pos : Nat) : Except Failure (Nat × Progress) := do
  let (pos, k) ← key src (skipWhile src isBlank (pos + 2))
  if st.marks.has .frozen k then fail (.immutable k) pos
  let marks := (st.marks.clear k).set .explicit false k
  let data ← Table.appendNest { reason := .overwrite, pos } st.data k
  if !startsWith src pos "]]" then fail .expectedArrayTableEnd pos
  return (pos + 2, { st with data, marks, header := k })

/-- The statements from `pos` to the end of the document. -/
def statements (src : Array Char) (st : Progress) (pos : Nat) : Nat → Except Failure Table
  | 0 => pure st.data
  | fuel + 1 => do
    let pos := skipWhile src isBlank pos
    match charAt src pos with
    | none => pure st.data
    | some '\n' => statements src st (pos + 1) fuel
    | some c =>
      let (pos, st) ←
        if isBareKeyChar c || c == '"' || c == '\'' then do
          let (p, st) ← st.pair src pos
          pure (skipWhile src isBlank p, st)
        else if c == '[' then do
          let st := st.settle
          let (p, st) ←
            if charAt src (pos + 1) == some '[' then st.arrayTable src pos else st.table src pos
          pure (skipWhile src isBlank p, st)
        else if c == '#' then pure (pos, st)
        else fail .invalidStatement pos
      let pos ← skipComment src pos
      match charAt src pos with
      | none => pure st.data
      | some '\n' => statements src st (pos + 1) fuel
      | some _ => fail .expectedLineEnd pos

/-- Why a text gives no table. -/
inductive DecodeError where
  /-- the text is not TOML: the reason and its place, as one sentence -/
  | malformed (message : String)
  /-- a number in it is too long to be read -/
  | number (e : Text.NumberError)
  deriving Repr, DecidableEq

/-- Where `pos` lies in the text: a line and column, counted from one, or the end of the
document. -/
def place (src : Array Char) (pos : Nat) : String :=
  if pos ≥ src.size then "end of document"
  else
    let before := (src.extract 0 pos).toList
    let line := before.count '\n' + 1
    let column := (before.reverse.takeWhile (· != '\n')).length + 1
    "line " ++ toString line ++ ", column " ++ toString column

/-- A failure as one sentence: the reason, then its place in parentheses; a number too long to
be read is no fault of the syntax, and keeps its own sentence. -/
def Failure.describe (src : Array Char) (f : Failure) : DecodeError :=
  match f.reason with
  | .tooManyDigits count => .number (.tooManyDigits count)
  | reason => .malformed (reason.message ++ " (at " ++ place src f.pos ++ ")")

/-- The table a TOML text writes, or why it is not TOML. -/
def parse (text : String) : Except DecodeError Table :=
  let src := source text
  (statements src {} 0 (src.size + 1)).mapError (Failure.describe src)

end RubyCheck.Toml
