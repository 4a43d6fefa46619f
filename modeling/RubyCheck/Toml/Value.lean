import RubyCheck.Text.Quoted

/-!
# TOML values

**The values a TOML document holds, and the tables that name them.**

A document is a table: a list of entries, each a key and a value, in the order the document
gives them. A value is a string, an integer, a float, a boolean, a date or time, an array of
values, or a table.

Keys are paths of names (`tool.lint.select` is the path `["tool", "lint", "select"]`). Writing a
value under a path opens the tables on the way:

- `Table.alterNest` finds the table at a path, creating empty tables where none stands; through
  an array it may reach the last table of the array (the last `[[name]]` section). It fails when
  a value other than a table stands on the way.
- `Table.appendNest` adds an empty table at the end of the array at a path.
-/

namespace RubyCheck.Toml

/-- A value of a TOML document. Numbers other than integers, dates and times keep their text. -/
inductive Value where
  /-- A string, after its escapes are read. -/
  | string (s : String)
  /-- An integer, of any size. -/
  | integer (i : Int)
  /-- A float, by its text (`1.5`, `inf`, `-nan`). -/
  | float (text : String)
  /-- `true` or `false`. -/
  | boolean (b : Bool)
  /-- A date with a time of day, with or without an offset. -/
  | dateTime (text : String)
  /-- A date alone. -/
  | date (text : String)
  /-- A time of day alone. -/
  | time (text : String)
  /-- An array, of values of any kinds. -/
  | array (items : List Value)
  /-- A table: keys and their values, in the order written. -/
  | table (entries : List (String × Value))
  deriving Inhabited, Repr

/-- A path of names from the top of the document. -/
abbrev Key := List String

/-- A key as messages show it: its names, each quoted, between parentheses and after commas; a
single name is followed by a comma, `('a',)`. -/
def Key.render (key : Key) : String :=
  match key with
  | [one] => "(" ++ Text.quoted one ++ ",)"
  | _ => "(" ++ ", ".intercalate (key.map Text.quoted) ++ ")"

/-- A table: keys and their values, in the order written. -/
abbrev Table := List (String × Value)

namespace Table

/-- The value of `name`, if the table has one. -/
def get? (t : Table) (name : String) : Option Value :=
  (t.find? fun e => e.1 == name).map (·.2)

/-- Whether the table has a value for `name`. -/
def contains (t : Table) (name : String) : Bool :=
  t.any fun e => e.1 == name

/-- The table with `name` set to `v`: in its place if present, else at the end. -/
def set (t : Table) (name : String) (v : Value) : Table :=
  if t.contains name then t.map fun e => if e.1 == name then (name, v) else e
  else t ++ [(name, v)]

/-- Applies `f` to the table at `key` below `t`, and puts the result back in its place. Missing
tables on the way are created empty. Where an array stands on the way and `throughArrays`
holds, the last table of the array is the one entered. Any other value on the way, an array
without tables included, fails with `blocked`. -/
def alterNest {ε : Type} (blocked : ε) (throughArrays : Bool) (f : Table → Except ε Table) :
    Table → Key → Except ε Table
  | t, [] => f t
  | t, k :: rest =>
    match t.get? k with
    | none => do
      let inner ← alterNest blocked throughArrays f [] rest
      return t.set k (.table inner)
    | some (.table inner) => do
      let inner' ← alterNest blocked throughArrays f inner rest
      return t.set k (.table inner')
    | some (.array items) =>
      if throughArrays then
        match items.getLast? with
        | some (.table last) => do
          let last' ← alterNest blocked throughArrays f last rest
          return t.set k (.array (items.dropLast ++ [.table last']))
        | _ => throw blocked
      else throw blocked
    | some _ => throw blocked

/-- Adds an empty table at the end of the array at `key`, creating the array if none stands
there. Fails with `blocked` where a value other than a table or an array stands on the way. -/
def appendNest {ε : Type} (blocked : ε) (t : Table) (key : Key) : Except ε Table :=
  match key.getLast? with
  | none => pure t
  | some last =>
    alterNest blocked true (fun cont =>
      match cont.get? last with
      | none => pure (cont.set last (.array [.table []]))
      | some (.array items) => pure (cont.set last (.array (items ++ [.table []])))
      | some _ => throw blocked) t key.dropLast

end Table

end RubyCheck.Toml
