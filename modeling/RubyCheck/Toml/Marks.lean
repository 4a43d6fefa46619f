import RubyCheck.Toml.Value

/-!
# Marks on keys

**What a document has already said about a key, so that it cannot say it again.**

Two marks exist. A key is *explicit* once a section header or a dotted key has opened its table;
such a table cannot be opened again by a header. A key is *frozen* once an inline table or an
array was written there; nothing may be added under it afterwards.

A mark set on a key holds for that key alone, or, when inherited, for every key below it too.
Marks live in a tree that follows the keys: each name carries its own marks, its inherited
marks, and the names below it.
-/

namespace RubyCheck.Toml

/-- A fact recorded about a key. -/
inductive Mark where
  /-- The table was opened by a header or a dotted key. -/
  | explicit
  /-- The value is an inline table or an array, closed to additions. -/
  | frozen
  deriving DecidableEq, Repr

/-- The marks of one name: its own, those that hold for every key below it, and the names
below it. -/
inductive MarkNode where
  | mk (own : List Mark) (inherited : List Mark) (below : List (String × MarkNode))
  deriving Inhabited

/-- The marks of every key of a document, by its first name. -/
abbrev Marks := List (String × MarkNode)

namespace Marks

/-- The node of `name`, if it has one. -/
def node? (ms : Marks) (name : String) : Option MarkNode :=
  (ms.find? fun e => e.1 == name).map (·.2)

/-- The marks with the node of `name` changed by `f`; a missing node starts empty. -/
def alter (ms : Marks) (name : String) (f : MarkNode → MarkNode) : Marks :=
  match ms.node? name with
  | some n => ms.map fun e => if e.1 == name then (name, f n) else e
  | none => ms ++ [(name, f (.mk [] [] []))]

/-- The marks with `m` set on `key`, for the key alone or, with `inherit`, for every key below
it too. -/
def set (m : Mark) (inherit : Bool) : Marks → Key → Marks
  | ms, [] => ms
  | ms, [stem] =>
    ms.alter stem fun
      | .mk own inh below =>
        if inherit then .mk own (if inh.contains m then inh else inh ++ [m]) below
        else .mk (if own.contains m then own else own ++ [m]) inh below
  | ms, k :: rest@(_ :: _) =>
    ms.alter k fun
      | .mk own inh below => .mk own inh (set m inherit below rest)

/-- Whether `key` carries `m`: its own or inherited mark, or an inherited mark of a key above
it. The top of the document carries none. -/
def has (m : Mark) : Marks → Key → Bool
  | _, [] => false
  | ms, [stem] =>
    match ms.node? stem with
    | some (.mk own inh _) => own.contains m || inh.contains m
    | none => false
  | ms, k :: rest@(_ :: _) =>
    match ms.node? k with
    | some (.mk _ inh below) => inh.contains m || has m below rest
    | none => false

/-- The marks with every mark of `key` and of the keys below it removed. -/
def clear : Marks → Key → Marks
  | ms, [] => ms
  | ms, [stem] => ms.filter fun e => e.1 != stem
  | ms, k :: rest@(_ :: _) =>
    match ms.node? k with
    | some _ => ms.alter k fun
      | .mk own inh below => .mk own inh (clear below rest)
    | none => ms

end Marks

end RubyCheck.Toml
