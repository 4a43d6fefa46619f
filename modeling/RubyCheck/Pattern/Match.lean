import RubyCheck.Pattern.Basic
import RubyCheck.Tree.Structure

/-!
# Matching patterns

Matching reads a pattern top-down against a child value, left to right, and stops at the first
child that fails. Captures bind on first sight; a later capture of the same name must be equal to
the bound value (`Node.sameAs` when the bound value is a node; equal atoms otherwise; a node never
equals an atom). An alternative that fails leaves no bindings behind; the first alternative that
succeeds is kept.

Each binding records where its value was found: the child positions leading to it from the value
matched at the top.
-/

namespace RubyCheck.Pattern

open RubyCheck.Tree

/-- A bound value and the path of child positions to it. -/
structure Bound where
  value : Slot Node
  path : List Nat

/-- The captures made so far, in the order they were first bound. -/
abbrev Bindings := List (String × Bound)

/-- Whether a newly met value equals the value already bound to a name. -/
def valuesEqual : Slot Node → Slot Node → Bool
  | .node n, v => n.sameAsSlot v
  | .atom _, .node _ => false
  | .atom a, .atom b => a.same b

/-- Whether an atom is a literal's value: of the same type and equal. A truth value is never a
number here. -/
def literalAccepts : Atom → Atom → Bool
  | .text a, .text b => a == b
  | .int a, .int b => a == b
  | .none, .none => true
  | _, _ => false

mutual

/-- Matches `p` against `v`, found at `path`, extending `b`; `none` when it does not match. -/
def matchSlot : Pattern → Slot Node → List Nat → Bindings → Option Bindings
  | .wildcard, _, _, b => some b
  | .rest, _, _, _ => none
  | .capture name, v, path, b =>
    match b.find? (·.1 == name) with
    | none => some (b ++ [(name, { value := v, path })])
    | some (_, bound) => if valuesEqual bound.value v then some b else none
  | .literal lit, v, _, b =>
    match v with
    | .atom a => if literalAccepts lit a then some b else none
    | .node _ => none
  | .anyOf alternatives, v, path, b => matchFirst alternatives v path b
  | .kind k ps, v, path, b =>
    match v with
    | .atom _ => none
    | .node n =>
      if n.kind != k then none
      else
        let countOk :=
          if Pattern.endsInRest ps then ps.length - 1 ≤ n.children.length
          else ps.length == n.children.length
        if countOk then matchChildren ps n.children path 0 b else none

/-- Tries the alternatives in order, keeping the bindings of the first that matches. -/
def matchFirst : List Pattern → Slot Node → List Nat → Bindings → Option Bindings
  | [], _, _, _ => none
  | p :: ps, v, path, b =>
    match matchSlot p v path b with
    | some b' => some b'
    | none => matchFirst ps v path b

/-- Matches child patterns against children pairwise from the left; a `rest` pattern ends the
reading, and so do the children running out. `index` is the position of the first child. -/
def matchChildren : List Pattern → List (Slot Node) → List Nat → Nat → Bindings → Option Bindings
  | .rest :: _, _, _, _, b => some b
  | p :: ps, c :: cs, path, index, b =>
    match matchSlot p c (path ++ [index]) b with
    | some b' => matchChildren ps cs path (index + 1) b'
    | none => none
  | _, _, _, _, b => some b

end

/-- The captures of a match of `p` against a value, or `none` when it does not match. The
value nothing matches no pattern at the top. -/
def matchTop (p : Pattern) (v : Slot Node) : Option Bindings :=
  match v with
  | .atom .none => none
  | _ => matchSlot p v [] []

/-- Whether `p` matches a node. -/
def accepts (p : Pattern) (n : Node) : Bool := (matchTop p (.node n)).isSome

end RubyCheck.Pattern
