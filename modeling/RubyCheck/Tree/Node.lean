import RubyCheck.Tree.Kind
import RubyCheck.Source.Span
import RubyCheck.Text.Quoted

/-!
# Syntax nodes

A node has a kind, an ordered list of children, the span of source it covers and a list of
named sub-spans (`loc`): `selector` for the method name of a call, `dot` for its operator,
`begin` and `end` for the delimiters of a block. A child is another node or an *atom*: a text,
a whole number, a truth value, or nothing.

Atoms compare as numbers when both are numbers or truth values (a truth value counts as 0 or 1),
as texts when both are texts, and `nothing` equals only itself.
-/

namespace RubyCheck.Tree

open RubyCheck.Source

/-- A child that is not a node. -/
inductive Atom where
  | text (s : String)
  | int (i : Int)
  | bool (b : Bool)
  | none
  deriving DecidableEq, Repr, Inhabited

namespace Atom

/-- The number an atom stands for, a truth value counting as 0 or 1. -/
def number? : Atom → Option Int
  | .int i => some i
  | .bool b => some (if b then 1 else 0)
  | _ => Option.none

/-- Whether two atoms are equal as values. -/
def same : Atom → Atom → Bool
  | .text a, .text b => a == b
  | .none, .none => true
  | a, b =>
    match a.number?, b.number? with
    | some x, some y => x == y
    | _, _ => false

/-- How a message writes an atom. -/
def render : Atom → String
  | .text s => Text.quoted s
  | .int i => toString i
  | .bool true => "True"
  | .bool false => "False"
  | .none => "None"

end Atom

/-- A child position: a node or an atom. -/
inductive Slot (α : Type) where
  | node (n : α)
  | atom (a : Atom)
  deriving Repr

/-- A syntax node: kind, children, covered span and named sub-spans. -/
inductive Node where
  | mk (kind : Kind) (children : List (Slot Node)) (span : Span) (loc : List (String × Span))

namespace Node

def kind : Node → Kind
  | .mk k _ _ _ => k

def children : Node → List (Slot Node)
  | .mk _ cs _ _ => cs

def span : Node → Span
  | .mk _ _ s _ => s

def loc : Node → List (String × Span)
  | .mk _ _ _ l => l

/-- The named sub-span `name`, if the node has one. -/
def locAt (n : Node) (name : String) : Option Span :=
  (n.loc.find? (·.1 == name)).map (·.2)

/-- The span of the method name of a call. -/
def selector (n : Node) : Option Span := n.locAt "selector"

/-- The children that are nodes, in order. -/
def childNodes (n : Node) : List Node :=
  n.children.filterMap fun
    | .node c => some c
    | .atom _ => Option.none

/-- How a message names a node: its kind and span. -/
def label (n : Node) : String :=
  s!"SyntaxNode({n.kind.value}, {n.span.start}..{n.span.stop})"

end Node

end RubyCheck.Tree
