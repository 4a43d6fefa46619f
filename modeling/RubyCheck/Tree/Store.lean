import RubyCheck.Tree.Shape

/-!
# A store of nodes under construction

Nodes are built one at a time from nodes built before. A store holds every node built so far,
each with its *owner*: the node that took it as a child. Building a node first checks its span
and shape (`Node.make?`'s rules), then takes its node children one by one from the left: a child
that already has an owner, or that appears twice, stops the construction. The check and the
taking are interleaved, so the children taken before the failing one keep the aborted node as
their owner; the aborted node stays in the store, unreachable from any tree.

`Store.tree` reads the value tree below a node.
-/

namespace RubyCheck.Tree

open RubyCheck.Source

/-- A node of a store: its node children are positions in the store. -/
structure Entry where
  kind : Kind
  children : List (Slot Nat)
  span : Span
  loc : List (String × Span)
  owner : Option Nat

/-- The nodes built so far, in the order they were built. -/
structure Store where
  entries : Array Entry := #[]

namespace Store

/-- How a message names the node at a position. -/
def label (s : Store) (id : Nat) : String :=
  match s.entries[id]? with
  | some e => s!"SyntaxNode({e.kind.value}, {e.span.start}..{e.span.stop})"
  | none => "SyntaxNode(?)"

/-- What the shape rules see of a child given by position. -/
def part (s : Store) : Slot Nat → Part
  | .node id => .node ((s.entries[id]?.map (·.kind)).getD .nil)
  | .atom a => .atom a

/-- Gives each node child, from the left, the owner `parent`, stopping at the first that has one. -/
def adopt (s : Store) (parent : Nat) : List (Slot Nat) → Store × Option Malformed
  | [] => (s, none)
  | .atom _ :: rest => s.adopt parent rest
  | .node id :: rest =>
    match s.entries[id]? with
    | none => s.adopt parent rest
    | some e =>
      match e.owner with
      | some owner => (s, some (.owned (s.label id) (s.label owner)))
      | none =>
        let s' := { s with entries := s.entries.set! id { e with owner := some parent } }
        s'.adopt parent rest

/-- Builds a node from children already in the store. The store that results keeps whatever
the construction changed, whether it succeeds (the new node's position) or fails. -/
def construct (s : Store) (kind : Kind) (children : List (Slot Nat)) (span : Option Span)
    (loc : List (String × Span) := []) : Store × Except Malformed Nat :=
  match span with
  | none => (s, .error (.noSpan kind))
  | some sp =>
    match shapeCheck kind (children.map s.part) with
    | some failure => (s, .error failure)
    | none =>
      let id := s.entries.size
      let s := { s with entries := s.entries.push { kind, children, span := sp, loc, owner := none } }
      match s.adopt id children with
      | (s', none) => (s', .ok id)
      | (s', some failure) => (s', .error failure)

/-- The value tree below the node at `id`; `depth` bounds how far down it reads. -/
def treeAt (s : Store) : Nat → Nat → Node
  | 0, _ => .mk .nil [] (Span.point 0) []
  | depth + 1, id =>
    match s.entries[id]? with
    | none => .mk .nil [] (Span.point 0) []
    | some e =>
      let children := e.children.map fun
        | .node c => .node (s.treeAt depth c)
        | .atom a => .atom a
      .mk e.kind children e.span e.loc

/-- The value tree below the node at `id`. Children are built before their parent, so no path
down from a node is longer than the store. -/
def tree (s : Store) (id : Nat) : Node := s.treeAt (s.entries.size + 1) id

end Store

end RubyCheck.Tree
