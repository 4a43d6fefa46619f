import RubyCheck.Tree.Node

/-!
# Walking a tree

The walk visits a node, then the subtrees of its node children from the left: pre-order in
document order, atoms skipped. Numbering the nodes in walk order gives each node an index (the
root is 0), its parent's index, and its node children's indices: the array of visits is the tree
as linked nodes, an index standing for a node.

Over the linked nodes, a walk from one node runs a stack: it takes the node on top, visits it,
and puts its children on the stack last to first, so that the first child is taken next. The
descendants of a node come from the same loop started on its children, and the nodes of a kind
are those of the walk whose kind is wanted. A node's ancestors follow the parent links up.
-/

namespace RubyCheck.Tree

/-- A node as the walk meets it: the node, its parent's index and its node children's indices. -/
structure Visit where
  node : Node
  parent : Option Nat
  childIds : List Nat

mutual

/-- Appends the walk of `n`, whose parent has index `parent`, to `acc`. -/
def Node.visitInto : Node → Option Nat → Array Visit → Array Visit
  | n@(.mk _ children _ _), parent, acc =>
    let me := acc.size
    let acc := acc.push { node := n, parent, childIds := [] }
    let (acc, ids) := visitSlots children me acc []
    acc.modify me fun v => { v with childIds := ids.reverse }

/-- Appends the walks of the node children among `slots`, collecting their indices in reverse. -/
def visitSlots : List (Slot Node) → Nat → Array Visit → List Nat → Array Visit × List Nat
  | [], _, acc, ids => (acc, ids)
  | .node c :: rest, me, acc, ids => visitSlots rest me (c.visitInto (some me) acc) (acc.size :: ids)
  | .atom _ :: rest, me, acc, ids => visitSlots rest me acc ids

end

/-- Every node of a tree in walk order, with parents and children by index. -/
def Node.walk (n : Node) : Array Visit := n.visitInto none #[]

/-- The nodes of a tree in walk order. -/
def Node.preorder (n : Node) : List Node := n.walk.toList.map (·.node)

namespace Walk

/-- The indices of the node children of the node at `i`. -/
def childrenOf (w : Array Visit) (i : Nat) : List Nat := (w[i]?.map (·.childIds)).getD []

/-- The nodes a walk visits from a stack of indices whose top is its last element: it takes the
top, visits it, and puts the node's children on the stack last to first. A visit cannot change
the tree, so the visits are the whole effect of the loop on its callback. `fuel` bounds the
number of visits. -/
def visitStack (w : Array Visit) : Nat → Array Nat → List Nat
  | 0, _ => []
  | fuel + 1, stack =>
    match stack.back? with
    | none => []
    | some i => i :: visitStack w fuel (stack.pop ++ (childrenOf w i).reverse.toArray)

/-- The nodes the walk from the node at `i` visits, in order. -/
def walkFrom (w : Array Visit) (i : Nat) : List Nat := visitStack w w.size #[i]

/-- The descendants of the node at `i`, in the order they are yielded: the same loop, started
on the node's children. -/
def descendants (w : Array Visit) (i : Nat) : List Nat :=
  visitStack w w.size (childrenOf w i).reverse.toArray

/-- The indices of a node's ancestors, nearest first; `fuel` bounds the climb. -/
def ancestorsFrom (w : Array Visit) : Nat → Option Nat → List Nat
  | 0, _ => []
  | _, none => []
  | fuel + 1, some i => i :: ancestorsFrom w fuel ((w[i]?.bind (·.parent)))

/-- The indices of the ancestors of the node at `i`, nearest first. -/
def ancestors (w : Array Visit) (i : Nat) : List Nat :=
  ancestorsFrom w w.size ((w[i]?.bind (·.parent)))

/-- The kind of the node at an index. -/
def kindAt (w : Array Visit) (i : Nat) : Option Kind := (w[i]?.map (·.node.kind))

/-- The nearest ancestor of the node at `i` whose kind is among `kinds`. -/
def parentOfKind (w : Array Visit) (i : Nat) (kinds : List Kind) : Option Nat :=
  (ancestors w i).find? fun j => (kindAt w j).any kinds.contains

/-- The first node child of the node at `i` whose kind is among `kinds`. -/
def childOfKind (w : Array Visit) (i : Nat) (kinds : List Kind) : Option Nat :=
  (childrenOf w i).find? fun j => (kindAt w j).any kinds.contains

/-- The nodes the walk from the node at `i` visits, itself included, whose kind is among
`kinds`. -/
def allOfKind (w : Array Visit) (i : Nat) (kinds : List Kind) : List Nat :=
  (walkFrom w i).filter fun j => (kindAt w j).any kinds.contains

/-- The index of the node reached from the node at `i` by a path of child positions, which
count atoms too; `none` when the path leads to an atom or nowhere. -/
def indexAt (w : Array Visit) (i : Nat) : List Nat → Option Nat
  | [] => some i
  | p :: rest => do
    let v ← w[i]?
    let slot ← v.node.children[p]?
    match slot with
    | .atom _ => none
    | .node _ =>
      let before := (v.node.children.take p).countP fun
        | .node _ => true
        | .atom _ => false
      let j ← v.childIds[before]?
      indexAt w j rest

end Walk

end RubyCheck.Tree
