import RubyCheck.Tree.Walk
import RubyCheck.Tree.Shape
import Mathlib

/-!
# The nodes of a tree in pre-order

**`Node.walk` numbers the nodes of a tree in pre-order, document order.**

`Node.nodes` is the pre-order written as a recursion over the tree: a node, then the nodes of
each node child from the left. The walk builds the same list in an array, threading the array
through the children and patching each node's child indices in afterwards.

* `Node.preorder_eq_nodes`: the walk visits exactly `Node.nodes`, in that order;
* `Node.Valid`: every node of the tree passes its kind's shape check, which is what building the
  tree node by node demands.
-/

namespace RubyCheck.Tree

mutual

/-- The nodes of a tree in pre-order: the node itself, then the nodes below its node children
from the left. -/
def Node.nodes : Node → List Node
  | n@(.mk _ cs _ _) => n :: slotsNodes cs

/-- The nodes below the node children among some slots, from the left. -/
def slotsNodes : List (Slot Node) → List Node
  | [] => []
  | .node c :: rest => c.nodes ++ slotsNodes rest
  | .atom _ :: rest => slotsNodes rest

end

/-- A node's nodes are itself, then the nodes below each node child. -/
theorem Node.nodes_eq (n : Node) : n.nodes = n :: n.childNodes.flatMap Node.nodes := by
  obtain ⟨k, cs, sp, loc⟩ := n
  simp only [Node.nodes, Node.childNodes, Node.children, List.cons.injEq, true_and]
  induction cs with
  | nil => rfl
  | cons slot rest ih => cases slot <;> simp [slotsNodes, ih]

theorem Node.mem_nodes_self (n : Node) : n ∈ n.nodes := by
  rw [Node.nodes_eq]
  exact List.mem_cons_self

/-- The nodes of a child are nodes of its parent. -/
theorem Node.nodes_subset_of_mem_childNodes {n c : Node} (child : c ∈ n.childNodes) :
    ∀ m ∈ c.nodes, m ∈ n.nodes := by
  intro m member
  rw [Node.nodes_eq n]
  exact List.mem_cons_of_mem _ (List.mem_flatMap.2 ⟨c, child, member⟩)

/-! ### The walk -/

/-- Patching child indices into an array of visits keeps its nodes. -/
theorem map_node_modify (acc : Array Visit) (i : Nat) (ids : List Nat) :
    (acc.modify i fun v => { v with childIds := ids }).toList.map (·.node) =
      acc.toList.map (·.node) := by
  apply List.ext_getElem
  · simp
  · intro j _ _
    simp only [Array.toList_modify, List.getElem_map, List.getElem_modify]
    split <;> rfl

mutual

theorem Node.visitInto_nodes : ∀ (n : Node) (parent : Option Nat) (acc : Array Visit),
    (n.visitInto parent acc).toList.map (·.node) = acc.toList.map (·.node) ++ n.nodes
  | .mk k cs sp loc, parent, acc => by
    -- the children's walks follow the node's own visit, and the patch keeps every node
    have children := visitSlots_nodes cs acc.size
      (acc.push { node := .mk k cs sp loc, parent, childIds := [] }) []
    rcases walked : visitSlots cs acc.size
      (acc.push { node := .mk k cs sp loc, parent, childIds := [] }) [] with ⟨after, ids⟩
    rw [walked] at children
    simp only [Node.visitInto, walked, map_node_modify, children, Array.toList_push,
      List.map_append, List.map_cons, List.map_nil, List.append_assoc, List.cons_append,
      List.nil_append, Node.nodes]

theorem visitSlots_nodes : ∀ (cs : List (Slot Node)) (me : Nat) (acc : Array Visit)
    (ids : List Nat),
    (visitSlots cs me acc ids).1.toList.map (·.node) = acc.toList.map (·.node) ++ slotsNodes cs
  | [], _, _, _ => by simp [visitSlots, slotsNodes]
  | .node c :: rest, me, acc, ids => by
    simp only [visitSlots, slotsNodes, visitSlots_nodes rest, Node.visitInto_nodes c,
      List.append_assoc]
  | .atom _ :: rest, me, acc, ids => by
    simp only [visitSlots, slotsNodes, visitSlots_nodes rest]

end

/-- **The walk is the pre-order**: it visits a tree's nodes in pre-order, document order. -/
theorem Node.preorder_eq_nodes (n : Node) : n.preorder = n.nodes := by
  simpa [Node.preorder, Node.walk] using n.visitInto_nodes none #[]

theorem Node.size_walk (n : Node) : n.walk.size = n.nodes.length := by
  simpa [Node.preorder] using congrArg List.length n.preorder_eq_nodes

/-- The node the walk visits at an index is the node at that index of the pre-order. -/
theorem Node.getElem?_walk (n : Node) (i : Nat) :
    (n.walk[i]?).map (·.node) = n.nodes[i]? := by
  rw [← n.preorder_eq_nodes, Node.preorder, List.getElem?_map, Array.getElem?_toList]

/-! ### Valid trees -/

/-- A tree every node of which passes its kind's shape check. -/
def Node.Valid (n : Node) : Prop :=
  ∀ m ∈ n.nodes, shapeCheck m.kind (m.children.map Slot.part) = none

instance (n : Node) : Decidable n.Valid :=
  inferInstanceAs (Decidable (∀ m ∈ n.nodes, _))

end RubyCheck.Tree
