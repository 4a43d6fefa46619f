import RubyCheck.Tree.Node

/-!
# Equal structure

Two nodes have the same structure when they have the same kind and as many children, and
children at each position are equal: nodes by the same rule, atoms as values, and a node never
equals an atom. Spans and named sub-spans do not count.
-/

namespace RubyCheck.Tree

mutual

/-- Whether two nodes have the same structure. -/
def Node.sameAs : Node → Node → Bool
  | .mk k cs _ _, .mk k' cs' _ _ => k == k' && cs.length == cs'.length && slotsSame cs cs'

/-- Whether two child lists are equal position by position. -/
def slotsSame : List (Slot Node) → List (Slot Node) → Bool
  | [], [] => true
  | .node a :: r, .node b :: r' => a.sameAs b && slotsSame r r'
  | .atom a :: r, .atom b :: r' => a.same b && slotsSame r r'
  | _, _ => false

end

/-- Whether a node has the same structure as a child value, which may be an atom. -/
def Node.sameAsSlot (n : Node) : Slot Node → Bool
  | .node m => n.sameAs m
  | .atom _ => false

end RubyCheck.Tree
