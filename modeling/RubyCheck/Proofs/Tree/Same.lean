import RubyCheck.Tree.Structure
import Mathlib

/-!
# Equal structure is equality of skeletons

**Two nodes have equal structure exactly when their skeletons are equal, so `Node.sameAs` is an
equivalence; a node never has the structure of an atom.**

The *skeleton* of a node keeps its kind and its children, a node child by its own skeleton and
an atom by the value it compares by (a truth value as the number 0 or 1); spans and named
sub-spans are dropped. Comparing position by position, with the cases node against node, atom
against atom and node against atom, computes exactly whether two skeletons are equal.

A capture met twice accepts the second value when it has the structure of the first, so a
pattern that names one capture twice relies on the equivalence laws: two values equal to a third
are equal to each other.

* `Atom.same_iff`, `Node.sameAs_iff`: equal as values, equal structure, each is equality of
  what it keeps;
* `Node.sameAs_refl`, `Node.sameAs_symm`, `Node.sameAs_trans` and their atom forms, read off
  equality;
* `Node.sameAsSlot_iff_skeleton`: the whole statement, against any child value.
-/

namespace RubyCheck.Tree

/-! ### Atoms -/

/-- The value an atom compares by: a truth value as the number 0 or 1, every other atom as it
is. -/
def Atom.value : Atom → Atom
  | .bool b => .int (if b then 1 else 0)
  | a => a

/-- Atoms are equal as values exactly when the values they compare by are equal. -/
theorem Atom.same_iff (a b : Atom) : a.same b = true ↔ a.value = b.value := by
  cases a <;> cases b <;> simp [Atom.same, Atom.number?, Atom.value]

theorem Atom.same_refl (a : Atom) : a.same a = true :=
  (Atom.same_iff a a).2 rfl

theorem Atom.same_symm {a b : Atom} (same : a.same b = true) : b.same a = true :=
  (Atom.same_iff b a).2 ((Atom.same_iff a b).1 same).symm

theorem Atom.same_trans {a b c : Atom} (first : a.same b = true) (second : b.same c = true) :
    a.same c = true :=
  (Atom.same_iff a c).2 (((Atom.same_iff a b).1 first).trans ((Atom.same_iff b c).1 second))

/-! ### Skeletons -/

/-- What equal structure sees of a node: its kind and its children, a node child by its own
skeleton and an atom by its value. -/
inductive Skeleton where
  | mk (kind : Kind) (children : List (Slot Skeleton))

mutual

/-- The skeleton of a node: its span and named sub-spans dropped. -/
def Node.skeleton : Node → Skeleton
  | .mk k cs _ _ => .mk k (slotsSkeleton cs)

/-- The skeletons of children, position by position. -/
def slotsSkeleton : List (Slot Node) → List (Slot Skeleton)
  | [] => []
  | .node n :: rest => .node n.skeleton :: slotsSkeleton rest
  | .atom a :: rest => .atom a.value :: slotsSkeleton rest

end

@[simp] theorem length_slotsSkeleton :
    ∀ cs : List (Slot Node), (slotsSkeleton cs).length = cs.length
  | [] => rfl
  | .node _ :: rest | .atom _ :: rest => by simp [slotsSkeleton, length_slotsSkeleton rest]

/-! ### Equal structure -/

mutual

/-- Two nodes have equal structure exactly when their skeletons are equal. -/
theorem Node.sameAs_iff : ∀ m n : Node, m.sameAs n = true ↔ m.skeleton = n.skeleton
  | .mk k cs _ _, .mk k' cs' _ _ => by
    simp only [Node.sameAs, Node.skeleton, Bool.and_eq_true, beq_iff_eq, Skeleton.mk.injEq,
      slotsSame_iff cs cs']
    -- the count of children is implied by equal skeletons of the children
    constructor
    · rintro ⟨⟨kind, -⟩, children⟩
      exact ⟨kind, children⟩
    · rintro ⟨kind, children⟩
      have counts := congrArg List.length children
      rw [length_slotsSkeleton, length_slotsSkeleton] at counts
      exact ⟨⟨kind, counts⟩, children⟩

/-- Two child lists are equal position by position exactly when their skeletons are equal. -/
theorem slotsSame_iff : ∀ cs cs' : List (Slot Node),
    slotsSame cs cs' = true ↔ slotsSkeleton cs = slotsSkeleton cs'
  | [], [] => by simp [slotsSame, slotsSkeleton]
  | .node a :: more, .node b :: more' => by
    simp [slotsSame, slotsSkeleton, Node.sameAs_iff a b, slotsSame_iff more more']
  | .atom a :: more, .atom b :: more' => by
    simp [slotsSame, slotsSkeleton, Atom.same_iff a b, slotsSame_iff more more']
  | [], .node _ :: _ | [], .atom _ :: _ | .node _ :: _, [] | .atom _ :: _, []
  | .node _ :: _, .atom _ :: _ | .atom _ :: _, .node _ :: _ => by
    simp [slotsSame, slotsSkeleton]

end

theorem Node.sameAs_refl (n : Node) : n.sameAs n = true :=
  (Node.sameAs_iff n n).2 rfl

theorem Node.sameAs_symm {m n : Node} (same : m.sameAs n = true) : n.sameAs m = true :=
  (Node.sameAs_iff n m).2 ((Node.sameAs_iff m n).1 same).symm

theorem Node.sameAs_trans {l m n : Node} (first : l.sameAs m = true) (second : m.sameAs n = true) :
    l.sameAs n = true :=
  (Node.sameAs_iff l n).2 (((Node.sameAs_iff l m).1 first).trans ((Node.sameAs_iff m n).1 second))

/-- **Equal structure against any child value.** A node has the structure of a value exactly
when the value is a node with the same skeleton; so equal structure is reflexive, symmetric and
transitive on nodes, and never holds against an atom. -/
theorem Node.sameAsSlot_iff_skeleton :
    (∀ (a : Node) (b : Slot Node),
      a.sameAsSlot b = true ↔ ∃ m, b = .node m ∧ a.skeleton = m.skeleton) ∧
    (∀ a : Node, a.sameAs a = true) ∧
    (∀ a b : Node, a.sameAs b = true → b.sameAs a = true) ∧
    (∀ a b c : Node, a.sameAs b = true → b.sameAs c = true → a.sameAs c = true) ∧
    (∀ (a : Node) (x : Atom), a.sameAsSlot (.atom x) = false) := by
  refine ⟨fun a b => ?_, Node.sameAs_refl, fun _ _ => Node.sameAs_symm,
    fun _ _ _ => Node.sameAs_trans, fun _ _ => rfl⟩
  cases b with
  | node m => simp [Node.sameAsSlot, Node.sameAs_iff]
  | atom x => simp [Node.sameAsSlot]

end RubyCheck.Tree
