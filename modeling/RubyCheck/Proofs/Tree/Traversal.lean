import RubyCheck.Proofs.Tree.Links
import Mathlib

/-!
# Traversals of linked nodes

**A stack walk visits a subtree in pre-order; a node's ancestors are its parent chain.**

The walk from a node keeps a stack of indices: it takes the top, visits it and pushes its
children last to first. Read from the top, the stack is the list of subtrees still to visit, in
document order; popping a node and pushing its children replaces its subtree by the subtrees of
its children, which is how pre-order unfolds.

* `Walk.Linked.visitStack_subtree`: with a node's index on top, the loop visits the indices of
  its subtree in order, then goes on with the stack below;
* `Walk.Linked.parentChain_ancestors`: the ancestors are the chain of parent links, which ends at
  a node with no parent;
* `Node.walk_traversals`: in the walk of any tree, from any node, the walk, the descendants, the
  nodes of some kinds, the first child of some kinds and the ancestors are those of the node's
  subtree and of its parent chain.
-/

namespace RubyCheck.Tree

namespace Walk

/-- The node at an index of a walk. -/
def nodeAt (w : Array Visit) (i : Nat) : Option Node := w[i]?.map (·.node)

/-- The parent chain above the node at `i`, nearest first: its parent, that one's parent, and so
on, up to a node with no parent. -/
inductive ParentChain (w : Array Visit) : Nat → List Nat → Prop
  | top {i : Nat} : w[i]?.bind (·.parent) = none → ParentChain w i []
  | up {i p : Nat} {chain : List Nat} : w[i]?.bind (·.parent) = some p → ParentChain w p chain →
      ParentChain w i (p :: chain)

section Stack

variable {w : Array Visit}

@[simp] theorem visitStack_empty (fuel : Nat) : visitStack w fuel #[] = [] := by
  cases fuel <;> rfl

/-- One round of the loop: the top is visited and replaced by its children, the first on top. -/
theorem visitStack_push (fuel : Nat) (stack : Array Nat) (i : Nat) :
    visitStack w (fuel + 1) (stack.push i) =
      i :: visitStack w fuel (stack ++ (childrenOf w i).reverse.toArray) := by
  simp [visitStack]

/-- Siblings pushed last to first leave the first on top. -/
theorem append_starts_cons (stack : Array Nat) (c : Node) (cs : List Node) (first : Nat) :
    stack ++ (starts (c :: cs) first).reverse.toArray =
      (stack ++ (starts cs (first + c.nodes.length)).reverse.toArray).push first := by
  simp [starts]

theorem exists_mem_zip_starts {cs : List Node} {first s : Nat} (member : s ∈ starts cs first) :
    ∃ c, (c, s) ∈ cs.zip (starts cs first) := by
  induction cs generalizing first with
  | nil => simp [starts] at member
  | cons c cs ih =>
    simp only [starts, List.mem_cons] at member
    rcases member with rfl | later
    · exact ⟨c, by simp [starts]⟩
    · obtain ⟨d, placed⟩ := ih later
      exact ⟨d, by simp [starts, placed]⟩

/-- The loop over a list of siblings pushed last to first visits their subtrees one after
another, given that it visits each sibling's subtree from the sibling's index. -/
theorem visitStack_siblings {cs : List Node} (first : Nat)
    (each : ∀ c ∈ cs, ∀ (t : Nat) (u : Visit), w[t]? = some u → u.node = c →
      ∀ (stack : Array Nat) (fuel : Nat), c.nodes.length ≤ fuel →
        visitStack w fuel (stack.push t) =
          List.range' t c.nodes.length ++ visitStack w (fuel - c.nodes.length) stack)
    (placed : ∀ c t, (c, t) ∈ cs.zip (starts cs first) → ∃ u, w[t]? = some u ∧ u.node = c)
    (stack : Array Nat) (fuel : Nat) (enough : (cs.flatMap Node.nodes).length ≤ fuel) :
    visitStack w fuel (stack ++ (starts cs first).reverse.toArray) =
      List.range' first (cs.flatMap Node.nodes).length ++
        visitStack w (fuel - (cs.flatMap Node.nodes).length) stack := by
  induction cs generalizing first fuel with
  | nil => simp [starts]
  | cons c cs ih =>
    rw [List.flatMap_cons, List.length_append] at enough ⊢
    obtain ⟨u, found, node⟩ := placed c first (by simp [starts])
    have rest := ih (first + c.nodes.length) (fun d member => each d (List.mem_cons_of_mem _ member))
      (fun d t member => placed d t (by simp [starts, member])) (fuel - c.nodes.length) (by omega)
    have joined := @List.range'_append first c.nodes.length (cs.flatMap Node.nodes).length 1
    rw [Nat.one_mul] at joined
    -- the first sibling's subtree comes first, then those of the others
    rw [append_starts_cons, each c List.mem_cons_self first u found node _ _ (by omega), rest,
      ← List.append_assoc, joined, Nat.sub_sub]

/-- Asking the kind of the node at an index is asking the node. -/
theorem any_kindAt (kinds : List Kind) (i : Nat) :
    (kindAt w i).any kinds.contains = (nodeAt w i).any fun m => kinds.contains m.kind := by
  simp only [kindAt, nodeAt]
  cases w[i]? <;> simp

/-- Finding among indices that hold a list of nodes, in order, is finding among the nodes. -/
theorem find?_indices {wanted : Node → Bool} {cs : List Node} :
    ∀ (ids : List Nat), ids.length = cs.length →
      (∀ c s, (c, s) ∈ cs.zip ids → nodeAt w s = some c) →
        (ids.find? fun s => (nodeAt w s).any wanted).bind (nodeAt w) = cs.find? wanted := by
  induction cs with
  | nil => intro ids listed _; simp_all
  | cons c cs ih =>
    intro ids listed placed
    obtain ⟨s, ids, rfl⟩ : ∃ s rest, ids = s :: rest := List.exists_cons_of_length_eq_add_one listed
    have here : nodeAt w s = some c := placed c s (by simp)
    have rest := ih ids (by simpa using listed) fun d t member => placed d t (by simp [member])
    by_cases hit : wanted c <;> simp [here, hit, rest]

variable (linked : Linked w)
include linked

/-- **The stack invariant.** With the index of a node on top, the loop visits the indices of the
node's subtree in order, its own first, and then goes on with the stack below. -/
theorem Linked.visitStack_subtree (n : Node) : ∀ (j : Nat) (v : Visit), w[j]? = some v →
    v.node = n → ∀ (stack : Array Nat) (fuel : Nat), n.nodes.length ≤ fuel →
      visitStack w fuel (stack.push j) =
        List.range' j n.nodes.length ++ visitStack w (fuel - n.nodes.length) stack := by
  induction n using Node.childInduction with
  | step n ih =>
    intro j v visit node stack fuel enough
    have size : n.nodes.length = (n.childNodes.flatMap Node.nodes).length + 1 := by
      rw [Node.nodes_eq, List.length_cons]
    obtain ⟨fuel, rfl⟩ : ∃ f, fuel = f + 1 := ⟨fuel - 1, by omega⟩
    have children : childrenOf w j = starts n.childNodes (j + 1) := by
      simp [childrenOf, visit, linked.children j v visit, node]
    have placed : ∀ c t, (c, t) ∈ n.childNodes.zip (starts n.childNodes (j + 1)) →
        ∃ u, w[t]? = some u ∧ u.node = c := by
      intro c t member
      rw [← node, ← linked.children j v visit] at member
      obtain ⟨u, found, child, -⟩ := linked.child j v visit c t member
      exact ⟨u, found, child⟩
    rw [visitStack_push, children, visitStack_siblings (j + 1) ih placed _ _ (by omega), size,
      List.range'_succ, List.cons_append, Nat.add_sub_add_right]

/-- The nodes of a visit's subtree fit in the walk after it. -/
theorem Linked.fits {j : Nat} {v : Visit} (visit : w[j]? = some v) :
    j + v.node.nodes.length ≤ w.size := by
  have nonempty : 0 < v.node.nodes.length := by
    rw [Node.nodes_eq]
    exact Nat.succ_pos _
  have bound : v.node.nodes.length - 1 < (v.node.visitsAt j v.parent).length := by
    rw [Node.length_visitsAt]
    omega
  have last : (v.node.visitsAt j v.parent)[v.node.nodes.length - 1]? =
      some (v.node.visitsAt j v.parent)[v.node.nodes.length - 1] :=
    List.getElem?_eq_getElem bound
  have inside := linked.subtree j v visit _ _ last
  have := (Array.getElem?_eq_some_iff.1 inside).1
  omega

/-- The indices of a visit's subtree hold the nodes of its pre-order. -/
theorem Linked.nodeAt_range' {j : Nat} {v : Visit} (visit : w[j]? = some v) :
    (List.range' j v.node.nodes.length).map (nodeAt w) = v.node.nodes.map some := by
  apply List.ext_getElem (by simp)
  intro k inRange _
  simp only [List.length_map, List.length_range'] at inRange
  have bound : k < (v.node.visitsAt j v.parent).length := by
    rw [Node.length_visitsAt]
    exact inRange
  have there : (v.node.visitsAt j v.parent)[k]? = some (v.node.visitsAt j v.parent)[k] :=
    List.getElem?_eq_getElem bound
  have own : (v.node.visitsAt j v.parent)[k].node = v.node.nodes[k] := by
    have listed := List.getElem_of_eq (Node.map_node_visitsAt v.node j v.parent)
      (by rwa [List.length_map])
    rwa [List.getElem_map] at listed
  simp [nodeAt, List.getElem_range', linked.subtree j v visit k _ there, own]

/-- **The walk from a node visits its subtree in pre-order**, each index once. -/
theorem Linked.walkFrom_eq {j : Nat} {v : Visit} (visit : w[j]? = some v) :
    walkFrom w j = List.range' j v.node.nodes.length := by
  have := linked.visitStack_subtree v.node j v visit rfl #[] w.size (by
    have := linked.fits visit
    omega)
  simpa [walkFrom] using this

/-- With a node's children on the stack, the loop visits the node's subtree less the node. -/
theorem Linked.visitStack_children {j : Nat} {v : Visit} (visit : w[j]? = some v)
    (stack : Array Nat) (fuel : Nat) (enough : v.node.nodes.length - 1 ≤ fuel) :
    visitStack w fuel (stack ++ (childrenOf w j).reverse.toArray) =
      List.range' (j + 1) (v.node.nodes.length - 1) ++
        visitStack w (fuel - (v.node.nodes.length - 1)) stack := by
  have size : v.node.nodes.length - 1 = (v.node.childNodes.flatMap Node.nodes).length := by
    rw [Node.nodes_eq, List.length_cons, Nat.add_sub_cancel]
  have placed : ∀ c t, (c, t) ∈ v.node.childNodes.zip (starts v.node.childNodes (j + 1)) →
      ∃ u, w[t]? = some u ∧ u.node = c := by
    intro c t member
    rw [← linked.children j v visit] at member
    obtain ⟨u, found, child, -⟩ := linked.child j v visit c t member
    exact ⟨u, found, child⟩
  rw [size] at enough ⊢
  simp only [childrenOf, visit, Option.map_some, Option.getD_some, linked.children j v visit]
  exact visitStack_siblings (j + 1)
    (fun c _ t u found node => linked.visitStack_subtree c t u found node) placed _ _ enough

/-- The descendants are the walk less the node itself. -/
theorem Linked.descendants_eq {j : Nat} {v : Visit} (visit : w[j]? = some v) :
    descendants w j = (walkFrom w j).tail := by
  have fits := linked.fits visit
  have below := linked.visitStack_children visit #[] w.size (by omega)
  rw [Array.empty_append, visitStack_empty, List.append_nil] at below
  rw [descendants, below, linked.walkFrom_eq visit]
  obtain ⟨m, sized⟩ : ∃ m, v.node.nodes.length = m + 1 := ⟨_, (Nat.succ_pred_eq_of_pos
    (by rw [Node.nodes_eq]; exact Nat.succ_pos _)).symm⟩
  rw [sized, List.range'_succ, List.tail_cons, Nat.add_sub_cancel]

/-- The nodes of some kinds that the walk from a node visits are those of its pre-order. -/
theorem Linked.allOfKind_nodes {j : Nat} {v : Visit} (visit : w[j]? = some v) (kinds : List Kind) :
    (allOfKind w j kinds).map (nodeAt w) =
      (v.node.nodes.filter fun m => kinds.contains m.kind).map some := by
  have wanted : (fun i => (kindAt w i).any kinds.contains) =
      (fun o : Option Node => o.any fun m => kinds.contains m.kind) ∘ nodeAt w := by
    funext i
    exact any_kindAt kinds i
  rw [allOfKind, linked.walkFrom_eq visit, wanted, ← List.filter_map, linked.nodeAt_range' visit,
    List.filter_map]
  rfl

/-! ### Children and parents -/

/-- A node's children are where its visit lists them. -/
theorem Linked.nodeAt_child {j : Nat} {v : Visit} (visit : w[j]? = some v) {c : Node} {s : Nat}
    (placed : (c, s) ∈ v.node.childNodes.zip (childrenOf w j)) : nodeAt w s = some c := by
  simp only [childrenOf, visit, Option.map_some, Option.getD_some] at placed
  obtain ⟨u, found, node, -⟩ := linked.child j v visit c s placed
  simp [nodeAt, found, node]

/-- The first child of some kinds is the first of the node's children of those kinds. -/
theorem Linked.childOfKind_node {j : Nat} {v : Visit} (visit : w[j]? = some v) (kinds : List Kind) :
    (childOfKind w j kinds).bind (nodeAt w) =
      v.node.childNodes.find? fun m => kinds.contains m.kind := by
  have listed : (childrenOf w j).length = v.node.childNodes.length := by
    simp [childrenOf, visit, linked.children j v visit]
  rw [childOfKind, funext (any_kindAt kinds)]
  exact find?_indices _ listed fun c s placed => linked.nodeAt_child visit placed

/-- The parent of a node is the node whose visit lists it among its children. -/
theorem Linked.parent_eq_some_iff {j p : Nat} :
    w[j]?.bind (·.parent) = some p ↔ j ∈ childrenOf w p := by
  constructor
  · intro up
    obtain ⟨v, visit, up⟩ := Option.bind_eq_some_iff.1 up
    obtain ⟨-, u, found, listed⟩ := linked.parent j v p visit up
    simpa [childrenOf, found] using listed
  · intro listed
    cases found : w[p]? with
    | none => simp [childrenOf, found] at listed
    | some u =>
      simp only [childrenOf, found, Option.map_some, Option.getD_some] at listed
      have starting := listed
      rw [linked.children p u found] at starting
      obtain ⟨c, placed⟩ := exists_mem_zip_starts starting
      rw [← linked.children p u found] at placed
      obtain ⟨child, there, -, up⟩ := linked.child p u found c j placed
      simp [there, up]

/-- The climb from a parent link stays on the parent chain while the fuel lasts, and parents come
before their children, so an index's worth of fuel lasts. -/
theorem Linked.parentChain_ancestorsFrom (fuel : Nat) : ∀ i : Nat,
    (∀ p, w[i]?.bind (·.parent) = some p → p < fuel) →
      ParentChain w i (ancestorsFrom w fuel (w[i]?.bind (·.parent))) := by
  induction fuel with
  | zero =>
    intro i below
    cases up : w[i]?.bind (·.parent) with
    | none => exact .top up
    | some p => exact absurd (below p up) (Nat.not_lt_zero p)
  | succ fuel ih =>
    intro i below
    cases up : w[i]?.bind (·.parent) with
    | none => exact .top up
    | some p =>
      refine .up up (ih p fun q up' => ?_)
      obtain ⟨v, visit, up'⟩ := Option.bind_eq_some_iff.1 up'
      have := (linked.parent p v q visit up').1
      have := below p up
      omega

/-- **The ancestors are the parent chain**, nearest first, up to a node with no parent. -/
theorem Linked.parentChain_ancestors (i : Nat) : ParentChain w i (ancestors w i) := by
  apply linked.parentChain_ancestorsFrom
  intro p up
  obtain ⟨v, visit, up⟩ := Option.bind_eq_some_iff.1 up
  have := (linked.parent i v p visit up).1
  have := (Array.getElem?_eq_some_iff.1 visit).1
  omega

end Stack

end Walk

/-- **Traversals of a tree.** In the walk of any tree, from the node `n` at any index `i`: the
walk visits the indices of `n`'s subtree, each once and in order, so that its callback sees the
nodes of `n` in pre-order; the descendants are the same visits less `n`; the nodes of some kinds
are those of the pre-order with one of the kinds; the first child of some kinds is the first such
node child of `n`; and the ancestors are the parent chain up to a node with no parent, the
parent of a node being the one that lists it among its children, with the nearest ancestor of
some kinds the first such node of the chain. -/
theorem Node.walk_traversals (root : Node) {i : Nat} {n : Node} (at_i : root.nodes[i]? = some n)
    (kinds : List Kind) :
    Walk.walkFrom root.walk i = List.range' i n.nodes.length ∧
      (Walk.walkFrom root.walk i).map (Walk.nodeAt root.walk) = n.nodes.map some ∧
      Walk.descendants root.walk i = (Walk.walkFrom root.walk i).tail ∧
      (Walk.allOfKind root.walk i kinds).map (Walk.nodeAt root.walk) =
        (n.nodes.filter fun m => kinds.contains m.kind).map some ∧
      (Walk.childOfKind root.walk i kinds).bind (Walk.nodeAt root.walk) =
        n.childNodes.find? (fun m => kinds.contains m.kind) ∧
      Walk.ParentChain root.walk i (Walk.ancestors root.walk i) ∧
      Walk.parentOfKind root.walk i kinds =
        (Walk.ancestors root.walk i).find? (fun j => (Walk.kindAt root.walk j).any kinds.contains) ∧
      ∀ j p, root.walk[j]?.bind (·.parent) = some p ↔ j ∈ Walk.childrenOf root.walk p := by
  have linked := root.walk_linked
  obtain ⟨v, visit, rfl⟩ : ∃ v, root.walk[i]? = some v ∧ v.node = n := by
    have found := root.getElem?_walk i
    rw [at_i] at found
    exact Option.map_eq_some_iff.1 found
  refine ⟨linked.walkFrom_eq visit, ?_, linked.descendants_eq visit,
    linked.allOfKind_nodes visit kinds, linked.childOfKind_node visit kinds,
    linked.parentChain_ancestors i, rfl, fun j p => linked.parent_eq_some_iff⟩
  rw [linked.walkFrom_eq visit]
  exact linked.nodeAt_range' visit

theorem walk_traversals_inner_array :
    let inner : Node :=
      .mk .array [.node (.mk .nil [] ⟨4, 5, Nat.le_succ 4⟩ [])] ⟨3, 6, Nat.le_add_right 3 3⟩ []
    let root : Node :=
      .mk .array [.node (.mk .lvar [.atom (.text "x")] ⟨1, 2, Nat.le_succ 1⟩ []), .atom (.int 7),
        .node inner] ⟨0, 7, Nat.zero_le 7⟩ []
    root.nodes[2]? = some inner ∧
      (Walk.walkFrom root.walk 2 = List.range' 2 inner.nodes.length ∧
        (Walk.walkFrom root.walk 2).map (Walk.nodeAt root.walk) = inner.nodes.map some ∧
        Walk.descendants root.walk 2 = (Walk.walkFrom root.walk 2).tail ∧
        (Walk.allOfKind root.walk 2 [.nil]).map (Walk.nodeAt root.walk) =
          (inner.nodes.filter fun m => [Kind.nil].contains m.kind).map some ∧
        (Walk.childOfKind root.walk 2 [.nil]).bind (Walk.nodeAt root.walk) =
          inner.childNodes.find? (fun m => [Kind.nil].contains m.kind) ∧
        Walk.ParentChain root.walk 2 (Walk.ancestors root.walk 2) ∧
        Walk.parentOfKind root.walk 2 [.nil] =
          (Walk.ancestors root.walk 2).find?
            (fun j => (Walk.kindAt root.walk j).any [Kind.nil].contains) ∧
        ∀ j p, root.walk[j]?.bind (·.parent) = some p ↔ j ∈ Walk.childrenOf root.walk p) := by
  intro inner root
  exact ⟨rfl, Node.walk_traversals root rfl [.nil]⟩

end RubyCheck.Tree
