import RubyCheck.Proofs.Tree.Layout
import Mathlib

/-!
# The walk as linked nodes

**The array a walk builds is its tree as linked nodes.**

`Node.walk` numbers the nodes of a tree in pre-order and records, for each, the node, its
parent's index and its node children's indices; it fills the array as it goes and patches each
node's children in once they are numbered. `Node.visitsAt` writes the same visits as a recursion
over the tree: a node takes its index, its children follow it, each right after all the nodes of
the one before (`starts`).

* `Node.walk_toList`: the walk is `Node.visitsAt` from index 0;
* `Node.walk_linked`: the links of the walk are those of a tree (`Walk.Linked`). Each visit lists
  its node's children where the walk put them, and each of those names the visit as its parent;
  a visit's parent comes before it and lists it; the first visit has no parent; and the nodes of
  a node's subtree fit in the walk after it;
* `Walk.Linked.next_under`: the visit right after a node's, when it is under that node, is the
  node's first child.
-/

namespace RubyCheck.Tree

/-- Where a walk puts a list of siblings when the first goes at index `first`: each one right
after all the nodes of the one before. -/
def starts : List Node → Nat → List Nat
  | [], _ => []
  | c :: cs, first => first :: starts cs (first + c.nodes.length)

/-- `starts` over the node children among some slots. -/
def slotStarts : List (Slot Node) → Nat → List Nat
  | [], _ => []
  | .node c :: rest, first => first :: slotStarts rest (first + c.nodes.length)
  | .atom _ :: rest, first => slotStarts rest first

mutual

/-- The visits the walk of `n` records when `n` takes index `base` under the parent `parent`. -/
def Node.visitsAt : Node → Nat → Option Nat → List Visit
  | n@(.mk _ cs _ _), base, parent =>
    { node := n, parent, childIds := slotStarts cs (base + 1) } :: slotsVisitsAt cs base (base + 1)

/-- The visits of the node children among some slots of the node at `me`, the first at index
`first`. -/
def slotsVisitsAt : List (Slot Node) → Nat → Nat → List Visit
  | [], _, _ => []
  | .node c :: rest, me, first =>
    c.visitsAt first (some me) ++ slotsVisitsAt rest me (first + c.nodes.length)
  | .atom _ :: rest, me, first => slotsVisitsAt rest me first

end

/-- The visits of siblings under the node at `me`, the first at index `first`. -/
def siblingVisits (me : Nat) : List Node → Nat → List Visit
  | [], _ => []
  | c :: cs, first => c.visitsAt first (some me) ++ siblingVisits me cs (first + c.nodes.length)

theorem slotStarts_children (n : Node) (first : Nat) :
    slotStarts n.children first = starts n.childNodes first := by
  obtain ⟨k, cs, sp, loc⟩ := n
  simp only [Node.childNodes, Node.children]
  induction cs generalizing first with
  | nil => rfl
  | cons slot rest ih => cases slot <;> simp [slotStarts, starts, ih]

/-- A node's visits: its own, then those of its node children in order. -/
theorem Node.visitsAt_eq (n : Node) (base : Nat) (parent : Option Nat) :
    n.visitsAt base parent = { node := n, parent, childIds := starts n.childNodes (base + 1) } ::
      siblingVisits base n.childNodes (base + 1) := by
  obtain ⟨k, cs, sp, loc⟩ := n
  have slots : ∀ first, slotsVisitsAt cs base first =
      siblingVisits base (Node.mk k cs sp loc).childNodes first := by
    simp only [Node.childNodes, Node.children]
    induction cs with
    | nil => intro first; rfl
    | cons slot rest ih => cases slot <;> simp [slotsVisitsAt, siblingVisits, ih]
  have own := slotStarts_children (.mk k cs sp loc) (base + 1)
  simp only [Node.children] at own
  simp only [Node.visitsAt, own, slots]

@[simp] theorem length_starts (cs : List Node) (first : Nat) : (starts cs first).length = cs.length := by
  induction cs generalizing first with
  | nil => rfl
  | cons c cs ih => simp [starts, ih]

/-! ### Siblings -/

section Siblings

variable {me : Nat}

theorem length_siblingVisits {cs : List Node}
    (each : ∀ c ∈ cs, ∀ b p, (c.visitsAt b p).length = c.nodes.length) (first : Nat) :
    (siblingVisits me cs first).length = (cs.flatMap Node.nodes).length := by
  induction cs generalizing first with
  | nil => rfl
  | cons c cs ih =>
    simp only [siblingVisits, List.length_append, List.flatMap_cons,
      each c List.mem_cons_self, ih (fun d member => each d (List.mem_cons_of_mem _ member))]

/-- A node's visits are as many as its nodes. -/
@[simp] theorem Node.length_visitsAt (n : Node) (base : Nat) (parent : Option Nat) :
    (n.visitsAt base parent).length = n.nodes.length := by
  induction n using Node.childInduction generalizing base parent with
  | step n ih =>
    rw [Node.visitsAt_eq, Node.nodes_eq, List.length_cons, List.length_cons,
      length_siblingVisits (fun c member b p => ih c member b p)]

/-- A sibling starts inside the block its list of siblings takes. -/
theorem bounds_of_mem_starts {cs : List Node} {first : Nat} {c : Node} {t : Nat}
    (member : (c, t) ∈ cs.zip (starts cs first)) :
    first ≤ t ∧ t + c.nodes.length ≤ first + (cs.flatMap Node.nodes).length := by
  induction cs generalizing first with
  | nil => simp [starts] at member
  | cons d ds ih =>
    simp only [starts, List.zip_cons_cons, List.mem_cons, Prod.mk.injEq] at member
    rcases member with ⟨rfl, rfl⟩ | later
    · simp
    · have := ih later
      simp only [List.flatMap_cons, List.length_append]
      omega

/-- A visit among siblings' visits is one of a sibling's, counted from where that sibling
starts. -/
theorem mem_siblingVisits {cs : List Node} {first : Nat} {v : Visit} {j : Nat}
    (member : (v, j) ∈ (siblingVisits me cs first).zipIdx first) :
    ∃ c t, (c, t) ∈ cs.zip (starts cs first) ∧ (v, j) ∈ (c.visitsAt t (some me)).zipIdx t := by
  induction cs generalizing first with
  | nil => simp [siblingVisits] at member
  | cons c cs ih =>
    rw [siblingVisits, List.zipIdx_append, List.mem_append] at member
    rcases member with own | later
    · exact ⟨c, first, by simp [starts], own⟩
    · rw [Node.length_visitsAt] at later
      obtain ⟨d, t, placed, inner⟩ := ih later
      exact ⟨d, t, by simp [starts, placed], inner⟩

/-- A sibling's visits, counted from where it starts, are among the visits of its siblings. -/
theorem zipIdx_visitsAt_subset {cs : List Node} {first : Nat} {c : Node} {t : Nat}
    (placed : (c, t) ∈ cs.zip (starts cs first)) :
    (c.visitsAt t (some me)).zipIdx t ⊆ (siblingVisits me cs first).zipIdx first := by
  induction cs generalizing first with
  | nil => simp [starts] at placed
  | cons d ds ih =>
    rw [siblingVisits, List.zipIdx_append, Node.length_visitsAt]
    simp only [starts, List.zip_cons_cons, List.mem_cons, Prod.mk.injEq] at placed
    rcases placed with ⟨rfl, rfl⟩ | later
    · exact List.subset_append_left _ _
    · exact List.Subset.trans (ih later) (List.subset_append_right _ _)

end Siblings

/-! ### The visits of a subtree -/

section Visits

variable {base : Nat} {parent : Option Nat} {v : Visit} {j : Nat}

theorem Node.zipIdx_visitsAt (n : Node) (base : Nat) (parent : Option Nat) :
    (n.visitsAt base parent).zipIdx base =
      ({ node := n, parent, childIds := starts n.childNodes (base + 1) }, base) ::
        (siblingVisits base n.childNodes (base + 1)).zipIdx (base + 1) := by
  rw [Node.visitsAt_eq, List.zipIdx_cons]

/-- A visit of a child's subtree is a visit of the parent's. -/
theorem Node.zipIdx_visitsAt_subset_of_child (n : Node) {c : Node} {t : Nat}
    (placed : (c, t) ∈ n.childNodes.zip (starts n.childNodes (base + 1))) :
    (c.visitsAt t (some base)).zipIdx t ⊆ (n.visitsAt base parent).zipIdx base := by
  rw [n.zipIdx_visitsAt base parent]
  exact List.Subset.trans (zipIdx_visitsAt_subset placed) (List.subset_cons_self _ _)

/-- Each visit lists its node's children where the walk puts them. -/
theorem Node.childIds_of_mem_visitsAt (n : Node)
    (member : (v, j) ∈ (n.visitsAt base parent).zipIdx base) :
    v.childIds = starts v.node.childNodes (j + 1) := by
  induction n using Node.childInduction generalizing base parent v j with
  | step n ih =>
    rw [Node.zipIdx_visitsAt, List.mem_cons] at member
    rcases member with own | below
    · simp only [Prod.mk.injEq] at own
      obtain ⟨rfl, rfl⟩ := own
      rfl
    · obtain ⟨c, t, placed, inner⟩ := mem_siblingVisits below
      exact ih c (List.of_mem_zip placed).1 inner

/-- Each child of a visit's node is visited where the visit lists it, under the visit. -/
theorem Node.child_of_mem_visitsAt (n : Node)
    (member : (v, j) ∈ (n.visitsAt base parent).zipIdx base) {c : Node} {s : Nat}
    (child : (c, s) ∈ v.node.childNodes.zip v.childIds) :
    ∃ u, (u, s) ∈ (n.visitsAt base parent).zipIdx base ∧ u.node = c ∧ u.parent = some j := by
  induction n using Node.childInduction generalizing base parent v j with
  | step n ih =>
    have whole := member
    rw [Node.zipIdx_visitsAt, List.mem_cons] at member
    rcases member with own | below
    · simp only [Prod.mk.injEq] at own
      obtain ⟨rfl, rfl⟩ := own
      -- the child's own first visit, among the parent's
      refine ⟨{ node := c, parent := some j, childIds := starts c.childNodes (s + 1) }, ?_, rfl, rfl⟩
      apply n.zipIdx_visitsAt_subset_of_child child
      rw [Node.zipIdx_visitsAt]
      exact List.mem_cons_self
    · obtain ⟨d, t, placed, inner⟩ := mem_siblingVisits below
      obtain ⟨u, found, node, up⟩ := ih d (List.of_mem_zip placed).1 inner child
      exact ⟨u, n.zipIdx_visitsAt_subset_of_child placed found, node, up⟩

/-- A visit's parent is the parent of the subtree, or comes before the visit and lists it. -/
theorem Node.parent_of_mem_visitsAt (n : Node)
    (member : (v, j) ∈ (n.visitsAt base parent).zipIdx base) {q : Nat} (up : v.parent = some q) :
    (j = base ∧ parent = some q) ∨
      (q < j ∧ ∃ u, (u, q) ∈ (n.visitsAt base parent).zipIdx base ∧ j ∈ u.childIds) := by
  induction n using Node.childInduction generalizing base parent v j with
  | step n ih =>
    rw [Node.zipIdx_visitsAt, List.mem_cons] at member
    rcases member with own | below
    · simp only [Prod.mk.injEq] at own
      obtain ⟨rfl, rfl⟩ := own
      exact Or.inl ⟨rfl, up⟩
    · obtain ⟨c, t, placed, inner⟩ := mem_siblingVisits below
      have start := (bounds_of_mem_starts placed).1
      rcases ih c (List.of_mem_zip placed).1 inner up with ⟨rfl, top⟩ | ⟨before, u, found, listed⟩
      · -- the visit starts a child's subtree: its parent is the node, which lists it
        cases top
        refine Or.inr ⟨by omega, { node := n, parent, childIds := starts n.childNodes (q + 1) }, ?_,
          (List.of_mem_zip placed).2⟩
        rw [Node.zipIdx_visitsAt]
        exact List.mem_cons_self
      · exact Or.inr ⟨before, u, n.zipIdx_visitsAt_subset_of_child placed found, listed⟩

/-- The visits of the subtree of each visit's node are among the visits, from its index on. -/
theorem Node.visitsAt_subset_of_mem (n : Node)
    (member : (v, j) ∈ (n.visitsAt base parent).zipIdx base) :
    (v.node.visitsAt j v.parent).zipIdx j ⊆ (n.visitsAt base parent).zipIdx base := by
  induction n using Node.childInduction generalizing base parent v j with
  | step n ih =>
    rw [Node.zipIdx_visitsAt, List.mem_cons] at member
    rcases member with own | below
    · simp only [Prod.mk.injEq] at own
      obtain ⟨rfl, rfl⟩ := own
      exact List.Subset.refl _
    · obtain ⟨c, t, placed, inner⟩ := mem_siblingVisits below
      exact List.Subset.trans (ih c (List.of_mem_zip placed).1 inner)
        (n.zipIdx_visitsAt_subset_of_child placed)

end Visits

theorem map_node_siblingVisits {me : Nat} {cs : List Node}
    (each : ∀ c ∈ cs, ∀ b p, (c.visitsAt b p).map (·.node) = c.nodes) (first : Nat) :
    (siblingVisits me cs first).map (·.node) = cs.flatMap Node.nodes := by
  induction cs generalizing first with
  | nil => rfl
  | cons c cs ih =>
    rw [siblingVisits, List.map_append, each c List.mem_cons_self, List.flatMap_cons,
      ih (fun d member => each d (List.mem_cons_of_mem _ member))]

/-- A node's visits visit its nodes. -/
theorem Node.map_node_visitsAt (n : Node) (base : Nat) (parent : Option Nat) :
    (n.visitsAt base parent).map (·.node) = n.nodes := by
  induction n using Node.childInduction generalizing base parent with
  | step n ih =>
    rw [Node.visitsAt_eq, Node.nodes_eq, List.map_cons,
      map_node_siblingVisits (fun c member b p => ih c member b p)]

/-! ### The walk -/

theorem modify_append_cons {α : Type} (l r : List α) (x : α) (f : α → α) :
    (l ++ x :: r).modify l.length f = l ++ f x :: r := by
  rw [List.modify_eq_take_cons_drop (by simp)]
  simp

/-- The walk of some slots appends the visits of their node children and collects, last first,
where it put them. -/
theorem visitSlots_eq (cs : List (Slot Node)) (me : Nat)
    (each : ∀ c, Slot.node c ∈ cs → ∀ (parent : Option Nat) (acc : Array Visit),
      (c.visitInto parent acc).toList = acc.toList ++ c.visitsAt acc.size parent)
    (acc : Array Visit) (ids : List Nat) :
    (visitSlots cs me acc ids).1.toList = acc.toList ++ slotsVisitsAt cs me acc.size ∧
      (visitSlots cs me acc ids).2 = (slotStarts cs acc.size).reverse ++ ids := by
  induction cs generalizing acc ids with
  | nil => simp [visitSlots, slotsVisitsAt, slotStarts]
  | cons slot rest ih =>
    have later := fun (d : Node) (member : Slot.node d ∈ rest) =>
      each d (List.mem_cons_of_mem _ member)
    cases slot with
    | node c =>
      have walked := each c List.mem_cons_self (some me) acc
      have size : (c.visitInto (some me) acc).size = acc.size + c.nodes.length := by
        rw [← Array.length_toList, walked, List.length_append, Node.length_visitsAt,
          Array.length_toList]
      obtain ⟨visits, ids'⟩ := ih later (c.visitInto (some me) acc) (acc.size :: ids)
      simp only [visitSlots, slotsVisitsAt, slotStarts, visits, ids', walked, size,
        List.append_assoc, List.reverse_cons]
      simp
    | atom a => simpa [visitSlots, slotsVisitsAt, slotStarts] using ih later acc ids

/-- The walk of a node appends its visits, from the index it starts at. -/
theorem Node.visitInto_toList (n : Node) (parent : Option Nat) (acc : Array Visit) :
    (n.visitInto parent acc).toList = acc.toList ++ n.visitsAt acc.size parent := by
  induction n using Node.childInduction generalizing parent acc with
  | step n ih =>
    obtain ⟨k, cs, sp, loc⟩ := n
    obtain ⟨visits, ids⟩ := visitSlots_eq cs acc.size
      (fun c member => ih c (Node.mem_childNodes.2 member))
      (acc.push { node := .mk k cs sp loc, parent, childIds := [] }) []
    rcases walked : visitSlots cs acc.size
      (acc.push { node := .mk k cs sp loc, parent, childIds := [] }) [] with ⟨after, ids'⟩
    rw [walked] at visits ids
    dsimp only at visits ids
    simp only [Node.visitInto, walked]
    -- the patch at the node's own index gives it its children
    rw [Array.toList_modify, visits, Array.toList_push, Array.size_push, List.append_assoc,
      List.singleton_append, ← Array.length_toList, modify_append_cons]
    simp [Node.visitsAt, ids]

theorem Node.walk_toList (n : Node) : n.walk.toList = n.visitsAt 0 none := by
  simpa [Node.walk] using n.visitInto_toList none #[]

theorem Node.mem_zipIdx_visitsAt_iff {root : Node} {v : Visit} {j : Nat} :
    (v, j) ∈ (root.visitsAt 0 none).zipIdx 0 ↔ root.walk[j]? = some v := by
  rw [← Node.walk_toList, List.mk_mem_zipIdx_iff_getElem?, Array.getElem?_toList]

/-! ### The links of a walk -/

/-- The links of a walk form a tree. -/
structure Walk.Linked (w : Array Visit) : Prop where
  /-- each visit lists its node's children where the walk puts them -/
  children : ∀ (j : Nat) (v : Visit), w[j]? = some v →
    v.childIds = starts v.node.childNodes (j + 1)
  /-- each child of a visit's node is visited there, under the visit -/
  child : ∀ (j : Nat) (v : Visit), w[j]? = some v → ∀ (c : Node) (s : Nat),
    (c, s) ∈ v.node.childNodes.zip v.childIds → ∃ u, w[s]? = some u ∧ u.node = c ∧ u.parent = some j
  /-- a visit's parent comes before it and lists it -/
  parent : ∀ (j : Nat) (v : Visit) (q : Nat), w[j]? = some v → v.parent = some q →
    q < j ∧ ∃ u, w[q]? = some u ∧ j ∈ u.childIds
  /-- the visits of a visit's subtree are the walk's, from the visit's index on -/
  subtree : ∀ (j : Nat) (v : Visit), w[j]? = some v → ∀ (k : Nat) (u : Visit),
    (v.node.visitsAt j v.parent)[k]? = some u → w[j + k]? = some u

/-- **The walk of a tree links its nodes as the tree does.** -/
theorem Node.walk_linked (root : Node) : Walk.Linked root.walk where
  children j v visit :=
    root.childIds_of_mem_visitsAt (Node.mem_zipIdx_visitsAt_iff.2 visit)
  child j v visit c s placed := by
    obtain ⟨u, found, node, up⟩ :=
      root.child_of_mem_visitsAt (Node.mem_zipIdx_visitsAt_iff.2 visit) placed
    exact ⟨u, Node.mem_zipIdx_visitsAt_iff.1 found, node, up⟩
  parent j v q visit up := by
    rcases root.parent_of_mem_visitsAt (Node.mem_zipIdx_visitsAt_iff.2 visit) up with
      ⟨-, never⟩ | ⟨before, u, found, listed⟩
    · cases never
    · exact ⟨before, u, Node.mem_zipIdx_visitsAt_iff.1 found, listed⟩
  subtree j v visit k u at_k := by
    have below := root.visitsAt_subset_of_mem (Node.mem_zipIdx_visitsAt_iff.2 visit)
    have member : (u, j + k) ∈ (v.node.visitsAt j v.parent).zipIdx j := by
      rw [List.mk_mem_zipIdx_iff_le_and_getElem?_sub]
      exact ⟨Nat.le_add_right j k, by rwa [Nat.add_sub_cancel_left]⟩
    exact Node.mem_zipIdx_visitsAt_iff.1 (below member)

/-! ### First children -/

/-- The node after a visit whose node starts with a node child is that child, under the visit,
which lists it first. -/
theorem Walk.Linked.firstChild {w : Array Visit} (linked : Walk.Linked w) {j : Nat} {pv : Visit}
    (visit : w[j]? = some pv) {c : Node} {rest : List (Slot Node)}
    (children : pv.node.children = .node c :: rest) :
    ∃ u, w[j + 1]? = some u ∧ u.node = c ∧ u.parent = some j ∧
      pv.childIds.head? = some (j + 1) := by
  have listed : pv.node.childNodes = c :: pv.node.childNodes.tail := by
    simp [Node.childNodes, children]
  have ids := linked.children j pv visit
  rw [listed, starts] at ids
  obtain ⟨u, found, node, parent⟩ := linked.child j pv visit c (j + 1) (by
    rw [ids, listed]
    simp)
  exact ⟨u, found, node, parent, by simp [ids]⟩

/-- The visit after a node's visit, when it is under that node, is the node's first child: the
node lists it first, and a node at the head of the node's children is that visit's node. -/
theorem Walk.Linked.next_under {w : Array Visit} (linked : Walk.Linked w) {j : Nat}
    {pv v : Visit} (visit : w[j]? = some pv) (next : w[j + 1]? = some v)
    (under : v.parent = some j) :
    pv.childIds.head? = some (j + 1) ∧
      ∀ s, pv.node.children.head? = some (.node s) → s = v.node := by
  obtain ⟨-, u, up, listed⟩ := linked.parent (j + 1) v j next under
  rw [visit, Option.some_inj] at up
  subst up
  refine ⟨?_, fun s head => ?_⟩
  · rw [linked.children j pv visit] at listed ⊢
    cases h : pv.node.childNodes with
    | nil => simp [h, starts] at listed
    | cons c cs => simp [starts]
  · obtain ⟨rest, children⟩ : ∃ rest, pv.node.children = .node s :: rest := by
      cases h : pv.node.children with
      | nil => simp [h] at head
      | cons x rest => exact ⟨rest, by simp_all⟩
    obtain ⟨t, found, node, -⟩ := linked.firstChild visit children
    rw [next, Option.some_inj] at found
    rw [← node, found]

end RubyCheck.Tree
