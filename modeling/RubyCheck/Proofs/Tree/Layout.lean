import RubyCheck.Proofs.Tree.Preorder
import RubyCheck.Tree.Access

/-!
# How a tree lies over its text

**The spans of a tree nest, and apart from a block's parameters and body they do not cross.**

A lowered tree is *laid* over its text when every node passes its kind's shape check, every node
child lies inside its parent, the node children of a node follow one another in document order
without overlap, and a call's selector lies inside the call, after the call's receiver. Lowering
leaves document order in one place, and a laid tree admits it: a block's body may stand anywhere
after the block's call, before or around the block's parameter node, which holds only argument
nodes.

* `Node.contains_of_mem_nodes`: every node of an arranged tree lies inside the root;
* `Node.pairwise_nodes_nested_or_apart`: of two nodes in pre-order, the later one is below the
  earlier one or starts after the earlier one ends, unless the earlier one is an argument node.
-/

namespace RubyCheck.Source

theorem Span.contains_iff {s t : Span} :
    s.contains t = true ↔ s.start ≤ t.start ∧ t.stop ≤ s.stop := by
  simp [Span.contains]

theorem Span.contains_refl (s : Span) : s.contains s = true :=
  Span.contains_iff.2 ⟨Nat.le_refl _, Nat.le_refl _⟩

theorem Span.contains_trans {s t u : Span} (outer : s.contains t = true)
    (inner : t.contains u = true) : s.contains u = true := by
  rw [Span.contains_iff] at *
  omega

end RubyCheck.Source

namespace RubyCheck.Tree

open RubyCheck.Source

/-! ### Induction through the node children -/

@[simp] theorem Node.kind_mk (k : Kind) (cs : List (Slot Node)) (sp : Span)
    (loc : List (String × Span)) : (Node.mk k cs sp loc).kind = k := rfl

@[simp] theorem Node.children_mk (k : Kind) (cs : List (Slot Node)) (sp : Span)
    (loc : List (String × Span)) : (Node.mk k cs sp loc).children = cs := rfl

@[simp] theorem Node.span_mk (k : Kind) (cs : List (Slot Node)) (sp : Span)
    (loc : List (String × Span)) : (Node.mk k cs sp loc).span = sp := rfl

@[simp] theorem Node.loc_mk (k : Kind) (cs : List (Slot Node)) (sp : Span)
    (loc : List (String × Span)) : (Node.mk k cs sp loc).loc = loc := rfl

theorem Node.mem_childNodes {n c : Node} : c ∈ n.childNodes ↔ Slot.node c ∈ n.children := by
  simp only [Node.childNodes, List.mem_filterMap]
  constructor
  · rintro ⟨(d | a), member, found⟩
    · cases found
      exact member
    · cases found
  · intro member
    exact ⟨_, member, rfl⟩

theorem Node.sizeOf_lt_of_mem_childNodes {n c : Node} (child : c ∈ n.childNodes) :
    sizeOf c < sizeOf n := by
  obtain ⟨k, cs, sp, loc⟩ := n
  have slot := List.sizeOf_lt_of_mem (Node.mem_childNodes.1 child)
  simp only [Node.children, Node.mk.sizeOf_spec, Slot.node.sizeOf_spec] at slot ⊢
  omega

/-- Induction over a tree, each node from its node children. -/
theorem Node.childInduction {motive : Node → Prop}
    (step : ∀ n, (∀ c ∈ n.childNodes, motive c) → motive n) (n : Node) : motive n :=
  step n fun c _ => Node.childInduction step c
termination_by sizeOf n
decreasing_by exact Node.sizeOf_lt_of_mem_childNodes ‹_›

/-- A node below a node of a tree is a node of the tree. -/
theorem Node.mem_nodes_trans {n m x : Node} (outer : m ∈ n.nodes) (inner : x ∈ m.nodes) :
    x ∈ n.nodes := by
  induction n using Node.childInduction with
  | step n ih =>
    rw [Node.nodes_eq] at outer
    rcases List.mem_cons.1 outer with rfl | below
    · exact inner
    · obtain ⟨c, child, m_in⟩ := List.mem_flatMap.1 below
      exact Node.nodes_subset_of_mem_childNodes child x (ih c child m_in)

theorem Node.nodes_tail (n : Node) : n.nodes.tail = n.childNodes.flatMap Node.nodes := by
  rw [Node.nodes_eq]
  rfl

/-! ### Laid trees -/

/-- The kinds a block's parameter node is built from: `args`, `mlhs` and the parameter kinds. -/
def Kind.isArgument (k : Kind) : Bool := k == .args || k == .mlhs || k.isParameter

/-- How a node's node children lie: each inside the node, and one after another without overlap,
save that a block's body may lie anywhere after its call when the block's parameter node holds
only argument nodes. -/
structure Node.Arranged (m : Node) : Prop where
  inside : ∀ c ∈ m.childNodes, m.span.contains c.span = true
  ordered : (m.childNodes.Pairwise fun a b => a.span.stop ≤ b.span.start) ∨
    ∃ send params body, m.kind = .block ∧ m.childNodes = [send, params, body] ∧
      send.span.stop ≤ params.span.start ∧ send.span.stop ≤ body.span.start ∧
      ∀ x ∈ params.nodes, x.kind.isArgument = true

/-- A call's selector lies inside the call, after the call's receiver. -/
def Node.SelectorPlaced (m : Node) : Prop :=
  m.kind.isCall = true → ∀ s, m.selector = some s →
    m.span.contains s = true ∧ ∀ r, m.nodeAt? 0 = some r → r.span.stop ≤ s.start

/-- A tree laid over its text: valid, arranged at every node, selectors placed. -/
structure Node.Laid (n : Node) : Prop where
  valid : n.Valid
  arranged : ∀ m ∈ n.nodes, m.Arranged
  placed : ∀ m ∈ n.nodes, m.SelectorPlaced

theorem Node.Laid.of_mem {n m : Node} (laid : n.Laid) (member : m ∈ n.nodes) : m.Laid :=
  ⟨fun x inner => laid.valid x (Node.mem_nodes_trans member inner),
    fun x inner => laid.arranged x (Node.mem_nodes_trans member inner),
    fun x inner => laid.placed x (Node.mem_nodes_trans member inner)⟩

/-! ### Nesting -/

section Nesting

variable {n : Node}

/-- Every node of an arranged tree lies inside the root. -/
theorem Node.contains_of_mem_nodes (arranged : ∀ m ∈ n.nodes, m.Arranged) {x : Node}
    (member : x ∈ n.nodes) : n.span.contains x.span = true := by
  induction n using Node.childInduction with
  | step n ih =>
    rw [Node.nodes_eq] at member
    rcases List.mem_cons.1 member with rfl | below
    · exact Span.contains_refl _
    · obtain ⟨c, child, inner⟩ := List.mem_flatMap.1 below
      have own := (arranged n (Node.mem_nodes_self n)).inside c child
      exact Span.contains_trans own (ih c child
        (fun m m_in => arranged m (Node.nodes_subset_of_mem_childNodes child m m_in)) inner)

/-- Two nodes in pre-order: the later one is below the earlier one, or starts after the earlier
one ends, or the earlier one is an argument node. -/
def NestedOrApart (x y : Node) : Prop :=
  y ∈ x.nodes.tail ∨ x.span.stop ≤ y.span.start ∨ x.kind.isArgument = true

/-- **Nodes in pre-order nest or follow one another**, argument nodes apart. -/
theorem Node.pairwise_nodes_nested_or_apart (arranged : ∀ m ∈ n.nodes, m.Arranged) :
    n.nodes.Pairwise NestedOrApart := by
  induction n using Node.childInduction with
  | step n ih =>
    have below : ∀ c ∈ n.childNodes, ∀ m ∈ c.nodes, m.Arranged := fun c child m m_in =>
      arranged m (Node.nodes_subset_of_mem_childNodes child m m_in)
    -- a node of one child and a node of a later child: the children's own order decides
    have across : ∀ a b, a ∈ n.childNodes → b ∈ n.childNodes → a.span.stop ≤ b.span.start →
        ∀ x ∈ a.nodes, ∀ y ∈ b.nodes, NestedOrApart x y := by
      intro a b a_in b_in before x x_in y y_in
      have xa := Span.contains_iff.1 (Node.contains_of_mem_nodes (below a a_in) x_in)
      have yb := Span.contains_iff.1 (Node.contains_of_mem_nodes (below b b_in) y_in)
      exact Or.inr (Or.inl (by omega))
    rw [Node.nodes_eq, List.pairwise_cons, List.pairwise_flatMap]
    refine ⟨fun y y_in => Or.inl (by rwa [Node.nodes_tail]), fun c child => ih c child (below c child),
      ?_⟩
    rcases (arranged n (Node.mem_nodes_self n)).ordered with sorted | ⟨send, params, body, -,
      children, sendFirst, sendBody, arguments⟩
    · exact sorted.imp_of_mem fun a_in b_in before => across _ _ a_in b_in before
    · have send_in : send ∈ n.childNodes := by simp [children]
      have params_in : params ∈ n.childNodes := by simp [children]
      have body_in : body ∈ n.childNodes := by simp [children]
      rw [children]
      simp only [List.pairwise_cons, List.mem_cons, forall_eq_or_imp, List.not_mem_nil,
        IsEmpty.forall_iff, implies_true, List.Pairwise.nil, and_true]
      exact ⟨⟨across _ _ send_in params_in sendFirst, across _ _ send_in body_in sendBody⟩,
        fun x x_in _ _ => Or.inr (Or.inr (arguments x x_in))⟩

end Nesting

/-! ### The first child in the walk -/

/-- Every visit of an array lists first, among its children's indices, the index right after its
own. -/
def FirstChildNext (w : Array Visit) : Prop :=
  ∀ j v, w[j]? = some v → ∀ i, v.childIds.head? = some i → i = j + 1

theorem FirstChildNext.push {w : Array Visit} (next : FirstChildNext w) (n : Node)
    (parent : Option Nat) : FirstChildNext (w.push { node := n, parent, childIds := [] }) := by
  intro j v found i first
  rw [Array.getElem?_push] at found
  split at found
  · cases found
    simp at first
  · exact next j v found i first

theorem FirstChildNext.modify {w : Array Visit} (next : FirstChildNext w) {me : Nat}
    {ids : List Nat} (after : ∀ i, ids.head? = some i → i = me + 1) :
    FirstChildNext (w.modify me fun v => { v with childIds := ids }) := by
  intro j v found i first
  rw [Array.getElem?_modify] at found
  split at found
  · rename_i same
    subst same
    obtain ⟨u, -, rfl⟩ := Option.map_eq_some_iff.1 found
    exact after i first
  · exact next j v found i first

/-- The walk of some slots puts the indices of the node children it visits before the ones it
was given, the first of them the size of the array it starts from. -/
theorem visitSlots_ids (cs : List (Slot Node)) (me : Nat) (acc : Array Visit) (ids : List Nat) :
    ∃ new, (visitSlots cs me acc ids).2 = new ++ ids ∧
      ∀ i, new.reverse.head? = some i → i = acc.size := by
  induction cs generalizing acc ids with
  | nil => exact ⟨[], by simp [visitSlots], by simp⟩
  | cons slot rest ih =>
    cases slot with
    | node c =>
      obtain ⟨new, walked, -⟩ := ih (c.visitInto (some me) acc) (acc.size :: ids)
      refine ⟨new ++ [acc.size], ?_, fun i first => ?_⟩
      · simp [visitSlots, walked]
      · simpa using first.symm
    | atom a => simpa [visitSlots] using ih acc ids

mutual

theorem Node.visitInto_firstChildNext : ∀ (n : Node) (parent : Option Nat) (acc : Array Visit),
    FirstChildNext acc → FirstChildNext (n.visitInto parent acc)
  | .mk k cs sp loc, parent, acc, next => by
    -- the children are visited from the index after the node's own, then listed in order
    have children := visitSlots_firstChildNext cs acc.size
      (acc.push { node := .mk k cs sp loc, parent, childIds := [] }) [] (next.push _ _)
    obtain ⟨new, listed, first⟩ := visitSlots_ids cs acc.size
      (acc.push { node := .mk k cs sp loc, parent, childIds := [] }) []
    rcases walked : visitSlots cs acc.size
      (acc.push { node := .mk k cs sp loc, parent, childIds := [] }) [] with ⟨after, ids⟩
    rw [walked] at children listed
    simp only [Node.visitInto, walked]
    refine children.modify fun i head => ?_
    simp only [List.append_nil] at listed
    subst listed
    simpa using first i head

theorem visitSlots_firstChildNext : ∀ (cs : List (Slot Node)) (me : Nat) (acc : Array Visit)
    (ids : List Nat), FirstChildNext acc → FirstChildNext (visitSlots cs me acc ids).1
  | [], _, _, _, next => next
  | .node c :: rest, me, acc, _, next =>
    visitSlots_firstChildNext rest me _ _ (Node.visitInto_firstChildNext c (some me) acc next)
  | .atom _ :: rest, me, acc, ids, next => visitSlots_firstChildNext rest me acc ids next

end

theorem Node.firstChildNext_walk (n : Node) : FirstChildNext n.walk :=
  Node.visitInto_firstChildNext n none #[] fun _ _ never => by simp at never

end RubyCheck.Tree
