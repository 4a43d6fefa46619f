import RubyCheck.Proofs.Ruby.Formed

/-!
# What lowering a node gives

**The vocabulary of the lowering's correctness: steps that meet a postcondition, and trees that
are faithful to their text.**

A lowering step *meets* a postcondition when, from every list of messages, its value satisfies
it, and it adds no message when the node it lowers holds no error. A tree is *faithful* to the
buffer when it is laid over the text, each call's method name is the text of its selector, and
every offset it holds is one a given predicate admits (the ends of concrete nodes, 0 and the
buffer's size). A tree is *lowered* from a concrete node when it is faithful and lies inside the
node's range.

* `Meets.bind`, `Meets.mapM`: steps compose, a list of steps meets the pointwise postcondition;
* `Faithful.build`: a node is faithful when its own facts hold and its node children are faithful;
* `lowered_of_items`: a node over the lowered named children of a concrete node is lowered from it;
* `sequence_faithful`: the node for a list of statements in order is faithful and lies within
  any range that holds their concrete nodes.
-/

namespace RubyCheck.Ruby.Lower

open RubyCheck.Source RubyCheck.Tree

/-! ### Steps that meet a postcondition -/

/-- A lowering step whose value meets `post` from every list of messages, and which adds no
message when `quiet` holds. -/
def Meets {α : Type} (x : Lowering α) (post : α → Prop) (quiet : Prop) : Prop :=
  ∀ msgs, post (x.run msgs).1 ∧ (quiet → (x.run msgs).2 = msgs)

section Meets

variable {α β γ : Type} {post : α → Prop} {quiet : Prop}

theorem Meets.pure {a : α} (holds : post a) : Meets (Pure.pure a) post quiet :=
  fun _ => ⟨holds, fun _ => rfl⟩

theorem Meets.bind {x : Lowering α} {f : α → Lowering β} {next : β → Prop}
    (first : Meets x post quiet) (second : ∀ a, post a → Meets (f a) next quiet) :
    Meets (x >>= f) next quiet := by
  intro msgs
  obtain ⟨holds, kept⟩ := first msgs
  obtain ⟨holds', kept'⟩ := second _ holds (x.run msgs).2
  exact ⟨holds', fun q => (kept' q).trans (kept q)⟩

theorem Meets.map {x : Lowering α} {f : α → β} {next : β → Prop}
    (first : Meets x post quiet) (image : ∀ a, post a → next (f a)) :
    Meets (f <$> x) next quiet := by
  intro msgs
  obtain ⟨holds, kept⟩ := first msgs
  exact ⟨image _ holds, kept⟩

theorem Meets.mono {x : Lowering α} {post' : α → Prop} (meets : Meets x post quiet)
    (imp : ∀ a, post a → post' a) : Meets x post' quiet :=
  fun msgs => ⟨imp _ (meets msgs).1, (meets msgs).2⟩

theorem Meets.weaken {x : Lowering α} {quiet' : Prop} (meets : Meets x post quiet)
    (stronger : quiet' → quiet) : Meets x post quiet' :=
  fun msgs => ⟨(meets msgs).1, fun q => (meets msgs).2 (stronger q)⟩

/-- A list of steps, each meeting its postcondition, meets them pointwise. -/
theorem Meets.mapM {f : γ → Lowering α} {post : γ → α → Prop} :
    ∀ {xs : List γ}, (∀ x ∈ xs, Meets (f x) (post x) quiet) →
      Meets (xs.mapM f) (List.Forall₂ post xs) quiet
  | [], _ => Meets.pure List.Forall₂.nil
  | x :: rest, each => by
    rw [List.mapM_cons]
    exact (each x List.mem_cons_self).bind fun a holds =>
      (Meets.mapM fun y member => each y (List.mem_cons_of_mem _ member)).bind fun as holds' =>
        Meets.pure (List.Forall₂.cons holds holds')

/-- Every step meets the empty postcondition when nothing is asked of its messages. -/
theorem Meets.any (x : Lowering α) : Meets x (fun _ => True) False :=
  fun _ => ⟨trivial, False.elim⟩

theorem Meets.report (b : Buffer) (c : Cst) : Meets (Lower.report b c) (fun _ => True) False :=
  Meets.any _

end Meets

/-! ### Shapes the lowering builds -/

section Shapes

@[simp] theorem part_node (n : Node) : (Slot.node n).part = .node n.kind := rfl

@[simp] theorem part_atom (a : Atom) : (Slot.atom a : Slot Node).part = .atom a := rfl

theorem requireNodes_nodes (k : Kind) (ns : List Node) :
    requireNodes k (ns.map (Slot.part ∘ Slot.node)) = none := by
  induction ns with
  | nil => rfl
  | cons n rest ih => simpa [requireNodes] using ih

/-- Arrays, hashes, sequences and `mlhs` nodes of node children pass their shape check. -/
theorem shapeCheck_nodes {k : Kind} (plain : k = .array ∨ k = .hash ∨ k = .begin ∨ k = .mlhs)
    (ns : List Node) : shapeCheck k ((ns.map Slot.node).map Slot.part) = none := by
  have nodes := requireNodes_nodes k ns
  rw [List.map_map]
  -- no bounds on the count; the rule asks for nodes, and there is none to ask of an empty list
  rcases plain with rfl | rfl | rfl | rfl <;> cases ns <;> first | rfl | exact nodes

theorem shapeCheck_other (t : String) (ns : List Node) :
    shapeCheck .other ((.atom (.text t) :: ns.map Slot.node).map Slot.part) = none := by
  rw [List.map_cons, List.map_map]
  exact requireNodes_nodes .other ns

/-- A kind that holds a text passes its shape check with one text child. -/
theorem shapeCheck_text {k : Kind} (text : k.holdsText = true) (s : String) :
    shapeCheck k ([Slot.atom (.text s)].map Slot.part) = none := by
  cases k <;> first | rfl | cases text

theorem shapeCheck_leaf {k : Kind} (plain : k = .nil ∨ k = .true ∨ k = .false ∨ k = .self) :
    shapeCheck k [] = none := by
  rcases plain with rfl | rfl | rfl | rfl <;> rfl

theorem shapeCheck_const (scope : Slot Node) (nothing : scope.part.isNodeOrNothing = true)
    (s : String) : shapeCheck .const ([scope, .atom (.text s)].map Slot.part) = none := by
  simp only [List.map_cons, List.map_nil, shapeCheck, shapeFailure, nothing]
  rfl

theorem shapeCheck_send {k : Kind} (call : k = .send ∨ k = .csend) (receiver : Slot Node)
    (nothing : receiver.part.isNodeOrNothing = true) (s : String) (ns : List Node) :
    shapeCheck k (([receiver, .atom (.text s)] ++ ns.map Slot.node).map Slot.part) = none := by
  rw [List.map_append, List.map_map]
  rcases call with rfl | rfl <;>
    simp only [List.map_cons, List.map_nil, List.cons_append, List.nil_append, shapeCheck,
      shapeFailure, nothing] <;> exact requireNodes_nodes _ ns

theorem shapeCheck_block {send params : Node} (call : send.kind.isCall = true)
    (args : params.kind = .args) (body : Slot Node) (nothing : body.part.isNodeOrNothing = true) :
    shapeCheck .block ([.node send, .node params, body].map Slot.part) = none := by
  simp only [List.map_cons, List.map_nil, shapeCheck, shapeFailure, part_node, call, args,
    nothing]
  rfl

theorem shapeCheck_numblock {send : Node} (call : send.kind.isCall = true) {arity : Nat}
    (least : 1 ≤ arity) (most : arity ≤ 9) (body : Slot Node)
    (nothing : body.part.isNodeOrNothing = true) :
    shapeCheck .numblock ([.node send, .atom (.int arity), body].map Slot.part) = none := by
  have arity : (Part.atom (.int arity)).isArity = true := by
    simp [Part.isArity, least, most]
  simp only [List.map_cons, List.map_nil, shapeCheck, shapeFailure, part_node, part_atom, call,
    arity, nothing]
  rfl

theorem shapeCheck_args (ns : List Node)
    (arguments : ∀ n ∈ ns, n.kind.isParameter = true ∨ n.kind = .mlhs) :
    shapeCheck .args ((ns.map Slot.node).map Slot.part) = none := by
  have all : ((ns.map Slot.node).map Slot.part).all Part.isParameter = true := by
    rw [List.map_map, List.all_map, List.all_eq_true]
    intro n member
    rcases arguments n member with parameter | mlhs
    · simp [Part.isParameter, parameter]
    · simp [Part.isParameter, mlhs]
  simp only [shapeCheck, shapeFailure, all]
  rfl

theorem isNodeOrNothing_slotOf (n : Option Node) : (slotOf n).part.isNodeOrNothing = true := by
  cases n <;> rfl

end Shapes

/-! ### Faithful trees -/

section Faithful

variable (b : Buffer) (ends : Nat → Prop)

/-- A call's method name is the text of its selector. -/
def SelectorNamed (m : Node) : Prop := ∀ s, m.selector = some s → m.textAt 1 = b.slice s

/-- Every offset of a node, of its span and of its named sub-spans, is one `ends` admits. -/
def EndsIn (m : Node) : Prop :=
  ends m.span.start ∧ ends m.span.stop ∧ ∀ l ∈ m.loc, ends l.2.start ∧ ends l.2.stop

/-- A tree faithful to the buffer: laid over the text, each call named by its selector's text,
each offset one that `ends` admits. -/
structure Faithful (n : Node) : Prop where
  laid : n.Laid
  named : ∀ m ∈ n.nodes, SelectorNamed b m
  ends : ∀ m ∈ n.nodes, EndsIn ends m

/-- A tree lowered from a concrete node: faithful, inside the node's range. -/
structure Lowered (c : Cst) (n : Node) : Prop where
  start_le : c.start ≤ n.span.start
  stop_le : n.span.stop ≤ c.stop
  faithful : Faithful b ends n

variable {b ends}

/-- A node is faithful when its shape, arrangement, selector and offsets are, and its node
children are faithful. -/
theorem Faithful.build {n : Node} (shape : shapeCheck n.kind (n.children.map Slot.part) = none)
    (arranged : n.Arranged) (placed : n.SelectorPlaced) (named : SelectorNamed b n)
    (offsets : EndsIn ends n) (children : ∀ c ∈ n.childNodes, Faithful b ends c) :
    Faithful b ends n := by
  -- a node of the tree is the root itself or a node of one of its node children
  have cases : ∀ {P : Node → Prop}, P n → (∀ c ∈ n.childNodes, ∀ m ∈ c.nodes, P m) →
      ∀ m ∈ n.nodes, P m := by
    intro P root below m member
    rw [Node.nodes_eq] at member
    rcases List.mem_cons.1 member with rfl | inner
    · exact root
    · obtain ⟨c, child, m_in⟩ := List.mem_flatMap.1 inner
      exact below c child m m_in
  refine ⟨⟨cases (P := fun m => shapeCheck m.kind (m.children.map Slot.part) = none) shape
      fun c child => (children c child).laid.valid, cases arranged fun c child =>
        (children c child).laid.arranged, cases placed fun c child => (children c child).laid.placed⟩,
    cases named fun c child => (children c child).named,
    cases offsets fun c child => (children c child).ends⟩

/-- A node without named sub-spans is faithful when its shape, arrangement and span are, and its
node children are faithful. -/
theorem Faithful.plain {k : Kind} {cs : List (Slot Node)} {sp : Span}
    (shape : shapeCheck k (cs.map Slot.part) = none) (arranged : (Node.mk k cs sp []).Arranged)
    (start : ends sp.start) (stop : ends sp.stop)
    (children : ∀ c ∈ (Node.mk k cs sp []).childNodes, Faithful b ends c) :
    Faithful b ends (.mk k cs sp []) :=
  Faithful.build shape arranged
    (fun _ s found => by simp [Node.selector, Node.locAt, Node.loc] at found)
    (fun s found => by simp [Node.selector, Node.locAt, Node.loc] at found)
    ⟨start, stop, fun l member => by simp [Node.loc] at member⟩ children

end Faithful

/-! ### Nodes over lowered children -/

section Children

variable {b : Buffer} {ends : Nat → Prop}

theorem exists_of_forall₂ {α β : Type} {R : α → β → Prop} : ∀ {ks : List α} {ns : List β},
    List.Forall₂ R ks ns → ∀ n ∈ ns, ∃ k ∈ ks, R k n
  | _, _, .nil => fun _ member => absurd member List.not_mem_nil
  | _, _, .cons first rest => fun n member => by
    rcases List.mem_cons.1 member with rfl | later
    · exact ⟨_, List.mem_cons_self, first⟩
    · obtain ⟨k, k_in, related⟩ := exists_of_forall₂ rest n later
      exact ⟨k, List.mem_cons_of_mem _ k_in, related⟩

theorem exists_of_forall₂_left {α β : Type} {R : α → β → Prop} {ks : List α} {ns : List β}
    (related : List.Forall₂ R ks ns) : ∀ k ∈ ks, ∃ n ∈ ns, R k n :=
  exists_of_forall₂ (R := flip R) (List.Forall₂.flip related)

/-- Lowered trees keep the order of the concrete nodes they come from. -/
theorem Lowered.pairwise : ∀ {ks : List Cst} {ns : List Node},
    List.Forall₂ (Lowered b ends) ks ns → (ks.Pairwise fun a b => a.stop ≤ b.start) →
      ns.Pairwise fun a b => a.span.stop ≤ b.span.start
  | _, _, .nil, _ => List.Pairwise.nil
  | _, _, .cons first rest, sorted => by
    rw [List.pairwise_cons] at sorted ⊢
    refine ⟨fun n member => ?_, Lowered.pairwise rest sorted.2⟩
    obtain ⟨k, k_in, lowered⟩ := exists_of_forall₂ rest n member
    have before := sorted.1 k k_in
    have := first.stop_le
    have := lowered.start_le
    omega

@[simp] theorem childNodes_atoms_nodes (k : Kind) (head : List Atom) (ns : List Node) (sp : Span)
    (loc : List (String × Span)) :
    (Node.mk k (head.map Slot.atom ++ ns.map Slot.node) sp loc).childNodes = ns := by
  simp [Node.childNodes, Node.children, List.filterMap_append, List.filterMap_map]

@[simp] theorem childNodes_nodes (k : Kind) (ns : List Node) (sp : Span)
    (loc : List (String × Span)) : (Node.mk k (ns.map Slot.node) sp loc).childNodes = ns := by
  simpa using childNodes_atoms_nodes k [] ns sp loc

/-- A node over lowered children of a concrete node (in order, after some atoms) is lowered from
that node when its kind's shape admits it. -/
theorem lowered_of_items {c : Cst} (formed : c.Formed) (offsets : ends c.start ∧ ends c.stop)
    {k : Kind} (head : List Atom) {ks : List Cst} {items : List Node} (sub : ks.Sublist c.children)
    (lowered : List.Forall₂ (Lowered b ends) ks items)
    (shape : shapeCheck k ((head.map Slot.atom ++ items.map Slot.node).map Slot.part) = none) :
    Lowered b ends c (.mk k (head.map Slot.atom ++ items.map Slot.node) c.span []) := by
  refine ⟨(formed.span_start).ge, (formed.span_stop).le, Faithful.plain shape ⟨fun n member => ?_, ?_⟩
    (formed.span_start ▸ offsets.1) (formed.span_stop ▸ offsets.2) fun n member => ?_⟩
  · rw [childNodes_atoms_nodes] at member
    obtain ⟨j, j_in, inside⟩ := exists_of_forall₂ lowered n member
    have bounds := formed.inside (sub.subset j_in)
    have := inside.start_le
    have := inside.stop_le
    rw [Span.contains_iff]
    simp only [Node.span.eq_1, formed.span_start, formed.span_stop]
    omega
  · rw [childNodes_atoms_nodes]
    exact Or.inl (Lowered.pairwise lowered (formed.pairwise_children.sublist sub))
  · rw [childNodes_atoms_nodes] at member
    obtain ⟨j, -, inside⟩ := exists_of_forall₂ lowered n member
    exact inside.faithful

/-- A node whose children are atoms only is lowered from a concrete node it spans, when its kind's
shape admits it. -/
theorem lowered_leaf {c : Cst} (formed : c.Formed) (offsets : ends c.start ∧ ends c.stop)
    {k : Kind} (head : List Atom) (shape : shapeCheck k (head.map (Slot.part ∘ Slot.atom)) = none) :
    Lowered b ends c (.mk k (head.map Slot.atom) c.span []) := by
  simpa using lowered_of_items formed offsets head (List.nil_sublist _)
    (List.Forall₂.nil (R := Lowered b ends)) (by simpa using shape)

end Children

section Sequence

variable {b : Buffer} {ends : Nat → Prop}

/-! ### Statements in sequence -/

@[simp] theorem spanBetween_start (a b : Nat) : (spanBetween a b).start = a := by
  unfold spanBetween
  split <;> rfl

@[simp] theorem spanBetween_stop (a b : Nat) : (spanBetween a b).stop = max a b := by
  unfold spanBetween
  split <;> simp [Span.point] <;> omega

/-- Each of ranges in document order lies between the first one's start and the last one's end. -/
theorem between_first_last {α : Type} {lo hi : α → Nat} {first : α} {rest : List α}
    (ordered : ∀ x ∈ first :: rest, lo x ≤ hi x)
    (sorted : (first :: rest).Pairwise fun a b => hi a ≤ lo b) :
    ∀ x ∈ first :: rest, lo first ≤ lo x ∧
      hi x ≤ hi ((first :: rest).getLast (List.cons_ne_nil _ _)) := by
  intro x member
  have whole := List.dropLast_append_getLast (List.cons_ne_nil first rest)
  have last_in := List.getLast_mem (List.cons_ne_nil first rest)
  refine ⟨?_, ?_⟩
  · rcases List.mem_cons.1 member with rfl | later
    · exact Nat.le_refl _
    · have := List.rel_of_pairwise_cons sorted later
      have := ordered x member
      have := ordered first List.mem_cons_self
      omega
  · rw [← whole] at member sorted
    rcases List.mem_append.1 member with early | last
    · have := (List.pairwise_append.1 sorted).2.2 x early _ (List.mem_singleton_self _)
      have := ordered _ last_in
      have := ordered x (whole ▸ List.mem_append_left _ early)
      omega
    · rw [List.mem_singleton.1 last]

/-- The node for statements starts where the first statement or its concrete node does. -/
theorem sequence_cons (k : Cst) (ks : List Cst) (first : Node) (rest : List Node) :
    ∃ n, sequence (k :: ks) (first :: rest) = some n ∧
      (n.span.start = first.span.start ∨ n.span.start = k.start) := by
  cases rest with
  | nil => exact ⟨first, rfl, .inl rfl⟩
  | cons second rest => exact ⟨_, rfl, .inr (spanBetween_start _ _)⟩

/-- **The node for statements in document order**, lowered from concrete nodes in document
order, is faithful, and lies within every range that holds all the concrete nodes. -/
theorem sequence_faithful {ks : List Cst} {ns : List Node}
    (lowered : List.Forall₂ (Lowered b ends) ks ns) (ordered : ∀ k ∈ ks, k.start ≤ k.stop)
    (sorted : ks.Pairwise fun a b => a.stop ≤ b.start)
    (offsets : ∀ k ∈ ks, ends k.start ∧ ends k.stop) {n : Node}
    (built : sequence ks ns = some n) :
    Faithful b ends n ∧ ∀ lo hi, (∀ k ∈ ks, lo ≤ k.start ∧ k.stop ≤ hi) →
      lo ≤ n.span.start ∧ n.span.stop ≤ hi := by
  cases lowered with
  | nil => cases built
  | @cons k x ks' ns' low rest =>
    cases rest with
    | nil =>
      -- one statement is its own node, inside its concrete node
      obtain rfl : x = n := Option.some.inj built
      refine ⟨low.faithful, fun lo hi inside => ?_⟩
      have := inside k List.mem_cons_self
      have := low.start_le
      have := low.stop_le
      omega
    | @cons k' y ks'' ns'' low' rest' =>
      obtain rfl := Option.some.inj built
      -- the begin node runs from the first concrete node's start to the last one's end
      have lowered := List.Forall₂.cons low (List.Forall₂.cons low' rest')
      have bounds := between_first_last ordered sorted
      have last_in := List.getLast_mem (List.cons_ne_nil k (k' :: ks''))
      have reach : k.start ≤ ((k :: k' :: ks'').getLast (List.cons_ne_nil _ _)).stop :=
        Nat.le_trans (ordered k List.mem_cons_self) (bounds k List.mem_cons_self).2
      rw [List.head?_cons, Option.getD_some,
        List.getLast?_eq_some_getLast (List.cons_ne_nil _ _), Option.getD_some]
      refine ⟨Faithful.plain (shapeCheck_nodes (Or.inr (Or.inr (Or.inl rfl))) _)
        ⟨fun z member => ?_, ?_⟩ ?_ ?_ fun z member => ?_, fun lo hi inside => ?_⟩
      · rw [childNodes_nodes] at member
        obtain ⟨j, j_in, inner⟩ := exists_of_forall₂ lowered z member
        have := bounds j j_in
        have := inner.start_le
        have := inner.stop_le
        rw [Span.contains_iff]
        simp only [Node.span.eq_1, spanBetween_start, spanBetween_stop]
        omega
      · rw [childNodes_nodes]
        exact Or.inl (Lowered.pairwise lowered sorted)
      · rw [spanBetween_start]
        exact (offsets k List.mem_cons_self).1
      · rw [spanBetween_stop, Nat.max_eq_right reach]
        exact (offsets _ last_in).2
      · rw [childNodes_nodes] at member
        obtain ⟨j, -, inner⟩ := exists_of_forall₂ lowered z member
        exact inner.faithful
      · have := inside k List.mem_cons_self
        have := inside _ last_in
        simp only [Node.span.eq_1, spanBetween_start, spanBetween_stop]
        omega

end Sequence

end RubyCheck.Ruby.Lower
