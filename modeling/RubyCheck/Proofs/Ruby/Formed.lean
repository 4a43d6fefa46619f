import RubyCheck.Ruby.Lower
import RubyCheck.Proofs.Tree.Layout

/-!
# Well-formed concrete trees

**What the reader promises of the concrete trees it hands to the lowering.**

Every node's range is ordered, its children lie inside it and follow one another in document
order without overlap. The grammar adds facts about calls: a call's receiver, operator, method,
arguments and block come in that order, a receiver is always followed by an operator, and a block
opens with its `{` or `do` token (anonymous, held under no field) and holds its parameters before
its body. Nothing is assumed about where recovery nodes stand.

* `Cst.Formed`: the promise, at every node of a tree;
* `Cst.pairwise_children`: the children of a placed node are pairwise in order;
* `Cst.CallShaped.before`: the parts of a call in the grammar's order are pairwise in order.
-/

namespace RubyCheck.Ruby

open RubyCheck.Source

namespace Cst

/-! ### Induction and the nodes of a tree -/

/-- Induction over a concrete tree, each node from its children. -/
theorem childInduction {motive : Cst → Prop}
    (step : ∀ c, (∀ k ∈ c.children, motive k) → motive c) (c : Cst) : motive c :=
  step c fun k member => by
    obtain ⟨t, n, f, m, s, e, cs⟩ := c
    exact childInduction step k
termination_by sizeOf c
decreasing_by exact sizeOf_lt_of_mem_children member

mutual

/-- The nodes of a concrete tree, the root first, in pre-order. -/
def subtrees : Cst → List Cst
  | c@(.mk _ _ _ _ _ _ cs) => c :: subtreesOf cs

/-- The nodes of the trees of a list, in pre-order. -/
def subtreesOf : List Cst → List Cst
  | [] => []
  | c :: cs => c.subtrees ++ subtreesOf cs

end

theorem subtrees_eq (c : Cst) : c.subtrees = c :: c.children.flatMap subtrees := by
  obtain ⟨t, n, f, m, s, e, cs⟩ := c
  simp only [subtrees, children, List.cons.injEq, true_and]
  induction cs with
  | nil => rfl
  | cons k rest ih => simp [subtreesOf, ih]

theorem mem_subtrees_self (c : Cst) : c ∈ c.subtrees := by
  rw [subtrees_eq]
  exact List.mem_cons_self

theorem mem_subtrees_of_mem_children {c k : Cst} (child : k ∈ c.children) : k ∈ c.subtrees := by
  rw [subtrees_eq]
  exact List.mem_cons_of_mem _ (List.mem_flatMap.2 ⟨k, child, mem_subtrees_self k⟩)

theorem mem_subtrees_trans {c k x : Cst} (outer : k ∈ c.subtrees) (inner : x ∈ k.subtrees) :
    x ∈ c.subtrees := by
  induction c using childInduction with
  | step c ih =>
    rw [subtrees_eq] at outer
    rcases List.mem_cons.1 outer with rfl | below
    · exact inner
    · obtain ⟨j, child, k_in⟩ := List.mem_flatMap.1 below
      have x_in := ih j child k_in
      rw [subtrees_eq]
      exact List.mem_cons_of_mem _ (List.mem_flatMap.2 ⟨j, child, x_in⟩)

/-! ### The bounded views the lowering recurses on -/

@[simp] theorem map_val_subs (c : Cst) : c.subs.map Subtype.val = c.children := by
  obtain ⟨t, n, f, m, s, e, cs⟩ := c
  simp [subs, children, List.map_attach_eq_pmap]

@[simp] theorem map_val_namedSubs (c : Cst) : c.namedSubs.map Subtype.val = c.namedChildren := by
  rw [namedSubs, namedChildren, ← map_val_subs, List.filter_map]
  rfl

@[simp] theorem unattach_namedSubs (c : Cst) : c.namedSubs.unattach = c.namedChildren :=
  map_val_namedSubs c

@[simp] theorem map_val_fieldSub (c : Cst) (f : String) :
    (c.fieldSub f).map Subtype.val = c.childByField f := by
  rw [fieldSub, childByField, ← map_val_subs, List.find?_map]
  rfl

@[simp] theorem map_val_liftSubs {a c : Cst} (h : sizeOf a < sizeOf c)
    (ks : List { k : Cst // sizeOf k < sizeOf a }) :
    (liftSubs h ks).map Subtype.val = ks.map Subtype.val := by
  simp [liftSubs]

@[simp] theorem unattach_liftSubs {a c : Cst} (h : sizeOf a < sizeOf c)
    (ks : List { k : Cst // sizeOf k < sizeOf a }) : (liftSubs h ks).unattach = ks.unattach :=
  map_val_liftSubs h ks

theorem mem_children_of_childByField {c k : Cst} {f : String} (found : c.childByField f = some k) :
    k ∈ c.children :=
  List.mem_of_find?_eq_some found

theorem namedChildren_sublist (c : Cst) : c.namedChildren.Sublist c.children :=
  List.filter_sublist

/-! ### What the reader promises -/

/-- What the reader promises of every node: an ordered range, with the children inside it and in
document order. -/
structure Placed (c : Cst) : Prop where
  ordered : c.start ≤ c.stop
  inside : ∀ k ∈ c.children, c.start ≤ k.start ∧ k.stop ≤ c.stop
  sorted : c.children.IsChain fun a b => a.stop ≤ b.start

instance (c : Cst) : Decidable c.Placed :=
  decidable_of_iff (c.start ≤ c.stop ∧ (∀ k ∈ c.children, c.start ≤ k.start ∧ k.stop ≤ c.stop) ∧
      c.children.IsChain fun a b => a.stop ≤ b.start)
    ⟨fun ⟨o, i, s⟩ => ⟨o, i, s⟩, fun ⟨o, i, s⟩ => ⟨o, i, s⟩⟩

/-- The parts of a call in the grammar's order: receiver, operator, method, arguments, block. -/
def callParts (c : Cst) : List Cst :=
  [c.childByField "receiver", Lower.callOperator c, c.childByField "method",
    c.childByField "arguments", c.childByField "block"].filterMap id

/-- What the grammar fixes of a block: it opens with a token held under no field, and holds its
parameters before its body. -/
structure BlockShaped (blk : Cst) : Prop where
  opens : ∃ first ∈ blk.children.head?.toList, first.named = false ∧ first.field = none
  parameters_first : ∀ params ∈ (blk.childByField "parameters").toList,
    ∀ body ∈ (blk.childByField "body").toList, params.stop ≤ body.start

instance (blk : Cst) : Decidable blk.BlockShaped :=
  decidable_of_iff ((∃ first ∈ blk.children.head?.toList, first.named = false ∧
      first.field = none) ∧ ∀ params ∈ (blk.childByField "parameters").toList,
        ∀ body ∈ (blk.childByField "body").toList, params.stop ≤ body.start)
    ⟨fun ⟨o, p⟩ => ⟨o, p⟩, fun ⟨o, p⟩ => ⟨o, p⟩⟩

/-- What the grammar fixes of a call: its parts come in order, a receiver is followed by an
operator, and its block is shaped as blocks are. -/
structure CallShaped (c : Cst) : Prop where
  sorted : c.callParts.IsChain fun a b => a.stop ≤ b.start
  operator : (c.childByField "receiver").isSome = true → (Lower.callOperator c).isSome = true
  block : ∀ blk ∈ (c.childByField "block").toList, blk.BlockShaped

instance (c : Cst) : Decidable c.CallShaped :=
  decidable_of_iff ((c.callParts.IsChain fun a b => a.stop ≤ b.start) ∧
      ((c.childByField "receiver").isSome = true → (Lower.callOperator c).isSome = true) ∧
      ∀ blk ∈ (c.childByField "block").toList, blk.BlockShaped)
    ⟨fun ⟨s, o, b⟩ => ⟨s, o, b⟩, fun ⟨s, o, b⟩ => ⟨s, o, b⟩⟩

/-- A concrete tree as the reader gives it: every node placed, every call shaped as the grammar
has calls. -/
def Formed (root : Cst) : Prop :=
  ∀ c ∈ root.subtrees, c.Placed ∧ (c.type = "call" → c.CallShaped)

instance (root : Cst) : Decidable root.Formed :=
  inferInstanceAs (Decidable (∀ c ∈ root.subtrees, _))

theorem Formed.of_mem {root c : Cst} (formed : root.Formed) (member : c ∈ root.subtrees) :
    c.Formed :=
  fun x inner => formed x (mem_subtrees_trans member inner)

theorem Formed.placed {c : Cst} (formed : c.Formed) : c.Placed :=
  (formed c (mem_subtrees_self c)).1

theorem Formed.child {c k : Cst} (formed : c.Formed) (child : k ∈ c.children) : k.Formed :=
  formed.of_mem (mem_subtrees_of_mem_children child)

/-! ### Order among children -/

/-- A chain of ordered ranges is in order pairwise. -/
theorem pairwise_of_isChain : ∀ {l : List Cst}, (∀ k ∈ l, k.start ≤ k.stop) →
    l.IsChain (fun a b => a.stop ≤ b.start) → l.Pairwise fun a b => a.stop ≤ b.start
  | [], _, _ => List.Pairwise.nil
  | [_], _, _ => List.pairwise_singleton _ _
  | a :: b :: rest, ordered, chain => by
    rw [List.isChain_cons_cons] at chain
    have tail := pairwise_of_isChain (fun k member => ordered k (List.mem_cons_of_mem _ member))
      chain.2
    refine List.Pairwise.cons (fun k member => ?_) tail
    rcases List.mem_cons.1 member with rfl | later
    · exact chain.1
    · have bk := List.rel_of_pairwise_cons tail later
      have bb := ordered b (by simp)
      omega

/-- The children of a well-formed node are pairwise in document order. -/
theorem Formed.pairwise_children {c : Cst} (formed : c.Formed) :
    c.children.Pairwise fun a b => a.stop ≤ b.start :=
  pairwise_of_isChain (fun _ child => (formed.child child).placed.ordered) formed.placed.sorted

theorem Formed.pairwise_namedChildren {c : Cst} (formed : c.Formed) :
    c.namedChildren.Pairwise fun a b => a.stop ≤ b.start :=
  formed.pairwise_children.sublist c.namedChildren_sublist

theorem Formed.inside {c k : Cst} (formed : c.Formed) (child : k ∈ c.children) :
    c.start ≤ k.start ∧ k.stop ≤ c.stop :=
  formed.placed.inside k child

/-- The span of a node with an ordered range is its range. -/
theorem span_eq {c : Cst} (ordered : c.start ≤ c.stop) :
    c.span = { start := c.start, stop := c.stop, ordered } := by
  simp [span, spanBetween, ordered]

theorem Formed.span_eq {c : Cst} (formed : c.Formed) :
    c.span = { start := c.start, stop := c.stop, ordered := formed.placed.ordered } :=
  Cst.span_eq formed.placed.ordered

theorem Formed.span_start {c : Cst} (formed : c.Formed) : c.span.start = c.start := by
  rw [formed.span_eq]

theorem Formed.span_stop {c : Cst} (formed : c.Formed) : c.span.stop = c.stop := by
  rw [formed.span_eq]

/-! ### Offsets and errors below a node -/

/-- Every offset of a concrete tree is one `ends` admits. -/
def OffsetsIn (ends : Nat → Prop) (c : Cst) : Prop := ∀ x ∈ c.subtrees, ends x.start ∧ ends x.stop

theorem OffsetsIn.of_mem {ends : Nat → Prop} {c x : Cst} (offsets : c.OffsetsIn ends)
    (member : x ∈ c.subtrees) : x.OffsetsIn ends :=
  fun y inner => offsets y (mem_subtrees_trans member inner)

theorem OffsetsIn.child {ends : Nat → Prop} {c k : Cst} (offsets : c.OffsetsIn ends)
    (child : k ∈ c.children) : k.OffsetsIn ends :=
  offsets.of_mem (mem_subtrees_of_mem_children child)

theorem OffsetsIn.self {ends : Nat → Prop} {c : Cst} (offsets : c.OffsetsIn ends) :
    ends c.start ∧ ends c.stop :=
  offsets c (mem_subtrees_self c)

theorem anyError_eq_false {cs : List Cst} : anyError cs = false ↔ ∀ k ∈ cs, k.hasError = false := by
  induction cs with
  | nil => simp [anyError]
  | cons k rest ih => simp [anyError, ih]

theorem hasError_eq_false {c : Cst} : c.hasError = false ↔
    c.isError = false ∧ c.missing = false ∧ ∀ k ∈ c.children, k.hasError = false := by
  obtain ⟨t, n, f, m, s, e, cs⟩ := c
  simp [hasError, isError, missing, children, anyError_eq_false, type, and_assoc]

/-- A tree without errors has none below. -/
theorem hasError_of_mem_subtrees {c x : Cst} (clean : c.hasError = false) (member : x ∈ c.subtrees) :
    x.hasError = false := by
  induction c using childInduction with
  | step c ih =>
    rw [subtrees_eq] at member
    rcases List.mem_cons.1 member with rfl | below
    · exact clean
    · obtain ⟨k, child, x_in⟩ := List.mem_flatMap.1 below
      exact ih k child ((hasError_eq_false.1 clean).2.2 k child) x_in

theorem sizeOf_lt_of_child {c k : Cst} (child : k ∈ c.children) : sizeOf k < sizeOf c := by
  obtain ⟨t, n, f, m, s, e, cs⟩ := c
  exact sizeOf_lt_of_mem_children child

theorem sizeOf_lt_of_mem_subtrees {c x : Cst} (member : x ∈ c.subtrees) (other : x ≠ c) :
    sizeOf x < sizeOf c := by
  induction c using childInduction with
  | step c ih =>
    rw [subtrees_eq] at member
    rcases List.mem_cons.1 member with rfl | below
    · exact absurd rfl other
    · obtain ⟨k, child, x_in⟩ := List.mem_flatMap.1 below
      have outer := sizeOf_lt_of_child child
      by_cases same : x = k
      · exact same ▸ outer
      · exact Nat.lt_trans (ih k child x_in same) outer

/-- A node below a child of a node is below the node, and not the node itself. -/
theorem below_of_mem_children {c k x : Cst} (child : k ∈ c.children) (member : x ∈ k.subtrees) :
    x ∈ c.subtrees ∧ x ≠ c := by
  refine ⟨mem_subtrees_trans (mem_subtrees_of_mem_children child) member, fun same => ?_⟩
  have outer := sizeOf_lt_of_child child
  by_cases top : x = k
  · subst top
    exact absurd (same ▸ outer) (Nat.lt_irrefl _)
  · have inner := sizeOf_lt_of_mem_subtrees member top
    subst same
    omega

/-- Induction over a concrete tree, each node from every node below it. -/
theorem subtreeInduction {motive : Cst → Prop}
    (step : ∀ c, (∀ x ∈ c.subtrees, x ≠ c → motive x) → motive c) (c : Cst) : motive c :=
  step c fun x _ _ => subtreeInduction step x
termination_by sizeOf c
decreasing_by exact sizeOf_lt_of_mem_subtrees ‹_› ‹_›

/-! ### The parts of a call and the opening of a block -/

theorem callOperator_mem {c o : Cst} (found : Lower.callOperator c = some o) : o ∈ c.children :=
  List.mem_of_find?_eq_some found

theorem mem_callParts {c x : Cst} (member : x ∈ c.callParts) : x ∈ c.children := by
  simp only [callParts, List.filterMap_cons, List.filterMap_nil, id] at member
  repeat' split at member
  all_goals first
    | exact absurd member List.not_mem_nil
    | (simp only [List.mem_cons, List.mem_nil_iff, or_false] at member
       rcases member with rfl | rfl | rfl | rfl | rfl <;>
         first
           | exact mem_children_of_childByField ‹_›
           | exact callOperator_mem ‹_›)

/-- The parts of a well-formed call, in the grammar's order, are pairwise in document order. -/
theorem CallShaped.pairwise {c : Cst} (shaped : c.CallShaped) (formed : c.Formed) :
    c.callParts.Pairwise fun a b => a.stop ≤ b.start :=
  pairwise_of_isChain (fun _ member => (formed.child (mem_callParts member)).placed.ordered)
    shaped.sorted

/-- Of two parts of a call in the grammar's order, the earlier ends before the later starts. -/
theorem CallShaped.before {c x y : Cst} (shaped : c.CallShaped) (formed : c.Formed)
    (pair : [x, y].Sublist c.callParts) : x.stop ≤ y.start := by
  have := (shaped.pairwise formed).sublist pair
  simpa using this

/-- Two present parts of a call, the first in an earlier slot, come in that order among the
parts. -/
theorem pair_sublist_filterMap {x y : Cst} (pre mid post : List (Option Cst)) :
    [x, y].Sublist ((pre ++ some x :: (mid ++ some y :: post)).filterMap id) := by
  simp only [List.filterMap_append, List.filterMap_cons, id]
  exact List.sublist_append_of_sublist_right (List.Sublist.cons_cons x
    (List.sublist_append_of_sublist_right (List.Sublist.cons_cons y (List.nil_sublist _))))

/-- A block's children come after its opening token. -/
theorem BlockShaped.opening {blk : Cst} (shaped : blk.BlockShaped) :
    ∃ first rest, blk.children = first :: rest ∧ first.named = false ∧ first.field = none := by
  obtain ⟨first, member, anonymous, fieldless⟩ := shaped.opens
  cases found : blk.children with
  | nil => simp [found] at member
  | cons head rest =>
    rw [found] at member
    simp only [List.head?_cons, Option.toList_some, List.mem_singleton] at member
    exact ⟨head, rest, rfl, member ▸ anonymous, member ▸ fieldless⟩

end Cst

end RubyCheck.Ruby
