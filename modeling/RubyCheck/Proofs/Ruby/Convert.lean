import RubyCheck.Proofs.Ruby.Parameters

/-!
# Lowering a concrete tree

**Every node the lowering builds from a well-formed concrete tree is faithful to the text.**

The lowering of a concrete node gives a tree inside the node's range, whose nodes pass their
shape checks, nest, follow one another in document order (a block's body apart), name their
calls by their selectors' text and hold only offsets of the concrete tree. It adds a message only
for a tree that holds an error.

* `convertCall_eq`: a call lowers its receiver, then its arguments, then builds the send and the
  block around it;
* `convert_meets`: the lowering of every well-formed node meets `Lowered`.
-/

namespace RubyCheck.Ruby.Lower

open RubyCheck.Source RubyCheck.Tree

/-! ### A call, step by step -/

/-- An optional child, lowered. -/
def lowerOption (b : Buffer) (ancestors : List Cst) : Option Cst → Lowering (Option Node)
  | some k => some <$> convert b ancestors k
  | none => pure none

/-- The named children of a call's arguments node, lowered. -/
def lowerArguments (b : Buffer) (ancestors : List Cst) : Option Cst → Lowering (List Node)
  | some a => a.namedChildren.mapM (convert b (a :: ancestors))
  | none => pure []

/-- Where a call's send ends: at its arguments, else at its method name, else at its operator,
else where the call starts. -/
def sendStop (c : Cst) : Nat :=
  match c.childByField "arguments", c.childByField "method", callOperator c with
  | some a, _, _ => a.stop
  | none, some m, _ => m.stop
  | none, none, some o => o.stop
  | none, none, none => c.start

/-- The send a call lowers to, from its lowered receiver and arguments. -/
def sendOf (b : Buffer) (c : Cst) (receiver : Option Node) (args : List Node) : Node :=
  .mk (if ((callOperator c).map (·.type)) == some "&." then .csend else .send)
    ([slotOf receiver, .atom (.text (match c.childByField "method" with
      | some m => text b m
      | none => "call"))] ++ args.map .node)
    (spanBetween c.start (sendStop c))
    ((match c.childByField "method" with
      | some m => [("selector", m.span)]
      | none => []) ++
    (match callOperator c with
      | some o => [("dot", o.span)]
      | none => []))

/-- A call lowers its receiver, then its arguments, then builds the send and the block around
it. -/
theorem convertCall_eq (b : Buffer) (ancestors : List Cst) (c : Cst) :
    convertCall b ancestors c = (do
      let receiver ← lowerOption b (c :: ancestors) (c.childByField "receiver")
      let args ← lowerArguments b (c :: ancestors) (c.childByField "arguments")
      match c.childByField "block" with
      | none => pure (sendOf b c receiver args)
      | some blk => do
        let raw := (blockStatements blk).map Subtype.val
        let statements ← raw.mapM (convert b (blk :: c :: ancestors))
        pure (blockNode b c blk (sendOf b c receiver args) ancestors statements raw)) := by
  rw [convertCall]
  unfold sendOf sendStop
  rw [← Cst.map_val_fieldSub c "receiver", ← Cst.map_val_fieldSub c "arguments",
    ← Cst.map_val_fieldSub c "block"]
  cases c.fieldSub "receiver" <;> cases c.fieldSub "block" <;> cases c.fieldSub "arguments" <;>
    simp only [Option.map, lowerOption, lowerArguments, liftSubs, ← Cst.map_val_namedSubs,
      List.mapM_map, Function.comp_def, List.map_map]
  -- the two sides spell the send's end by different matches, which agree once the method name
  -- and the operator are known
  all_goals cases c.childByField "method" <;> cases callOperator c <;> rfl

/-! ### Where a send ends -/

section SendStop

variable {c : Cst} (formed : c.Formed) (shaped : c.CallShaped)

theorem sendStop_le_stop (formed : c.Formed) : sendStop c ≤ c.stop := by
  unfold sendStop
  split
  · exact (formed.inside (Cst.mem_children_of_childByField ‹_›)).2
  · exact (formed.inside (Cst.mem_children_of_childByField ‹_›)).2
  · exact (formed.inside (Cst.callOperator_mem ‹_›)).2
  · exact formed.placed.ordered

include formed shaped

theorem sendStop_le_block {blk : Cst} (found : c.childByField "block" = some blk) :
    sendStop c ≤ blk.start := by
  unfold sendStop
  split <;> rename_i found'
  · exact shaped.before formed (by
      rw [Cst.callParts, found, found']
      exact Cst.pair_sublist_filterMap [_, _, _] [] [])
  · exact shaped.before formed (by
      rw [Cst.callParts, found, found']
      exact Cst.pair_sublist_filterMap [_, _] [_] [])
  · exact shaped.before formed (by
      rw [Cst.callParts, found, found']
      exact Cst.pair_sublist_filterMap [_] [_, _] [])
  · exact (formed.inside (Cst.mem_children_of_childByField found)).1

theorem stop_le_sendStop_of_receiver {r : Cst} (found : c.childByField "receiver" = some r) :
    r.stop ≤ sendStop c := by
  have operator := shaped.operator (by simp [found])
  obtain ⟨o, foundOperator⟩ := Option.isSome_iff_exists.1 operator
  have ordered := fun k (member : k ∈ c.children) => (formed.child member).placed.ordered
  unfold sendStop
  split
  · rename_i a found'
    have := shaped.before formed (x := r) (y := a) (by
      rw [Cst.callParts, found, found']
      exact Cst.pair_sublist_filterMap [] [_, _] [_])
    have := ordered a (Cst.mem_children_of_childByField found')
    omega
  · rename_i m _ found'
    have := shaped.before formed (x := r) (y := m) (by
      rw [Cst.callParts, found, found']
      exact Cst.pair_sublist_filterMap [] [_] [_, _])
    have := ordered m (Cst.mem_children_of_childByField found')
    omega
  · rename_i o' _ _ found'
    have := shaped.before formed (x := r) (y := o') (by
      rw [Cst.callParts, found, found']
      exact Cst.pair_sublist_filterMap [] [] [_, _, _])
    have := ordered o' (Cst.callOperator_mem found')
    omega
  · rename_i _ _ none'
    rw [foundOperator] at none'
    cases none'

theorem stop_le_sendStop_of_method {m : Cst} (found : c.childByField "method" = some m) :
    m.stop ≤ sendStop c := by
  unfold sendStop
  split
  · rename_i a found'
    have := shaped.before formed (x := m) (y := a) (by
      rw [Cst.callParts, found, found']
      exact Cst.pair_sublist_filterMap [_, _] [] [_])
    have := (formed.child (Cst.mem_children_of_childByField found')).placed.ordered
    omega
  · rename_i m' _ found'
    rw [found] at found'
    cases found'
    exact Nat.le_refl _
  · rename_i _ none' _
    rw [found] at none'
    cases none'
  · rename_i _ none' _
    rw [found] at none'
    cases none'

end SendStop

theorem sendStop_of_arguments {c a : Cst} (found : c.childByField "arguments" = some a) :
    sendStop c = a.stop := by
  unfold sendStop
  split <;> rename_i found' <;> simp_all

/-! ### The send -/

section Send

variable {b : Buffer} {c : Cst} {receiver : Option Node} {args : List Node}

theorem sendOf_isCall : (sendOf b c receiver args).kind.isCall = true := by
  unfold sendOf
  split <;> rfl

@[simp] theorem span_sendOf : (sendOf b c receiver args).span = spanBetween c.start (sendStop c) :=
  rfl

@[simp] theorem childNodes_sendOf : (sendOf b c receiver args).childNodes = receiver.toList ++ args := by
  cases receiver <;> simp [sendOf, slotOf, Node.childNodes, Node.children]

theorem nodeAt_sendOf : (sendOf b c receiver args).nodeAt? 0 = receiver := by
  cases receiver <;> rfl

theorem selector_sendOf :
    (sendOf b c receiver args).selector = (c.childByField "method").map Cst.span := by
  unfold sendOf
  cases c.childByField "method" <;> cases callOperator c <;> rfl

theorem textAt_sendOf {m : Cst} (found : c.childByField "method" = some m) :
    (sendOf b c receiver args).textAt 1 = text b m := by
  unfold sendOf
  rw [found]
  rfl

theorem loc_sendOf : (sendOf b c receiver args).loc =
    ((c.childByField "method").map fun m => ("selector", m.span)).toList ++
      ((callOperator c).map fun o => ("dot", o.span)).toList := by
  unfold sendOf
  cases c.childByField "method" <;> cases callOperator c <;> rfl

end Send

section Send

variable {b : Buffer} {ends : Nat → Prop} {c : Cst} {receiver : Option Node} {args : List Node}
  (formed : c.Formed) (shaped : c.CallShaped)
  (lowerReceiver : ∀ r, receiver = some r → ∃ k, c.childByField "receiver" = some k ∧
    Lowered b ends k r)
  (lowerArgs : ∀ a, c.childByField "arguments" = some a →
    List.Forall₂ (Lowered b ends) a.namedChildren args)
  (noArgs : c.childByField "arguments" = none → args = [])

/-- The send's end is an offset of the call: the end of one of its parts, or its start. -/
theorem ends_sendStop (offsets : c.OffsetsIn ends) : ends (sendStop c) := by
  unfold sendStop
  split
  · exact (offsets.child (Cst.mem_children_of_childByField ‹_›)).self.2
  · exact (offsets.child (Cst.mem_children_of_childByField ‹_›)).self.2
  · exact (offsets.child (Cst.callOperator_mem ‹_›)).self.2
  · exact offsets.self.1

include formed lowerArgs noArgs in
/-- A lowered argument starts inside the call's arguments node and ends by the send's end. -/
theorem arg_within_send {n : Node} (member : n ∈ args) :
    ∃ a, c.childByField "arguments" = some a ∧ a.start ≤ n.span.start ∧
      n.span.stop ≤ sendStop c := by
  cases found : c.childByField "arguments" with
  | none => simp [noArgs found] at member
  | some a =>
    obtain ⟨k, k_in, lowered⟩ := exists_of_forall₂ (lowerArgs a found) n member
    have bounds := (formed.child (Cst.mem_children_of_childByField found)).inside
      (List.mem_of_mem_filter k_in)
    have := lowered.start_le
    have := lowered.stop_le
    rw [sendStop_of_arguments found]
    exact ⟨a, rfl, by omega, by omega⟩

include formed shaped lowerReceiver lowerArgs noArgs in
/-- The receiver and the arguments lie inside the send, one after another. -/
theorem sendOf_arranged : (sendOf b c receiver args).Arranged := by
  have argBounds := fun {n} member => arg_within_send formed lowerArgs noArgs (n := n) member
  refine ⟨fun n member => ?_, Or.inl ?_⟩
  · rw [childNodes_sendOf, List.mem_append] at member
    rw [Span.contains_iff, span_sendOf, spanBetween_start, spanBetween_stop]
    rcases member with fromReceiver | fromArgs
    · obtain ⟨k, found, lowered⟩ := lowerReceiver n (Option.mem_toList.1 fromReceiver)
      have := formed.inside (Cst.mem_children_of_childByField found)
      have := stop_le_sendStop_of_receiver formed shaped found
      have := lowered.start_le
      have := lowered.stop_le
      omega
    · obtain ⟨a, found, inA, before⟩ := argBounds fromArgs
      have := formed.inside (Cst.mem_children_of_childByField found)
      omega
  · rw [childNodes_sendOf, List.pairwise_append]
    refine ⟨by cases receiver <;> simp, ?_, fun r r_in n n_in => ?_⟩
    · cases found : c.childByField "arguments" with
      | none => simp [noArgs found]
      | some a =>
        exact Lowered.pairwise (lowerArgs a found)
          (formed.child (Cst.mem_children_of_childByField found)).pairwise_namedChildren
    · -- the receiver ends before the arguments node starts
      obtain ⟨k, foundReceiver, lowered⟩ := lowerReceiver r (Option.mem_toList.1 r_in)
      obtain ⟨a, foundArgs, inA, -⟩ := argBounds n_in
      have := shaped.before formed (x := k) (y := a) (by
        rw [Cst.callParts, foundReceiver, foundArgs]
        exact Cst.pair_sublist_filterMap [] [_, _] [_])
      have := lowered.stop_le
      omega

include formed shaped lowerReceiver in
/-- The selector, the method name's span, lies inside the send and after its receiver. -/
theorem sendOf_selectorPlaced : (sendOf b c receiver args).SelectorPlaced := by
  intro _ s found
  rw [selector_sendOf] at found
  obtain ⟨m, foundMethod, rfl⟩ := Option.map_eq_some_iff.1 found
  have mOrdered := (formed.child (Cst.mem_children_of_childByField foundMethod)).placed.ordered
  have inside := formed.inside (Cst.mem_children_of_childByField foundMethod)
  have := stop_le_sendStop_of_method formed shaped foundMethod
  refine ⟨?_, fun r foundReceiver => ?_⟩
  · rw [Span.contains_iff, span_sendOf, spanBetween_start, spanBetween_stop, Cst.span_eq mOrdered]
    dsimp only
    omega
  · rw [nodeAt_sendOf] at foundReceiver
    obtain ⟨k, foundK, lowered⟩ := lowerReceiver r foundReceiver
    have := shaped.before formed (x := k) (y := m) (by
      rw [Cst.callParts, foundK, foundMethod]
      exact Cst.pair_sublist_filterMap [] [_] [_, _])
    have := lowered.stop_le
    rw [Cst.span_eq mOrdered]
    dsimp only
    omega

/-- The send is named by the text of its method name. -/
theorem sendOf_selectorNamed : SelectorNamed b (sendOf b c receiver args) := by
  intro s found
  rw [selector_sendOf] at found
  obtain ⟨m, foundMethod, rfl⟩ := Option.map_eq_some_iff.1 found
  rw [textAt_sendOf foundMethod]
  rfl

/-- The send's span and its selector and operator spans end at offsets of the call. -/
theorem sendOf_endsIn (formed : c.Formed) (offsets : c.OffsetsIn ends) :
    EndsIn ends (sendOf b c receiver args) := by
  refine ⟨?_, ?_, fun l member => ?_⟩
  · rw [span_sendOf, spanBetween_start]
    exact offsets.self.1
  · rw [span_sendOf, spanBetween_stop, Nat.max_def]
    split
    · exact ends_sendStop offsets
    · exact offsets.self.1
  · rw [loc_sendOf] at member
    simp only [List.mem_append, Option.mem_toList, Option.map_eq_some_iff] at member
    rcases member with ⟨m, found, rfl⟩ | ⟨o, found, rfl⟩
    · have part := formed.child (Cst.mem_children_of_childByField found)
      rw [Cst.span_eq part.placed.ordered]
      exact (offsets.child (Cst.mem_children_of_childByField found)).self
    · have part := formed.child (Cst.callOperator_mem found)
      rw [Cst.span_eq part.placed.ordered]
      exact (offsets.child (Cst.callOperator_mem found)).self

/-- **The send of a call** is faithful, given its receiver lowered from the call's receiver and
its arguments from the named children of the call's arguments. -/
theorem sendOf_faithful (formed : c.Formed) (offsets : c.OffsetsIn ends) (shaped : c.CallShaped)
    (lowerReceiver : ∀ r, receiver = some r → ∃ k, c.childByField "receiver" = some k ∧
      Lowered b ends k r)
    (lowerArgs : ∀ a, c.childByField "arguments" = some a →
      List.Forall₂ (Lowered b ends) a.namedChildren args)
    (noArgs : c.childByField "arguments" = none → args = []) :
    Faithful b ends (sendOf b c receiver args) := by
  have shape : shapeCheck (sendOf b c receiver args).kind
      ((sendOf b c receiver args).children.map Slot.part) = none := by
    unfold sendOf
    exact shapeCheck_send (by split <;> simp) _ (isNodeOrNothing_slotOf _) _ _
  refine Faithful.build shape (sendOf_arranged formed shaped lowerReceiver lowerArgs noArgs)
    (sendOf_selectorPlaced formed shaped lowerReceiver) sendOf_selectorNamed
    (sendOf_endsIn formed offsets) fun n member => ?_
  rw [childNodes_sendOf, List.mem_append] at member
  rcases member with fromReceiver | fromArgs
  · obtain ⟨k, -, lowered⟩ := lowerReceiver n (Option.mem_toList.1 fromReceiver)
    exact lowered.faithful
  · cases found : c.childByField "arguments" with
    | none => simp [noArgs found] at fromArgs
    | some a =>
      obtain ⟨k, -, lowered⟩ := exists_of_forall₂ (lowerArgs a found) n fromArgs
      exact lowered.faithful

end Send

/-! ### The statements of a block -/

/-- What a block's statements are drawn from: a node inside the block, after its opening token,
whose statements lie inside it in document order. -/
theorem inner_statements {body : Cst} (formed : body.Formed) :
    (∀ x ∈ (if bodyTypes.contains body.type then body.namedChildren else [body]),
      x ∈ body.subtrees ∧ body.start ≤ x.start ∧ x.stop ≤ body.stop) ∧
    (if bodyTypes.contains body.type then body.namedChildren else [body]).Pairwise
      fun a b => a.stop ≤ b.start := by
  split
  · refine ⟨fun x member => ?_, formed.pairwise_namedChildren⟩
    have child := List.mem_of_mem_filter member
    exact ⟨Cst.mem_subtrees_of_mem_children child, formed.inside child⟩
  · refine ⟨fun x member => ?_, List.pairwise_singleton _ _⟩
    rw [List.mem_singleton.1 member]
    exact ⟨Cst.mem_subtrees_self _, Nat.le_refl _, Nat.le_refl _⟩

/-- **A block's statements** lie inside it after its opening token, in document order, and after
its parameters when it has a body. -/
theorem blockStatements_placed {blk first : Cst} {rest : List Cst} (formed : blk.Formed)
    (shaped : blk.BlockShaped) (children : blk.children = first :: rest) (anonymous : first.named = false)
    (fieldless : first.field = none) :
    (∀ x ∈ (blockStatements blk).map Subtype.val, x ∈ blk.subtrees ∧ first.stop ≤ x.start ∧
      x.stop ≤ blk.stop) ∧
    ((blockStatements blk).map Subtype.val).Pairwise (fun a b => a.stop ≤ b.start) ∧
    ∀ params body, blk.childByField "parameters" = some params → blk.childByField "body" = some body →
      ∀ x ∈ (blockStatements blk).map Subtype.val, params.stop ≤ x.start := by
  have sorted := formed.pairwise_children
  rw [children, List.pairwise_cons] at sorted
  have inRest : ∀ x ∈ rest, x ∈ blk.children := fun x member => children ▸ List.mem_cons_of_mem _ member
  unfold blockStatements
  cases body : blk.fieldSub "body" with
  | none =>
    -- without a body: the named children, all after the anonymous opening token
    have named : blk.namedChildren = rest.filter fun k => k.named && !k.isComment := by
      simp [Cst.namedChildren, children, anonymous]
    have drawn : ((if (blk.childByField "parameters").isSome then
        blk.namedSubs.eraseP fun k => k.1.field == some "parameters" else blk.namedSubs).map
          Subtype.val).Sublist rest := by
      refine List.Sublist.trans ?_ (named ▸ List.filter_sublist)
      rw [← Cst.map_val_namedSubs]
      split
      · exact List.eraseP_sublist.map _
      · exact List.Sublist.refl _
    refine ⟨fun x member => ?_, sorted.2.sublist drawn, fun params body' _ bodyFound => ?_⟩
    · have x_in := drawn.subset member
      exact ⟨Cst.mem_subtrees_of_mem_children (inRest x x_in), sorted.1 x x_in,
        (formed.inside (inRest x x_in)).2⟩
    · rw [← Cst.map_val_fieldSub, body] at bodyFound
      cases bodyFound
  | some bd =>
    -- with a body: the body's statements, the body coming after the opening token
    have foundBody : blk.childByField "body" = some bd.1 := by rw [← Cst.map_val_fieldSub, body]; rfl
    have bd_in : bd.1 ∈ rest := by
      have := foundBody
      rw [Cst.childByField, children, List.find?_cons_of_neg (by simp [fieldless])] at this
      exact List.mem_of_find?_eq_some this
    have drawn := inner_statements (formed.child (inRest _ bd_in))
    have same : (if bodyTypes.contains bd.1.type then liftSubs bd.2 bd.1.namedSubs else [bd]).map
        Subtype.val = if bodyTypes.contains bd.1.type then bd.1.namedChildren else [bd.1] := by
      split <;> simp
    rw [same]
    have bdInside := formed.inside (inRest _ bd_in)
    have bdAfter := sorted.1 _ bd_in
    refine ⟨fun x member => ?_, drawn.2, fun params body' found bodyFound x member => ?_⟩
    · obtain ⟨x_in, start, stop⟩ := drawn.1 x member
      exact ⟨Cst.mem_subtrees_trans (Cst.mem_subtrees_of_mem_children (inRest _ bd_in)) x_in,
        by omega, by omega⟩
    · rw [foundBody] at bodyFound
      cases bodyFound
      have := shaped.parameters_first params (by simp [found]) bd.1 (by simp [foundBody])
      have := (drawn.1 x member).2.1
      omega

/-! ### Numbered parameters -/

theorem numberedParameter_le {name : String} {k : Nat} (found : numberedParameter name = some k) :
    k ≤ 9 := by
  unfold numberedParameter at found
  split at found
  · rename_i d _
    split at found
    · rename_i digit
      cases found
      simp only [Bool.and_eq_true, decide_eq_true_eq] at digit
      have high := digit.2
      rw [Char.le_def] at high
      have : d.toNat ≤ 57 := by
        simp only [Char.toNat] at *
        exact high
      have zero : '0'.toNat = 48 := rfl
      omega
    · cases found
  · cases found

/-- The highest numbered parameter a node uses is at most 9. -/
theorem numberedUses_le (b : Buffer) (c : Cst) : (numberedUses b c).1 ≤ 9 := by
  induction c using Cst.childInduction with
  | step c ih =>
    rw [numberedUses]
    split
    · exact Nat.zero_le _
    · -- the node's own number and each named child's stay at most 9, and so does their maximum
      refine List.foldlRecOn (motive := fun acc : Nat × Bool => acc.1 ≤ 9) _ _ ?_
        fun acc bound k member => ?_
      · dsimp only
        split
        · split
          · exact numberedParameter_le ‹_›
          · exact Nat.zero_le _
        · exact Nat.zero_le _
      · dsimp only
        split
        · have child : k.1 ∈ c.children := Cst.map_val_subs c ▸ List.mem_map_of_mem member
          exact Nat.max_le.2 ⟨bound, ih k.1 child⟩
        · exact bound

/-- **A numbered block's arity** is at most 9. -/
theorem numberedArity_le (b : Buffer) (statements : List Cst) (blockStop : Nat)
    (ancestors : List Cst) : numberedArity b statements blockStop ancestors ≤ 9 := by
  have numbered : (statements.map (numberedUses b)).foldl (fun m u => max m u.1) 0 ≤ 9 :=
    List.foldlRecOn (motive := (· ≤ 9)) _ _ (Nat.zero_le _) fun m bound u member => by
      obtain ⟨c, -, rfl⟩ := List.mem_map.1 member
      exact Nat.max_le.2 ⟨bound, numberedUses_le b c⟩
  unfold numberedArity
  dsimp only
  split <;> omega

/-! ### Blocks around a send -/

section Blocks

variable {b : Buffer} {ends : Nat → Prop}

theorem Lowered.contained {c : Cst} {n : Node} (formed : c.Formed) (lowered : Lowered b ends c n) :
    c.span.contains n.span = true := by
  rw [Span.contains_iff, formed.span_start, formed.span_stop]
  exact ⟨lowered.start_le, lowered.stop_le⟩

theorem selector_eq_none {n : Node} (unnamed : ∀ l ∈ n.loc, l.1 ≠ "selector") :
    n.selector = none := by
  simp only [Node.selector, Node.locAt, Option.map_eq_none_iff, List.find?_eq_none, beq_iff_eq]
  exact unnamed

/-- A node over a concrete node's span is lowered from it when its shape admits its children, it
is arranged, its named sub-spans are no selector and hold admitted offsets, and its node children
are faithful. -/
theorem lowered_over {c : Cst} {k : Kind} {cs : List (Slot Node)} {loc : List (String × Span)}
    (formed : c.Formed) (offsets : ends c.start ∧ ends c.stop)
    (shape : shapeCheck k (cs.map Slot.part) = none) (arranged : (Node.mk k cs c.span loc).Arranged)
    (unnamed : ∀ l ∈ loc, l.1 ≠ "selector") (locEnds : ∀ l ∈ loc, ends l.2.start ∧ ends l.2.stop)
    (children : ∀ n ∈ (Node.mk k cs c.span loc).childNodes, Faithful b ends n) :
    Lowered b ends c (.mk k cs c.span loc) := by
  have none := selector_eq_none (n := .mk k cs c.span loc) unnamed
  refine ⟨formed.span_start.ge, formed.span_stop.le, Faithful.build shape arranged
    (fun _ s found => ?_) (fun s found => ?_) ⟨?_, ?_, locEnds⟩ children⟩
  · rw [none] at found
    cases found
  · rw [none] at found
    cases found
  · rw [Node.span_mk, formed.span_start]
    exact offsets.1
  · rw [Node.span_mk, formed.span_stop]
    exact offsets.2

section Wrapped

variable {c : Cst} {send : Node} {body : Option Node} {loc : List (String × Span)}
  (formed : c.Formed) (offsets : ends c.start ∧ ends c.stop) (call : send.kind.isCall = true)
  (sendLowered : Lowered b ends c send)
  (bodyLowered : ∀ s ∈ body, Lowered b ends c s ∧ send.span.stop ≤ s.span.start)
  (unnamed : ∀ l ∈ loc, l.1 ≠ "selector") (locEnds : ∀ l ∈ loc, ends l.2.start ∧ ends l.2.stop)
include formed offsets call sendLowered bodyLowered unnamed locEnds

/-- A numbered block over a call is lowered from it. -/
theorem numblock_lowered {arity : Nat} (least : 1 ≤ arity) (most : arity ≤ 9) :
    Lowered b ends c (.mk .numblock [.node send, .atom (.int arity), slotOf body] c.span loc) := by
  have children : (Node.mk .numblock [.node send, .atom (.int arity), slotOf body] c.span
      loc).childNodes = send :: body.toList := by
    cases body <;> rfl
  refine lowered_over formed offsets (shapeCheck_numblock call least most _ (isNodeOrNothing_slotOf _))
    ⟨fun n member => ?_, Or.inl ?_⟩ unnamed locEnds fun n member => ?_
  · rw [children, List.mem_cons] at member
    rcases member with rfl | fromBody
    · exact sendLowered.contained formed
    · exact (bodyLowered n (Option.mem_toList.1 fromBody)).1.contained formed
  · rw [children, List.pairwise_cons]
    exact ⟨fun s fromBody => (bodyLowered s (Option.mem_toList.1 fromBody)).2, by cases body <;> simp⟩
  · rw [children, List.mem_cons] at member
    rcases member with rfl | fromBody
    · exact sendLowered.faithful
    · exact (bodyLowered n (Option.mem_toList.1 fromBody)).1.faithful

/-- A block over a call is lowered from it when its args node, holding only argument nodes, lies
after the send. -/
theorem block_lowered {a : Node} (args : a.kind = .args)
    (arguments : ∀ x ∈ a.nodes, x.kind.isArgument = true) (argsLowered : Lowered b ends c a)
    (sendFirst : send.span.stop ≤ a.span.start) :
    Lowered b ends c (.mk .block [.node send, .node a, slotOf body] c.span loc) := by
  have children : (Node.mk .block [.node send, .node a, slotOf body] c.span loc).childNodes =
      send :: a :: body.toList := by
    cases body <;> rfl
  -- without a body the two nodes are in order; with one, the body may lie around the args node
  have ordered : ((send :: a :: body.toList).Pairwise fun x y => x.span.stop ≤ y.span.start) ∨
      ∃ send' params body', Kind.block = .block ∧ send :: a :: body.toList = [send', params, body'] ∧
        send'.span.stop ≤ params.span.start ∧ send'.span.stop ≤ body'.span.start ∧
        ∀ x ∈ params.nodes, x.kind.isArgument = true := by
    cases body with
    | none => exact Or.inl (by simpa using sendFirst)
    | some s => exact Or.inr ⟨send, a, s, rfl, rfl, sendFirst, (bodyLowered s rfl).2, arguments⟩
  refine lowered_over formed offsets (shapeCheck_block call args _ (isNodeOrNothing_slotOf _))
    ⟨fun n member => ?_, by rw [children]; exact ordered⟩ unnamed locEnds fun n member => ?_
  · rw [children] at member
    rcases List.mem_cons.1 member with rfl | member
    · exact sendLowered.contained formed
    rcases List.mem_cons.1 member with rfl | fromBody
    · exact argsLowered.contained formed
    · exact (bodyLowered n (Option.mem_toList.1 fromBody)).1.contained formed
  · rw [children] at member
    rcases List.mem_cons.1 member with rfl | member
    · exact sendLowered.faithful
    rcases List.mem_cons.1 member with rfl | fromBody
    · exact argsLowered.faithful
    · exact (bodyLowered n (Option.mem_toList.1 fromBody)).1.faithful

end Wrapped

theorem Lowered.widen {c k : Cst} {n : Node} (lowered : Lowered b ends k n) (start : c.start ≤ k.start)
    (stop : k.stop ≤ c.stop) : Lowered b ends c n :=
  ⟨Nat.le_trans start lowered.start_le, Nat.le_trans lowered.stop_le stop, lowered.faithful⟩

theorem isArgument_of_parameter {k : Kind} (parameter : k.isParameter = true ∨ k = .mlhs) :
    k.isArgument = true := by
  rcases parameter with parameter | rfl
  · simp [Kind.isArgument, parameter]
  · rfl

/-- The args node of a block with parameters is lowered from its parameter list and holds only
argument nodes. -/
theorem parametersNode_lowered {params : Cst} (formed : params.Formed)
    (offsets : params.OffsetsIn ends) :
    Lowered b ends params (.mk .args ((blockParameters b params).map .node) params.span []) ∧
      ∀ x ∈ (Node.mk .args ((blockParameters b params).map .node) params.span []).nodes,
        x.kind.isArgument = true := by
  obtain ⟨each, sorted⟩ := blockParameters_lowered (b := b) formed offsets
  have shape := shapeCheck_args (blockParameters b params) fun n member =>
    (each n member).2.1 n (Node.mem_nodes_self n)
  refine ⟨⟨formed.span_start.ge, formed.span_stop.le, Faithful.plain shape
    ⟨fun n member => ?_, Or.inl ?_⟩ ?_ ?_ fun n member => ?_⟩, fun x member => ?_⟩
  · rw [childNodes_nodes] at member
    rw [Span.contains_iff, Node.span_mk, formed.span_start, formed.span_stop]
    exact (each n member).2.2
  · rw [childNodes_nodes]
    exact sorted
  · rw [formed.span_start]
    exact offsets.self.1
  · rw [formed.span_stop]
    exact offsets.self.2
  · rw [childNodes_nodes] at member
    exact (each n member).1
  · rw [Node.nodes_eq] at member
    rcases List.mem_cons.1 member with rfl | inner
    · rfl
    · obtain ⟨n, child, x_in⟩ := List.mem_flatMap.1 inner
      rw [childNodes_nodes] at child
      exact isArgument_of_parameter ((each n child).2.1 x x_in)

/-- The empty args node of a block without parameters, a point at an admitted offset inside a
concrete node, is lowered from that node and holds only argument nodes. -/
theorem emptyArgs_lowered {c : Cst} {p : Nat} (atEnd : ends p) (start : c.start ≤ p)
    (stop : p ≤ c.stop) :
    Lowered b ends c (.mk .args [] (Span.point p) []) ∧
      ∀ x ∈ (Node.mk .args [] (Span.point p) []).nodes, x.kind.isArgument = true := by
  refine ⟨⟨start, stop, Faithful.plain (shapeCheck_args [] (by simp))
    ⟨fun n member => ?_, Or.inl (by simp [Node.childNodes])⟩ atEnd atEnd fun n member => ?_⟩,
    fun x member => ?_⟩
  · simp [Node.childNodes] at member
  · simp [Node.childNodes] at member
  · -- the node has no children: it is the args node itself
    rw [Node.nodes_eq] at member
    simp [Node.childNodes] at member
    rw [member]
    rfl

/-- **The block node around a call's send** is lowered from the call, given a faithful send from
the call's start to where the send ends, and the block's statements lowered. -/
theorem blockNode_lowered {c blk : Cst} {send : Node} {ancestors : List Cst}
    {statements : List Node} (formed : c.Formed) (offsets : c.OffsetsIn ends)
    (shaped : c.CallShaped) (found : c.childByField "block" = some blk)
    (sendFaithful : Faithful b ends send) (call : send.kind.isCall = true)
    (sendSpan : send.span = spanBetween c.start (sendStop c))
    (lowered : List.Forall₂ (Lowered b ends) ((blockStatements blk).map Subtype.val) statements) :
    Lowered b ends c
      (blockNode b c blk send ancestors statements ((blockStatements blk).map Subtype.val)) := by
  have blk_in := Cst.mem_children_of_childByField found
  have blkFormed := formed.child blk_in
  have blkOffsets := offsets.child blk_in
  have blkInside := formed.inside blk_in
  have blkShaped := shaped.block blk (by simp [found])
  obtain ⟨first, rest, children, anonymous, fieldless⟩ := blkShaped.opening
  have first_in : first ∈ blk.children := by simp [children]
  have firstInside := blkFormed.inside first_in
  have firstOrdered := (blkFormed.child first_in).placed.ordered
  obtain ⟨drawn, sorted, -⟩ :=
    blockStatements_placed blkFormed blkShaped children anonymous fieldless
  -- the send runs from the call's start to where the send ends, before the block
  have sendBefore : send.span.stop ≤ blk.start := by
    have := sendStop_le_block formed shaped found
    rw [sendSpan, spanBetween_stop]
    omega
  have sendLowered : Lowered b ends c send := by
    have := sendStop_le_stop formed
    refine ⟨?_, ?_, sendFaithful⟩
    · rw [sendSpan, spanBetween_start]
    · rw [sendSpan, spanBetween_stop]
      omega
  -- the body runs over the statements, after the opening token and inside the block
  have bodyLowered : ∀ s ∈ sequence ((blockStatements blk).map Subtype.val) statements,
      Lowered b ends c s ∧ send.span.stop ≤ s.span.start := by
    intro s built
    obtain ⟨faithful, bounds⟩ := sequence_faithful lowered
      (fun k k_in => (blkFormed.of_mem (drawn k k_in).1).placed.ordered) sorted
      (fun k k_in => (blkOffsets.of_mem (drawn k k_in).1).self) built
    have := bounds first.stop blk.stop fun k k_in => (drawn k k_in).2
    exact ⟨⟨by omega, by omega, faithful⟩, by omega⟩
  -- the opening and closing tokens give the block's named sub-spans
  have last_in : (first :: rest).getLast?.getD blk ∈ blk.children := by
    rw [List.getLast?_eq_some_getLast (List.cons_ne_nil _ _), Option.getD_some, children]
    exact List.getLast_mem _
  have token : ∀ x ∈ blk.children, ends x.span.start ∧ ends x.span.stop := by
    intro x member
    rw [(blkFormed.child member).span_start, (blkFormed.child member).span_stop]
    exact (blkOffsets.child member).self
  have locEnds : ∀ l ∈ [("begin", first.span), ("end", ((first :: rest).getLast?.getD blk).span)],
      ends l.2.start ∧ ends l.2.stop := by
    intro l member
    rcases List.mem_pair.1 member with rfl | rfl
    · exact token first first_in
    · exact token _ last_in
  have unnamed : ∀ l ∈ [("begin", first.span), ("end", ((first :: rest).getLast?.getD blk).span)],
      l.1 ≠ "selector" := by
    simp
  unfold blockNode
  simp only [children, List.head?_cons, Option.getD_some]
  split
  · -- without parameters: numbered by the statements, or with an empty args node after `{`
    split
    · exact numblock_lowered formed offsets.self call sendLowered bodyLowered unnamed locEnds
        (by omega) (numberedArity_le _ _ _ _)
    · obtain ⟨argsLowered, arguments⟩ := emptyArgs_lowered (b := b) (c := c)
        (blkOffsets.child first_in).self.2 (by omega) (by omega)
      refine block_lowered formed offsets.self call sendLowered bodyLowered unnamed locEnds rfl
        arguments argsLowered ?_
      simp only [Node.span_mk, Span.point]
      omega
  · -- with parameters: the args node over the parameter list
    rename_i params foundParams
    have params_in := Cst.mem_children_of_childByField foundParams
    have paramsInside := blkFormed.inside params_in
    have paramsFormed := blkFormed.child params_in
    obtain ⟨argsLowered, arguments⟩ := parametersNode_lowered (b := b) paramsFormed
      (blkOffsets.child params_in)
    refine block_lowered formed offsets.self call sendLowered bodyLowered unnamed locEnds rfl arguments
      (argsLowered.widen (by omega) (by omega)) ?_
    rw [Node.span_mk, paramsFormed.span_start]
    omega

end Blocks

/-! ### The whole lowering -/

section Lowering

variable {b : Buffer} {ends : Nat → Prop} {quiet : Prop}

theorem lowerOption_meets {ancestors : List Cst} {o : Option Cst}
    (each : ∀ k ∈ o, Meets (convert b ancestors k) (Lowered b ends k) quiet) :
    Meets (lowerOption b ancestors o) (fun r => ∀ n, r = some n → ∃ k, o = some k ∧
      Lowered b ends k n) quiet := by
  cases o with
  | none => exact Meets.pure fun n found => by cases found
  | some k =>
    exact (each k rfl).map fun n lowered n' same => ⟨k, rfl, Option.some.inj same ▸ lowered⟩

theorem lowerArguments_meets {ancestors : List Cst} {o : Option Cst}
    (each : ∀ a ∈ o, ∀ k ∈ a.namedChildren, Meets (convert b (a :: ancestors) k) (Lowered b ends k)
      quiet) :
    Meets (lowerArguments b ancestors o) (fun args => (∀ a, o = some a →
      List.Forall₂ (Lowered b ends) a.namedChildren args) ∧ (o = none → args = [])) quiet := by
  cases o with
  | none => exact Meets.pure ⟨fun a found => (by cases found), fun _ => rfl⟩
  | some a =>
    exact (Meets.mapM (each a rfl)).mono fun args lowered =>
      ⟨fun a' same => Option.some.inj same ▸ lowered, fun never => by cases never⟩

/-- The report of a malformed node comes first; a step meant to be quiet reports nothing when the
node is not malformed. -/
theorem Meets.afterReport {α : Type} {post : α → Prop} {c : Cst} {x : Unit → Lowering α}
    (clean : quiet → (c.isError || c.missing) = false) (rest : Meets (x ()) post quiet) :
    Meets (if (c.isError || c.missing) = true then Lower.report b c >>= x else x ()) post quiet := by
  split
  · rename_i malformed
    refine ((Meets.report b c).weaken fun quiet => ?_).bind fun _ _ => rest
    rw [clean quiet] at malformed
    cases malformed
  · exact rest

theorem malformed_eq_false {c : Cst} (clean : c.hasError = false) :
    (c.isError || c.missing) = false := by
  have parts := Cst.hasError_eq_false.1 clean
  rw [parts.1, parts.2.1]
  rfl

/-- A call lowers to a tree lowered from it, when every node below it does. -/
theorem convertCall_meets {c : Cst} (ancestors : List Cst) (formed : c.Formed)
    (offsets : c.OffsetsIn ends) (shaped : c.CallShaped)
    (below : ∀ x ∈ c.subtrees, x ≠ c → ∀ ancestors,
      Meets (convert b ancestors x) (Lowered b ends x) (c.hasError = false)) :
    Meets (convertCall b ancestors c) (Lowered b ends c) (c.hasError = false) := by
  have sub : ∀ k ∈ c.children, ∀ x ∈ k.subtrees, ∀ ancestors,
      Meets (convert b ancestors x) (Lowered b ends x) (c.hasError = false) :=
    fun k child x member => below x (Cst.below_of_mem_children child member).1
      (Cst.below_of_mem_children child member).2
  rw [convertCall_eq]
  refine (lowerOption_meets fun k found => sub k (Cst.mem_children_of_childByField found) k
    (Cst.mem_subtrees_self k) _).bind fun receiver lowReceiver => ?_
  refine (lowerArguments_meets fun a found k k_in => sub a (Cst.mem_children_of_childByField found)
    k (Cst.mem_subtrees_of_mem_children ((Cst.namedChildren_sublist a).subset k_in)) _).bind
    fun args lowArgs => ?_
  have faithful := sendOf_faithful formed offsets shaped lowReceiver lowArgs.1 lowArgs.2
  split
  · -- a call without a block lowers to its send
    have := sendStop_le_stop formed
    refine Meets.pure ⟨?_, ?_, faithful⟩
    · rw [span_sendOf, spanBetween_start]
    · rw [span_sendOf, spanBetween_stop]
      exact Nat.max_le.2 ⟨formed.placed.ordered, this⟩
  · -- a call with a block lowers to the block around its send
    rename_i blk found
    have blk_in := Cst.mem_children_of_childByField found
    have blkShaped := shaped.block blk (by simp [found])
    obtain ⟨first, rest, children, anonymous, fieldless⟩ := blkShaped.opening
    obtain ⟨drawn, -, -⟩ :=
      blockStatements_placed (formed.child blk_in) blkShaped children anonymous fieldless
    exact (Meets.mapM fun x member => sub blk blk_in x (drawn x member).1 _).bind
      fun statements lowered => Meets.pure (blockNode_lowered formed offsets shaped found faithful
        sendOf_isCall rfl lowered)

/-- A call node lowers as its call does. -/
theorem convert_meets_of_call {c : Cst} {ancestors : List Cst} {post : Node → Prop}
    (call : c.type = "call") (clean : quiet → (c.isError || c.missing) = false)
    (meets : Meets (convertCall b ancestors c) post quiet) :
    Meets (convert b ancestors c) post quiet := by
  rw [convert]
  refine Meets.afterReport clean ?_
  dsimp only
  split
  · exact meets
  -- every other branch names a kind other than the node's
  all_goals simp_all

/-- **A call with a block** lowers to the block node around a send, over the block's statements
lowered. -/
theorem convertCall_block {c blk : Cst} (ancestors : List Cst)
    (found : c.childByField "block" = some blk)
    (statements : ∀ x ∈ (blockStatements blk).map Subtype.val, ∀ ancestors,
      Meets (convert b ancestors x) (Lowered b ends x) False) :
    Meets (convertCall b ancestors c) (fun n => ∃ send lowered,
      List.Forall₂ (Lowered b ends) ((blockStatements blk).map Subtype.val) lowered ∧
      n = blockNode b c blk send ancestors lowered ((blockStatements blk).map Subtype.val))
      False := by
  rw [convertCall_eq]
  refine (Meets.any _).bind fun receiver _ => (Meets.any _).bind fun args _ => ?_
  simp only [found]
  exact (Meets.mapM fun x member => statements x member _).bind fun lowered holds =>
    Meets.pure ⟨_, lowered, holds, rfl⟩

/-- A constant over a concrete node, its scope lowered inside the node, is lowered from it. -/
theorem constant_lowered {c : Cst} {scope : Option Node} (formed : c.Formed)
    (offsets : ends c.start ∧ ends c.stop) (name : String)
    (lowScope : ∀ n ∈ scope, Lowered b ends c n) :
    Lowered b ends c (.mk .const [slotOf scope, .atom (.text name)] c.span []) := by
  have children : (Node.mk .const [slotOf scope, .atom (.text name)] c.span []).childNodes =
      scope.toList := by
    cases scope <;> rfl
  refine lowered_over formed offsets (shapeCheck_const _ (isNodeOrNothing_slotOf _) name)
    ⟨fun n member => ?_, Or.inl ?_⟩ (fun _ never => by cases never) (fun _ never => by cases never)
    fun n member => ?_
  · rw [children] at member
    exact (lowScope n (Option.mem_toList.1 member)).contained formed
  · rw [children]
    cases scope <;> simp
  · rw [children] at member
    exact (lowScope n (Option.mem_toList.1 member)).faithful

theorem namedSubs_meets {c : Cst} {ancestors : List Cst} {post : Cst → Node → Prop}
    (each : ∀ k ∈ c.namedChildren, Meets (convert b ancestors k) (post k) quiet) :
    Meets (c.namedSubs.mapM fun k => convert b ancestors k.1)
      (List.Forall₂ post c.namedChildren) quiet := by
  have same : (c.namedSubs.mapM fun k => convert b ancestors k.1) =
      c.namedChildren.mapM (convert b ancestors) := by
    rw [← Cst.map_val_namedSubs, List.mapM_map]
    rfl
  rw [same]
  exact Meets.mapM each

/-- **The lowering of a well-formed node** gives a tree lowered from it, and adds no message when
the node holds no error. -/
theorem convert_meets (c : Cst) : ∀ ancestors, c.Formed → c.OffsetsIn ends →
    Meets (convert b ancestors c) (Lowered b ends c) (c.hasError = false) := by
  induction c using Cst.subtreeInduction with
  | step c ih =>
  intro ancestors formed offsets
  -- every node below lowers well, and is quiet when the node is
  have below : ∀ x ∈ c.subtrees, x ≠ c → ∀ ancestors,
      Meets (convert b ancestors x) (Lowered b ends x) (c.hasError = false) :=
    fun x member other ancestors =>
      (ih x member other ancestors (formed.of_mem member) (offsets.of_mem member)).weaken
        fun clean => Cst.hasError_of_mem_subtrees clean member
  have items : ∀ ancestors, Meets (c.namedSubs.mapM fun k => convert b ancestors k.1)
      (List.Forall₂ (Lowered b ends) c.namedChildren) (c.hasError = false) :=
    fun ancestors => namedSubs_meets fun k member =>
      have child := (Cst.namedChildren_sublist c).subset member
      below k (Cst.below_of_mem_children child (Cst.mem_subtrees_self k)).1
        (Cst.below_of_mem_children child (Cst.mem_subtrees_self k)).2 ancestors
  have sorted := Cst.namedChildren_sublist c
  rw [convert]
  refine Meets.afterReport malformed_eq_false ?_
  dsimp only
  split
  · exact convertCall_meets ancestors formed offsets ((formed c (Cst.mem_subtrees_self c)).2 ‹_›)
      below
  · exact (items _).bind fun items lowered => Meets.pure
      (lowered_of_items formed offsets.self [] sorted lowered (shapeCheck_nodes (Or.inl rfl) _))
  · exact (items _).bind fun items lowered => Meets.pure (lowered_of_items formed offsets.self []
      sorted lowered (shapeCheck_nodes (Or.inr (Or.inl rfl)) _))
  · exact (items _).bind fun items lowered => Meets.pure (lowered_of_items formed offsets.self []
      sorted lowered (shapeCheck_nodes (Or.inr (Or.inr (Or.inl rfl))) _))
  · exact Meets.pure (lowered_leaf formed offsets.self [_] (shapeCheck_text rfl _))
  · exact Meets.pure (lowered_leaf formed offsets.self [_] (shapeCheck_text rfl _))
  · exact Meets.pure (lowered_leaf formed offsets.self [_, _] (shapeCheck_const _ rfl _))
  · -- a scoped constant lowers its scope, a child of the node
    split
    · rename_i k found
      have child : k.1 ∈ c.children :=
        Cst.mem_children_of_childByField (by rw [← Cst.map_val_fieldSub, found]; rfl)
      have inside := formed.inside child
      have lowerScope : Meets (some <$> convert b (c :: ancestors) k.1)
          (fun scope => ∀ n ∈ scope, Lowered b ends c n) (c.hasError = false) :=
        (below k.1 (Cst.below_of_mem_children child (Cst.mem_subtrees_self _)).1
          (Cst.below_of_mem_children child (Cst.mem_subtrees_self _)).2 _).map
          fun n lowered n' same => by
            cases same
            exact lowered.widen inside.1 inside.2
      exact lowerScope.bind fun scope holds => Meets.pure (constant_lowered formed offsets.self _ holds)
    · exact (Meets.pure fun n never => by cases never).bind fun scope holds =>
        Meets.pure (constant_lowered formed offsets.self _ holds)
  · exact Meets.pure (lowered_leaf formed offsets.self [_] (shapeCheck_text rfl _))
  · exact Meets.pure (lowered_leaf formed offsets.self [_] (shapeCheck_text rfl _))
  · exact Meets.pure (lowered_leaf formed offsets.self [_] (shapeCheck_text rfl _))
  · exact Meets.pure (lowered_leaf formed offsets.self [_] (shapeCheck_text rfl _))
  · exact Meets.pure (lowered_leaf formed offsets.self [] (shapeCheck_leaf (Or.inl rfl)))
  · exact Meets.pure (lowered_leaf formed offsets.self [] (shapeCheck_leaf (Or.inr (Or.inl rfl))))
  · exact Meets.pure (lowered_leaf formed offsets.self []
      (shapeCheck_leaf (Or.inr (Or.inr (Or.inl rfl)))))
  · exact Meets.pure (lowered_leaf formed offsets.self []
      (shapeCheck_leaf (Or.inr (Or.inr (Or.inr rfl)))))
  · exact (items _).bind fun items lowered => Meets.pure
      (lowered_of_items formed offsets.self [_] sorted lowered (shapeCheck_other _ _))

end Lowering

end RubyCheck.Ruby.Lower
