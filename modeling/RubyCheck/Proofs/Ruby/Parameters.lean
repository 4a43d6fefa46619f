import RubyCheck.Proofs.Ruby.Lowering

/-!
# Block parameters

**The argument nodes of a parameter list lie inside it, in document order.**

A parameter lowers to a *parameter tree*: a parameter node, or an `mlhs` of parameter trees for
a destructured parameter. The walk over a parameter list keeps the ordinary parameters and the
block locals (those after `;`) in the order they come, and remembers a comma after the last
ordinary parameter; such a trailing comma wraps the ordinary parameters into one `mlhs` that
runs from the first of them to the comma, and so ends before every block local.

* `parameter_lowered`: a modelled parameter lowers to a parameter tree inside its node;
* `blockParameters_lowered`: the argument nodes of a parameter list are parameter trees inside
  the list, in document order.
-/

namespace RubyCheck.Ruby.Lower

open RubyCheck.Source RubyCheck.Tree

/-- A tree of argument kinds: every node is a parameter or an `mlhs`. -/
def ParameterTree (n : Node) : Prop := ∀ x ∈ n.nodes, x.kind.isParameter = true ∨ x.kind = .mlhs

theorem ParameterTree.build {n : Node} (own : n.kind.isParameter = true ∨ n.kind = .mlhs)
    (children : ∀ c ∈ n.childNodes, ParameterTree c) : ParameterTree n := by
  intro x member
  rw [Node.nodes_eq] at member
  rcases List.mem_cons.1 member with rfl | inner
  · exact own
  · obtain ⟨c, child, x_in⟩ := List.mem_flatMap.1 inner
    exact children c child x x_in

theorem holdsText_of_isParameter {k : Kind} (parameter : k.isParameter = true) :
    k.holdsText = true := by
  cases k <;> simp_all [Kind.isParameter, Kind.parameters, Kind.holdsText, Kind.named]

/-- The values `filterMap` keeps come, in order, from a sublist of its input. -/
theorem forall₂_filterMap {α β : Type} (f : α → Option β) : ∀ xs : List α,
    ∃ sub, sub.Sublist xs ∧ List.Forall₂ (fun x y => x ∈ xs ∧ f x = some y) sub (xs.filterMap f)
  | [] => ⟨[], List.Sublist.slnil, List.Forall₂.nil⟩
  | x :: rest => by
    obtain ⟨sub, sl, rel⟩ := forall₂_filterMap f rest
    have rel' := rel.imp (S := fun a y => a ∈ x :: rest ∧ f a = some y)
      fun a y related => ⟨List.mem_cons_of_mem x related.1, related.2⟩
    cases kept : f x with
    | none => exact ⟨sub, sl.cons x, by simpa [List.filterMap_cons, kept] using rel'⟩
    | some y =>
      refine ⟨x :: sub, sl.cons_cons x, ?_⟩
      rw [List.filterMap_cons, kept]
      exact List.Forall₂.cons ⟨List.mem_cons_self, kept⟩ rel'

section Parameters

variable {b : Buffer} {ends : Nat → Prop}

/-- A parameter node holding its name as text is a parameter tree lowered from its node. -/
theorem namedParameter_lowered {c : Cst} {k : Kind} (formed : c.Formed)
    (offsets : ends c.start ∧ ends c.stop) (kind : k.isParameter = true) (name : String) :
    Lowered b ends c (.mk k [.atom (.text name)] c.span []) ∧
      ParameterTree (.mk k [.atom (.text name)] c.span []) := by
  refine ⟨lowered_leaf formed offsets [.text name]
    (by simpa using shapeCheck_text (holdsText_of_isParameter kind) _), ?_⟩
  exact ParameterTree.build (Or.inl kind) fun x member => by
    simp [Node.childNodes, Node.children] at member

/-- **A modelled parameter lowers to a parameter tree inside its node.** -/
theorem parameter_lowered {c : Cst} {blockLocal : Bool} {n : Node} (formed : c.Formed)
    (offsets : ∀ x ∈ c.subtrees, ends x.start ∧ ends x.stop)
    (built : parameter b c blockLocal = some n) : Lowered b ends c n ∧ ParameterTree n := by
  induction c, blockLocal using parameter.induct b generalizing n with
  | case1 c blockLocal identifier =>
    rw [parameter.eq_1, if_pos identifier] at built
    cases built
    have kind : (if blockLocal = true then Kind.shadowarg else Kind.arg).isParameter = true := by
      split <;> rfl
    exact namedParameter_lowered formed (offsets c (Cst.mem_subtrees_self c)) kind _
  | case2 c blockLocal identifier destructured ih =>
    rw [parameter.eq_1, if_neg identifier, if_pos destructured] at built
    cases built
    obtain ⟨sub, sl, rel⟩ := forall₂_filterMap
      (fun k : { k : Cst // sizeOf k < sizeOf c } => if k.1.named then parameter b k.1 false else none)
      c.subs
    -- each kept child is a named child whose parameter was built
    have each : ∀ k y, (k ∈ c.subs ∧ (if k.1.named then parameter b k.1 false else none) =
        some y) → Lowered b ends k.1 y ∧ ParameterTree y := by
      intro k y related
      obtain ⟨member, found⟩ := related
      have child : k.1 ∈ c.children := by
        rw [← Cst.map_val_subs]
        exact List.mem_map_of_mem member
      split at found
      · exact ih k (formed.child child)
          (fun x inner => offsets x (Cst.mem_subtrees_trans (Cst.mem_subtrees_of_mem_children child) inner))
          found
      · cases found
    have both : List.Forall₂ (fun k y => Lowered b ends k y ∧ ParameterTree y)
        (sub.map Subtype.val) _ :=
      List.forall₂_map_left_iff.2 (rel.imp fun k y related => each k y related)
    have sub_children : (sub.map Subtype.val).Sublist c.children := by
      rw [← Cst.map_val_subs]
      exact sl.map _
    refine ⟨lowered_of_items formed (offsets c (Cst.mem_subtrees_self c)) []
      sub_children (both.imp fun _ _ related => related.1)
      (shapeCheck_nodes (Or.inr (Or.inr (Or.inr rfl))) _),
      ParameterTree.build (Or.inr rfl) fun y member => ?_⟩
    rw [childNodes_nodes] at member
    obtain ⟨k, -, related⟩ := exists_of_forall₂ both y member
    exact related.2
  | case3 c blockLocal identifier destructured =>
    rw [parameter.eq_1, if_neg identifier, if_neg destructured] at built
    -- the other modelled parameters hold their name as text
    obtain ⟨k, name, kind, rfl⟩ : ∃ (k : Kind) (name : String), k.isParameter = true ∧
        n = .mk k [.atom (.text name)] c.span [] := by
      obtain ⟨k, found, rfl⟩ := Option.map_eq_some_iff.1 built
      refine ⟨k, _, ?_, rfl⟩
      split at found <;> (try split at found) <;> cases found <;> rfl
    exact namedParameter_lowered formed (offsets c (Cst.mem_subtrees_self c)) kind name

end Parameters

/-! ### The walk over a parameter list -/

section Scan

variable (b : Buffer) (ends : Nat → Prop) (params : Cst)

/-- What the walk over a parameter list keeps, with `todo` the children still to come: its
argument nodes are lowered parameter trees inside the list, in order and before every child to
come; block locals only once `;` was seen; and a trailing comma after every ordinary parameter,
before every block local and every child to come. -/
structure ScanInvariant (s : ParameterScan) (todo : List Cst) : Prop where
  nodes : ∀ p ∈ s.params ++ s.shadow, Faithful b ends p ∧ ParameterTree p ∧
    params.start ≤ p.span.start ∧ p.span.stop ≤ params.stop ∧ ∀ k ∈ todo, p.span.stop ≤ k.start
  sorted : (s.params ++ s.shadow).Pairwise fun a b => a.span.stop ≤ b.span.start
  locals : s.blockLocals = false → s.shadow = []
  comma : ∀ comma, s.trailingComma = some comma → ends comma.stop ∧ params.start ≤ comma.start ∧
    comma.start ≤ comma.stop ∧ comma.stop ≤ params.stop ∧ (∀ k ∈ todo, comma.stop ≤ k.start) ∧
    (∀ p ∈ s.params, p.span.stop ≤ comma.start) ∧ ∀ q ∈ s.shadow, comma.stop ≤ q.span.start

/-- The walk's state once a child's token is taken in: the invariant over the children after
it, with every argument node and every comma of the block locals before the child. -/
structure TokenSeen (s : ParameterScan) (child : Cst) (todo : List Cst) : Prop where
  invariant : ScanInvariant b ends params s todo
  nodes_before : ∀ p ∈ s.params ++ s.shadow, p.span.stop ≤ child.start
  comma_before : ∀ comma, s.trailingComma = some comma → s.blockLocals = true →
    comma.stop ≤ child.start

variable {b ends params}

theorem ScanInvariant.start :
    ScanInvariant b ends params {} params.children :=
  ⟨fun _ member => by simp at member, List.Pairwise.nil, fun _ => rfl,
    fun _ found => by simp at found⟩

section Step

variable {s : ParameterScan} {child : Cst} {todo : List Cst}
  (invariant : ScanInvariant b ends params s (child :: todo))

include invariant

theorem ScanInvariant.later : ScanInvariant b ends params s todo := by
  refine ⟨fun p member => ?_, invariant.sorted, invariant.locals, fun comma found => ?_⟩
  · obtain ⟨faithful, tree, start, stop, after⟩ := invariant.nodes p member
    exact ⟨faithful, tree, start, stop, fun k k_in => after k (List.mem_cons_of_mem _ k_in)⟩
  · obtain ⟨e, s1, s2, s3, after, s4, s5⟩ := invariant.comma comma found
    exact ⟨e, s1, s2, s3, fun k k_in => after k (List.mem_cons_of_mem _ k_in), s4, s5⟩

theorem TokenSeen.of_other : TokenSeen b ends params s child todo :=
  ⟨invariant.later, fun p member => (invariant.nodes p member).2.2.2.2 child
    List.mem_cons_self, fun comma found _ => (invariant.comma comma found).2.2.2.2.1 child
      List.mem_cons_self⟩

/-- A `;` begins the block locals. -/
theorem TokenSeen.of_semicolon :
    TokenSeen b ends params { s with blockLocals := true } child todo :=
  let seen := TokenSeen.of_other invariant
  ⟨⟨seen.invariant.nodes, seen.invariant.sorted, (fun never => nomatch never),
    seen.invariant.comma⟩, seen.nodes_before, fun comma found _ =>
      (invariant.comma comma found).2.2.2.2.1 child List.mem_cons_self⟩

/-- A `,` while no block locals began is the trailing comma, until a parameter follows it. -/
theorem TokenSeen.of_comma (locals : s.blockLocals = false) (formed : child.Formed)
    (offsets : ∀ x ∈ child.subtrees, ends x.start ∧ ends x.stop)
    (inside : params.start ≤ child.start ∧ child.stop ≤ params.stop)
    (before : ∀ k ∈ todo, child.stop ≤ k.start) :
    TokenSeen b ends params { s with trailingComma := some child } child todo := by
  let seen := TokenSeen.of_other invariant
  have ordered := formed.placed.ordered
  refine ⟨⟨seen.invariant.nodes, seen.invariant.sorted, seen.invariant.locals,
    fun comma found => ?_⟩, seen.nodes_before, fun comma _ late => by simp [locals] at late⟩
  cases found
  refine ⟨(offsets _ (Cst.mem_subtrees_self _)).2, inside.1, ordered, inside.2, before,
    fun p member => (invariant.nodes p (List.mem_append_left _ member)).2.2.2.2 _ List.mem_cons_self,
    fun q member => ?_⟩
  simp [invariant.locals locals] at member

end Step

/-- The facts a new argument node from a child of the list brings. -/
theorem new_node_facts {child : Cst} {todo : List Cst} {p : Node}
    (lowered : Lowered b ends child p) (tree : ParameterTree p)
    (inside : params.start ≤ child.start ∧ child.stop ≤ params.stop)
    (before : ∀ k ∈ todo, child.stop ≤ k.start) :
    Faithful b ends p ∧ ParameterTree p ∧ params.start ≤ p.span.start ∧
      p.span.stop ≤ params.stop ∧ ∀ k ∈ todo, p.span.stop ≤ k.start := by
  have := lowered.start_le
  have := lowered.stop_le
  exact ⟨lowered.faithful, tree, by omega, by omega, fun k k_in => by
    have := before k k_in
    omega⟩

section Add

variable {s : ParameterScan} {child : Cst} {todo : List Cst}
  (seen : TokenSeen b ends params s child todo) {p : Node}
  (lowered : Lowered b ends child p) (tree : ParameterTree p)
  (inside : params.start ≤ child.start ∧ child.stop ≤ params.stop)
  (before : ∀ k ∈ todo, child.stop ≤ k.start)

include seen lowered tree inside before

/-- A parameter after `;` is a block local. -/
theorem TokenSeen.shadow (locals : s.blockLocals = true) :
    ScanInvariant b ends params { s with shadow := s.shadow ++ [p] } todo := by
  have fresh := new_node_facts lowered tree inside before
  have start := lowered.start_le
  refine ⟨fun q member => ?_, ?_, fun never => by simp [locals] at never, fun comma found => ?_⟩
  · rw [← List.append_assoc] at member
    rcases List.mem_append.1 member with old | new
    · exact seen.invariant.nodes q old
    · rw [List.mem_singleton.1 new]
      exact fresh
  · rw [← List.append_assoc, List.pairwise_append]
    refine ⟨seen.invariant.sorted, List.pairwise_singleton _ _, fun q q_in r r_in => ?_⟩
    rw [List.mem_singleton.1 r_in]
    have := seen.nodes_before q q_in
    omega
  · obtain ⟨e, s1, s2, s3, after, s4, s5⟩ := seen.invariant.comma comma found
    refine ⟨e, s1, s2, s3, after, s4, fun q member => ?_⟩
    rcases List.mem_append.1 member with old | new
    · exact s5 q old
    · rw [List.mem_singleton.1 new]
      have := seen.comma_before comma found locals
      omega

/-- A parameter before `;` is an ordinary one, and cancels the trailing comma. -/
theorem TokenSeen.param (locals : s.blockLocals = false) :
    ScanInvariant b ends params { s with params := s.params ++ [p], trailingComma := none } todo := by
  have fresh := new_node_facts lowered tree inside before
  have start := lowered.start_le
  have noShadow := seen.invariant.locals locals
  refine ⟨fun q member => ?_, ?_, fun _ => noShadow, fun comma found => by simp at found⟩
  · simp only [noShadow, List.append_nil] at member
    rcases List.mem_append.1 member with old | new
    · exact seen.invariant.nodes q (List.mem_append_left _ old)
    · rw [List.mem_singleton.1 new]
      exact fresh
  · simp only [noShadow, List.append_nil, List.pairwise_append]
    have old := seen.invariant.sorted
    rw [noShadow, List.append_nil] at old
    refine ⟨old, List.pairwise_singleton _ _, fun q q_in r r_in => ?_⟩
    rw [List.mem_singleton.1 r_in]
    have := seen.nodes_before q (List.mem_append_left _ q_in)
    omega

end Add

/-- **One step of the walk keeps the invariant.** -/
theorem ScanInvariant.step {s : ParameterScan} {child : Cst} {todo : List Cst}
    (invariant : ScanInvariant b ends params s (child :: todo)) (formed : child.Formed)
    (offsets : ∀ x ∈ child.subtrees, ends x.start ∧ ends x.stop)
    (inside : params.start ≤ child.start ∧ child.stop ≤ params.stop)
    (before : ∀ k ∈ todo, child.stop ≤ k.start) :
    ScanInvariant b ends params (ParameterScan.step b s child) todo := by
  -- the token the child may be, then the parameter it may hold
  have seen : TokenSeen b ends params (if child.type == ";" then { s with blockLocals := true }
      else if child.type == "," && !s.blockLocals then { s with trailingComma := some child }
      else s) child todo := by
    split
    · exact TokenSeen.of_semicolon invariant
    · split
      · rename_i comma
        simp only [Bool.and_eq_true, Bool.not_eq_eq_eq_not, Bool.not_true] at comma
        exact TokenSeen.of_comma invariant comma.2 formed offsets inside before
      · exact TokenSeen.of_other invariant
  unfold ParameterScan.step
  generalize (if child.type == ";" then { s with blockLocals := true }
      else if child.type == "," && !s.blockLocals then { s with trailingComma := some child }
      else s) = s' at seen ⊢
  dsimp only
  split
  · exact seen.invariant
  · split
    · exact seen.invariant
    · rename_i p built
      obtain ⟨lowered, tree⟩ := parameter_lowered formed offsets built
      split
      · exact seen.shadow lowered tree inside before ‹_›
      · rename_i ordinary
        exact seen.param lowered tree inside before (by simpa using ordinary)

/-- The walk over children in document order keeps the invariant to the end. -/
theorem ScanInvariant.foldl : ∀ {todo : List Cst} {s : ParameterScan},
    ScanInvariant b ends params s todo → todo.Pairwise (fun a b => a.stop ≤ b.start) →
    (∀ k ∈ todo, k.Formed ∧ (∀ x ∈ k.subtrees, ends x.start ∧ ends x.stop) ∧
      params.start ≤ k.start ∧ k.stop ≤ params.stop) →
    ScanInvariant b ends params (todo.foldl (ParameterScan.step b) s) []
  | [], _, invariant, _, _ => invariant
  | child :: rest, _, invariant, sorted, each => by
    obtain ⟨formed, offsets, start, stop⟩ := each child List.mem_cons_self
    rw [List.pairwise_cons] at sorted
    rw [List.foldl_cons]
    exact ScanInvariant.foldl (invariant.step formed offsets ⟨start, stop⟩ sorted.1) sorted.2
      fun k k_in => each k (List.mem_cons_of_mem _ k_in)

/-- The comma a walk over a well-formed list leaves pending comes after every parameter kept
before the `;`. -/
theorem trailingComma_follows_params {params comma : Cst} (formed : params.Formed)
    (pending : (params.children.foldl (ParameterScan.step b) {}).trailingComma = some comma) :
    comma.start ≤ comma.stop ∧
      ∀ p ∈ (params.children.foldl (ParameterScan.step b) {}).params, p.span.stop ≤ comma.start := by
  -- no offset is asked for, so the invariant is carried with every offset allowed
  have final := ScanInvariant.foldl
    (ScanInvariant.start : ScanInvariant b (fun _ => True) params {} params.children)
    formed.pairwise_children fun k k_in =>
      ⟨formed.child k_in, fun _ _ => ⟨trivial, trivial⟩, formed.inside k_in⟩
  obtain ⟨-, -, ordered, -, -, after, -⟩ := final.comma comma pending
  exact ⟨ordered, after⟩

/-- **The argument nodes of a parameter list** are faithful parameter trees inside the list, in
document order. -/
theorem blockParameters_lowered {params : Cst} (formed : params.Formed)
    (offsets : ∀ x ∈ params.subtrees, ends x.start ∧ ends x.stop) :
    (∀ n ∈ blockParameters b params, Faithful b ends n ∧ ParameterTree n ∧
      params.start ≤ n.span.start ∧ n.span.stop ≤ params.stop) ∧
    (blockParameters b params).Pairwise fun a b => a.span.stop ≤ b.span.start := by
  have final := ScanInvariant.foldl
    (ScanInvariant.start : ScanInvariant b ends params {} params.children)
    formed.pairwise_children fun k k_in => ⟨formed.child k_in, fun x inner =>
      offsets x (Cst.mem_subtrees_trans (Cst.mem_subtrees_of_mem_children k_in) inner),
      formed.inside k_in⟩
  unfold blockParameters
  generalize params.children.foldl (ParameterScan.step b) {} = s at final ⊢
  have facts : ∀ n ∈ s.params ++ s.shadow, Faithful b ends n ∧ ParameterTree n ∧
      params.start ≤ n.span.start ∧ n.span.stop ≤ params.stop :=
    fun n member => (final.nodes n member).imp_right fun rest => ⟨rest.1, rest.2.1, rest.2.2.1⟩
  dsimp only
  split
  · -- a trailing comma wraps the ordinary parameters into one `mlhs` reaching to the comma
    rename_i comma first rest found ordinary
    obtain ⟨commaEnd, commaStart, commaOrdered, commaStop, -, afterParams, beforeLocals⟩ :=
      final.comma comma found
    have sorted := final.sorted
    rw [ordinary] at sorted afterParams facts ⊢
    rw [List.pairwise_append] at sorted
    have bounds := between_first_last (fun x _ => x.span.ordered) sorted.1
    have firstFacts := facts first (List.mem_append_left _ List.mem_cons_self)
    have reach : first.span.start ≤ comma.stop := by
      have := afterParams first List.mem_cons_self
      have := first.span.ordered
      omega
    have mlhs : Faithful b ends (.mk .mlhs ((first :: rest).map Slot.node)
        (spanBetween first.span.start comma.stop) []) := by
      refine Faithful.plain (shapeCheck_nodes (Or.inr (Or.inr (Or.inr rfl))) _)
        ⟨fun x member => ?_, Or.inl (by rw [childNodes_nodes]; exact sorted.1)⟩ ?_ ?_
        fun x member => ?_
      · rw [childNodes_nodes] at member
        have := bounds x member
        have := afterParams x member
        rw [Span.contains_iff]
        simp only [Node.span.eq_1, spanBetween_start, spanBetween_stop]
        omega
      · rw [spanBetween_start]
        exact (firstFacts.1.ends first (Node.mem_nodes_self _)).1
      · rw [spanBetween_stop, Nat.max_eq_right reach]
        exact commaEnd
      · rw [childNodes_nodes] at member
        exact (facts x (List.mem_append_left _ member)).1
    refine ⟨fun n member => ?_, ?_⟩
    · rcases List.mem_append.1 member with wrapped | blockLocal
      · rw [List.mem_singleton.1 wrapped]
        refine ⟨mlhs, ParameterTree.build (Or.inr rfl) fun x x_in => ?_, ?_, ?_⟩
        · rw [childNodes_nodes] at x_in
          exact (facts x (List.mem_append_left _ x_in)).2.1
        · simp only [Node.span.eq_1, spanBetween_start]
          exact firstFacts.2.2.1
        · simp only [Node.span.eq_1, spanBetween_stop, Nat.max_eq_right reach]
          exact commaStop
      · exact facts n (List.mem_append_right _ blockLocal)
    · rw [List.pairwise_append]
      refine ⟨List.pairwise_singleton _ _, sorted.2.1, fun m m_in q q_in => ?_⟩
      rw [List.mem_singleton.1 m_in]
      simp only [Node.span.eq_1, spanBetween_stop, Nat.max_eq_right reach]
      exact beforeLocals q q_in
  · exact ⟨facts, final.sorted⟩

end Scan

end RubyCheck.Ruby.Lower
