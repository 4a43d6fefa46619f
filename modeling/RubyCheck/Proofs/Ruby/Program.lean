import RubyCheck.Proofs.Ruby.Convert

/-!
# Reading a program

**The tree of a well-formed program is laid over the whole buffer, and its messages report
exactly the programs that hold an error.**

The root of the tree a concrete program lowers to is a `begin` node from offset 0 to the end of
the buffer, over the program's statements lowered one by one. When the concrete tree is well
formed and its offsets lie in the buffer, the whole tree is laid over the text: every node passes
its shape check and lies inside its parent, node children follow one another in document order,
and each call's selector lies inside the call after its receiver. Document order fails in one
place, and a pre-order walk of such a tree leaves document order there: the body of a block may
lie before or around the block's args node. It does when a block without a body field has a named
child before its parameters, as the recovery node of a stray byte is.

* `program_faithful`: the root over lowered statements is faithful to the buffer;
* `ofCst_laid`: reading a well-formed program gives a laid tree whose root spans the buffer, with
  messages exactly when the concrete tree holds an error;
* `ofCst_block_out_of_order`: a block statement ending before the block's parameters puts the
  block's body before its args node;
* `stray_byte_block_out_of_order`: the well-formed program `a.map { \x00 |x| }` is one such.
-/

namespace RubyCheck.Ruby

open RubyCheck.Source RubyCheck.Tree Lower

theorem ParseResult.tree_ofCst (b : Buffer) (root : Cst) :
    (ParseResult.ofCst b root).tree = ((program b root).run #[]).1 :=
  rfl

theorem ParseResult.errors_ofCst (b : Buffer) (root : Cst) :
    (ParseResult.ofCst b root).errors =
      if root.hasError && ((program b root).run #[]).2.isEmpty then ["Syntax error"]
      else ((program b root).run #[]).2.toList :=
  rfl

namespace Lower

section Program

variable {b : Buffer} {ends : Nat → Prop} {quiet : Prop}

/-- The root of a program is a `begin` node over the whole buffer, over the program's named
children lowered one by one. -/
theorem program_meets {root : Cst} {post : Cst → Node → Prop}
    (each : ∀ k ∈ root.namedChildren, Meets (convert b [root] k) (post k) quiet) :
    Meets (program b root) (fun tree => ∃ items, List.Forall₂ post root.namedChildren items ∧
      tree = .mk .begin (items.map .node) (spanBetween 0 b.size) []) quiet := by
  unfold program
  exact (namedSubs_meets each).bind fun items related => Meets.pure ⟨items, related, rfl⟩

/-- The root over a program's lowered statements is faithful, when the program ends in the buffer
and the buffer's ends are admitted offsets. -/
theorem program_faithful {root : Cst} {items : List Node} (formed : root.Formed)
    (within : root.stop ≤ b.size) (zero : ends 0) (size : ends b.size)
    (lowered : List.Forall₂ (Lowered b ends) root.namedChildren items) :
    Faithful b ends (.mk .begin (items.map .node) (spanBetween 0 b.size) []) := by
  refine Faithful.plain (shapeCheck_nodes (Or.inr (Or.inr (Or.inl rfl))) _)
    ⟨fun n member => ?_, Or.inl ?_⟩ (by rwa [spanBetween_start]) ?_ fun n member => ?_
  · rw [childNodes_nodes] at member
    obtain ⟨k, k_in, low⟩ := exists_of_forall₂ lowered n member
    have := formed.inside ((Cst.namedChildren_sublist root).subset k_in)
    have := low.stop_le
    rw [Span.contains_iff, Node.span_mk, spanBetween_start, spanBetween_stop]
    omega
  · rw [childNodes_nodes]
    exact Lowered.pairwise lowered formed.pairwise_namedChildren
  · rw [spanBetween_stop, Nat.max_eq_right (Nat.zero_le _)]
    exact size
  · rw [childNodes_nodes] at member
    obtain ⟨k, -, low⟩ := exists_of_forall₂ lowered n member
    exact low.faithful

end Program

/-- **Reading a well-formed program** gives a tree laid over the text: every node passes its shape
check and lies inside its parent, node children follow one another in document order save a
block's body (which may come before the block's args node, out of document order), and every
call's selector lies inside the call after its receiver. The root is a
`begin` node over the whole buffer, and the messages are non-empty exactly when the concrete tree
holds an error. -/
theorem ofCst_laid {b : Buffer} {root : Cst} (formed : root.Formed)
    (offsets : root.OffsetsIn (· ≤ b.size)) :
    (ParseResult.ofCst b root).tree.Laid ∧ (ParseResult.ofCst b root).tree.kind = .begin ∧
      (ParseResult.ofCst b root).tree.span.start = 0 ∧
      (ParseResult.ofCst b root).tree.span.stop = b.size ∧
      ((ParseResult.ofCst b root).errors ≠ [] ↔ root.hasError = true) := by
  -- each statement lowers well, and quietly when the program holds no error
  have each : ∀ k ∈ root.namedChildren,
      Meets (convert b [root] k) (Lowered b (· ≤ b.size) k) (root.hasError = false) :=
    fun k member =>
      have child := (Cst.namedChildren_sublist root).subset member
      (convert_meets k [root] (formed.child child) (offsets.child child)).weaken fun clean =>
        Cst.hasError_of_mem_subtrees clean (Cst.mem_subtrees_of_mem_children child)
  obtain ⟨⟨items, lowered, tree⟩, quietRun⟩ := program_meets each #[]
  have faithful : Faithful b (· ≤ b.size) _ :=
    program_faithful formed offsets.self.2 (Nat.zero_le _) (Nat.le_refl _) lowered
  rw [ParseResult.errors_ofCst, ParseResult.tree_ofCst, tree]
  refine ⟨faithful.laid, rfl, spanBetween_start _ _, by simp, ?_⟩
  -- without an error nothing is reported; with one, the messages or the fallback message
  cases clean : root.hasError
  · simp [quietRun clean]
  · by_cases silent : ((program b root).run #[]).2.isEmpty
    · simp [silent]
    · have reported : ((program b root).run #[]).2 ≠ #[] := fun empty => silent (by rw [empty]; rfl)
      simpa [silent] using reported

/-- The concrete call `a.map { \x00 |x| }`: the stray byte is a recovery node between the block's
brace and its parameters, and the block has no body field. -/
def strayByteCall : Cst :=
  .mk "call" true none false 0 15 [
    .mk "identifier" true (some "receiver") false 0 1 [],
    .mk "." false (some "operator") false 1 2 [],
    .mk "identifier" true (some "method") false 2 5 [],
    .mk "block" true (some "block") false 6 15 [
      .mk "\x7b" false none false 6 7 [],
      .mk "ERROR" true none false 8 9 [.mk "ERROR" true none false 8 9 []],
      .mk "block_parameters" true (some "parameters") false 10 13 [
        .mk "|" false none false 10 11 [],
        .mk "identifier" true none false 11 12 [],
        .mk "|" false none false 12 13 []],
      .mk "\x7d" false none false 14 15 []]]

/-- The text `a.map { \x00 |x| }`, its braces escaped. -/
def strayByteText : String := "a.map \x7b \x00 |x| \x7d"

/-- The concrete program `a.map { \x00 |x| }`. -/
def strayByteProgram : Cst :=
  .mk "program" true none false 0 15 [strayByteCall]

/-- The stray-byte program is well formed and its offsets lie in its text, so reading it gives a
laid tree over the text, with messages for its recovery nodes. -/
theorem stray_byte_program_laid :
    strayByteProgram.Formed ∧
      strayByteProgram.OffsetsIn (· ≤ (Buffer.ofText strayByteText).size) ∧
      (ParseResult.ofCst (Buffer.ofText strayByteText) strayByteProgram).tree.Laid ∧
      (ParseResult.ofCst (Buffer.ofText strayByteText) strayByteProgram).tree.kind = .begin ∧
      (ParseResult.ofCst (Buffer.ofText strayByteText) strayByteProgram).tree.span.start = 0 ∧
      (ParseResult.ofCst (Buffer.ofText strayByteText) strayByteProgram).tree.span.stop =
        (Buffer.ofText strayByteText).size ∧
      ((ParseResult.ofCst (Buffer.ofText strayByteText) strayByteProgram).errors ≠ [] ↔
        strayByteProgram.hasError = true) := by
  have formed : strayByteProgram.Formed := by decide
  have offsets : strayByteProgram.OffsetsIn (· ≤ (Buffer.ofText strayByteText).size) := by
    unfold Cst.OffsetsIn
    decide
  exact ⟨formed, offsets, ofCst_laid formed offsets⟩

/-- **A block statement ending before the block's parameters** puts the lowered body before the
block's args node: the node children of the block are then out of document order. -/
theorem ofCst_block_out_of_order {b : Buffer} {root c blk params x : Cst} {rest : List Cst}
    (formed : root.Formed) (top : c ∈ root.namedChildren) (call : c.type = "call")
    (found : c.childByField "block" = some blk)
    (foundParams : blk.childByField "parameters" = some params)
    (statements : (blockStatements blk).map Subtype.val = x :: rest) (early : x.stop < params.stop) :
    ¬ ∀ m ∈ (ParseResult.ofCst b root).tree.nodes,
      m.childNodes.Pairwise fun y z => y.span.stop ≤ z.span.start := by
  intro sorted
  have cFormed := formed.child ((Cst.namedChildren_sublist root).subset top)
  have blk_in := Cst.mem_children_of_childByField found
  have blkFormed := cFormed.child blk_in
  have paramsFormed := blkFormed.child (Cst.mem_children_of_childByField foundParams)
  have blkShaped := ((cFormed c (Cst.mem_subtrees_self c)).2 call).block blk (by simp [found])
  obtain ⟨first, others, children, anonymous, fieldless⟩ := blkShaped.opening
  obtain ⟨drawn, -, -⟩ := blockStatements_placed blkFormed blkShaped children anonymous fieldless
  -- the block's statements lower with no assumption on offsets
  have lowerStatement : ∀ y ∈ (blockStatements blk).map Subtype.val, ∀ ancestors,
      Meets (convert b ancestors y) (Lowered b (fun _ => True) y) False :=
    fun y member ancestors => (convert_meets y ancestors (blkFormed.of_mem (drawn y member).1)
      fun _ _ => ⟨trivial, trivial⟩).weaken False.elim
  -- the call lowers to the block node around its send
  have each : ∀ k ∈ root.namedChildren, Meets (convert b [root] k) (fun n => k = c →
      ∃ send lowered, List.Forall₂ (Lowered b fun _ => True)
        ((blockStatements blk).map Subtype.val) lowered ∧
      n = blockNode b c blk send [root] lowered ((blockStatements blk).map Subtype.val)) False := by
    intro k _
    by_cases same : k = c
    · subst same
      exact (convert_meets_of_call call False.elim (convertCall_block [root] found
        lowerStatement)).mono fun n holds _ => holds
    · exact (Meets.any _).mono fun n _ never => absurd never same
  obtain ⟨items, related, tree⟩ := (program_meets each #[]).1
  obtain ⟨n, n_in, holds⟩ := exists_of_forall₂_left related c top
  obtain ⟨send, lowered, lowRel, rfl⟩ := holds rfl
  rw [statements] at lowRel
  obtain ⟨s, ls, rfl⟩ : ∃ s ls, lowered = s :: ls := by
    cases lowRel
    exact ⟨_, _, rfl⟩
  have lowS := (List.forall₂_cons.1 lowRel).1
  obtain ⟨t, built, start⟩ := sequence_cons x rest s ls
  -- the block node is a node of the tree, with the body after the args node
  have member : blockNode b c blk send [root] (s :: ls) ((blockStatements blk).map Subtype.val) ∈
      (ParseResult.ofCst b root).tree.nodes := by
    rw [ParseResult.tree_ofCst, tree]
    exact Node.nodes_subset_of_mem_childNodes (by simpa using n_in) _ (Node.mem_nodes_self _)
  have order := sorted _ member
  simp only [blockNode, foundParams, statements, built] at order
  have argsBefore := (List.pairwise_cons.1 (List.pairwise_cons.1 order).2).1 t (by simp [slotOf])
  rw [Node.span_mk, paramsFormed.span_stop] at argsBefore
  -- the body starts at the first statement or its concrete node, both ending before `params`
  have := lowS.start_le
  have := lowS.stop_le
  have := s.span.ordered
  rcases start with start | start <;> omega

/-- In the well-formed stray-byte program, the block's body lies before its args node. -/
theorem stray_byte_block_out_of_order :
    strayByteProgram.Formed ∧
      ¬ ∀ m ∈ (ParseResult.ofCst (Buffer.ofText strayByteText) strayByteProgram).tree.nodes,
        m.childNodes.Pairwise fun y z => y.span.stop ≤ z.span.start := by
  have formed : strayByteProgram.Formed := by decide
  exact ⟨formed, ofCst_block_out_of_order (c := strayByteCall) formed (List.mem_singleton_self _)
    rfl rfl rfl rfl (by decide)⟩

end Lower

end RubyCheck.Ruby
