import RubyCheck.Proofs.Lint.ZipOffenses
import RubyCheck.Proofs.Ruby.Program
import RubyCheck.Proofs.Edit.Boundaries
import RubyCheck.Proofs.Pattern.Structure
import Mathlib

/-!
# The corrections of the zip rule

**On a text whose concrete tree, from any reader, is well formed with every offset at a character
boundary, the corrections the zip rule reports are non-empty, lie in the text between character
boundaries, start after the receivers of their blocks and do not overlap, so applying them never
fails.**

The correction of an offending block replaces the range from its call's method name to the
block's end with `zip`. Two such ranges cannot overlap because of what the patterns fix:

* `UseZip.block_mem_receiver`: below a block either pattern matches, every block lies in the
  receiver of the block's call. The call has no arguments, and the parameters and the body the
  patterns fix are leaves holding text.
* `UseZip.fixes_of_verdict`: in a tree faithful to its text, the correction of an offending block
  starts after the call's receiver, at the method name, which is not empty since it reads `map`,
  and stops at the block's end.
* `UseZip.Fixes.apart`: of two offending blocks in pre-order, the later one lies after the
  earlier one, and so does its correction, or lies in the earlier one's receiver, and its
  correction stops before the earlier one's starts.
* `lintString_useZip_edits`: the statement for the text;
* `lintString_useZip_edits_mapWrap`: `a.map { |x| [x] }` meets its hypotheses, with one correction;
* `fixStringWith_mapWrap`: fixing it takes one pass, to `a.zip`, which leaves nothing to fix.
-/

namespace RubyCheck.Tree

/-- A valid node of a kind that holds text has no node children. -/
theorem Node.childNodes_eq_nil_of_holdsText {n : Node}
    (valid : shapeCheck n.kind (n.children.map Slot.part) = none)
    (holds : n.kind.holdsText = true) : n.childNodes = [] := by
  obtain ⟨t, children⟩ := Node.text_children holds valid
  simp [Node.childNodes, children]

/-- The nodes of a node whose one child is a valid node holding text: the two of them. -/
theorem Node.mem_nodes_of_single {n m x : Node} (children : n.children = [.node m])
    (valid : m.Valid) (holds : m.kind.holdsText = true) (member : x ∈ n.nodes) :
    x = n ∨ x = m := by
  have leaf : m.childNodes = [] :=
    Node.childNodes_eq_nil_of_holdsText (valid m (Node.mem_nodes_self m)) holds
  have single : n.childNodes = [m] := by simp [Node.childNodes, children]
  rw [Node.nodes_eq, single, List.flatMap_singleton, Node.nodes_eq, leaf] at member
  simpa using member

end RubyCheck.Tree

namespace RubyCheck.Source

/-- The text of an empty span is empty. -/
theorem Buffer.slice_eq_empty (b : Buffer) {s : Span} (empty : s.stop ≤ s.start) :
    b.slice s = "" := by
  have none : (b.octets s).size = 0 := by
    simp only [Buffer.octets, ByteArray.size_extract]
    omega
  rw [Buffer.slice, Text.Utf8.decodeLossy, Text.Utf8.decodeLossyFrom, dif_neg (by omega)]

/-- An offset at a character boundary of a text lies within the text. -/
theorem le_utf8ByteSize_of_isValid {text : String} {i : Nat}
    (valid : String.Pos.Raw.IsValid text ⟨i⟩) : i ≤ text.utf8ByteSize := by
  simpa [String.Pos.Raw.le_iff] using valid.le_rawEndPos

end RubyCheck.Source

namespace RubyCheck.Ruby

open RubyCheck.Source RubyCheck.Tree Lower

/-- Reading a well-formed program gives a tree faithful to the buffer, for any admitted offsets
that include the program's own, the buffer's start and its end. -/
theorem ofCst_faithful {b : Buffer} {ends : Nat → Prop} {root : Cst} (formed : root.Formed)
    (offsets : root.OffsetsIn ends) (zero : ends 0) (size : ends b.size)
    (within : root.stop ≤ b.size) : Faithful b ends (ParseResult.ofCst b root).tree := by
  have each : ∀ k ∈ root.namedChildren, Meets (convert b [root] k) (Lowered b ends k) False :=
    fun k member =>
      have child := (Cst.namedChildren_sublist root).subset member
      (convert_meets k [root] (formed.child child) (offsets.child child)).weaken False.elim
  obtain ⟨⟨items, lowered, tree⟩, -⟩ := program_meets each #[]
  rw [ParseResult.tree_ofCst, tree]
  exact program_faithful formed within zero size lowered

/-- Parsing a text whose concrete tree, as `read` gives it, is well formed with its offsets at
character boundaries gives a tree faithful to the text with its offsets at character
boundaries. -/
theorem parseWith_faithful {read : String → Cst} {text : String} (name : String)
    (formed : (read text).Formed)
    (boundaries : (read text).OffsetsIn fun i => String.Pos.Raw.IsValid text ⟨i⟩) :
    Faithful (Buffer.ofText text name) (fun i => String.Pos.Raw.IsValid text ⟨i⟩)
      (parseWith read text name).tree := by
  have size : (Buffer.ofText text name).size = text.utf8ByteSize := by
    simp [Buffer.size, Buffer.ofText]
  have whole : String.Pos.Raw.IsValid text ⟨text.utf8ByteSize⟩ := by
    simpa [String.rawEndPos] using String.Pos.Raw.isValid_rawEndPos (s := text)
  refine ofCst_faithful formed boundaries String.Pos.Raw.isValid_zero (by rwa [size]) ?_
  rw [size]
  exact le_utf8ByteSize_of_isValid boundaries.self.2

/-- The concrete tree of `a.map { |x| [x] }`: a call of `map` on `a`, with a block of one
parameter whose body is the array of that parameter. -/
def mapWrapProgram : Cst :=
  .mk "program" true none false 0 17 [
    .mk "call" true none false 0 17 [
      .mk "identifier" true (some "receiver") false 0 1 [],
      .mk "." false (some "operator") false 1 2 [],
      .mk "identifier" true (some "method") false 2 5 [],
      .mk "block" true (some "block") false 6 17 [
        .mk "\x7b" false none false 6 7 [],
        .mk "block_parameters" true (some "parameters") false 8 11 [
          .mk "|" false none false 8 9 [],
          .mk "identifier" true none false 9 10 [],
          .mk "|" false none false 10 11 []],
        .mk "block_body" true (some "body") false 12 15 [
          .mk "array" true none false 12 15 [
            .mk "[" false none false 12 13 [],
            .mk "identifier" true none false 13 14 [],
            .mk "]" false none false 14 15 []]],
        .mk "\x7d" false none false 16 17 []]]]

/-- The concrete tree of `a.zip`, the correction of `a.map { |x| [x] }`: a call of `zip` on `a`. -/
def zipProgram : Cst :=
  .mk "program" true none false 0 5 [
    .mk "call" true none false 0 5 [
      .mk "identifier" true (some "receiver") false 0 1 [],
      .mk "." false (some "operator") false 1 2 [],
      .mk "identifier" true (some "method") false 2 5 []]]

end RubyCheck.Ruby

namespace RubyCheck.Lint

open RubyCheck.Source RubyCheck.Tree RubyCheck.Pattern

namespace UseZip

/-! ### What lies below an offending block -/

/-- What a pattern of one kind over one child of one kind matches: a node of the first kind whose
one child is a node of the second. -/
theorem sat_single {σ : Captures} {k k' : Kind} {q : Pattern} {v : Slot Node}
    {names : List String} (sat : Sat σ (.kind k [.kind k' [q]]) v names) :
    ∃ n m, v = .node n ∧ n.kind = k ∧ n.children = [.node m] ∧ m.kind = k' := by
  rcases sat with _ | _ | _ | _ | @⟨_, n, _, _, kinds, children⟩
  obtain ⟨m, single, innerKind⟩ : ∃ m, n.children = [.node m] ∧ m.kind = k' := by
    generalize n.children = cs at children ⊢
    rcases children with _ | _ | ⟨inner, rest⟩
    rcases rest with _ | _ | _
    rcases inner with _ | _ | _ | _ | @⟨_, m, _, _, innerKind, -⟩
    exact ⟨m, rfl, innerKind⟩
  exact ⟨n, m, rfl, kinds, single, innerKind⟩

/-- The nodes of a call of `map` on one receiver slot: the call, and the receiver's nodes. -/
theorem mem_nodes_of_mapCall {s x : Node} {r : Slot Node}
    (children : s.children = [r, .atom (.text "map")]) (member : x ∈ s.nodes) :
    x = s ∨ ∃ c, r = .node c ∧ x ∈ c.nodes := by
  rw [Node.nodes_eq] at member
  rcases List.mem_cons.1 member with rfl | below
  · exact .inl rfl
  · cases r with
    | node c => exact .inr ⟨c, rfl, by simpa [Node.childNodes, children] using below⟩
    | atom a => simp [Node.childNodes, children] at below

/-- The children of a block either pattern matches: the call of `map` on one receiver slot,
then a parameter list of one `arg` or the arity 1, then an array of one local. -/
theorem children_of_accepts {K : Node}
    (accepted : (accepts wrapsParameter K || accepts wrapsNumbered K) = true) :
    ∃ s r second B l, K.children = [.node s, second, .node B] ∧ s.kind = .send ∧
      s.children = [r, .atom (.text "map")] ∧ B.kind = .array ∧ B.children = [.node l] ∧
      l.kind = .lvar ∧
      (second = .atom (.int 1) ∨ ∃ A g, second = .node A ∧ A.kind = .args ∧
        A.children = [.node g] ∧ g.kind = .arg) := by
  rcases Bool.or_eq_true_iff.1 accepted with parameter | numbered
  · obtain ⟨σ, names, sat⟩ := sat_of_accepts wellFormed_wrapsParameter parameter
    rcases sat with _ | _ | _ | _ | ⟨-, children⟩
    generalize K.children = cs at children ⊢
    rcases children with _ | _ | ⟨send, children⟩
    rcases children with _ | _ | ⟨params, children⟩
    rcases children with _ | _ | ⟨body, children⟩
    rcases children with _ | _ | _
    obtain ⟨s, r, rfl, sent, called⟩ := mapCall_of_sat send
    obtain ⟨A, g, rfl, listed, single, arg⟩ := sat_single params
    obtain ⟨B, l, rfl, array, one, lvar⟩ := sat_single body
    exact ⟨s, r, _, B, l, rfl, sent, called, array, one, lvar,
      .inr ⟨A, g, rfl, listed, single, arg⟩⟩
  · obtain ⟨σ, names, sat⟩ := sat_of_accepts wellFormed_wrapsNumbered numbered
    rcases sat with _ | _ | _ | _ | ⟨-, children⟩
    generalize K.children = cs at children ⊢
    rcases children with _ | _ | ⟨send, children⟩
    rcases children with _ | _ | ⟨arity, children⟩
    rcases children with _ | _ | ⟨body, children⟩
    rcases children with _ | _ | _
    obtain ⟨s, r, rfl, sent, called⟩ := mapCall_of_sat send
    rcases arity with _ | _ | _
    obtain ⟨B, l, rfl, array, one, lvar⟩ := sat_single body
    exact ⟨s, r, _, B, l, rfl, sent, called, array, one, lvar, .inl rfl⟩

/-- Nodes of the kinds the patterns fix below the call are no blocks. -/
theorem not_block_of_fixed {x : Node} {k : Kind} (kind : x.kind = k)
    (fixed : k = .send ∨ k = .args ∨ k = .arg ∨ k = .array ∨ k = .lvar) :
    x.kind.isBlock = false := by
  rcases fixed with rfl | rfl | rfl | rfl | rfl <;> simp [kind, Kind.isBlock, Kind.blocks]

/-- **Below an offending block, every block lies in the receiver of the block's call.** The call
has no arguments, and the parameter list and the body the patterns fix hold one leaf each. -/
theorem block_mem_receiver {K x : Node}
    (accepted : (accepts wrapsParameter K || accepts wrapsNumbered K) = true) (valid : K.Valid)
    (below : x ∈ K.nodes.tail) (block : x.kind.isBlock = true) :
    ∃ c, callReceiver K = some c ∧ c ∈ K.nodes ∧ x ∈ c.nodes := by
  obtain ⟨s, r, second, B, l, children, sent, called, array, one, lvar, params⟩ :=
    children_of_accepts accepted
  have isCall : s.kind.isCall = true := by simp [sent, Kind.isCall, Kind.calls]
  rw [callReceiver_eq (call_of_accepts accepted).1 children isCall]
  have validB : B.Valid := valid.child (show Slot.node B ∈ K.children by simp [children])
  have validL : l.Valid := validB.child (show Slot.node l ∈ B.children by simp [one])
  -- a block below the call lies in the receiver; below the parameters and the body there is none
  have inCall : x ∈ s.nodes → ∃ c, s.nodeAt? 0 = some c ∧ c ∈ K.nodes ∧ x ∈ c.nodes :=
    fun inner => by
      rcases mem_nodes_of_mapCall called inner with rfl | ⟨c, rfl, inner⟩
      · simp [not_block_of_fixed sent (.inl rfl)] at block
      · have callChild : s ∈ K.childNodes := by simp [Node.childNodes, children]
        have receiverChild : c ∈ s.childNodes := by simp [Node.childNodes, called]
        exact ⟨c, by simp [Node.nodeAt?, called], Node.nodes_subset_of_mem_childNodes callChild c
          (Node.nodes_subset_of_mem_childNodes receiverChild c (Node.mem_nodes_self c)), inner⟩
  have notBody : x ∉ B.nodes := fun inner => by
    rcases Node.mem_nodes_of_single one validL (by simp [lvar, Kind.holdsText, Kind.named]) inner
      with rfl | rfl
    · simp [not_block_of_fixed array (by simp)] at block
    · simp [not_block_of_fixed lvar (by simp)] at block
  rw [Node.nodes_tail] at below
  obtain ⟨c, child, inner⟩ := List.mem_flatMap.1 below
  rcases params with rfl | ⟨A, g, rfl, listed, single, arg⟩
  · simp only [Node.childNodes, children, List.filterMap_cons, List.filterMap_nil,
      List.mem_cons, List.not_mem_nil, or_false] at child
    rcases child with rfl | rfl
    · exact inCall inner
    · exact absurd inner notBody
  · have validA : A.Valid := valid.child (show Slot.node A ∈ K.children by simp [children])
    have validG : g.Valid := validA.child (show Slot.node g ∈ A.children by simp [single])
    simp only [Node.childNodes, children, List.filterMap_cons, List.filterMap_nil,
      List.mem_cons, List.not_mem_nil, or_false] at child
    rcases child with rfl | rfl | rfl
    · exact inCall inner
    · rcases Node.mem_nodes_of_single single validG
        (by simp [arg, Kind.holdsText, Kind.named, Kind.parameters]) inner with rfl | rfl
      · simp [not_block_of_fixed listed (by simp)] at block
      · simp [not_block_of_fixed arg (by simp)] at block
    · exact absurd inner notBody

/-! ### The correction of one block -/

/-- The correction of the verdict on a block whose first child is `s`: from the start of `s`'s
method name to the block's end, with `zip`. -/
theorem edit_of_verdict {buffer : Buffer} {K s : Node} {d : Diagnostic}
    (first : K.nodeAt? 0 = some s) (found : verdict buffer K = .ok d) :
    ∃ sel, s.selector = some sel ∧
      ∃ h : sel.start ≤ K.span.stop,
        d.edit = some (Edit.replace ⟨sel.start, K.span.stop, h⟩ "zip") := by
  unfold verdict at found
  rw [first, Option.getD_some] at found
  cases selected : s.selector with
  | none => simp [selected] at found
  | some sel =>
    simp only [selected, Option.elim] at found
    split_ifs at found with h
    cases found
    exact ⟨sel, rfl, h, rfl⟩

/-- What the correction `e` of the offending block `K` does, with offsets that `ends` admits: it
replaces with `zip` a non-empty range that starts after the receiver of `K`'s call, within `K`,
and stops where `K` does. -/
structure Fixes (ends : Nat → Prop) (K : Node) (e : Edit) : Prop where
  receiver : ∃ c, callReceiver K = some c ∧ c.span.stop ≤ e.span.start
  within : K.span.start ≤ e.span.start
  stop : e.span.stop = K.span.stop
  nonempty : e.span.start < e.span.stop
  bounded : ends e.span.start ∧ ends e.span.stop
  replacement : e.replacement = "zip"

/-- **The correction of an offending block** in a tree faithful to its text: its method name reads
`map`, so it is not empty; it lies inside the call, after the receiver. -/
theorem fixes_of_verdict {b : Buffer} {ends : Nat → Prop} {tree K : Node}
    (faithful : Ruby.Lower.Faithful b ends tree) (member : K ∈ tree.nodes)
    (offending : offends K = true)
    {d : Diagnostic} (found : verdict b K = .ok d) : ∃ e, d.edit = some e ∧ Fixes ends K e := by
  obtain ⟨accepted, hasReceiver⟩ := Bool.and_eq_true_iff.1 offending
  obtain ⟨block, s, r, more, children, sent, called⟩ := call_of_accepts accepted
  have isCall : s.kind.isCall = true := by simp [sent, Kind.isCall, Kind.calls]
  have first : K.nodeAt? 0 = some s := by simp [Node.nodeAt?, children]
  obtain ⟨sel, selected, h, edited⟩ := edit_of_verdict first found
  have callChild : s ∈ K.childNodes := by simp [Node.childNodes, children]
  have callMember : s ∈ tree.nodes := Node.mem_nodes_trans member
    (Node.nodes_subset_of_mem_childNodes callChild s (Node.mem_nodes_self s))
  -- the selector lies inside the call, after the receiver, and the call inside the block
  obtain ⟨c, receiver⟩ := Option.isSome_iff_exists.1 hasReceiver
  obtain ⟨inCall, afterReceiver⟩ := faithful.laid.placed s callMember isCall sel selected
  have after := afterReceiver c (by rwa [← callReceiver_eq block children isCall])
  have selInCall := Span.contains_iff.1 inCall
  have callInBlock := Span.contains_iff.1 ((faithful.laid.arranged K member).inside s callChild)
  -- the method name reads `map`, so its span is not empty
  have reads : s.textAt 1 = b.slice sel := faithful.named s callMember sel selected
  have nonempty : sel.start < sel.stop := by
    by_contra empty
    rw [Buffer.slice_eq_empty b (Nat.le_of_not_lt empty)] at reads
    simp [Node.textAt, called] at reads
  have selEnds : ends sel.start ∧ ends sel.stop := by
    obtain ⟨l, listed, rfl⟩ := Option.map_eq_some_iff.1 selected
    exact (faithful.ends s callMember).2.2 l (List.mem_of_find?_eq_some listed)
  refine ⟨_, edited, ⟨⟨c, receiver, after⟩, ?_, rfl, ?_, ⟨selEnds.1, (faithful.ends K member).2.1⟩,
    rfl⟩⟩
  · exact Nat.le_trans callInBlock.1 selInCall.1
  · exact Nat.lt_of_lt_of_le nonempty (Nat.le_trans selInCall.2 callInBlock.2)

/-! ### Two corrections -/

/-- **The corrections of two offending blocks do not overlap.** Of two offending blocks in
pre-order, the later one lies after the earlier one, and so does its correction; or it lies in
the earlier one's receiver, and its correction stops before the earlier one's starts. -/
theorem Fixes.apart {ends : Nat → Prop} {tree K₁ K₂ : Node} (laid : tree.Laid)
    (member : K₁ ∈ tree.nodes) (offending₁ : offends K₁ = true) (offending₂ : offends K₂ = true)
    (order : NestedOrApart K₁ K₂) {e₁ e₂ : Edit} (fixes₁ : Fixes ends K₁ e₁)
    (fixes₂ : Fixes ends K₂ e₂) : e₁.Apart e₂ := by
  have accepted₁ := (Bool.and_eq_true_iff.1 offending₁).1
  have block₁ := (call_of_accepts accepted₁).1
  have block₂ := (call_of_accepts (Bool.and_eq_true_iff.1 offending₂).1).1
  rw [Edit.apart_iff]
  rcases order with nested | after | argument
  · -- the later block lies in the earlier one's receiver
    obtain ⟨c, receiver, inBlock, inner⟩ :=
      block_mem_receiver accepted₁ (laid.of_mem member).valid nested block₂
    obtain ⟨c', receiver', beforeEdit⟩ := fixes₁.receiver
    obtain rfl : c' = c := Option.some.inj (receiver'.symm.trans receiver)
    have arranged := (laid.of_mem (Node.mem_nodes_trans member inBlock)).arranged
    have within := Span.contains_iff.1 (Node.contains_of_mem_nodes arranged inner)
    exact .inl (by rw [fixes₂.stop]; omega)
  · exact .inr (by rw [fixes₁.stop]; have := fixes₂.within; omega)
  · have blocks : K₁.kind ∈ Kind.blocks := by simpa [Kind.isBlock] using block₁
    simp only [Kind.blocks, List.mem_cons, List.not_mem_nil, or_false] at blocks
    rcases blocks with kind | kind <;>
      simp [kind, Kind.isArgument, Kind.isParameter, Kind.parameters] at argument

/-- **The corrections of offending blocks in pre-order** each fix their block, and no two of them
overlap. -/
theorem fixes_of_mapM {b : Buffer} {ends : Nat → Prop} {tree : Node}
    (faithful : Ruby.Lower.Faithful b ends tree) :
    ∀ {blocks : List Node} {ds : List Diagnostic}, blocks.Pairwise NestedOrApart →
      (∀ K ∈ blocks, K ∈ tree.nodes ∧ offends K = true) → blocks.mapM (verdict b) = .ok ds →
      (∀ d ∈ ds, ∃ K ∈ blocks, ∃ e, d.edit = some e ∧ Fixes ends K e) ∧
        (ds.filterMap (·.edit)).Pairwise Edit.Apart
  | [], ds, _, _, result => by
    cases result
    simp
  | K :: others, ds, pairwise, offending, result => by
    rw [List.mapM_cons] at result
    cases found : verdict b K with
    | error err =>
      rw [found] at result
      cases result
    | ok d =>
      cases later : others.mapM (verdict b) with
      | error err =>
        rw [found, ok_bind_eq, later] at result
        cases result
      | ok ds' =>
        simp only [found, later, ok_bind_eq] at result
        cases result
        obtain ⟨member, offends⟩ := offending K List.mem_cons_self
        obtain ⟨e, edited, fixes⟩ := fixes_of_verdict faithful member offends found
        obtain ⟨each, apart⟩ := fixes_of_mapM faithful (List.pairwise_cons.1 pairwise).2
          (fun K' inRest => offending K' (List.mem_cons_of_mem K inRest)) later
        refine ⟨?_, ?_⟩
        · rintro d' (_ | ⟨_, inLater⟩)
          · exact ⟨K, List.mem_cons_self, e, edited, fixes⟩
          · obtain ⟨K', inRest, found'⟩ := each d' inLater
            exact ⟨K', List.mem_cons_of_mem K inRest, found'⟩
        · rw [List.filterMap_cons_some edited, List.pairwise_cons]
          refine ⟨fun e' listed => ?_, apart⟩
          obtain ⟨d', inLater, edited'⟩ := List.mem_filterMap.1 listed
          obtain ⟨K', inRest, e'', edited'', fixes'⟩ := each d' inLater
          obtain rfl : e'' = e' := Option.some.inj (edited''.symm.trans edited')
          exact fixes.apart faithful.laid member offends
            (offending K' (List.mem_cons_of_mem K inRest)).2
            ((List.pairwise_cons.1 pairwise).1 K' inRest) fixes'

/-- Corrections that each fix a block at character boundaries of a text, no two overlapping,
resolve to a text. -/
theorem resolve_ok_of_fixes {text : String} {blocks : List Node} {ds : List Diagnostic}
    (each : ∀ d ∈ ds, ∃ K ∈ blocks, ∃ e, d.edit = some e ∧
      Fixes (fun i => String.Pos.Raw.IsValid text ⟨i⟩) K e)
    (apart : (ds.filterMap (·.edit)).Pairwise Edit.Apart) :
    ∃ fixed, resolve text.toByteArray (ds.filterMap (·.edit)) = .ok fixed := by
  have bounded : ∀ e ∈ ds.filterMap (·.edit), String.Pos.Raw.IsValid text ⟨e.span.start⟩ ∧
      String.Pos.Raw.IsValid text ⟨e.span.stop⟩ := by
    intro e listed
    obtain ⟨d, member, edited⟩ := List.mem_filterMap.1 listed
    obtain ⟨K, -, e', edited', fixes⟩ := each d member
    obtain rfl : e' = e := Option.some.inj (edited'.symm.trans edited)
    exact fixes.bounded
  refine resolve_ok_of_boundaries (fun e listed => ?_) apart bounded
  simpa using le_utf8ByteSize_of_isValid (bounded e listed).2

end UseZip

/-- Applying the corrections of some diagnostics applies the corrections of the fixable ones. -/
theorem filterMap_edit_filter_fixable (ds : List Diagnostic) :
    (ds.filter (·.fixable)).filterMap (·.edit) = ds.filterMap (·.edit) := by
  induction ds with
  | nil => rfl
  | cons d others ih =>
    cases edited : d.edit with
    | none =>
      rw [List.filter_cons_of_neg (by simp [Diagnostic.fixable, edited]), ih,
        List.filterMap_cons_none edited]
    | some e =>
      rw [List.filter_cons_of_pos (by simp [Diagnostic.fixable, edited]),
        List.filterMap_cons_some edited, List.filterMap_cons_some edited, ih]

open UseZip in
/-- **The corrections of the zip rule are safe to apply.** For a text whose concrete tree, as
`read` gives it, is well formed, with every offset at a character boundary: every diagnostic the
zip rule reports carries a correction to `zip` that is not empty, lies in the text between
character boundaries, and lies inside an offending block from its call's method name to the
block's end, after the receiver of the call; no two corrections overlap; and applying the
fixable diagnostics gives a text. -/
theorem lintString_useZip_edits {read : String → Ruby.Cst} {text name : String}
    {ds : List Diagnostic} (formed : (read text).Formed)
    (boundaries : (read text).OffsetsIn fun i => String.Pos.Raw.IsValid text ⟨i⟩)
    (linted : (lintStringWith read [useZip] text name).2.result = .ok ds) :
    (∀ d ∈ ds, ∃ e, d.edit = some e ∧ e.replacement = "zip" ∧ e.span.start < e.span.stop ∧
      e.span.stop ≤ text.utf8ByteSize ∧ String.Pos.Raw.IsValid text ⟨e.span.start⟩ ∧
      String.Pos.Raw.IsValid text ⟨e.span.stop⟩ ∧
      ∃ K ∈ (lintStringWith read [useZip] text name).1.tree.nodes, UseZip.offends K = true ∧
        K.span.start ≤ e.span.start ∧ e.span.stop = K.span.stop ∧
        ∃ r, UseZip.callReceiver K = some r ∧ r.span.stop ≤ e.span.start) ∧
    (ds.filterMap (·.edit)).Pairwise Edit.Apart ∧
    ∃ fixed, applyFixes (lintStringWith read [useZip] text name).1.buffer.bytes
      (ds.filter (·.fixable)) = .ok fixed := by
  have faithful := Ruby.parseWith_faithful name formed boundaries
  -- the zip rule reports the verdicts on the offending blocks, in pre-order
  have result : ((Ruby.parseWith read text name).tree.nodes.filter offends).mapM
      (verdict (Buffer.ofText text name)) = .ok ds := by
    rw [← gather_report, ← lintTree_useZip_reports _ _ faithful.laid.valid]
    exact linted
  obtain ⟨each, apart⟩ := fixes_of_mapM faithful
    ((Node.pairwise_nodes_nested_or_apart faithful.laid.arranged).filter _)
    (fun K member => by simpa using member) result
  refine ⟨fun d member => ?_, apart, ?_⟩
  · obtain ⟨K, inBlocks, e, edited, fixes⟩ := each d member
    obtain ⟨inTree, offending⟩ := List.mem_filter.1 inBlocks
    exact ⟨e, edited, fixes.replacement, fixes.nonempty,
      le_utf8ByteSize_of_isValid fixes.bounded.2, fixes.bounded.1, fixes.bounded.2, K, inTree,
      offending, fixes.within, fixes.stop, fixes.receiver⟩
  · have bytes : (lintStringWith read [useZip] text name).1.buffer.bytes = text.toByteArray :=
      String.toUTF8_eq_toByteArray
    rw [applyFixes, filterMap_edit_filter_fixable, bytes]
    exact resolve_ok_of_fixes each apart

set_option maxRecDepth 8000 in
/-- Linting `a.map { |x| [x] }`, read as its concrete tree, with the zip rule reports the one
offense from `map` to the block's end, with the correction to `zip`. -/
theorem lintStringWith_mapWrap {read : String → Ruby.Cst}
    (reads : read "a.map \x7b |x| [x] \x7d" = Ruby.mapWrapProgram) (name : String) :
    (lintStringWith read [useZip] "a.map \x7b |x| [x] \x7d" name).2.result =
      .ok [⟨"Performance/UseZipToWrapArrayContents", ⟨2, 17, Nat.le_of_ble_eq_true rfl⟩,
        "Use 'zip' instead of 'a.map \x7b |x| [x] \x7d'.", .warning,
        some ⟨⟨2, 17, Nat.le_of_ble_eq_true rfl⟩, "zip"⟩⟩] := by
  simp only [lintStringWith, Ruby.parseWith, reads]
  cbv

/-- Linting reads a text into the buffer of that text. -/
@[simp] theorem buffer_lintStringWith (read : String → Ruby.Cst) (rules : List Rule)
    (text name : String) :
    (lintStringWith read rules text name).1.buffer = Buffer.ofText text name := rfl

/-- Linting `a.zip`, read as its concrete tree, with the zip rule reports nothing. -/
theorem lintStringWith_zip {read : String → Ruby.Cst} (reads : read "a.zip" = Ruby.zipProgram)
    (name : String) : (lintStringWith read [useZip] "a.zip" name).2.result = .ok [] := by
  simp only [lintStringWith, Ruby.parseWith, reads]
  cbv

/-- Fixing `a.map { |x| [x] }` with the zip rule, each text read as its concrete tree, takes one
pass, to `a.zip`, where nothing is left to fix; so it ends there under any positive pass limit. -/
theorem fixStringWith_mapWrap {read : String → Ruby.Cst}
    (readsMap : read "a.map \x7b |x| [x] \x7d" = Ruby.mapWrapProgram)
    (readsZip : read "a.zip" = Ruby.zipProgram) (name : String) {passes : Int}
    (positive : 0 < passes) :
    (fixStringWith read [useZip] "a.map \x7b |x| [x] \x7d" name passes).2 =
      .ok ⟨"a.zip", true, 1, [], Buffer.ofText "a.zip" name⟩ := by
  obtain ⟨budget, budget_eq⟩ : ∃ budget, passes.toNat = budget + 1 := ⟨passes.toNat - 1, by omega⟩
  -- the one correction, to `zip`, applies to the text's bytes
  have applied : applyFixes (Buffer.ofText "a.map \x7b |x| [x] \x7d" name).bytes
      [⟨"Performance/UseZipToWrapArrayContents", ⟨2, 17, Nat.le_of_ble_eq_true rfl⟩,
        "Use 'zip' instead of 'a.map \x7b |x| [x] \x7d'.", .warning,
        some ⟨⟨2, 17, Nat.le_of_ble_eq_true rfl⟩, "zip"⟩⟩] = .ok "a.zip" := by
    have corrected : (applyFixes "a.map \x7b |x| [x] \x7d".toUTF8
        [⟨"Performance/UseZipToWrapArrayContents", ⟨2, 17, Nat.le_of_ble_eq_true rfl⟩,
          "Use 'zip' instead of 'a.map \x7b |x| [x] \x7d'.", .warning,
          some ⟨⟨2, 17, Nat.le_of_ble_eq_true rfl⟩, "zip"⟩⟩]).toOption = some "a.zip" := by
      decide +kernel
    have bytes : (Buffer.ofText "a.map \x7b |x| [x] \x7d" name).bytes =
        "a.map \x7b |x| [x] \x7d".toUTF8 := rfl
    rw [bytes]
    revert corrected
    cases applyFixes _ _ <;> simp [Except.toOption]
  have changed : ("a.zip" == "a.map \x7b |x| [x] \x7d") = false := by decide
  have modified : ("a.zip" != "a.map \x7b |x| [x] \x7d") = true := by decide
  simp only [fixStringWith, lintStringWith_mapWrap readsMap name]
  rw [budget_eq, fixLoop]
  simp only [List.filter_cons, List.filter_nil, Diagnostic.fixable, Option.isSome_some,
    ↓reduceIte, List.isEmpty_cons, Bool.false_eq_true, buffer_lintStringWith, applied, changed,
    lintStringWith_zip readsZip name]
  -- `a.zip` leaves nothing to fix, so the loop stops whatever passes are left
  cases budget <;> simp [fixLoop, modified]

open UseZip in
/-- The text `a.map { |x| [x] }` read as its concrete tree: the tree is well formed with its
offsets at the text's character boundaries, the zip rule reports one offense, and its correction
replaces `map { |x| [x] }` with `zip` and applies. -/
theorem lintString_useZip_edits_mapWrap :
    let read : String → Ruby.Cst := fun _ => Ruby.mapWrapProgram
    let text := "a.map \x7b |x| [x] \x7d"
    let e : Edit := ⟨⟨2, 17, Nat.le_of_ble_eq_true rfl⟩, "zip"⟩
    let d : Diagnostic := ⟨"Performance/UseZipToWrapArrayContents",
      ⟨2, 17, Nat.le_of_ble_eq_true rfl⟩, "Use 'zip' instead of 'a.map \x7b |x| [x] \x7d'.",
      .warning, some e⟩
    (read text).Formed ∧
    (read text).OffsetsIn (fun i => String.Pos.Raw.IsValid text ⟨i⟩) ∧
    (lintStringWith read [useZip] text "t").2.result = .ok [d] ∧
    (∀ x ∈ [d], ∃ y, x.edit = some y ∧ y.replacement = "zip" ∧
      y.span.start < y.span.stop ∧ y.span.stop ≤ text.utf8ByteSize ∧
      String.Pos.Raw.IsValid text ⟨y.span.start⟩ ∧ String.Pos.Raw.IsValid text ⟨y.span.stop⟩ ∧
      ∃ K ∈ (lintStringWith read [useZip] text "t").1.tree.nodes, offends K = true ∧
        K.span.start ≤ y.span.start ∧ y.span.stop = K.span.stop ∧
        ∃ r, callReceiver K = some r ∧ r.span.stop ≤ y.span.start) ∧
    ([d].filterMap (·.edit)).Pairwise Edit.Apart ∧
    ∃ fixed, applyFixes (lintStringWith read [useZip] text "t").1.buffer.bytes
      ([d].filter (·.fixable)) = .ok fixed := by
  intro read text e d
  have formed : (read text).Formed := by decide
  have boundaries : (read text).OffsetsIn fun i => String.Pos.Raw.IsValid text ⟨i⟩ := by
    unfold Ruby.Cst.OffsetsIn
    decide
  have linted : (lintStringWith read [useZip] text "t").2.result = .ok [d] :=
    lintStringWith_mapWrap rfl "t"
  exact ⟨formed, boundaries, linted, lintString_useZip_edits formed boundaries linted⟩

end RubyCheck.Lint
