import RubyCheck.Proofs.Lint.Dispatch
import RubyCheck.Proofs.Tree.Traversal
import RubyCheck.Proofs.Pattern.Semantics
import RubyCheck.Lint.UseZip
import Mathlib

/-!
# The offenses of the zip rule

**On a valid tree, the zip rule reports, in pre-order, one diagnostic per block that maps each
element into a one-element array and whose call has a receiver, or fails at the first such block
whose offense range cannot be made.**

The rule checks calls of `map`, but what it judges is the block around the call: the call must be
the block's first child, the block must match one of the two patterns, and the call must have a
receiver. The statement is about blocks instead:

* `UseZip.offends`: the block matches one of the patterns and its call has a receiver;
* `UseZip.verdict`: the diagnostic of an offending block, from its call's method name to the
  block's end, with the message quoting the block's first line and the correction `zip`; or the
  failure when the call has no method-name span, or the method name starts after the block ends;
* `UseZip.lintTree_useZip`: linting with the zip rule is taking the verdicts of the offending
  blocks in pre-order, up to the first failure.

A call's check looks at the node before it in the walk: it is the call's parent exactly when the
call is that node's first child (`UseZip.calls_after`). So the calls at indices `1, 2, …` report
what the rule says of the nodes at `0, 1, …`, and gathering them is gathering the verdicts.
-/

namespace RubyCheck.Tree

/-! ### Calls -/

/-- A valid call's first child, its receiver, is a node or nothing. -/
theorem receiver_of_shapeCheck {n : Node} (call : n.kind.isCall = true)
    (valid : shapeCheck n.kind (n.children.map Slot.part) = none) {r : Slot Node}
    {rest : List (Slot Node)} (children : n.children = r :: rest) :
    (∃ c, r = .node c) ∨ r = .atom .none := by
  obtain ⟨r', m, args, listed, receiver⟩ := Node.call_children call valid
  obtain ⟨rfl, -⟩ := List.cons.inj (children.symm.trans listed)
  exact receiver.symm

end RubyCheck.Tree

namespace RubyCheck.Lint

open RubyCheck.Source RubyCheck.Tree RubyCheck.Pattern

/-! ### Running a check -/

theorem ok_bind_eq {ε α β : Type} (a : α) (f : α → Except ε β) : (Except.ok a >>= f) = f a := rfl

theorem throw_bind_eq {ε α β : Type} (e : ε) (f : α → Except ε β) :
    ((throw e : Except ε α) >>= f) = .error e := rfl

theorem Check.run_read (sc : Scene) (found : Array Diagnostic) :
    ((read : Check Scene).run sc).run found = .ok (sc, found) := rfl

theorem Check.run_report (sc : Scene) (found : Array Diagnostic) (span : Span) (message : String)
    (edit : Option Edit) : ((Check.report span message edit).run sc).run found =
      .ok ((), found.push
        ⟨sc.rule.id, span, message, sc.rule.severity, if sc.rule.fixable then edit else none⟩) :=
  rfl

/-- One call reports what its check reports, or fails as its check fails. -/
theorem runCalls_singleton (buffer : Buffer) (walk : Array Visit) (call : Call) :
    (runCalls buffer walk [call]).2 = (call.outcome buffer walk).mapError call.failure := by
  simp only [runCalls]
  cases call.outcome buffer walk <;> simp [Except.map, Except.mapError]

/-! ### Gathering reports -/

/-- Making the calls of a flattened list gathers, in order, what the calls of each part report. -/
theorem runCalls_flatMap {α : Type} (buffer : Buffer) (walk : Array Visit) (l : List α)
    (f : α → List Call) :
    (runCalls buffer walk (l.flatMap f)).2 =
      (l.mapM fun x => (runCalls buffer walk (f x)).2).map List.flatten := by
  induction l with
  | nil => rfl
  | cons x rest ih =>
    rw [List.flatMap_cons, runCalls_append, List.mapM_cons]
    rcases (runCalls buffer walk (f x)).2 with e | ds
    · rfl
    · simp only [ih]
      rcases rest.mapM fun x => (runCalls buffer walk (f x)).2 with e | dss <;> rfl

/-- A monadic map over the indices of a list is one over the list, when each index gives what its
element gives. -/
theorem mapM_range_eq {ε α β : Type} (xs : List α) (R : Nat → Except ε β) (h : α → Except ε β)
    (each : ∀ (k : Nat) (bound : k < xs.length), R k = h xs[k]) :
    (List.range xs.length).mapM R = xs.mapM h := by
  induction xs generalizing R with
  | nil => rfl
  | cons x rest ih =>
    rw [List.length_cons, List.range_succ_eq_map, List.mapM_cons, List.mapM_cons, List.mapM_map,
      each 0 (by simp), ih (R ∘ Nat.succ) fun k bound => each (k + 1) (by simpa using bound)]
    rfl

/-- Gathering passes over a first part that reports nothing. -/
theorem gather_cons_nil {ε α β : Type} (x : α) (l : List α) (f : α → Except ε (List β))
    (nothing : f x = .ok []) : ((x :: l).mapM f).map List.flatten = (l.mapM f).map List.flatten := by
  rw [List.mapM_cons, nothing]
  rcases l.mapM f with e | dss <;> rfl

/-- Gathering passes over a last part that reports nothing. -/
theorem gather_append_nil {ε α β : Type} (x : α) (l : List α) (f : α → Except ε (List β))
    (nothing : f x = .ok []) :
    ((l ++ [x]).mapM f).map List.flatten = (l.mapM f).map List.flatten := by
  rw [List.mapM_append, List.mapM_cons, List.mapM_nil, nothing]
  rcases l.mapM f with e | dss
  · rfl
  · show Except.ok (dss ++ [[]]).flatten = Except.ok dss.flatten
    simp

namespace UseZip

/-! ### What the rule says of a block -/

/-- The receiver of a block's call; `none` when the call has none, or the node is no block. -/
def callReceiver (K : Node) : Option Node := (K.sendNode >>= Node.receiver).toOption.join

/-- Whether the rule finds an offense at a block: the block matches one of the two patterns and
its call has a receiver. -/
def offends (K : Node) : Bool :=
  (accepts wrapsParameter K || accepts wrapsNumbered K) && (callReceiver K).isSome

/-- What the rule gives for an offending block: the diagnostic from its call's method name to the
block's end, or the failure met on the way, a call without a method-name span or a method name
that starts after the block's end. The call is the block's first child. -/
def verdict (buffer : Buffer) (K : Node) : Except LintFailure Diagnostic :=
  let call := (K.nodeAt? 0).getD K
  call.selector.elim (.error (.malformed ("send node " ++ call.label ++ " has no selector range")))
    fun sel =>
      if h : sel.start ≤ K.span.stop then
        .ok { ruleId := "Performance/UseZipToWrapArrayContents",
              span := ⟨sel.start, K.span.stop, h⟩,
              message := "Use 'zip' instead of '" ++ firstLine (buffer.slice K.span) ++ "'.",
              severity := .warning,
              edit := some (Edit.replace ⟨sel.start, K.span.stop, h⟩ "zip") }
      else .error (.rule "Performance/UseZipToWrapArrayContents" call.kind call.span
        (InvalidSpan.message ⟨sel.start, K.span.stop⟩))

/-- What the rule reports on a node: the verdict on an offending block, nothing on any other
node. -/
def report (buffer : Buffer) (K : Node) : Except LintFailure (List Diagnostic) :=
  if offends K then (verdict buffer K).map ([·]) else .ok []

/-! ### The shape of a matching block -/

theorem wellFormed_single {k : Kind} {q : Pattern} (wf : WellFormed q) :
    WellFormed (.kind k [q]) :=
  .kind (by simpa using wf)

theorem wellFormed_mapCall : WellFormed (.kind .send [.wildcard, .literal (.text "map")]) :=
  .kind (by simpa using ⟨.wildcard, .text "map"⟩)

theorem wellFormed_wrapsParameter : WellFormed wrapsParameter :=
  .kind (by simpa using ⟨wellFormed_mapCall, wellFormed_single (wellFormed_single (.capture _)),
    wellFormed_single (wellFormed_single (.capture _))⟩)

theorem wellFormed_wrapsNumbered : WellFormed wrapsNumbered :=
  .kind (by
    simpa using ⟨wellFormed_mapCall, .int 1, wellFormed_single (wellFormed_single .wildcard)⟩)

/-- A node a well-formed pattern accepts has a derivation. -/
theorem sat_of_accepts {p : Pattern} (wf : WellFormed p) {n : Node} (acc : accepts p n = true) :
    ∃ σ names, Sat σ p (.node n) names := by
  obtain ⟨b, matched⟩ := Option.isSome_iff_exists.1 acc
  obtain ⟨names, -, sat⟩ := matchSlot_sound p wf matched
  exact ⟨b.lookup, names, sat _ fun _ _ found => found⟩

/-- What the call pattern of both patterns matches: a call of `map` on one receiver slot, with
no arguments. -/
theorem mapCall_of_sat {σ : Captures} {c : Slot Node} {names : List String}
    (sat : Sat σ (.kind .send [.wildcard, .literal (.text "map")]) c names) :
    ∃ s r, c = .node s ∧ s.kind = .send ∧ s.children = [r, .atom (.text "map")] := by
  rcases sat with _ | _ | _ | _ | @⟨_, s, _, _, sent, children⟩
  generalize listed : s.children = cs at children
  rcases children with _ | _ | ⟨-, children⟩
  rcases children with _ | _ | ⟨lit, children⟩
  rcases lit with _ | _ | _
  rcases children with _ | _ | _
  exact ⟨s, _, rfl, sent, listed⟩

/-- A node of kind `k` whose first child pattern is the call of `map` starts with that call. -/
theorem call_of_sat {σ : Captures} {k : Kind} {ps : List Pattern} {K : Node}
    {names : List String}
    (sat : Sat σ (.kind k (.kind .send [.wildcard, .literal (.text "map")] :: ps)) (.node K) names) :
    K.kind = k ∧ ∃ s r more, K.children = .node s :: more ∧ s.kind = .send ∧
      s.children = [r, .atom (.text "map")] := by
  rcases sat with _ | _ | _ | _ | ⟨kinds, children⟩
  generalize K.children = cs at children ⊢
  rcases children with _ | _ | ⟨send, -⟩
  obtain ⟨s, r, rfl, sent, called⟩ := mapCall_of_sat send
  exact ⟨kinds, s, r, _, rfl, sent, called⟩

/-- A block either pattern matches is a block whose first child is a call of `map` on one
receiver slot. -/
theorem call_of_accepts {K : Node}
    (accepted : (accepts wrapsParameter K || accepts wrapsNumbered K) = true) :
    K.kind.isBlock = true ∧ ∃ s r more, K.children = .node s :: more ∧ s.kind = .send ∧
      s.children = [r, .atom (.text "map")] := by
  rcases Bool.or_eq_true_iff.1 accepted with parameter | numbered
  · obtain ⟨σ, names, sat⟩ := sat_of_accepts wellFormed_wrapsParameter parameter
    obtain ⟨kinds, call⟩ := call_of_sat sat
    exact ⟨by simp [kinds, Kind.isBlock, Kind.blocks], call⟩
  · obtain ⟨σ, names, sat⟩ := sat_of_accepts wellFormed_wrapsNumbered numbered
    obtain ⟨kinds, call⟩ := call_of_sat sat
    exact ⟨by simp [kinds, Kind.isBlock, Kind.blocks], call⟩

/-- The receiver of a block's call is the call's first child, when that is a node. -/
theorem callReceiver_eq {K s : Node} {more : List (Slot Node)} (block : K.kind.isBlock = true)
    (children : K.children = .node s :: more) (call : s.kind.isCall = true) :
    callReceiver K = s.nodeAt? 0 := by
  have blocks : K.kind ∈ Kind.blocks := by simpa [Kind.isBlock] using block
  have calls : s.kind ∈ Kind.calls := by simpa [Kind.isCall] using call
  simp [callReceiver, Node.sendNode, Node.receiver, Node.expect, blocks, calls, Node.nodeAt?,
    children, Except.toOption, ok_bind_eq]

/-! ### One check -/

theorem check_onlyReports : check.OnlyReports := by
  refine .bind .read fun sc => ?_
  dsimp only
  split
  · split
    · split
      · split_ifs
        · exact .pure ()
        · exact .pure ()
        · exact .pure ()
        · split
          · exact .pure ()
          · split
            · split
              · exact .bind (.pure _) fun span => .report _ _ _
              · exact .bind (.throw _) fun span => .report _ _ _
            · exact .throw _
      · exact .pure ()
    · exact .pure ()
  · exact .pure ()

/-- The check of a call that is no block's first child reports nothing. -/
theorem check_quiet (buffer : Buffer) (w : Array Visit) {c : Call} {v : Visit}
    (runs : c.check = check) (visit : w[c.index]? = some v)
    (notFirst : ∀ p pv, v.parent = some p → w[p]? = some pv → pv.childIds.head? ≠ some c.index) :
    (runCalls buffer w [c]).2 = .ok [] := by
  rw [runCalls_singleton]
  simp only [Call.outcome, Call.scene, runs]
  rcases parent : v.parent with _ | p
  · simp only [check, visit, parent, Check.run_read, ReaderT.run_bind, StateT.run_bind,
      ok_bind_eq]
    rfl
  · rcases up : w[p]? with _ | pv
    · simp only [check, visit, parent, up, Check.run_read, ReaderT.run_bind, StateT.run_bind,
        ok_bind_eq]
      rfl
    · have other := notFirst p pv parent up
      simp only [check, visit, parent, up, Check.run_read, ReaderT.run_bind, StateT.run_bind,
        ok_bind_eq]
      split_ifs with block first accepted
      · rfl
      · rfl
      · rfl
      · -- the test of the block's first child needs the call to be listed first
        exfalso
        split at first
        · exact other (by simpa using first)
        · simp at first

/-- The check of a block's first child, a valid node, reports what the rule says of the block. -/
theorem check_fires (buffer : Buffer) (w : Array Visit) {c : Call} {p : Nat} {v pv : Visit}
    (runs : c.check = check) (rule : c.rule = useZip) (node : c.node = v.node)
    (visit : w[c.index]? = some v) (parent : v.parent = some p) (up : w[p]? = some pv)
    (first : pv.childIds.head? = some c.index)
    (call : ∀ s, pv.node.children.head? = some (.node s) → s = v.node)
    (valid : shapeCheck v.node.kind (v.node.children.map Slot.part) = none) :
    (runCalls buffer w [c]).2 = report buffer pv.node := by
  rw [runCalls_singleton, report]
  simp only [Call.outcome, Call.scene, runs, rule, check, visit, parent, up, Check.run_read,
    ReaderT.run_bind, StateT.run_bind, ok_bind_eq, first]
  by_cases accepted : (accepts wrapsParameter pv.node || accepts wrapsNumbered pv.node) = true
  · obtain ⟨block, s, r, more, kids, sent, called⟩ := call_of_accepts accepted
    have same : s = v.node := call s (by simp [kids])
    subst same
    have isCall : v.node.kind.isCall = true := by simp [sent, Kind.isCall, Kind.calls]
    have receiver := callReceiver_eq block kids isCall
    rcases receiver_of_shapeCheck isCall valid called with ⟨object, rfl⟩ | rfl
    · have off : offends pv.node = true := by
        simp [offends, accepted, receiver, Node.nodeAt?, called]
      cases sel : v.node.selector with
      | none =>
        simp [off, verdict, sel, block, accepted, called, Node.nodeAt?, kids]
        rfl
      | some range =>
        by_cases fits : range.start ≤ pv.node.span.stop
        · simp [off, verdict, sel, block, accepted, called, Node.nodeAt?, kids, Except.mapError,
            Span.make?, fits, Check.run_report, useZip]
          rfl
        · simp [off, verdict, sel, block, accepted, called, Node.nodeAt?, kids, Except.mapError,
            Span.make?, fits, useZip, node, throw_bind_eq, Call.failure, rule]
          rfl
    · -- a call on nothing: the check stops, and the block has no receiver
      have off : offends pv.node = false := by
        simp [offends, receiver, Node.nodeAt?, called]
      simp [off, block, accepted, called]
      rfl
  · have off : offends pv.node = false := by
      rw [Bool.not_eq_true] at accepted
      rw [offends, accepted, Bool.false_and]
    rw [Bool.not_eq_true] at accepted
    simp only [accepted, off, Bool.not_false, Bool.false_eq_true, if_false, if_true]
    split_ifs <;> rfl

/-! ### The checks along the walk -/

/-- The rule checks a node when it is a call of `map`, or a call whose method name it cannot
read. -/
theorem callsAt_useZip (i : Nat) (n : Node) :
    callsAt [useZip] i n =
      if n.kind = .send ∧ useZip.skips n = false then [⟨i, n, 0, useZip, check⟩] else [] := by
  have table : useZip.checkFor n.kind = if n.kind = .send then some check else none := by
    by_cases sent : n.kind = .send
    · simp [Rule.checkFor, useZip, sent]
    · simp [Rule.checkFor, useZip, List.lookup, sent, beq_eq_false_iff_ne.2 sent]
  simp only [callsAt, List.zipIdx_cons, List.zipIdx_nil, List.filterMap_cons, List.filterMap_nil,
    table]
  by_cases sent : n.kind = .send <;> by_cases skipped : useZip.skips n = false <;>
    simp [sent, skipped]

/-- The node after an offending block is its call, a call of `map` that the rule checks. -/
theorem offends_call {w : Array Visit} (linked : Walk.Linked w) {j : Nat} {pv : Visit}
    (visit : w[j]? = some pv) (off : offends pv.node = true) :
    ∃ u, w[j + 1]? = some u ∧ u.parent = some j ∧ u.node.kind = .send ∧
      useZip.skips u.node = false := by
  obtain ⟨-, s, r, more, kids, sent, called⟩ := call_of_accepts (Bool.and_eq_true_iff.1 off).1
  obtain ⟨u, found, rfl, parent, -⟩ := linked.firstChild visit kids
  refine ⟨u, found, parent, sent, ?_⟩
  have isCall : u.node.kind.isCall = true := by simp [sent, Kind.isCall, Kind.calls]
  simp [Rule.skips, Node.methodName_of_isCall isCall, Node.textAt, called, useZip]

/-- The root has no parent, so the rule reports nothing at index 0. -/
theorem calls_root (buffer : Buffer) (root : Node) :
    (runCalls buffer root.walk
      ((root.nodes[0]?.map fun n => callsAt [useZip] 0 n).getD [])).2 = .ok [] := by
  rw [← Node.getElem?_walk]
  rcases first : root.walk[0]? with _ | v
  · rfl
  · simp only [Option.map_some, Option.getD_some, callsAt_useZip]
    split_ifs
    · exact check_quiet buffer root.walk rfl first fun p pv up _ _ =>
        absurd (root.walk_linked.parent 0 v p first up).1 (Nat.not_lt_zero p)
    · rfl

/-- The calls at the index after a node report what the rule says of that node: a call's check
looks at its parent, which is the node before it exactly when the call is its first child. -/
theorem calls_after (buffer : Buffer) {root : Node} (valid : root.Valid) {j : Nat} {pv : Visit}
    (visit : root.walk[j]? = some pv) :
    (runCalls buffer root.walk
      ((root.nodes[j + 1]?.map fun n => callsAt [useZip] (j + 1) n).getD [])).2 =
      report buffer pv.node := by
  have linked := root.walk_linked
  -- an offending block has its call right after it, under it, and the rule checks that call
  have called : ∀ v, root.walk[j + 1]? = some v →
      (v.parent ≠ some j ∨ ¬(v.node.kind = .send ∧ useZip.skips v.node = false)) →
      report buffer pv.node = .ok [] := by
    intro v next other
    have quiet : offends pv.node = false := by
      by_contra off
      obtain ⟨u, found, under, sent, kept⟩ := offends_call linked visit (by simpa using off)
      rw [next, Option.some_inj] at found
      subst found
      rcases other with other | other
      · exact other under
      · exact other ⟨sent, kept⟩
    simp [report, quiet]
  rw [← Node.getElem?_walk]
  rcases next : root.walk[j + 1]? with _ | v
  · have quiet : offends pv.node = false := by
      by_contra off
      obtain ⟨u, found, -⟩ := offends_call linked visit (by simpa using off)
      rw [next] at found
      cases found
    simp [runCalls, report, quiet]
  · have member : v.node ∈ root.nodes := List.mem_of_getElem? (by
      rw [← Node.getElem?_walk, next]
      rfl)
    simp only [Option.map_some, Option.getD_some, callsAt_useZip]
    split_ifs with made
    · by_cases under : v.parent = some j
      · obtain ⟨first, call⟩ := linked.next_under visit next under
        exact check_fires buffer root.walk rfl rfl rfl next under visit first call (valid _ member)
      · rw [called v next (.inl under)]
        exact check_quiet buffer root.walk rfl next fun p pv' up' found first => by
          have := root.firstChildNext_walk p pv' found (j + 1) first
          exact under (by rw [up']; congr 1; omega)
    · rw [called v next (.inr made)]
      rfl

/-! ### The offenses of a tree -/

/-- Gathering the rule's reports on some nodes is taking the verdicts on the offending ones, in
order, up to the first that fails. -/
theorem gather_report (buffer : Buffer) (l : List Node) :
    (l.mapM (report buffer)).map List.flatten = (l.filter offends).mapM (verdict buffer) := by
  induction l with
  | nil => rfl
  | cons K rest ih =>
    by_cases off : offends K = true
    · rw [List.mapM_cons, List.filter_cons_of_pos off, List.mapM_cons, ← ih]
      simp only [report, off, if_true]
      rcases verdict buffer K with e | d
      · rfl
      · rcases rest.mapM (report buffer) with e | dss <;> rfl
    · rw [gather_cons_nil K rest _ (by simp [report, off]), List.filter_cons_of_neg off, ih]

/-- Linting a valid tree with the zip rule gathers, in pre-order, what the rule reports on each
node: the check of a node's first child reports on the node. -/
theorem lintTree_useZip_reports (root : Node) (buffer : Buffer) (valid : root.Valid) :
    (lintTree [useZip] root buffer).result = (root.nodes.mapM (report buffer)).map List.flatten := by
  have tables : ∀ r ∈ [useZip], (r.checks.map Prod.fst).Nodup := by simp [useZip]
  have reporting : ∀ r ∈ [useZip], ∀ e ∈ r.checks, e.2.OnlyReports := by
    simp [useZip, check_onlyReports]
  -- what the calls at each index report
  let R := fun i => (runCalls buffer root.walk
    ((root.nodes[i]?.map fun n => callsAt [useZip] i n).getD [])).2
  have beyond : R root.nodes.length = .ok [] := by simp [R, runCalls]
  have next : ∀ k (bound : k < root.nodes.length), R (k + 1) = report buffer root.nodes[k] := by
    intro k bound
    have inWalk : k < root.walk.size := by rwa [Node.size_walk]
    have visit : root.walk[k]? = some root.walk[k] := Array.getElem?_eq_getElem inWalk
    have node : root.walk[k].node = root.nodes[k] := by
      have := Node.getElem?_walk root k
      rw [visit, List.getElem?_eq_getElem bound] at this
      simpa using this
    rw [← node]
    exact calls_after buffer valid visit
  have ranged : plannedCalls [useZip] root = (List.range root.nodes.length).flatMap fun i =>
      (root.nodes[i]?.map fun n => callsAt [useZip] i n).getD [] :=
    (flatMap_range_getElem? root.nodes fun n i => callsAt [useZip] i n).symm
  rw [(lintTree_eq_runCalls root valid tables reporting : lintTree [useZip] root buffer = _),
    ranged, runCalls_flatMap]
  -- the reports at indices 1 … n are those on the nodes at 0 … n - 1
  calc ((List.range root.nodes.length).mapM R).map List.flatten
      = ((List.range root.nodes.length ++ [root.nodes.length]).mapM R).map List.flatten :=
        (gather_append_nil _ _ R beyond).symm
    _ = (((List.range root.nodes.length).map Nat.succ).mapM R).map List.flatten := by
        rw [← List.range_succ, List.range_succ_eq_map,
          gather_cons_nil 0 _ R (calls_root buffer root)]
    _ = (root.nodes.mapM (report buffer)).map List.flatten := by
        rw [List.mapM_map, mapM_range_eq root.nodes (R ∘ Nat.succ) _ next]

/-- **The zip rule flags exactly the offending blocks.** On a valid tree, linting with the zip
rule returns, in pre-order, the diagnostic of each block that maps each element into a
one-element array of itself and whose call has a receiver, or the failure met at the first such
block whose call has no method-name span or whose method name starts after the block ends. -/
theorem lintTree_useZip (root : Node) (buffer : Buffer) (valid : root.Valid) :
    (lintTree [useZip] root buffer).result =
      (root.nodes.filter offends).mapM (verdict buffer) :=
  (lintTree_useZip_reports root buffer valid).trans (gather_report buffer root.nodes)

/-- The rule on `a.map { |x| [x] }`. -/
theorem useZip_flags_wrapping_block :
    let receiver : Node := .mk .lvar [.atom (.text "a")] ⟨0, 1, Nat.le_of_ble_eq_true rfl⟩ []
    let call : Node := .mk .send [.node receiver, .atom (.text "map")]
      ⟨0, 5, Nat.le_of_ble_eq_true rfl⟩ [("selector", ⟨2, 5, Nat.le_of_ble_eq_true rfl⟩)]
    let param : Node := .mk .arg [.atom (.text "x")] ⟨9, 10, Nat.le_of_ble_eq_true rfl⟩ []
    let element : Node := .mk .lvar [.atom (.text "x")] ⟨13, 14, Nat.le_of_ble_eq_true rfl⟩ []
    let root : Node := .mk .block
      [.node call, .node (.mk .args [.node param] ⟨8, 11, Nat.le_of_ble_eq_true rfl⟩ []),
        .node (.mk .array [.node element] ⟨12, 15, Nat.le_of_ble_eq_true rfl⟩ [])]
      ⟨0, 17, Nat.le_of_ble_eq_true rfl⟩ []
    let buffer := Buffer.ofText "a.map \x7b |x| [x] \x7d" ""
    root.Valid ∧ (lintTree [useZip] root buffer).result =
      (root.nodes.filter offends).mapM (verdict buffer) := by
  intro receiver call param element root buffer
  exact ⟨by decide, lintTree_useZip root buffer (by decide)⟩

end UseZip

end RubyCheck.Lint
