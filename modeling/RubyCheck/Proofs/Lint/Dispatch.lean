import RubyCheck.Proofs.Tree.Preorder
import RubyCheck.Proofs.Tree.Readers
import RubyCheck.Lint.Engine
import RubyCheck.Lint.Scripted
import RubyCheck.Tree.Access
import Mathlib

/-!
# Dispatching checks over a tree

**`lintTree` makes, in order, the calls of the planned sequence — the nodes in pre-order, on each
the rules in order — and returns what those calls report, or the first failure.**

The engine builds one table from kinds to the rules' checks, walks the tree with an array, and
threads the gathered diagnostics through every check. The statement here is flat instead:

* `plannedCalls`: for each node of the pre-order `Node.nodes`, for each rule in order that has
  a check for the node's kind and does not skip the node (a call whose method name is not among
  the names the rule restricts itself to), that check on that node;
* `runCalls`: making calls one after another; each call's diagnostics follow those before it,
  and the first failure ends the run, a lint failure or a malformed tree as it is and any other
  failure as a failure of the rule on the node;
* `lintTree_eq_runCalls`: on a valid tree, for rules whose checks form a table and only report
  (`Check.OnlyReports`), linting is running the planned calls.
-/

namespace RubyCheck.Lint

open RubyCheck.Source RubyCheck.Tree

/-! ### Checks that only report -/

/-- An offense as a check hands it to `Check.report`. -/
structure Offense where
  span : Span
  message : String
  edit : Option Edit

/-- The diagnostic `Check.report` records for an offense of rule `r`: the edit is kept only when
the rule can fix. -/
def Offense.diagnostic (r : RuleInfo) (o : Offense) : Diagnostic :=
  { ruleId := r.id, span := o.span, message := o.message, severity := r.severity,
    edit := if r.fixable then o.edit else none }

/-- A check that touches the gathered diagnostics only by reporting: on each scene it fails, or
it reports offenses after whatever was gathered before, and neither depends on what was. -/
def Check.OnlyReports {α : Type} (c : Check α) : Prop :=
  ∀ sc : Scene, ∃ out : Except Fault (α × List Offense), ∀ found : Array Diagnostic,
    (c.run sc).run found =
      out.map fun r => (r.1, found ++ (r.2.map (Offense.diagnostic sc.rule)).toArray)

namespace Check.OnlyReports

theorem pure {α : Type} (a : α) : (Pure.pure a : Check α).OnlyReports :=
  fun _ => ⟨.ok (a, []), fun _ => by simp [Except.map]; rfl⟩

theorem throw {α : Type} (f : Fault) : (MonadExcept.throw f : Check α).OnlyReports :=
  fun _ => ⟨.error f, fun _ => rfl⟩

theorem read : (MonadReader.read : Check Scene).OnlyReports :=
  fun sc => ⟨.ok (sc, []), fun _ => by simp [Except.map]; rfl⟩

theorem report (span : Span) (message : String) (edit : Option Edit) :
    (Check.report span message edit).OnlyReports :=
  fun sc => ⟨.ok ((), [⟨span, message, edit⟩]), fun found => by
    simp [Check.report, Offense.diagnostic, Except.map]; rfl⟩

theorem bind {α β : Type} {x : Check α} {f : α → Check β} (first : x.OnlyReports)
    (rest : ∀ a, (f a).OnlyReports) : (x >>= f).OnlyReports := by
  intro sc
  obtain ⟨out, hx⟩ := first sc
  choose outs hf using fun a => rest a sc
  refine ⟨match out with
    | .error e => .error e
    | .ok (a, os) => (outs a).map fun r => (r.1, os ++ r.2), fun found => ?_⟩
  have step : ((x >>= f).run sc).run found =
      ((x.run sc).run found).bind fun r => ((f r.1).run sc).run r.2 := rfl
  rw [step, hx]
  cases out with
  | error e => rfl
  | ok r =>
    obtain ⟨a, os⟩ := r
    simp only [Except.map, Except.bind, hf]
    cases outs a <;> simp

end Check.OnlyReports

/-! ### The planned calls -/

/-- Whether a rule skips a node: the node is a call, the rule restricts its checks of calls to
some method names, and the call's method name is not one of them. -/
def Rule.skips (r : Rule) (n : Node) : Bool :=
  match n.methodName with
  | .ok m => !r.restrictOnSend.isEmpty && !r.restrictOnSend.contains m
  | .error _ => false

/-- The check a rule has for a kind: a rule's checks are a table from kinds. -/
def Rule.checkFor (r : Rule) (k : Kind) : Option (Check Unit) := r.checks.lookup k

/-- One call a lint makes: the check of the rule at `position` on the node at `index` of the
walk. -/
structure Call where
  index : Nat
  node : Node
  position : Nat
  rule : Rule
  check : Check Unit

/-- The calls a lint makes on the node `n` at `index`: in rule order, the check each rule has
for the node's kind, unless the rule skips the node. -/
def callsAt (rules : List Rule) (index : Nat) (n : Node) : List Call :=
  rules.zipIdx.filterMap fun (r, position) =>
    if r.skips n then none else (r.checkFor n.kind).map fun c => ⟨index, n, position, r, c⟩

/-- Every call a lint of `root` makes when no check fails: the nodes in pre-order, and on each
node its calls in rule order. -/
def plannedCalls (rules : List Rule) (root : Node) : List Call :=
  root.nodes.zipIdx.flatMap fun (n, index) => callsAt rules index n

namespace Call

/-- What the check of a call sees. -/
def scene (call : Call) (buffer : Buffer) (walk : Array Visit) : Scene :=
  { rule := call.rule.toRuleInfo, buffer, walk, index := call.index }

/-- The diagnostics a call reports, or how it fails. -/
def outcome (call : Call) (buffer : Buffer) (walk : Array Visit) :
    Except Fault (List Diagnostic) :=
  ((call.check.run (call.scene buffer walk)).run #[]).map (·.2.toList)

/-- The record of a call. -/
def visited (call : Call) : Visited := ⟨call.position, call.node.kind, call.node.span⟩

/-- How a lint fails when a call fails: a lint failure or a malformed tree as it is, any other
failure as a failure of the call's rule on its node. -/
def failure (call : Call) : Fault → LintFailure
  | .lint m => .lint m
  | .malformed m => .malformed m
  | .other t => .rule call.rule.id call.node.kind call.node.span t

end Call

/-- Makes calls one after another: the record of each call made, and the diagnostics of all in
order, or the failure of the first that fails, after which no call is made. -/
def runCalls (buffer : Buffer) (walk : Array Visit) :
    List Call → List Visited × Except LintFailure (List Diagnostic)
  | [] => ([], .ok [])
  | call :: rest =>
    match call.outcome buffer walk with
    | .error f => ([call.visited], .error (call.failure f))
    | .ok ds =>
      (call.visited :: (runCalls buffer walk rest).1, (runCalls buffer walk rest).2.map (ds ++ ·))

/-- Making two lists of calls is making the first, then the second unless the first failed. -/
theorem runCalls_append (buffer : Buffer) (walk : Array Visit) (first second : List Call) :
    runCalls buffer walk (first ++ second) =
      match (runCalls buffer walk first).2 with
      | .error f => ((runCalls buffer walk first).1, .error f)
      | .ok ds => ((runCalls buffer walk first).1 ++ (runCalls buffer walk second).1,
          (runCalls buffer walk second).2.map (ds ++ ·)) := by
  induction first with
  | nil =>
    simp only [List.nil_append, runCalls]
    rcases runCalls buffer walk second with ⟨ran, _ | _⟩ <;> rfl
  | cons call rest ih =>
    simp only [List.cons_append, runCalls]
    cases call.outcome buffer walk with
    | error f => rfl
    | ok ds =>
      simp only [ih]
      rcases runCalls buffer walk rest with ⟨ran, _ | ds'⟩
      · rfl
      · rcases runCalls buffer walk second with ⟨ran', _ | _⟩ <;> simp [Except.map]

/-! ### The engine runs the planned calls -/

/-- What a walk that started from `g` holds after making calls: their records before those of
`g`, and either no failure and their diagnostics after those of `g`, or their failure. -/
def Settles (g : Gathered) (out : Gathered × Option LintFailure)
    (run : List Visited × Except LintFailure (List Diagnostic)) : Prop :=
  out.1.ran = run.1.reverse ++ g.ran ∧
    match run.2 with
    | .ok ds => out.2 = none ∧ out.1.found = g.found ++ ds.toArray
    | .error f => out.2 = some f

/-- Settling one run and then, from where it ended, another settles both. -/
theorem Settles.append {g : Gathered} {out₁ out₂ : Gathered × Option LintFailure}
    {run₁ run₂ : List Visited × Except LintFailure (List Diagnostic)} {ds : List Diagnostic}
    (first : Settles g out₁ run₁) (ok : run₁.2 = .ok ds) (second : Settles out₁.1 out₂ run₂) :
    Settles g out₂ (run₁.1 ++ run₂.1, run₂.2.map (ds ++ ·)) := by
  obtain ⟨ran₁, result₁⟩ := first
  obtain ⟨ran₂, result₂⟩ := second
  rw [ok] at result₁
  refine ⟨by simp [ran₂, ran₁], ?_⟩
  rcases run₂ with ⟨_, _ | ds₂⟩
  · exact result₂
  · exact ⟨result₂.1, by simp [result₂.2, result₁.2, Array.append_assoc]⟩

/-- The call an entry of the dispatch table makes on the node at `index`. -/
def entryCall (index : Nat) (n : Node) (entry : Nat × Rule × Check Unit) : Call :=
  ⟨index, n, entry.1, entry.2.1, entry.2.2⟩

/-- The engine's loop over one node's entries makes the calls of the entries it does not pass
over. -/
theorem checkNode_settles (buffer : Buffer) (walk : Array Visit) (index : Nat) (n : Node)
    (entries : List (Nat × Rule × Check Unit)) (g : Gathered)
    (reporting : ∀ e ∈ entries, e.2.2.OnlyReports) :
    Settles g (checkNode buffer walk index n entries g)
      (runCalls buffer walk ((entries.filter fun e => !(n.kind.isCall && !e.2.1.wantsCall n)).map
        (entryCall index n))) := by
  induction entries generalizing g with
  | nil => exact ⟨rfl, rfl, by simp [checkNode]⟩
  | cons entry more ih =>
    obtain ⟨position, r, c⟩ := entry
    have rest := fun g => ih g (fun e member => reporting e (List.mem_cons_of_mem _ member))
    by_cases passed : (n.kind.isCall && !r.wantsCall n) = true
    · rw [List.filter_cons_of_neg (by simpa using passed)]
      simpa [checkNode, passed] using rest g
    · obtain ⟨out, runs⟩ := reporting (position, r, c) List.mem_cons_self
        { rule := r.toRuleInfo, buffer, walk, index }
      have outcome : (entryCall index n (position, r, c)).outcome buffer walk =
          out.map fun o => (o.2.map (Offense.diagnostic r.toRuleInfo)) := by
        simp only [Call.outcome, Call.scene, entryCall, runs, Array.empty_append]
        cases out <;> simp [Except.map]
      simp only [Bool.not_eq_true] at passed
      simp only [List.filter_cons, passed, Bool.not_false, if_true, List.map_cons]
      simp only [checkNode, passed, Bool.false_eq_true, if_false, runs g.found]
      rcases out with f | ⟨⟨⟩, os⟩
      · -- the call fails: its record is the last, and its failure the lint's
        simp only [runCalls, outcome]
        cases f <;> exact ⟨rfl, rfl⟩
      · -- the call reports: the rest of the entries run after it
        have one : Settles g (Gathered.mk (⟨position, n.kind, n.span⟩ :: g.ran)
            (g.found ++ (os.map (Offense.diagnostic r.toRuleInfo)).toArray), none)
            ([(entryCall index n (position, r, c)).visited],
              .ok (os.map (Offense.diagnostic r.toRuleInfo))) :=
          ⟨rfl, rfl, rfl⟩
        have both := one.append rfl (rest _)
        simp only [Except.map] at outcome
        simpa [runCalls, outcome, Except.map] using both

/-- In a table without repeated keys, the entries of a key are its lookup. -/
theorem map_snd_filter_key {β : Type} (table : List (Kind × β)) (k : Kind)
    (nodup : (table.map Prod.fst).Nodup) :
    (table.filter (·.1 == k)).map Prod.snd = (table.lookup k).toList := by
  induction table with
  | nil => rfl
  | cons entry rest ih =>
    obtain ⟨key, value⟩ := entry
    rw [List.map_cons, List.nodup_cons] at nodup
    by_cases same : key = k
    · subst same
      -- no later entry has the key, so the filter keeps just this one
      have none_later : rest.filter (·.1 == key) = [] := by
        rw [List.filter_eq_nil_iff]
        intro e member equal
        exact nodup.1 (List.mem_map.2 ⟨e, member, beq_iff_eq.1 equal⟩)
      rw [List.filter_cons_of_pos (p := fun e : Kind × β => e.1 == key) (beq_self_eq_true key),
        List.map_cons, none_later, List.lookup_cons_self]
      rfl
    · have differs : (k == key) = false := beq_false_of_ne (Ne.symm same)
      have dropped : ¬ ((key, value).1 == k) = true := by
        rw [show ((key, value).1 == k) = false from beq_false_of_ne same]
        exact Bool.false_ne_true
      rw [List.filter_cons_of_neg (p := fun e : Kind × β => e.1 == k) dropped, List.lookup_cons,
        differs]
      exact ih nodup.2

/-- A valid call names its method with a text in its second child. -/
theorem method_of_shapeCheck {n : Node} (call : n.kind.isCall = true)
    (valid : shapeCheck n.kind (n.children.map Slot.part) = none) :
    ∃ m, (n.children[1]? : Option (Slot Node)) = some (.atom (.text m)) := by
  obtain ⟨r, m, args, children, -⟩ := Node.call_children call valid
  exact ⟨m, by simp [children]⟩

theorem Node.methodName_of_isCall {n : Node} (call : n.kind.isCall = true) :
    n.methodName = .ok (n.textAt 1) := by
  have member : n.kind ∈ Kind.calls := by simpa [Kind.isCall] using call
  simp [Node.methodName, Node.expect, member]

theorem Node.methodName_of_not_isCall {n : Node} (call : n.kind.isCall = false) :
    ∃ e, n.methodName = .error e := by
  have absent : n.kind ∉ Kind.calls := by simpa [Kind.isCall] using call
  simp [Node.methodName, Node.expect, absent]

/-- On a valid node, the engine's test for passing over a rule is the rule's `skips`. -/
theorem Rule.skips_eq (r : Rule) {n : Node}
    (valid : shapeCheck n.kind (n.children.map Slot.part) = none) :
    r.skips n = (n.kind.isCall && !r.wantsCall n) := by
  cases call : n.kind.isCall with
  | true =>
    obtain ⟨m, second⟩ := method_of_shapeCheck call valid
    have text : n.textAt 1 = m := by simp [Node.textAt, second]
    simp [Rule.skips, Node.methodName_of_isCall call, text, RuleInfo.wantsCall, second]
  | false =>
    obtain ⟨e, named⟩ := Node.methodName_of_not_isCall call
    simp [Rule.skips, named]

/-- What the engine's table holds for a valid node, less the rules it passes over, are the
node's calls. -/
theorem dispatch_calls (rules : List Rule) (index : Nat) {n : Node}
    (valid : shapeCheck n.kind (n.children.map Slot.part) = none)
    (tables : ∀ r ∈ rules, (r.checks.map Prod.fst).Nodup) :
    ((dispatch rules n.kind).filter fun e => !(n.kind.isCall && !e.2.1.wantsCall n)).map
      (entryCall index n) = callsAt rules index n := by
  simp only [dispatch, callsAt]
  -- the test depends on the rule only, so it keeps or drops a rule's entries together
  have each : ∀ p ∈ rules.zipIdx,
      ((((p.1.checks.filter (·.1 == n.kind)).map fun e => (p.2, p.1, e.2)).filter
        fun e => !(n.kind.isCall && !e.2.1.wantsCall n)).map (entryCall index n)) =
      (if p.1.skips n then none
        else (p.1.checkFor n.kind).map fun c => (⟨index, n, p.2, p.1, c⟩ : Call)).toList := by
    rintro ⟨r, position⟩ member
    have nodup := tables r (List.mem_of_getElem? (List.mk_mem_zipIdx_iff_getElem?.1 member))
    rw [Rule.skips_eq r valid]
    by_cases passed : (n.kind.isCall && !r.wantsCall n) = true
    · simp only [Bool.and_eq_true, Bool.not_eq_true'] at passed
      simp [passed]
    · have lookup := congrArg (List.map fun c => (⟨index, n, position, r, c⟩ : Call))
        (map_snd_filter_key r.checks n.kind nodup)
      simp only [List.map_map, ← Option.toList_map] at lookup
      have keep : (!n.kind.isCall || r.wantsCall n) = true := by
        revert passed
        cases n.kind.isCall <;> cases r.wantsCall n <;> decide
      simpa [passed, keep, List.filter_map, Function.comp_def, entryCall, Rule.checkFor] using lookup
  rw [List.filter_flatMap, List.map_flatMap, List.flatMap_congr each,
    List.filterMap_eq_flatMap_toList]

/-- Every entry of the engine's table is a check of one of the rules. -/
theorem mem_dispatch {rules : List Rule} {kind : Kind} {e : Nat × Rule × Check Unit}
    (member : e ∈ dispatch rules kind) : e.2.1 ∈ rules ∧ (kind, e.2.2) ∈ e.2.1.checks := by
  simp only [dispatch, List.mem_flatMap, List.mem_map, List.mem_filter, beq_iff_eq] at member
  obtain ⟨⟨r, position⟩, listed, ⟨k, c⟩, ⟨held, rfl⟩, rfl⟩ := member
  exact ⟨List.mem_of_getElem? (List.mk_mem_zipIdx_iff_getElem?.1 listed), by simpa using held⟩

section Engine

variable {rules : List Rule} {buffer : Buffer} {walk : Array Visit}

/-- The engine's loop over indices of the walk makes, index by index, the calls at each. -/
theorem checkAll_settles (is : List Nat) (g : Gathered)
    (valid : ∀ i ∈ is, ∀ v, walk[i]? = some v →
      shapeCheck v.node.kind (v.node.children.map Slot.part) = none)
    (tables : ∀ r ∈ rules, (r.checks.map Prod.fst).Nodup)
    (reporting : ∀ r ∈ rules, ∀ e ∈ r.checks, e.2.OnlyReports) :
    Settles g (checkAll rules buffer walk is g)
      (runCalls buffer walk
        (is.flatMap fun i => ((walk[i]?).map fun v => callsAt rules i v.node).getD [])) := by
  induction is generalizing g with
  | nil => exact ⟨rfl, rfl, by simp [checkAll]⟩
  | cons i rest ih =>
    have later := fun g => ih g (fun j member => valid j (List.mem_cons_of_mem _ member))
    cases visit : walk[i]? with
    | none => simpa [checkAll, visit] using later g
    | some v =>
      -- the node's calls come first; the walk goes on only if none of them failed
      have node := checkNode_settles buffer walk i v.node (dispatch rules v.node.kind) g
        (fun e member => reporting _ (mem_dispatch member).1 _ (mem_dispatch member).2)
      rw [dispatch_calls rules i (valid i List.mem_cons_self v visit) tables] at node
      simp only [checkAll, visit, List.flatMap_cons, Option.map_some, Option.getD_some,
        runCalls_append]
      rcases step : checkNode buffer walk i v.node (dispatch rules v.node.kind) g with
        ⟨out, failure⟩
      rw [step] at node
      rcases first : runCalls buffer walk (callsAt rules i v.node) with ⟨ran, _ | ds⟩
      · rw [first] at node
        obtain ⟨ran_eq, failed⟩ := node
        simp only at failed
        subst failed
        exact ⟨ran_eq, rfl⟩
      · rw [first] at node
        have finished : failure = none := node.2.1
        subst finished
        exact node.append rfl (later out)

/-- Numbering a list's elements by a walk over its indices. -/
theorem flatMap_range_getElem? {α β : Type} (l : List α) (f : α → Nat → List β) :
    (List.range l.length).flatMap (fun i => (l[i]?.map fun x => f x i).getD []) =
      l.zipIdx.flatMap fun p => f p.1 p.2 := by
  induction l generalizing f with
  | nil => rfl
  | cons x rest ih =>
    rw [List.length_cons, List.range_succ_eq_map, List.flatMap_cons, List.flatMap_map,
      List.zipIdx_cons', List.flatMap_cons, List.flatMap_map]
    simpa using ih fun x i => f x (i + 1)

/-- **Linting is running the planned calls.** On a valid tree, for rules whose checks form a
table and only report, `lintTree` makes the planned calls in order and returns what they report,
or stops at the first that fails. -/
theorem lintTree_eq_runCalls (root : Node) (valid : root.Valid)
    (tables : ∀ r ∈ rules, (r.checks.map Prod.fst).Nodup)
    (reporting : ∀ r ∈ rules, ∀ e ∈ r.checks, e.2.OnlyReports) :
    lintTree rules root buffer =
      ⟨(runCalls buffer root.walk (plannedCalls rules root)).1,
        (runCalls buffer root.walk (plannedCalls rules root)).2⟩ := by
  have visits : ∀ i, ((root.walk[i]?).map fun v => callsAt rules i v.node).getD [] =
      (root.nodes[i]?.map fun n => callsAt rules i n).getD [] := by
    intro i
    rw [← Node.getElem?_walk, Option.map_map]
    rfl
  have planned : ((List.range root.walk.size).flatMap fun i =>
      ((root.walk[i]?).map fun v => callsAt rules i v.node).getD []) = plannedCalls rules root := by
    simp only [visits, Node.size_walk, plannedCalls]
    exact flatMap_range_getElem? root.nodes fun n i => callsAt rules i n
  have walked := @checkAll_settles rules buffer root.walk (List.range root.walk.size) {}
    (fun i _ v visit => valid v.node (List.mem_of_getElem? (by
      rw [← Node.getElem?_walk, visit]; rfl))) tables reporting
  rw [planned] at walked
  simp only [lintTree]
  rcases walk : checkAll rules buffer root.walk (List.range root.walk.size) {} with
    ⟨⟨ran, found⟩, failure⟩
  rw [walk] at walked
  rcases run : runCalls buffer root.walk (plannedCalls rules root) with ⟨calls, _ | ds⟩ <;>
    rw [run] at walked <;> obtain ⟨ran_eq, result⟩ := walked
  · simp only at result
    subst result
    simp_all
  · obtain ⟨rfl, found_eq⟩ := result
    simp_all

end Engine

/-! ### Scripted rules -/

namespace Script

/-- A scripted check only reports. -/
theorem check_onlyReports (s : Script) : s.check.OnlyReports := by
  refine .bind (.bind .read fun _ => .pure _) fun visit => ?_
  rcases visit with _ | v
  · exact .pure ()
  · dsimp only
    cases s.action with
    | nothing => exact .pure ()
    | report => exact .report _ _ _
    | increment =>
      dsimp only
      split
      · exact .report _ _ _
      · exact .throw _
    | fail => exact .throw _

/-- A scripted rule lists each kind once. -/
theorem nodup_distinctKinds (s : Script) : s.distinctKinds.Nodup := by
  suffices grows : ∀ (ks acc : List Kind), acc.Nodup →
      (ks.foldl (fun acc k => if acc.contains k then acc else acc ++ [k]) acc).Nodup from
    grows s.kinds [] List.nodup_nil
  intro ks
  induction ks with
  | nil => exact fun _ nodup => nodup
  | cons k rest ih =>
    intro acc nodup
    apply ih
    dsimp only
    split
    · exact nodup
    · rename_i absent
      exact List.nodup_append.2 ⟨nodup, List.nodup_singleton k,
        fun a member b same equal => by simp_all⟩

/-- The checks of a scripted rule form a table, each entry of which only reports. -/
theorem rule_table (s : Script) :
    (s.rule.checks.map Prod.fst).Nodup ∧ ∀ e ∈ s.rule.checks, e.2.OnlyReports := by
  refine ⟨?_, ?_⟩
  · simpa [Script.rule, List.map_map, Function.comp_def] using s.nodup_distinctKinds
  · intro e member
    simp only [Script.rule, List.mem_map] at member
    obtain ⟨k, _, rfl⟩ := member
    exact s.check_onlyReports

end Script

/-! ### What a lint of a tree does -/

/-- **Dispatch in walk order.** On a valid tree, with rules whose checks form a table and only
report, `lintTree` makes exactly the planned calls in order, up to and including the first that
fails, and returns what they report in that order, or that failure: a lint failure or a
malformed tree as it is, any other as a failure of the rule on the node, whose message names the
rule, the node's kind and its span. -/
theorem lintTree_makes_planned_calls (rules : List Rule) (root : Node) (buffer : Buffer)
    (valid : root.Valid) (tables : ∀ r ∈ rules, (r.checks.map Prod.fst).Nodup)
    (reporting : ∀ r ∈ rules, ∀ e ∈ r.checks, e.2.OnlyReports) :
    (lintTree rules root buffer).ran = (runCalls buffer root.walk (plannedCalls rules root)).1 ∧
    (lintTree rules root buffer).result =
      (runCalls buffer root.walk (plannedCalls rules root)).2 ∧
    ∀ (call : Call) (cause : String), (call.failure (.other cause)).message =
      call.rule.id ++ " failed on " ++ call.node.kind.value ++ " node at " ++
        ("[" ++ toString call.node.span.start ++ ", " ++ toString call.node.span.stop ++ ")") ++
        ": " ++ cause := by
  rw [lintTree_eq_runCalls root valid tables reporting]
  exact ⟨rfl, rfl, fun call cause => rfl⟩

theorem lintTree_reports_then_fails_on_literal :
    let reporter : Script :=
      { info := { id := "Style/Report", name := "report", severity := .info,
                  restrictOnSend := ["map"] },
        kinds := [.send, .int], action := .report }
    let failing : Script :=
      { info := { id := "Lint/Fail", name := "fail", severity := .info },
        kinds := [.int], action := .fail, failure := .value }
    let root : Node :=
      .mk .begin [.node (.mk .send [.atom .none, .atom (.text "each"),
        .node (.mk .int [.atom (.text "1")] ⟨5, 6, Nat.le_succ 5⟩ [])] ⟨0, 6, Nat.zero_le 6⟩ [])]
        ⟨0, 6, Nat.zero_le 6⟩ []
    let rules := [reporter.rule, failing.rule]
    root.Valid ∧ (∀ r ∈ rules, (r.checks.map Prod.fst).Nodup) ∧
      (∀ r ∈ rules, ∀ e ∈ r.checks, e.2.OnlyReports) ∧
      ((lintTree rules root (Buffer.ofText "f.each 1" "")).ran =
          (runCalls (Buffer.ofText "f.each 1" "") root.walk (plannedCalls rules root)).1 ∧
        (lintTree rules root (Buffer.ofText "f.each 1" "")).result =
          (runCalls (Buffer.ofText "f.each 1" "") root.walk (plannedCalls rules root)).2 ∧
        ∀ (call : Call) (cause : String), (call.failure (.other cause)).message =
          call.rule.id ++ " failed on " ++ call.node.kind.value ++ " node at " ++
            ("[" ++ toString call.node.span.start ++ ", " ++ toString call.node.span.stop ++ ")") ++
            ": " ++ cause) := by
  intro reporter failing root rules
  have valid : root.Valid := by decide
  have tables : ∀ r ∈ rules, (r.checks.map Prod.fst).Nodup := by
    simp only [rules, List.mem_cons, List.not_mem_nil, or_false]
    rintro r (rfl | rfl)
    exacts [reporter.rule_table.1, failing.rule_table.1]
  have reporting : ∀ r ∈ rules, ∀ e ∈ r.checks, e.2.OnlyReports := by
    simp only [rules, List.mem_cons, List.not_mem_nil, or_false]
    rintro r (rfl | rfl)
    exacts [reporter.rule_table.2, failing.rule_table.2]
  exact ⟨valid, tables, reporting,
    lintTree_makes_planned_calls rules root (Buffer.ofText "f.each 1" "") valid tables reporting⟩

end RubyCheck.Lint
