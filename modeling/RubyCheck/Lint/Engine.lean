import RubyCheck.Lint.UseZip
import RubyCheck.Ruby.Parse

/-!
# The lint engine

**One walk over a tree, dispatching each node to the checks of its kind; repeated fixing.**

- `lintTree` walks the tree in pre-order. For each node it runs, in rule order, the check each
  rule has for the node's kind; a rule restricted to some method names skips the calls of other
  methods. The diagnostics come in the order they were found. Every check run is recorded, up to
  and including one that fails.
- A lint failure or a malformed tree stops the walk as it is; any other failure of a check stops
  it as a failure of the rule, naming the node.
- `fixString` lints, then, for at most the given number of passes, applies the corrections of all
  fixable diagnostics at once and lints again. It stops when nothing is fixable or when a pass
  leaves the text as it was (that pass still counts).

`lintStringWith` and `fixStringWith` take the reader of concrete trees as a parameter;
`lintString` and `fixString` use `Ruby.concreteTree`.
-/

namespace RubyCheck.Lint

open RubyCheck.Source RubyCheck.Tree RubyCheck.Ruby

/-- A check that ran: the position of its rule among the rules, and the node's kind and span. -/
structure Visited where
  rule : Nat
  kind : Kind
  span : Span

/-- Why linting stopped. -/
inductive LintFailure where
  /-- a check failed for a reason of its own -/
  | rule (ruleId : String) (kind : Kind) (span : Span) (cause : String)
  /-- a check reported a lint failure -/
  | lint (message : String)
  /-- a check met a malformed tree -/
  | malformed (message : String)
  /-- the corrections of a pass could not be applied -/
  | edit (e : EditError)
  deriving Repr

/-- The message of a lint failure. -/
def LintFailure.message : LintFailure → String
  | .rule id kind span cause =>
    s!"{id} failed on {kind.value} node at {Span.interval span}: {cause}"
  | .lint m => m
  | .malformed m => m
  | .edit e => e.message

/-- The checks for nodes of `kind`, in rule order, with each rule's position. -/
def dispatch (rules : List Rule) (kind : Kind) : List (Nat × Rule × Check Unit) :=
  rules.zipIdx.flatMap fun (r, i) =>
    (r.checks.filter (·.1 == kind)).map fun (_, c) => (i, r, c)

/-- What a walk has gathered: the checks run, newest first, and the diagnostics. -/
structure Gathered where
  ran : List Visited := []
  found : Array Diagnostic := #[]

/-- Runs the checks `entries` on the node at `index`. -/
def checkNode (buffer : Buffer) (walk : Array Visit) (index : Nat) (node : Node) :
    List (Nat × Rule × Check Unit) → Gathered → Gathered × Option LintFailure
  | [], g => (g, none)
  | (i, r, c) :: more, g =>
    if node.kind.isCall && !r.wantsCall node then checkNode buffer walk index node more g
    else
      let g := { g with ran := ⟨i, node.kind, node.span⟩ :: g.ran }
      match (c.run { rule := r.toRuleInfo, buffer, walk, index }).run g.found with
      | .ok ((), found) => checkNode buffer walk index node more { g with found }
      | .error (.lint m) => (g, some (.lint m))
      | .error (.malformed m) => (g, some (.malformed m))
      | .error (.other t) => (g, some (.rule r.id node.kind node.span t))

/-- Runs the checks on the nodes at the given indices, in order. -/
def checkAll (rules : List Rule) (buffer : Buffer) (walk : Array Visit) :
    List Nat → Gathered → Gathered × Option LintFailure
  | [], g => (g, none)
  | index :: rest, g =>
    match walk[index]? with
    | none => checkAll rules buffer walk rest g
    | some v =>
      match checkNode buffer walk index v.node (dispatch rules v.node.kind) g with
      | (g, none) => checkAll rules buffer walk rest g
      | (g, some f) => (g, some f)

/-- What linting gives: the checks that ran, and the diagnostics or the failure. -/
structure Linted where
  ran : List Visited
  result : Except LintFailure (List Diagnostic)

/-- Lints a tree of the text in `buffer`. -/
def lintTree (rules : List Rule) (root : Node) (buffer : Buffer) : Linted :=
  let walk := root.walk
  let (g, failure) := checkAll rules buffer walk (List.range walk.size) {}
  { ran := g.ran.reverse,
    result := match failure with
      | some f => .error f
      | none => .ok g.found.toList }

/-- The outcome of fixing: the final text, whether it changed, the passes made, and the
diagnostics of the last lint with the buffer of the final text. -/
structure Fixed where
  source : String
  modified : Bool
  passes : Nat
  diagnostics : List Diagnostic
  buffer : Buffer

section Reading

variable (read : String → Cst)

/-- Parses a text, its concrete tree read by `read`, and lints it: the parse, and what linting
its tree gives. -/
def lintStringWith (rules : List Rule) (text name : String) : ParseResult × Linted :=
  let parsed := parseWith read text name
  (parsed, lintTree rules parsed.tree parsed.buffer)

/-- The fixing loop from text `current` and its lint, with at most `budget` passes left. -/
def fixLoop (rules : List Rule) (name initial : String) :
    Nat → String → Nat → Buffer → List Diagnostic → List Visited →
      List Visited × Except LintFailure Fixed
  | budget, current, passes, buffer, ds, ran =>
    let finish : List Visited × Except LintFailure Fixed :=
      (ran, .ok { source := current, modified := current != initial, passes,
                  diagnostics := ds, buffer })
    match budget with
    | 0 => finish
    | budget + 1 =>
      let fixable := ds.filter (·.fixable)
      if fixable.isEmpty then finish
      else
        match applyFixes buffer.bytes fixable with
        | .error e => (ran, .error (.edit e))
        | .ok corrected =>
          if corrected == current then
            (ran, .ok { source := current, modified := current != initial,
                        passes := passes + 1, diagnostics := ds, buffer })
          else
            let (parsed, linted) := lintStringWith read rules corrected name
            let ran := ran ++ linted.ran
            match linted.result with
            | .error f => (ran, .error f)
            | .ok ds' =>
              fixLoop rules name initial budget corrected (passes + 1) parsed.buffer ds' ran

/-- Lints and fixes a text, its concrete trees read by `read`, for at most `maxPasses` passes. -/
def fixStringWith (rules : List Rule) (text name : String) (maxPasses : Int) :
    List Visited × Except LintFailure Fixed :=
  let (parsed, linted) := lintStringWith read rules text name
  match linted.result with
  | .error f => (linted.ran, .error f)
  | .ok ds => fixLoop read rules name text maxPasses.toNat text 0 parsed.buffer ds linted.ran

end Reading

/-- Parses and lints a text: the parse, and what linting its tree gives. -/
def lintString (rules : List Rule) (text name : String) : ParseResult × Linted :=
  lintStringWith concreteTree rules text name

/-- Lints and fixes a text, for at most `maxPasses` passes. -/
def fixString (rules : List Rule) (text name : String) (maxPasses : Int) :
    List Visited × Except LintFailure Fixed :=
  fixStringWith concreteTree rules text name maxPasses

end RubyCheck.Lint
