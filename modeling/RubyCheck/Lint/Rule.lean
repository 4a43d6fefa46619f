import RubyCheck.Lint.Edit
import RubyCheck.Tree.Walk

/-!
# Rules and diagnostics

**What a rule is, what it reports, and how it fails.**

- A diagnostic is one offense: the rule's id, a span, a message, a severity, and an optional
  edit that corrects it. It is fixable when it has an edit.
- A rule has an id (`Department/Name`), a name, a severity, whether it can fix what it finds, a
  description, and one check for each node kind it visits. A rule may restrict its checks of
  calls to some method names.
- A check runs on one node of a walked tree. It sees the buffer, the walk and the node's index,
  reports offenses, and may fail: with a lint failure or a malformed tree, which the engine
  passes on as they are, or with any other failure, which the engine blames on the rule.
- A rule that cannot fix drops the edits of its offenses.
-/

namespace RubyCheck.Lint

open RubyCheck.Source RubyCheck.Tree

/-- How serious an offense is. -/
inductive Severity where
  | error
  | warning
  | info
  | style
  deriving DecidableEq, Repr, Inhabited

namespace Severity

/-- The name of a severity. -/
def value : Severity → String
  | .error => "error"
  | .warning => "warning"
  | .info => "info"
  | .style => "style"

/-- The severity of a name. -/
def ofValue? : String → Option Severity
  | "error" => some .error
  | "warning" => some .warning
  | "info" => some .info
  | "style" => some .style
  | _ => none

end Severity

/-- One offense found by a rule. -/
structure Diagnostic where
  ruleId : String
  span : Span
  message : String
  severity : Severity
  edit : Option Edit := none
  deriving Repr

namespace Diagnostic

/-- Whether the offense comes with its correction. -/
def fixable (d : Diagnostic) : Bool := d.edit.isSome

/-- The line and column where the offense starts. -/
def location (d : Diagnostic) (b : Buffer) : Int × Int := b.lineAndColumn d.span.start

end Diagnostic

/-- Applies the corrections of some diagnostics to a text. -/
def applyFixes (bytes : ByteArray) (ds : List Diagnostic) : Except EditError String :=
  resolve bytes (ds.filterMap (·.edit))

/-- What a rule is, apart from its checks. -/
structure RuleInfo where
  id : String
  name : String
  severity : Severity
  fixable : Bool := false
  description : String := ""
  /-- the method names whose calls the rule checks; empty for all -/
  restrictOnSend : List String := []

/-- The department of a rule: its id up to the first `/`. -/
def RuleInfo.department (r : RuleInfo) : String :=
  (r.id.splitOn "/").head?.getD r.id

/-- Why a check stopped. -/
inductive Fault where
  /-- a lint failure, passed on as it is -/
  | lint (message : String)
  /-- a malformed tree, passed on as it is -/
  | malformed (message : String)
  /-- any other failure, with its text -/
  | other (text : String)
  deriving Repr

/-- What a check sees: the rule running, the buffer, the walked tree, and the node visited. -/
structure Scene where
  rule : RuleInfo
  buffer : Buffer
  walk : Array Visit
  index : Nat

/-- A check of one node: reads the scene, gathers diagnostics, may fail. -/
abbrev Check := ReaderT Scene (StateT (Array Diagnostic) (Except Fault))

/-- A rule: what it is, and the check it runs on each kind of node it visits. -/
structure Rule extends RuleInfo where
  checks : List (Kind × Check Unit)

namespace Check

/-- The visit of the node being checked. -/
def visit : Check (Option Visit) := do
  let sc ← read
  return sc.walk[sc.index]?

/-- Reports an offense of the running rule; the edit is dropped when the rule cannot fix. -/
def report (span : Span) (message : String) (edit : Option Edit) : Check Unit := do
  let sc ← read
  let edit := if sc.rule.fixable then edit else none
  modify (·.push { ruleId := sc.rule.id, span, message, severity := sc.rule.severity, edit })

end Check

/-- Whether a rule checks a call: it restricts to no names, or the call's method name is one of
them. -/
def RuleInfo.wantsCall (r : RuleInfo) (n : Node) : Bool :=
  r.restrictOnSend.isEmpty ||
    match (n.children[1]? : Option (Slot Node)) with
    | some (.atom (.text m)) => r.restrictOnSend.contains m
    | _ => false

end RubyCheck.Lint
