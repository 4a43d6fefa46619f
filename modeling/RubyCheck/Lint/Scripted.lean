import RubyCheck.Lint.Rule
import RubyCheck.Text.Quoted
import RubyCheck.Text.Whole

/-!
# Rules described by data

**A rule whose check does one fixed thing, for exercising the engine.**

A scripted rule lists the kinds it visits, and on each node of those kinds it does its action:
nothing, report the node, report the node with a correction that adds one to the number its
first child writes, or fail. A report quotes the script's message; its correction, if the script
gives a text, replaces the node with that text. Adding one fails when the child writes no number,
or when either number has more digits than may be read or written. A failure is a lookup failure
(whose text is quoted), a value failure, a malformed tree or a lint failure, carrying the
script's text.
-/

namespace RubyCheck.Lint

open RubyCheck.Source RubyCheck.Tree

/-- What a scripted rule does on each node it visits. -/
inductive Action where
  | nothing
  | report
  | increment
  | fail
  deriving DecidableEq, Repr

/-- The failure a scripted rule raises. -/
inductive Failure where
  | lookup
  | value
  | malformedTree
  | lint
  deriving DecidableEq, Repr

/-- A rule described by data. -/
structure Script where
  info : RuleInfo
  kinds : List Kind
  action : Action := .nothing
  message : String := "found"
  text : Option String := none
  failure : Failure := .lookup

namespace Script

/-- The sentence refusing to read a number from a value of the kind `kind`. -/
def notNumber (kind : String) : String :=
  "int() argument must be a string, a bytes-like object or a real number, not '" ++ kind ++ "'"

/-- The number a node's first child stands for: text is read as a decimal whole number, and a
truth value counts as 0 or 1. -/
def numberOf (n : Node) : Except String Int :=
  match (n.children[0]? : Option (Slot Node)) with
  | some (.atom (.text s)) => (Text.readWhole s).mapError (·.message)
  | some (.atom (.int i)) => .ok i
  | some (.atom (.bool b)) => .ok (if b then 1 else 0)
  | some (.atom .none) => .error (notNumber "NoneType")
  | some (.node _) => .error (notNumber "SyntaxNode")
  | none => .error "tuple index out of range"

/-- The text of the number one more than a node's first child stands for. -/
def successorText (n : Node) : Except String String := do
  (Text.writeWhole ((← numberOf n) + 1)).mapError (·.message)

/-- The fault of the script's failure. -/
def fault (s : Script) : Fault :=
  let text := s.text.getD "boom"
  match s.failure with
  | .lookup => .other (Text.quoted text)
  | .value => .other text
  | .malformedTree => .malformed text
  | .lint => .lint text

/-- The check: the script's action on the node visited. -/
def check (s : Script) : Check Unit := do
  let some v ← Check.visit | return
  let node := v.node
  match s.action with
  | .nothing => pure ()
  | .report =>
    Check.report node.span s.message (s.text.map (Edit.replace node.span ·))
  | .increment =>
    match successorText node with
    | .ok text => Check.report node.span s.message (some (Edit.replace node.span text))
    | .error e => throw (.other e)
  | .fail => throw s.fault

/-- The kinds listed, each once, in the order of their first mention. -/
def distinctKinds (s : Script) : List Kind :=
  s.kinds.foldl (fun acc k => if acc.contains k then acc else acc ++ [k]) []

/-- The rule of a script. -/
def rule (s : Script) : Rule :=
  { s.info with checks := s.distinctKinds.map fun k => (k, s.check) }

end Script

end RubyCheck.Lint
