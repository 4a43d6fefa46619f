import RubyCheck.Tree.Node

/-!
# Reading a node by its kind

Calls have a receiver, a method name and arguments; blocks have a call, parameters (or an arity)
and a body; parameters and variables have a name. Asking a node of another kind for one of
these fails, naming the node's kind and, sorted, the kinds that have it.
-/

namespace RubyCheck.Tree

/-- Asking a node for something its kind does not have. -/
structure WrongKind where
  kind : Kind
  expected : List Kind
  deriving DecidableEq, Repr

/-- Sorts texts in increasing order. -/
def sortTexts (xs : List String) : List String :=
  xs.mergeSort fun a b => decide (a ≤ b)

/-- The message: the node's kind, then the sorted kinds that would do. -/
def WrongKind.message (e : WrongKind) : String :=
  let expected := ", ".intercalate (sortTexts (e.expected.map Kind.value))
  s!"{e.kind.value} node is not one of: {expected}"

/-- What a node's arguments are: the argument list of a call, or the second child of a block
(its parameter node, or the arity of a numbered block). -/
inductive Arguments where
  | list (items : List (Slot Node))
  | params (s : Slot Node)

namespace Node

/-- Fails unless the node's kind is among `kinds`. -/
def expect (n : Node) (kinds : List Kind) : Except WrongKind Unit :=
  if kinds.contains n.kind then .ok () else .error { kind := n.kind, expected := kinds }

/-- The child at a position, when it is a node. -/
def nodeAt? (n : Node) (i : Nat) : Option Node :=
  match (n.children[i]? : Option (Slot Node)) with
  | some (.node c) => some c
  | _ => none

/-- The child at a position, when it is a text. -/
def textAt (n : Node) (i : Nat) : String :=
  match (n.children[i]? : Option (Slot Node)) with
  | some (.atom (.text s)) => s
  | _ => ""

/-- The receiver of a call; `none` for a call on no object. -/
def receiver (n : Node) : Except WrongKind (Option Node) := do
  n.expect Kind.calls
  return n.nodeAt? 0

/-- The method name of a call. -/
def methodName (n : Node) : Except WrongKind String := do
  n.expect Kind.calls
  return n.textAt 1

/-- The arguments of a call, or the parameter node of a block. -/
def arguments (n : Node) : Except WrongKind Arguments :=
  if n.kind.isCall then .ok (.list (n.children.drop 2))
  else do
    n.expect Kind.blocks
    return .params ((n.children[1]? : Option (Slot Node)).getD (.atom .none))

/-- The call of a block. -/
def sendNode (n : Node) : Except WrongKind Node := do
  n.expect Kind.blocks
  return (n.nodeAt? 0).getD n

/-- The body of a block; `none` for an empty body. -/
def body (n : Node) : Except WrongKind (Option Node) := do
  n.expect Kind.blocks
  return n.nodeAt? 2

/-- How many parameters a block takes: the numbered block's arity, or the count of its
parameter node's children. -/
def arity (n : Node) : Except WrongKind Int :=
  if n.kind == .numblock then
    match (n.children[1]? : Option (Slot Node)) with
    | some (.atom (.int i)) => .ok i
    | _ => .ok 0
  else do
    n.expect [.block]
    return ((n.nodeAt? 1).map (·.children.length)).getD 0

/-- The name of a parameter or variable. -/
def name (n : Node) : Except WrongKind String := do
  n.expect Kind.named
  return n.textAt 0

end Node

end RubyCheck.Tree
