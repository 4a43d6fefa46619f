import RubyCheck.Tree.Node

/-!
# Node shapes

Every kind fixes how many children a node has and what each child may be. Building a node checks,
in this order: that it has a span; that its child count is within its kind's bounds; then its
kind's shape rule, child by child from the left. The first failure is the one reported.

The shape rules:

* a call: a node or nothing, then a text, then nodes;
* a block: a call node, an `args` node, a node or nothing;
* a numbered block: a call node, a whole number from 1 to 9, a node or nothing;
* `args`: parameter or `mlhs` nodes;
* the named kinds and `int`, `float`, `str`, `sym`: a text;
* `const`: a node or nothing, then a text;
* `opaque`: a text (the grammar type), then nodes;
* every other kind: nodes only.
-/

namespace RubyCheck.Tree

open RubyCheck.Source

/-- What the shape rules see of a child: the kind of a node, or an atom. -/
inductive Part where
  | node (kind : Kind)
  | atom (a : Atom)
  deriving DecidableEq, Repr

/-- Why a node cannot be built, or why a tree is not the one a rule expects. -/
inductive Malformed where
  | noSpan (kind : Kind)
  | childCount (kind : Kind) (count : Nat)
  | receiverNotNode (kind : Kind)
  | methodNotText (kind : Kind)
  | notNode (kind : Kind) (child : Atom)
  | callMissing (kind : Kind)
  | parametersNotArgs
  | arityOutOfRange
  | bodyNotNode (kind : Kind)
  | notParameter
  | valueNotText (kind : Kind)
  | scopeNotNode
  | nameNotText
  | grammarTypeMissing
  /-- A node given to a second parent; both are named by their labels. -/
  | owned (child owner : String)
  /-- A call whose method name has no span; named by its label. -/
  | noSelector (call : String)
  /-- A failure a rule reports in words of its own. -/
  | stated (message : String)
  deriving DecidableEq, Repr

/-- The message of each failure. -/
def Malformed.message : Malformed → String
  | .noSpan k => s!"{k.value} node has no source range"
  | .childCount k n => s!"{k.value} node has {n} children"
  | .receiverNotNode k => s!"{k.value} receiver must be a node or None"
  | .methodNotText k => s!"{k.value} method name must be a string"
  | .notNode k a => s!"{k.value} children must be nodes, got {a.render}"
  | .callMissing k => s!"{k.value} must start with a send node"
  | .parametersNotArgs => "block parameters must be an args node"
  | .arityOutOfRange => "numblock arity must be an integer between 1 and 9"
  | .bodyNotNode k => s!"{k.value} body must be a node or None"
  | .notParameter => "args children must be argument nodes"
  | .valueNotText k => s!"{k.value} value must be a string"
  | .scopeNotNode => "const scope must be a node or None"
  | .nameNotText => "const name must be a string"
  | .grammarTypeMissing => "opaque node must start with its grammar type"
  | .owned c o => s!"{c} already belongs to {o}"
  | .noSelector c => s!"send node {c} has no selector range"
  | .stated m => m

namespace Kind

/-- The least number of children a node of each kind has. -/
def minChildren : Kind → Nat
  | .send | .csend => 2
  | .block | .numblock => 3
  | .const => 2
  | .lvar | .ivar | .int | .float | .str | .sym | .other => 1
  | k => if k.isParameter then 1 else 0

/-- The greatest number of children, where there is one. -/
def maxChildren? : Kind → Option Nat
  | .block | .numblock => some 3
  | .const => some 2
  | .lvar | .ivar | .int | .float | .str | .sym => some 1
  | .nil | .true | .false | .self => some 0
  | k => if k.isParameter then some 1 else none

/-- Whether the kind's single child is a text. -/
def holdsText (k : Kind) : Bool :=
  named.contains k || [Kind.int, .float, .str, .sym].contains k

end Kind

/-- The first child that is not a node, reported for `kind`. -/
def requireNodes (kind : Kind) : List Part → Option Malformed
  | [] => none
  | .node _ :: rest => requireNodes kind rest
  | .atom a :: _ => some (.notNode kind a)

/-- Whether a child is a node or the atom `nothing`. -/
def Part.isNodeOrNothing : Part → Bool
  | .node _ | .atom .none => true
  | _ => false

/-- Whether a child is a text. -/
def Part.isText : Part → Bool
  | .atom (.text _) => true
  | _ => false

/-- Whether a child is a parameter of a block or method list. -/
def Part.isParameter : Part → Bool
  | .node k => k.isParameter || k == .mlhs
  | _ => false

/-- Whether a child is a whole number from 1 to 9, truth values excluded. -/
def Part.isArity : Part → Bool
  | .atom (.int i) => 1 ≤ i && i ≤ 9
  | _ => false

/-- The shape rule of `kind` applied to children whose count is already within bounds. -/
def shapeFailure (kind : Kind) (parts : List Part) : Option Malformed :=
  match kind, parts with
  | .send, r :: m :: rest | .csend, r :: m :: rest =>
    if !r.isNodeOrNothing then some (.receiverNotNode kind)
    else if !m.isText then some (.methodNotText kind)
    else requireNodes kind rest
  | .block, c :: p :: b :: _ | .numblock, c :: p :: b :: _ =>
    let isCall := match c with
      | .node k => k.isCall
      | _ => false
    if !isCall then some (.callMissing kind)
    else if kind == .block && p != .node .args then some .parametersNotArgs
    else if kind == .numblock && !p.isArity then some .arityOutOfRange
    else if !b.isNodeOrNothing then some (.bodyNotNode kind)
    else none
  | .args, ps => if ps.all Part.isParameter then none else some .notParameter
  | .const, s :: n :: _ =>
    if !s.isNodeOrNothing then some .scopeNotNode
    else if !n.isText then some .nameNotText
    else none
  | .other, t :: rest => if !t.isText then some .grammarTypeMissing else requireNodes kind rest
  | k, p :: _ =>
    if k.holdsText then (if p.isText then none else some (.valueNotText k))
    else requireNodes k parts
  | k, [] => requireNodes k []

/-- The first rule a node of `kind` with these children breaks, if any. -/
def shapeCheck (kind : Kind) (parts : List Part) : Option Malformed :=
  let n := parts.length
  let tooMany := match kind.maxChildren? with
    | some most => decide (most < n)
    | none => false
  if decide (n < kind.minChildren) || tooMany then
    some (.childCount kind n)
  else shapeFailure kind parts

/-- What the shape rules see of a node's child. -/
def Slot.part : Slot Node → Part
  | .node n => .node n.kind
  | .atom a => .atom a

/-- The node of this kind, children, span and named sub-spans, if they make a valid node. -/
def Node.make? (kind : Kind) (children : List (Slot Node)) (span : Option Span)
    (loc : List (String × Span) := []) : Except Malformed Node :=
  match span with
  | none => .error (.noSpan kind)
  | some s =>
    match shapeCheck kind (children.map Slot.part) with
    | some failure => .error failure
    | none => .ok (.mk kind children s loc)

end RubyCheck.Tree
