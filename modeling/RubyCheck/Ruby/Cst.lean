/-!
# Concrete trees of Ruby text

**What the reader hands to the lowering.**

A concrete tree keeps each construct the reader recognised, under the grammar's name for it (its
*type*). A node is *named* when it stands for a construct (`call`, `identifier`, `array`) and
anonymous when it is a keyword or a punctuation token (`do`, `.`, `|`). Each node records the field
under which its parent holds it (`receiver`, `method`, `parameters`), and its half-open byte range.
Children are in text order; hidden helper tokens (line breaks that end statements) are not
children, but they count for the range of the node that holds them.

Malformed text leaves two marks: nodes of type `ERROR`, which hold what was skipped, and *missing*
nodes, zero-width stand-ins for a token that should have been there.

- `hasError`: the tree holds an `ERROR` node or a missing node.
- `namedChildren`: the named children other than comments, which the lowering reads.
-/

namespace RubyCheck.Ruby

/-- A node of a concrete tree: type, named or anonymous, parent field, missing or read, byte
range and children. -/
inductive Cst where
  | mk (type : String) (named : Bool) (field : Option String) (missing : Bool)
      (start stop : Nat) (children : List Cst)
  deriving Repr, Inhabited

namespace Cst

def type : Cst → String
  | .mk t _ _ _ _ _ _ => t

def named : Cst → Bool
  | .mk _ n _ _ _ _ _ => n

def field : Cst → Option String
  | .mk _ _ f _ _ _ _ => f

def missing : Cst → Bool
  | .mk _ _ _ m _ _ _ => m

def start : Cst → Nat
  | .mk _ _ _ _ s _ _ => s

def stop : Cst → Nat
  | .mk _ _ _ _ _ e _ => e

def children : Cst → List Cst
  | .mk _ _ _ _ _ _ cs => cs

/-- The same node, held under `f` by its parent. -/
def withField (c : Cst) (f : String) : Cst :=
  match c with
  | .mk t n _ m s e cs => .mk t n (some f) m s e cs

/-- A leaf: a token or a construct without children. -/
def leaf (type : String) (named : Bool) (start stop : Nat) : Cst :=
  .mk type named none false start stop []

/-- Whether the node is a recovery node. -/
def isError (c : Cst) : Bool := c.type == "ERROR"

/-- Whether the node is a comment, which the lowering passes over. -/
def isComment (c : Cst) : Bool := c.type == "comment"

mutual

/-- Whether the tree holds a recovery node or a missing node. -/
def hasError : Cst → Bool
  | .mk t _ _ m _ _ cs => t == "ERROR" || m || anyError cs

/-- Whether some tree of the list holds a recovery node or a missing node. -/
def anyError : List Cst → Bool
  | [] => false
  | c :: cs => hasError c || anyError cs

end

mutual

/-- The tokens of a tree, in order: its leaves less the missing ones, held under no field. -/
def tokens : Cst → List Cst
  | .mk t n _ m s e [] => if m then [] else [.mk t n none false s e []]
  | .mk _ _ _ _ _ _ (c :: cs) => tokens c ++ tokensOf cs

/-- The tokens of the trees of a list, in order. -/
def tokensOf : List Cst → List Cst
  | [] => []
  | c :: cs => tokens c ++ tokensOf cs

end

mutual

/-- Whether the tree holds a missing node. -/
def hasMissing : Cst → Bool
  | .mk _ _ _ m _ _ cs => m || anyMissing cs

/-- Whether some tree of the list holds a missing node. -/
def anyMissing : List Cst → Bool
  | [] => false
  | c :: cs => hasMissing c || anyMissing cs

end

/-- The named children other than comments, in order. -/
def namedChildren (c : Cst) : List Cst :=
  c.children.filter fun k => k.named && !k.isComment

/-- The first child held under field `f`. -/
def childByField (c : Cst) (f : String) : Option Cst :=
  c.children.find? fun k => k.field == some f

end Cst

end RubyCheck.Ruby
