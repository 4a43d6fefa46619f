/-!
# Node kinds

The closed set of kinds a syntax node has. Each kind is written by a short lowercase word, its
*value*; `other` is written `opaque` and tags a construct the tree does not model, whose first
child names its grammar type.

Kinds come in families: the two *call* kinds (`send`, `csend`), the two *block* kinds
(`block`, `numblock`) and the eight *parameter* kinds (`arg` to `shadowarg`).
-/

namespace RubyCheck.Tree

/-- The kind of a syntax node. -/
inductive Kind where
  | begin | send | csend | block | numblock | args
  | arg | optarg | restarg | kwarg | kwoptarg | kwrestarg | blockarg | shadowarg
  | mlhs | lvar | ivar | array | hash | int | float | str | sym | const
  | nil | true | false | self
  /-- A construct the tree does not model; written `opaque`. -/
  | other
  deriving DecidableEq, Repr, Inhabited

namespace Kind

/-- Every kind, in declaration order. -/
def all : List Kind :=
  [.begin, .send, .csend, .block, .numblock, .args, .arg, .optarg, .restarg, .kwarg, .kwoptarg,
    .kwrestarg, .blockarg, .shadowarg, .mlhs, .lvar, .ivar, .array, .hash, .int, .float, .str,
    .sym, .const, .nil, .true, .false, .self, .other]

/-- The word that writes a kind. -/
def value : Kind → String
  | .begin => "begin" | .send => "send" | .csend => "csend" | .block => "block"
  | .numblock => "numblock" | .args => "args" | .arg => "arg" | .optarg => "optarg"
  | .restarg => "restarg" | .kwarg => "kwarg" | .kwoptarg => "kwoptarg"
  | .kwrestarg => "kwrestarg" | .blockarg => "blockarg" | .shadowarg => "shadowarg"
  | .mlhs => "mlhs" | .lvar => "lvar" | .ivar => "ivar" | .array => "array" | .hash => "hash"
  | .int => "int" | .float => "float" | .str => "str" | .sym => "sym" | .const => "const"
  | .nil => "nil" | .true => "true" | .false => "false" | .self => "self" | .other => "opaque"

/-- The kind a word writes, if any. -/
def ofValue? (s : String) : Option Kind := all.find? (·.value == s)

/-- The call kinds. -/
def calls : List Kind := [.send, .csend]

/-- The block kinds. -/
def blocks : List Kind := [.block, .numblock]

/-- The parameter kinds. -/
def parameters : List Kind :=
  [.arg, .optarg, .restarg, .kwarg, .kwoptarg, .kwrestarg, .blockarg, .shadowarg]

/-- The kinds that carry a name: the parameter kinds and the two variable kinds. -/
def named : List Kind := parameters ++ [.lvar, .ivar]

def isCall (k : Kind) : Bool := calls.contains k
def isBlock (k : Kind) : Bool := blocks.contains k
def isParameter (k : Kind) : Bool := parameters.contains k

theorem ofValue?_value (k : Kind) : ofValue? k.value = some k := by
  cases k <;> rfl

end Kind

end RubyCheck.Tree
