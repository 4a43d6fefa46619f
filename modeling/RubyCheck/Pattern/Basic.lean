import RubyCheck.Tree.Node

/-!
# Tree patterns

A pattern describes a set of children. `wildcard` accepts anything; `capture x` accepts anything
and binds it to `x`, and a second `capture x` accepts only a value equal to the first;
`literal v` accepts the atom `v` of the same type (a text, a whole number or nothing);
`anyOf` accepts what one of its alternatives accepts; `kind k ps` accepts a node of kind `k`
whose children the patterns `ps` accept in order. A `rest` as the last of `ps` accepts any
number of further children.
-/

namespace RubyCheck

open RubyCheck.Tree

/-- A pattern over syntax tree children. -/
inductive Pattern where
  | wildcard
  | rest
  | capture (name : String)
  | literal (value : Atom)
  | anyOf (alternatives : List Pattern)
  | kind (k : Kind) (children : List Pattern)
  deriving Repr, Inhabited

namespace Pattern

/-- Whether a pattern is `rest`. -/
def isRest : Pattern → Bool
  | .rest => true
  | _ => false

/-- Whether a list of child patterns ends in `rest`. -/
def endsInRest (ps : List Pattern) : Bool := (ps.getLast?.map isRest).getD false

end Pattern

end RubyCheck
