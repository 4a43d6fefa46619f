import RubyCheck.Proofs.Tree.Shape
import RubyCheck.Tree.Access

/-!
# Reading a valid node

**On a node whose children pass its kind's check, every reader its kind has answers, with the
child the kind's rule puts in the place it reads; a reader the kind does not have fails, naming
the node's kind and the kinds that have it.**

A reader takes the child at a fixed place and checks nothing of its own, so what it answers rests
on the shape rule of the node's kind: a call's receiver is a node or nothing and its method name a
text; a block's call is a call node and its body a node or nothing; a block holds its `args` node
where a numbered block holds its arity, a whole number from 1 to 9. So the arguments of a
numbered block are that number, not a parameter node.

* `Node.call_children`, `Node.block_children`, `Node.text_children`: the children a valid node
  of each family of kinds has;
* `Node.Readable`: what each reader answers, kind by kind;
* `Node.readers_refuse`: a reader the node's kind does not have fails, on any node;
* `Node.readable_of_shapeCheck`: a valid node is readable.
-/

namespace RubyCheck.Tree

/-! ### Children as the shape rules see them -/

@[simp] theorem Slot.part_eq_atom {x : Slot Node} {a : Atom} : x.part = .atom a ↔ x = .atom a := by
  cases x <;> simp [Slot.part]

theorem Slot.part_eq_node {x : Slot Node} {k : Kind} :
    x.part = .node k ↔ ∃ m, x = .node m ∧ m.kind = k := by
  cases x <;> simp [Slot.part]

theorem Slot.nodeOrNothing_part {x : Slot Node} :
    x.part.NodeOrNothing ↔ x = .atom .none ∨ ∃ m, x = .node m := by
  cases x <;> simp [Slot.part, Part.NodeOrNothing]

/-- Children the shape rules see as nodes are nodes. -/
theorem Slot.nodes_of_parts {xs : List (Slot Node)}
    (nodes : ∀ p ∈ xs.map Slot.part, ∃ k, p = .node k) : ∃ ms : List Node, xs = ms.map .node := by
  induction xs with
  | nil => exact ⟨[], rfl⟩
  | cons x rest ih =>
    obtain ⟨k, part⟩ := nodes x.part List.mem_cons_self
    obtain ⟨m, rfl, -⟩ := Slot.part_eq_node.1 part
    obtain ⟨ms, rfl⟩ := ih fun p member => nodes p (List.mem_cons_of_mem _ member)
    exact ⟨m :: ms, rfl⟩

namespace Node

variable {n : Node}

/-! ### The children of a valid node -/

/-- A valid call: a node or nothing, a text, then nodes. -/
theorem call_children (call : n.kind.isCall = true)
    (valid : shapeCheck n.kind (n.children.map Slot.part) = none) :
    ∃ (r : Slot Node) (m : String) (args : List Node),
      n.children = r :: .atom (.text m) :: args.map .node ∧
      (r = .atom .none ∨ ∃ c, r = .node c) := by
  obtain ⟨-, rule⟩ := (shapeCheck_eq_none_iff _ _).1 valid
  obtain ⟨r, m, rest, parts, receiver, nodes⟩ : ∃ r m rest,
      n.children.map Slot.part = r :: .atom (.text m) :: rest ∧ r.NodeOrNothing ∧
        ∀ p ∈ rest, ∃ k, p = .node k := by
    have either : n.kind = .send ∨ n.kind = .csend := by
      simpa [Kind.isCall, Kind.calls] using call
    rcases either with kind | kind <;> rw [kind] at rule <;> exact rule
  obtain ⟨r', tail, children, rfl, tail_parts⟩ := List.map_eq_cons_iff.1 parts
  obtain ⟨m', rest', rfl, method, rfl⟩ := List.map_eq_cons_iff.1 tail_parts
  obtain ⟨args, rfl⟩ := Slot.nodes_of_parts nodes
  exact ⟨r', m, args, by rw [children, Slot.part_eq_atom.1 method],
    Slot.nodeOrNothing_part.1 receiver⟩

/-- A valid block: a call node, then its `args` node or, numbered, its arity, then a node or
nothing. -/
theorem block_children (block : n.kind.isBlock = true)
    (valid : shapeCheck n.kind (n.children.map Slot.part) = none) :
    ∃ c p b, n.children = [.node c, p, b] ∧ c.kind.isCall = true ∧
      (n.kind = .block → ∃ a, p = .node a ∧ a.kind = .args) ∧
      (n.kind = .numblock → ∃ i, p = .atom (.int i) ∧ 1 ≤ i ∧ i ≤ 9) ∧
      (b = .atom .none ∨ ∃ m, b = .node m) := by
  obtain ⟨-, rule⟩ := (shapeCheck_eq_none_iff _ _).1 valid
  -- the two rules differ only in the middle child
  obtain ⟨c, p, b, parts, call, args, arity, body⟩ : ∃ c p b,
      n.children.map Slot.part = [.node c, p, b] ∧ c.isCall = true ∧
        (n.kind = .block → p = .node .args) ∧
        (n.kind = .numblock → ∃ i, p = .atom (.int i) ∧ 1 ≤ i ∧ i ≤ 9) ∧ b.NodeOrNothing := by
    have either : n.kind = .block ∨ n.kind = .numblock := by
      simpa [Kind.isBlock, Kind.blocks] using block
    rcases either with kind | kind <;> rw [kind] at rule ⊢
    · obtain ⟨c, b, parts, call, body⟩ := rule
      exact ⟨c, _, b, parts, call, fun _ => rfl, (fun never => by cases never), body⟩
    · obtain ⟨c, i, b, parts, call, low, high, body⟩ := rule
      exact ⟨c, _, b, parts, call, (fun never => by cases never), fun _ => ⟨i, rfl, low, high⟩,
        body⟩
  obtain ⟨x, rest, children, first, rest_parts⟩ := List.map_eq_cons_iff.1 parts
  obtain ⟨y, rest', rfl, second, rest_parts'⟩ := List.map_eq_cons_iff.1 rest_parts
  obtain ⟨z, rfl, third⟩ := List.map_eq_singleton_iff.1 rest_parts'
  obtain ⟨callNode, rfl, callKind⟩ := Slot.part_eq_node.1 first
  refine ⟨callNode, y, z, children, callKind ▸ call, fun kind => ?_, fun kind => ?_,
    Slot.nodeOrNothing_part.1 (third ▸ body)⟩
  · obtain ⟨a, rfl, kind_a⟩ := Slot.part_eq_node.1 (second.trans (args kind))
    exact ⟨a, rfl, kind_a⟩
  · obtain ⟨i, number, low, high⟩ := arity kind
    exact ⟨i, Slot.part_eq_atom.1 (second.trans number), low, high⟩

/-- A valid node of a kind that holds text: one text. -/
theorem text_children (text : n.kind.holdsText = true)
    (valid : shapeCheck n.kind (n.children.map Slot.part) = none) :
    ∃ t, n.children = [.atom (.text t)] := by
  obtain ⟨-, rule⟩ := (shapeCheck_eq_none_iff _ _).1 valid
  obtain ⟨t, parts⟩ := (shapeRule_of_holdsText text _).1 rule
  obtain ⟨x, children, part⟩ := List.map_eq_singleton_iff.1 parts
  exact ⟨t, by rw [children, Slot.part_eq_atom.1 part]⟩

/-! ### The readers -/

theorem expect_of_mem {kinds : List Kind} (member : n.kind ∈ kinds) : n.expect kinds = .ok () := by
  simp [expect, member]

theorem expect_of_not_mem {kinds : List Kind} (absent : n.kind ∉ kinds) :
    n.expect kinds = .error ⟨n.kind, kinds⟩ := by
  simp [expect, absent]

/-- Every reader the node's kind does not have fails, naming the node's kind and the kinds that
have the reader. -/
def Refuses (n : Node) : Prop :=
  (n.kind.isCall = false →
    n.receiver = .error ⟨n.kind, Kind.calls⟩ ∧ n.methodName = .error ⟨n.kind, Kind.calls⟩) ∧
  (n.kind.isCall = false → n.kind.isBlock = false →
    n.arguments = .error ⟨n.kind, Kind.blocks⟩) ∧
  (n.kind.isBlock = false → n.sendNode = .error ⟨n.kind, Kind.blocks⟩ ∧
    n.body = .error ⟨n.kind, Kind.blocks⟩ ∧ n.arity = .error ⟨n.kind, [.block]⟩) ∧
  (n.kind ∉ Kind.named → n.name = .error ⟨n.kind, Kind.named⟩)

/-- **A reader the node's kind does not have fails**, whatever the node's children. -/
theorem readers_refuse (n : Node) : n.Refuses := by
  refine ⟨fun call => ?_, fun call block => ?_, fun block => ?_, fun named => ?_⟩
  · have absent : n.kind ∉ Kind.calls := by simpa [Kind.isCall] using call
    simp [receiver, methodName, expect_of_not_mem absent]
  · have absent : n.kind ∉ Kind.blocks := by simpa [Kind.isBlock] using block
    simp [arguments, call, expect_of_not_mem absent]
  · have absent : n.kind ∉ Kind.blocks := by simpa [Kind.isBlock] using block
    have numbered : n.kind ≠ .numblock := fun same => absent (by simp [same, Kind.blocks])
    have plain : n.kind ∉ [Kind.block] := fun same => absent (by simp_all [Kind.blocks])
    simp [sendNode, body, arity, numbered, expect_of_not_mem absent, expect_of_not_mem plain]
  · simp [name, expect_of_not_mem named]

/-- What each reader answers on a node, kind by kind: the child the kind's rule puts in the place
the reader reads; a reader the kind does not have fails. -/
structure Readable (n : Node) : Prop where
  receiver : n.kind.isCall = true →
    ∃ r, n.receiver = .ok r ∧ n.children[0]? = some (r.elim (.atom .none) .node)
  methodName : n.kind.isCall = true →
    ∃ m, n.methodName = .ok m ∧ n.children[1]? = some (.atom (.text m))
  callArguments : n.kind.isCall = true →
    ∃ args : List Node, n.arguments = .ok (.list (args.map .node)) ∧
      n.children.drop 2 = args.map .node
  sendNode : n.kind.isBlock = true →
    ∃ c, n.sendNode = .ok c ∧ c.kind.isCall = true ∧ n.children[0]? = some (.node c)
  body : n.kind.isBlock = true →
    ∃ b, n.body = .ok b ∧ n.children[2]? = some (b.elim (.atom .none) .node)
  blockArguments : n.kind = .block →
    ∃ a, n.arguments = .ok (.params (.node a)) ∧ a.kind = .args ∧
      n.arity = .ok a.children.length ∧ n.children[1]? = some (.node a)
  numberedArguments : n.kind = .numblock →
    ∃ i, n.arguments = .ok (.params (.atom (.int i))) ∧ n.arity = .ok i ∧ 1 ≤ i ∧ i ≤ 9
  name : n.kind ∈ Kind.named → ∃ t, n.name = .ok t ∧ n.children = [.atom (.text t)]
  refuses : n.Refuses

/-- **A valid node is readable.** -/
theorem readable_of_shapeCheck (valid : shapeCheck n.kind (n.children.map Slot.part) = none) :
    n.Readable := by
  constructor
  case receiver =>
    intro call
    have calls : n.kind ∈ Kind.calls := by simpa [Kind.isCall] using call
    obtain ⟨r, m, args, children, receiver⟩ := call_children call valid
    rcases receiver with rfl | ⟨c, rfl⟩
    · exact ⟨none, by simp [Node.receiver, expect_of_mem calls, nodeAt?, children], by simp [children]⟩
    · exact ⟨some c, by simp [Node.receiver, expect_of_mem calls, nodeAt?, children],
        by simp [children]⟩
  case methodName =>
    intro call
    have calls : n.kind ∈ Kind.calls := by simpa [Kind.isCall] using call
    obtain ⟨r, m, args, children, -⟩ := call_children call valid
    exact ⟨m, by simp [Node.methodName, expect_of_mem calls, textAt, children], by simp [children]⟩
  case callArguments =>
    intro call
    obtain ⟨r, m, args, children, -⟩ := call_children call valid
    exact ⟨args, by simp [arguments, call, children], by simp [children]⟩
  case sendNode =>
    intro block
    have blocks : n.kind ∈ Kind.blocks := by simpa [Kind.isBlock] using block
    obtain ⟨c, p, b, children, call, -⟩ := block_children block valid
    exact ⟨c, by simp [Node.sendNode, expect_of_mem blocks, nodeAt?, children], call,
      by simp [children]⟩
  case body =>
    intro block
    have blocks : n.kind ∈ Kind.blocks := by simpa [Kind.isBlock] using block
    obtain ⟨c, p, b, children, -, -, -, body⟩ := block_children block valid
    rcases body with rfl | ⟨m, rfl⟩
    · exact ⟨none, by simp [Node.body, expect_of_mem blocks, nodeAt?, children], by simp [children]⟩
    · exact ⟨some m, by simp [Node.body, expect_of_mem blocks, nodeAt?, children],
        by simp [children]⟩
  case blockArguments =>
    intro kind
    have block : n.kind.isBlock = true := by simp [kind, Kind.isBlock, Kind.blocks]
    obtain ⟨c, p, b, children, -, args, -⟩ := block_children block valid
    obtain ⟨a, rfl, kind_a⟩ := args kind
    have blocks : n.kind ∈ Kind.blocks := by simpa [Kind.isBlock] using block
    have plain : n.kind ∈ [Kind.block] := by simp [kind]
    refine ⟨a, ?_, kind_a, ?_, by simp [children]⟩
    · simp [arguments, kind, Kind.isCall, Kind.calls, expect_of_mem blocks, children]
    · simp [arity, kind, nodeAt?, expect_of_mem plain, children]
  case numberedArguments =>
    intro kind
    have block : n.kind.isBlock = true := by simp [kind, Kind.isBlock, Kind.blocks]
    obtain ⟨c, p, b, children, -, -, arity, -⟩ := block_children block valid
    obtain ⟨i, rfl, low, high⟩ := arity kind
    exact ⟨i, by simp [arguments, kind, Kind.isCall, Kind.calls, expect, Kind.blocks, children],
      by simp [Node.arity, kind, children], low, high⟩
  case name =>
    intro named
    obtain ⟨t, children⟩ := text_children (by simp [Kind.holdsText, named]) valid
    exact ⟨t, by simp [Node.name, expect_of_mem named, textAt, children], children⟩
  case refuses => exact readers_refuse n

end Node

end RubyCheck.Tree
