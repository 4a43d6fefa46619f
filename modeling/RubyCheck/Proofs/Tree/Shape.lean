import RubyCheck.Tree.Shape
import Mathlib

/-!
# Shape rules in words

**A node's children pass its kind's shape check exactly when their count is within the kind's
bounds and each child is what the kind's rule says it is; a count out of the bounds is reported
before any rule.**

The rules, child by child:

* a call: a node or nothing, then a text, then nodes;
* a block: a call node, an `args` node, a node or nothing;
* a numbered block: a call node, a whole number from 1 to 9, a node or nothing;
* `args`: parameter or `mlhs` nodes;
* the parameter kinds, `lvar`, `ivar`, `int`, `float`, `str` and `sym`: one text;
* `const`: a node or nothing, then a text;
* `opaque`: a text, then nodes;
* every other kind: nodes only.

* `ShapeRule`: the rules as stated;
* `shapeFailure_eq_none_iff`: within the bounds, the kind's check passes exactly when its rule
  holds; one lemma per family of kinds (`shapeFailure_call`, `shapeFailure_block`, ...);
* `shapeCheck_eq_none_iff`, `shapeCheck_of_not_countFits`: the whole check.
-/

namespace RubyCheck.Tree

/-! ### What a child is -/

/-- A child that is a node or nothing. -/
def Part.NodeOrNothing (p : Part) : Prop := p = .atom .none ∨ ∃ k, p = .node k

theorem Part.isNodeOrNothing_iff (p : Part) : p.isNodeOrNothing = true ↔ p.NodeOrNothing := by
  rcases p with k | (s | i | b | _) <;> simp [Part.isNodeOrNothing, Part.NodeOrNothing]

theorem Part.isText_iff (p : Part) : p.isText = true ↔ ∃ t, p = .atom (.text t) := by
  rcases p with k | (s | i | b | _) <;> simp [Part.isText]

theorem Part.isArity_iff (p : Part) :
    p.isArity = true ↔ ∃ i, p = .atom (.int i) ∧ 1 ≤ i ∧ i ≤ 9 := by
  rcases p with k | (s | i | b | _) <;> simp [Part.isArity]

theorem Part.isParameter_iff (p : Part) :
    p.isParameter = true ↔ ∃ k, p = .node k ∧ (k.isParameter = true ∨ k = .mlhs) := by
  rcases p with k | a <;> simp [Part.isParameter]

theorem requireNodes_eq_none_iff {k : Kind} {parts : List Part} :
    requireNodes k parts = none ↔ ∀ p ∈ parts, ∃ kind, p = .node kind := by
  induction parts with
  | nil => simp [requireNodes]
  | cons p rest ih => cases p <;> simp [requireNodes, ih]

/-! ### The rules -/

/-- Whether a count of children is within a kind's bounds. -/
def Kind.CountFits (k : Kind) (n : Nat) : Prop :=
  k.minChildren ≤ n ∧ ∀ most, k.maxChildren? = some most → n ≤ most

/-- What each child of a node of a kind may be, the count of children being within the kind's
bounds. -/
def ShapeRule : Kind → List Part → Prop
  | .send, parts | .csend, parts =>
    ∃ r m rest, parts = r :: .atom (.text m) :: rest ∧ r.NodeOrNothing ∧ ∀ p ∈ rest, ∃ k, p = .node k
  | .block, parts => ∃ c b, parts = [.node c, .node .args, b] ∧ c.isCall ∧ b.NodeOrNothing
  | .numblock, parts =>
    ∃ c i b, parts = [.node c, .atom (.int i), b] ∧ c.isCall ∧ 1 ≤ i ∧ i ≤ 9 ∧ b.NodeOrNothing
  | .args, parts => ∀ p ∈ parts, ∃ k, p = .node k ∧ (k.isParameter ∨ k = .mlhs)
  | .const, parts => ∃ s n, parts = [s, .atom (.text n)] ∧ s.NodeOrNothing
  | .other, parts => ∃ t rest, parts = .atom (.text t) :: rest ∧ ∀ p ∈ rest, ∃ k, p = .node k
  | k, parts =>
    if k.holdsText then ∃ t, parts = [.atom (.text t)] else ∀ p ∈ parts, ∃ k, p = .node k

/-- A kind whose single child is a text: its rule asks for one text. -/
theorem shapeRule_of_holdsText {k : Kind} (text : k.holdsText = true) (parts : List Part) :
    ShapeRule k parts ↔ ∃ t, parts = [.atom (.text t)] := by
  -- the rule of such a kind is its fallback, whose test on the text reduces to `true`
  cases k <;> first | exact Iff.rfl | cases text

/-- **What a child may be.** Every child a shape rule admits is a node, nothing, a text or a
whole number. -/
theorem ShapeRule.mem {k : Kind} {parts : List Part} (rule : ShapeRule k parts) {p : Part}
    (member : p ∈ parts) :
    p.NodeOrNothing ∨ (∃ t, p = .atom (.text t)) ∨ ∃ i, p = .atom (.int i) := by
  -- a child among the nodes a rule lists last
  have listed : ∀ {rest : List Part}, (∀ q ∈ rest, ∃ k, q = .node k) → p ∈ rest →
      p.NodeOrNothing := fun nodes later => .inr (nodes p later)
  cases k
  case send | csend =>
    obtain ⟨r, m, rest, rfl, receiver, nodes⟩ := rule
    rcases List.mem_cons.1 member with rfl | member
    · exact .inl receiver
    rcases List.mem_cons.1 member with rfl | later
    · exact .inr (.inl ⟨m, rfl⟩)
    · exact .inl (listed nodes later)
  case block =>
    obtain ⟨c, b, rfl, -, body⟩ := rule
    simp only [List.mem_cons, List.not_mem_nil, or_false] at member
    rcases member with rfl | rfl | rfl
    · exact .inl (.inr ⟨c, rfl⟩)
    · exact .inl (.inr ⟨.args, rfl⟩)
    · exact .inl body
  case numblock =>
    obtain ⟨c, i, b, rfl, -, -, -, body⟩ := rule
    simp only [List.mem_cons, List.not_mem_nil, or_false] at member
    rcases member with rfl | rfl | rfl
    · exact .inl (.inr ⟨c, rfl⟩)
    · exact .inr (.inr ⟨i, rfl⟩)
    · exact .inl body
  case args =>
    obtain ⟨k, rfl, -⟩ := rule p member
    exact .inl (.inr ⟨k, rfl⟩)
  case const =>
    obtain ⟨s, n, rfl, scope⟩ := rule
    simp only [List.mem_cons, List.not_mem_nil, or_false] at member
    rcases member with rfl | rfl
    · exact .inl scope
    · exact .inr (.inl ⟨n, rfl⟩)
  case other =>
    obtain ⟨t, rest, rfl, nodes⟩ := rule
    rcases List.mem_cons.1 member with rfl | later
    · exact .inr (.inl ⟨t, rfl⟩)
    · exact .inl (listed nodes later)
  -- the kinds left hold one text, or nodes only
  all_goals
    simp only [ShapeRule, Kind.holdsText, Kind.named, Kind.parameters] at rule
    first
      | obtain ⟨t, rfl⟩ := rule
        exact .inr (.inl ⟨t, List.mem_singleton.1 member⟩)
      | exact .inl (listed rule member)

/-- The check reports the child count first, and otherwise the kind's rule. -/
theorem shapeCheck_of_countFits {k : Kind} {parts : List Part} (fits : k.CountFits parts.length) :
    shapeCheck k parts = shapeFailure k parts := by
  obtain ⟨least, most⟩ := fits
  unfold shapeCheck
  cases bound : k.maxChildren? with
  | none => simp [Nat.not_lt.2 least]
  | some top => simp [Nat.not_lt.2 least, Nat.not_lt.2 (most top bound)]

theorem shapeCheck_of_not_countFits {k : Kind} {parts : List Part}
    (outside : ¬ k.CountFits parts.length) :
    shapeCheck k parts = some (.childCount k parts.length) := by
  simp only [Kind.CountFits, not_and_or, not_le, not_forall] at outside
  unfold shapeCheck
  rcases outside with few | ⟨most, bounded, many⟩
  · simp [few]
  · simp [bounded, many]

/-! ### One lemma per family of kinds -/

theorem shapeFailure_call {k : Kind} (call : k = .send ∨ k = .csend) (r m : Part)
    (rest : List Part) :
    shapeFailure k (r :: m :: rest) = none ↔
      r.NodeOrNothing ∧ (∃ t, m = .atom (.text t)) ∧ ∀ p ∈ rest, ∃ kind, p = .node kind := by
  rw [← Part.isNodeOrNothing_iff, ← Part.isText_iff, ← requireNodes_eq_none_iff (k := k)]
  rcases call with rfl | rfl <;> simp only [shapeFailure] <;>
    cases r.isNodeOrNothing <;> cases m.isText <;> simp

theorem shapeFailure_block {k : Kind} (block : k = .block ∨ k = .numblock) (c p b : Part) :
    shapeFailure k [c, p, b] = none ↔
      (∃ call, c = .node call ∧ call.isCall = true) ∧
      (k = .block → p = .node .args) ∧ (k = .numblock → p.isArity = true) ∧ b.NodeOrNothing := by
  rw [← Part.isNodeOrNothing_iff]
  rcases c with call | a
  · rcases block with rfl | rfl <;> simp only [shapeFailure] <;>
      by_cases isCall : call.isCall = true <;> cases b.isNodeOrNothing <;> simp [isCall] <;>
      split_ifs <;> simp
  · rcases block with rfl | rfl <;> simp [shapeFailure]

theorem shapeFailure_const (s n : Part) :
    shapeFailure .const [s, n] = none ↔ s.NodeOrNothing ∧ ∃ t, n = .atom (.text t) := by
  rw [← Part.isNodeOrNothing_iff, ← Part.isText_iff]
  simp only [shapeFailure]
  cases s.isNodeOrNothing <;> cases n.isText <;> simp

theorem shapeFailure_other (t : Part) (rest : List Part) :
    shapeFailure .other (t :: rest) = none ↔
      (∃ name, t = .atom (.text name)) ∧ ∀ p ∈ rest, ∃ kind, p = .node kind := by
  rw [← Part.isText_iff, ← requireNodes_eq_none_iff (k := .other)]
  simp only [shapeFailure]
  cases t.isText <;> simp

theorem shapeFailure_text {k : Kind} (text : k.holdsText = true) (p : Part) :
    shapeFailure k [p] = none ↔ ∃ t, p = .atom (.text t) := by
  have reads : shapeFailure k [p] = if p.isText then none else some (.valueNotText k) := by
    cases k <;> first | rfl | cases text
  rw [reads, ← Part.isText_iff]
  cases p.isText <;> simp

theorem shapeFailure_args (parts : List Part) :
    shapeFailure .args parts = none ↔
      ∀ p ∈ parts, ∃ k, p = .node k ∧ (k.isParameter ∨ k = .mlhs) := by
  simp [shapeFailure, ← Part.isParameter_iff]


/-! ### The whole check -/

/-- **Within the bounds, a kind's check passes exactly when its rule holds.** The count fixes
how many children the kinds with bounded counts have; the rule of each family of kinds is then
read child by child. -/
theorem shapeFailure_eq_none_iff {k : Kind} {parts : List Part} (fits : k.CountFits parts.length) :
    shapeFailure k parts = none ↔ ShapeRule k parts := by
  obtain ⟨least, most⟩ := fits
  cases k
  case send | csend =>
    rcases parts with _ | ⟨r, _ | ⟨m, rest⟩⟩
    · simp [Kind.minChildren] at least
    · simp [Kind.minChildren] at least
    · rw [shapeFailure_call (by simp)]
      simp [ShapeRule, and_left_comm]
  case block =>
    obtain ⟨c, p, b, rfl⟩ := List.length_eq_three.1
      (le_antisymm (most 3 rfl) (by simpa [Kind.minChildren] using least))
    rw [shapeFailure_block (.inl rfl)]
    rcases c with call | a <;> simp [ShapeRule, and_left_comm]
  case numblock =>
    obtain ⟨c, p, b, rfl⟩ := List.length_eq_three.1
      (le_antisymm (most 3 rfl) (by simpa [Kind.minChildren] using least))
    rw [shapeFailure_block (.inr rfl), Part.isArity_iff]
    simp only [ShapeRule, List.cons.injEq, and_true, true_and, reduceCtorEq, false_implies,
      true_implies]
    constructor
    · rintro ⟨⟨call, rfl, isCall⟩, ⟨i, rfl, low, high⟩, body⟩
      exact ⟨call, i, b, ⟨rfl, rfl, rfl⟩, isCall, low, high, body⟩
    · rintro ⟨call, i, b', ⟨rfl, rfl, rfl⟩, isCall, low, high, body⟩
      exact ⟨⟨call, rfl, isCall⟩, ⟨i, rfl, low, high⟩, body⟩
  case args => simpa [ShapeRule] using shapeFailure_args parts
  case const =>
    obtain ⟨s, n, rfl⟩ := List.length_eq_two.1
      (le_antisymm (most 2 rfl) (by simpa [Kind.minChildren] using least))
    rw [shapeFailure_const]
    simp [ShapeRule, and_comm]
  case other =>
    rcases parts with _ | ⟨t, rest⟩
    · simp [Kind.minChildren] at least
    · rw [shapeFailure_other]
      simp [ShapeRule]
  case arg | optarg | restarg | kwarg | kwoptarg | kwrestarg | blockarg | shadowarg | lvar | ivar
    | int | float | str | sym =>
    obtain ⟨p, rfl⟩ := List.length_eq_one_iff.1 (le_antisymm (most 1 rfl) least)
    rw [shapeFailure_text rfl, shapeRule_of_holdsText rfl]
    simp
  -- the kinds of nodes only: check and rule both ask every child to be a node
  case begin | mlhs | array | hash | nil | «true» | «false» | self =>
    rcases parts with _ | ⟨p, rest⟩ <;> exact requireNodes_eq_none_iff

/-- **The whole check.** A node's children pass its kind's check exactly when their count is
within the kind's bounds and the kind's rule holds. -/
theorem shapeCheck_eq_none_iff (k : Kind) (parts : List Part) :
    shapeCheck k parts = none ↔ k.CountFits parts.length ∧ ShapeRule k parts := by
  by_cases fits : k.CountFits parts.length
  · rw [shapeCheck_of_countFits fits, shapeFailure_eq_none_iff fits]
    exact ⟨fun rule => ⟨fits, rule⟩, fun both => both.2⟩
  · rw [shapeCheck_of_not_countFits fits]
    exact ⟨(fun never => by cases never), fun both => absurd both.1 fits⟩

end RubyCheck.Tree
