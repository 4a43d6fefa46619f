import RubyCheck.Proofs.Pattern.Semantics
import RubyCheck.Proofs.Tree.Preorder
import RubyCheck.Proofs.Tree.Shape

/-!
# Matching reads only structure

**Matching a pattern against two trees of the same structure succeeds on both or on neither, and
binds the same captures to values of the same structure.**

Matching reads a node's kind and children and nothing else: not its span, its named sub-spans or
where it stands in a larger tree. Two runs on trees of the same structure bind different values,
and a capture met a second time compares a value of its own tree with the one bound before; the
runs stay in step because the bindings are kept *alike* (`Bindings.Alike`): the same names at the
same paths, with values of the same structure pairwise. Equal structure being an equivalence, a
second capture of a name accepts in one run exactly when it accepts in the other.

One fact is owed to the trees being built ones. Equal structure compares atoms as values, so
that the truth value `true` and the number `1` are the same, while a literal tells them apart by
type. No shape rule admits a truth value as a child (`truth_not_mem_of_shapeCheck`), so in built
trees atoms of the same structure are equal.

* `matchSlot_alike`: one step of each run keeps the bindings alike, by induction over patterns;
* `matchTop_reads_structure`: the statement for whole matches.
-/

namespace RubyCheck.Tree

/-! ### Built trees hold no truth values -/

/-- **No shape rule admits a truth value as a child.** -/
theorem truth_not_mem_of_shapeCheck {k : Kind} {parts : List Part}
    (valid : shapeCheck k parts = none) (b : Bool) : Part.atom (.bool b) ∉ parts := by
  intro member
  obtain ⟨-, rule⟩ := (shapeCheck_eq_none_iff k parts).1 valid
  rcases ShapeRule.mem rule member with (same | ⟨_, same⟩) | ⟨_, same⟩ | ⟨_, same⟩ <;> cases same

/-- A child value as built trees hold it: a node whose every node passes its shape check, or an
atom that is not a truth value. -/
def Slot.Built : Slot Node → Prop
  | .node n => n.Valid
  | .atom a => ∀ b, a ≠ .bool b

/-- The children of a valid tree are built values. -/
theorem Node.Valid.child {n : Node} (valid : n.Valid) {s : Slot Node} (child : s ∈ n.children) :
    s.Built := by
  cases s with
  | node c =>
    have member : c ∈ n.childNodes :=
      List.mem_filterMap.2 ⟨.node c, child, rfl⟩
    exact fun m below => valid m (Node.nodes_subset_of_mem_childNodes member m below)
  | atom a =>
    rintro b rfl
    have shaped := valid n (Node.mem_nodes_self n)
    exact truth_not_mem_of_shapeCheck shaped b (List.mem_map.2 ⟨.atom (.bool b), child, rfl⟩)

/-- Atoms other than truth values have the same structure only when they are equal. -/
theorem Atom.eq_of_same {a a' : Atom} (same : a.same a' = true) (built : ∀ b, a ≠ .bool b)
    (built' : ∀ b, a' ≠ .bool b) : a = a' := by
  cases a <;> cases a' <;> simp_all [Atom.same, Atom.number?]

end RubyCheck.Tree

namespace RubyCheck.Pattern

open RubyCheck.Tree

/-! ### Alike bindings -/

/-- Two bindings alike: the same names in the same order, found at the same paths, bound to
values of the same structure. -/
def Bindings.Alike (b₁ b₂ : Bindings) : Prop :=
  List.Forall₂ (fun e₁ e₂ => e₁.1 = e₂.1 ∧ e₁.2.path = e₂.2.path ∧
    valuesEqual e₁.2.value e₂.2.value = true) b₁ b₂

namespace Bindings.Alike

variable {b₁ b₂ : Bindings}

theorem keys_eq (alike : b₁.Alike b₂) : b₁.keys = b₂.keys := by
  induction alike with
  | nil => rfl
  | cons head _ ih =>
    simp only [Bindings.keys, List.map_cons] at ih ⊢
    rw [head.1, ih]

theorem paths_eq (alike : b₁.Alike b₂) : b₁.map (·.2.path) = b₂.map (·.2.path) := by
  induction alike with
  | nil => rfl
  | cons head _ ih => rw [List.map_cons, List.map_cons, head.2.1, ih]

/-- Alike bindings find alike entries under every name. -/
theorem find? (alike : b₁.Alike b₂) (x : String) :
    Option.Rel (fun e₁ e₂ : String × Bound => e₁.1 = e₂.1 ∧ e₁.2.path = e₂.2.path ∧
      valuesEqual e₁.2.value e₂.2.value = true)
      (b₁.find? (·.1 == x)) (b₂.find? (·.1 == x)) := by
  induction alike with
  | nil => exact .none
  | cons head _ ih =>
    rename_i e₁ e₂ _ _
    rw [List.find?_cons, List.find?_cons, head.1]
    split
    · exact .some head
    · exact ih

/-- Binding one more name to values of the same structure keeps bindings alike. -/
theorem bind (alike : b₁.Alike b₂) (name : String) {v₁ v₂ : Slot Node} (path : List Nat)
    (same : valuesEqual v₁ v₂ = true) :
    (b₁ ++ [(name, (⟨v₁, path⟩ : Bound))]).Alike (b₂ ++ [(name, (⟨v₂, path⟩ : Bound))]) :=
  List.rel_append alike (List.Forall₂.cons ⟨rfl, rfl, same⟩ List.Forall₂.nil)

end Bindings.Alike

/-- A bound value compares alike with values of the same structure. -/
theorem valuesEqual_congr {u₁ u₂ v₁ v₂ : Slot Node} (bound : valuesEqual u₁ u₂ = true)
    (met : valuesEqual v₁ v₂ = true) : valuesEqual u₁ v₁ = valuesEqual u₂ v₂ := by
  apply Bool.eq_iff_iff.2
  constructor
  · intro first
    exact valuesEqual_trans (valuesEqual_trans (valuesEqual_symm bound) first) met
  · intro second
    exact valuesEqual_trans (valuesEqual_trans bound second) (valuesEqual_symm met)

/-- Values of the same structure are both nodes or both atoms. -/
theorem valuesEqual_node_atom {n : Node} {a : Atom} : valuesEqual (.node n) (.atom a) = false := by
  simp [valuesEqual, Node.sameAsSlot]

/-- A node pattern fails on a node of another kind, or whose children fail its count test. -/
theorem matchSlot_kind_of_not {k : Kind} {ps : List Pattern} {n : Node} {path : List Nat}
    {b : Bindings} (fails : ¬ (n.kind = k ∧ CountTest ps n.children)) :
    matchSlot (.kind k ps) (.node n) path b = none := by
  rw [matchSlot]
  by_cases other : (n.kind != k) = true
  · rw [if_pos other]
  rw [if_neg other]
  dsimp only
  rw [if_neg fun count => fails ⟨by simpa using other, count⟩]

/-! ### Two runs in step -/

mutual

/-- **One step of matching keeps two runs in step**: on built values of the same structure,
from alike bindings, matching fails in both runs or succeeds in both with alike bindings. -/
theorem matchSlot_alike : ∀ (p : Pattern) {v₁ v₂ : Slot Node} (path : List Nat)
    {b₁ b₂ : Bindings}, v₁.Built → v₂.Built → valuesEqual v₁ v₂ = true → b₁.Alike b₂ →
      Option.Rel Bindings.Alike (matchSlot p v₁ path b₁) (matchSlot p v₂ path b₂)
  | .wildcard, _, _, _, _, _, _, _, _, alike => .some alike
  | .rest, _, _, _, _, _, _, _, _, _ => .none
  | .capture name, v₁, v₂, path, b₁, b₂, _, _, same, alike => by
    rw [matchSlot, matchSlot]
    -- both runs meet the name for the first time, or both have bound it before
    have found := alike.find? name
    generalize b₁.find? (·.1 == name) = f₁ at found ⊢
    generalize b₂.find? (·.1 == name) = f₂ at found ⊢
    cases found with
    | none => exact .some (alike.bind name path same)
    | some entries =>
      rename_i e₁ e₂
      dsimp only
      rw [valuesEqual_congr entries.2.2 same]
      split
      · exact .some alike
      · exact .none
  | .literal lit, v₁, v₂, _, _, _, built₁, built₂, same, alike => by
    cases v₁ with
    | node n₁ =>
      cases v₂ with
      | node n₂ => exact .none
      | atom a₂ => simp [valuesEqual_node_atom] at same
    | atom a₁ =>
      cases v₂ with
      | node n₂ => simp [valuesEqual] at same
      | atom a₂ =>
        -- atoms of built trees with the same structure are equal, so the literal reads both alike
        obtain rfl := Atom.eq_of_same same built₁ built₂
        rw [matchSlot, matchSlot]
        split
        · exact .some alike
        · exact .none
  | .anyOf alternatives, _, _, path, _, _, built₁, built₂, same, alike => by
    rw [matchSlot, matchSlot]
    exact matchFirst_alike alternatives path built₁ built₂ same alike
  | .kind k ps, v₁, v₂, path, b₁, b₂, built₁, built₂, same, alike => by
    cases v₁ with
    | atom a₁ =>
      cases v₂ with
      | atom a₂ => exact .none
      | node n₂ => simp [valuesEqual] at same
    | node n₁ =>
      cases v₂ with
      | atom a₂ => simp [valuesEqual_node_atom] at same
      | node n₂ =>
        obtain ⟨k₁, cs₁, sp₁, loc₁⟩ := n₁
        obtain ⟨k₂, cs₂, sp₂, loc₂⟩ := n₂
        simp only [valuesEqual, Node.sameAsSlot, Node.sameAs, Bool.and_eq_true, beq_iff_eq]
          at same
        obtain ⟨⟨rfl, lengths⟩, children⟩ := same
        -- the kind and the count test read the same in both runs
        have test : (k₁ = k ∧ CountTest ps cs₁) ↔ (k₁ = k ∧ CountTest ps cs₂) := by
          simp only [CountTest, lengths]
        by_cases passes : k₁ = k ∧ CountTest ps cs₁
        · have passes₂ := test.1 passes
          rw [matchSlot_kind_eq (n := .mk k₁ cs₁ sp₁ loc₁) passes.1 passes.2,
            matchSlot_kind_eq (n := .mk k₁ cs₂ sp₂ loc₂) passes₂.1 passes₂.2]
          exact matchChildren_alike ps path 0 (fun c member => Node.Valid.child built₁ member)
            (fun c member => Node.Valid.child built₂ member) children alike
        · rw [matchSlot_kind_of_not (n := .mk k₁ cs₁ sp₁ loc₁) passes,
            matchSlot_kind_of_not (n := .mk k₁ cs₂ sp₂ loc₂) (mt test.2 passes)]
          exact .none

theorem matchFirst_alike : ∀ (ps : List Pattern) {v₁ v₂ : Slot Node} (path : List Nat)
    {b₁ b₂ : Bindings}, v₁.Built → v₂.Built → valuesEqual v₁ v₂ = true → b₁.Alike b₂ →
      Option.Rel Bindings.Alike (matchFirst ps v₁ path b₁) (matchFirst ps v₂ path b₂)
  | [], _, _, _, _, _, _, _, _, _ => .none
  | q :: qs, v₁, v₂, path, b₁, b₂, built₁, built₂, same, alike => by
    rw [matchFirst, matchFirst]
    -- the first alternative succeeds in both runs, or fails in both and the rest are tried
    have first := matchSlot_alike q path built₁ built₂ same alike
    generalize matchSlot q v₁ path b₁ = r₁ at first ⊢
    generalize matchSlot q v₂ path b₂ = r₂ at first ⊢
    cases first with
    | none => exact matchFirst_alike qs path built₁ built₂ same alike
    | some kept => exact .some kept

theorem matchChildren_alike : ∀ (ps : List Pattern) {cs₁ cs₂ : List (Slot Node)}
    (path : List Nat) (index : Nat) {b₁ b₂ : Bindings}, (∀ c ∈ cs₁, c.Built) →
      (∀ c ∈ cs₂, c.Built) → slotsSame cs₁ cs₂ = true → b₁.Alike b₂ →
      Option.Rel Bindings.Alike (matchChildren ps cs₁ path index b₁)
        (matchChildren ps cs₂ path index b₂)
  | [], _, _, _, _, _, _, _, _, _, alike => .some alike
  | .rest :: _, _, _, _, _, _, _, _, _, _, alike => .some alike
  | p :: _, [], [], _, _, _, _, _, _, _, alike => by cases p <;> exact .some alike
  | p :: more, c₁ :: cs₁, c₂ :: cs₂, path, index, b₁, b₂, each₁, each₂, same, alike => by
    by_cases rest : p = .rest
    · subst rest
      exact .some alike
    have heads : valuesEqual c₁ c₂ = true := by
      cases c₁ <;> cases c₂ <;> simp_all [slotsSame, valuesEqual, Node.sameAsSlot]
    have tails : slotsSame cs₁ cs₂ = true := by
      cases c₁ <;> cases c₂ <;> simp_all [slotsSame]
    rw [matchChildren.eq_2 _ _ _ _ _ _ _ rest, matchChildren.eq_2 _ _ _ _ _ _ _ rest]
    -- the child at `index` is matched in both runs; on success the later children follow
    have first := matchSlot_alike p (path ++ [index]) (each₁ c₁ List.mem_cons_self)
      (each₂ c₂ List.mem_cons_self) heads alike
    generalize matchSlot p c₁ (path ++ [index]) b₁ = r₁ at first ⊢
    generalize matchSlot p c₂ (path ++ [index]) b₂ = r₂ at first ⊢
    cases first with
    | none => exact .none
    | some kept =>
      exact matchChildren_alike more path (index + 1)
        (fun c member => each₁ c (List.mem_cons_of_mem c₁ member))
        (fun c member => each₂ c (List.mem_cons_of_mem c₂ member)) tails kept
  | _ :: _, [], _ :: _, _, _, _, _, _, _, same, _
  | _ :: _, _ :: _, [], _, _, _, _, _, _, same, _ => by simp [slotsSame] at same

end

/-- **Matching reads a node's kind and children only.** For every pattern and two built trees of
the same structure, whatever their spans, named sub-spans and places: matching fails on both or
on neither, and when it succeeds on both, the captures name the same values in the same order,
found at the same paths, and the values bound to each name have the same structure. -/
theorem matchTop_reads_structure (p : Pattern) {n₁ n₂ : Node} (valid₁ : n₁.Valid)
    (valid₂ : n₂.Valid) (same : n₁.sameAs n₂ = true) :
    ((matchTop p (.node n₁)).isNone ↔ (matchTop p (.node n₂)).isNone) ∧
    ∀ b₁ b₂, matchTop p (.node n₁) = some b₁ → matchTop p (.node n₂) = some b₂ →
      b₁.keys = b₂.keys ∧ (b₁.map (·.2.path)) = b₂.map (·.2.path) ∧
      List.Forall₂ (fun e₁ e₂ => valuesEqual e₁.2.value e₂.2.value = true) b₁ b₂ := by
  have runs : Option.Rel Bindings.Alike (matchTop p (.node n₁)) (matchTop p (.node n₂)) :=
    matchSlot_alike p [] valid₁ valid₂ same List.Forall₂.nil
  generalize matchTop p (.node n₁) = r₁ at runs ⊢
  generalize matchTop p (.node n₂) = r₂ at runs ⊢
  cases runs with
  | none => simp
  | some alike =>
    refine ⟨by simp, fun b₁ b₂ first second => ?_⟩
    cases first
    cases second
    exact ⟨alike.keys_eq, alike.paths_eq, alike.imp fun _ _ entries => entries.2.2⟩

/-- An array holding `nil`, matched where it stands and moved six bytes on. -/
theorem matchTop_reads_structure_moved :
    let n₁ : Node := .mk .array [.node (.mk .nil [] (Source.Span.point 1) [])]
      ⟨0, 3, Nat.zero_le 3⟩ []
    let n₂ : Node := .mk .array [.node (.mk .nil [] (Source.Span.point 7) [])]
      ⟨6, 9, Nat.le_add_right 6 3⟩ []
    let p : Pattern := .kind .array [.capture "x"]
    n₁.Valid ∧ n₂.Valid ∧ n₁.sameAs n₂ = true ∧
      ((matchTop p (.node n₁)).isNone ↔ (matchTop p (.node n₂)).isNone) ∧
      ∀ b₁ b₂, matchTop p (.node n₁) = some b₁ → matchTop p (.node n₂) = some b₂ →
        b₁.keys = b₂.keys ∧ (b₁.map (·.2.path)) = b₂.map (·.2.path) ∧
        List.Forall₂ (fun e₁ e₂ => valuesEqual e₁.2.value e₂.2.value = true) b₁ b₂ := by
  intro n₁ n₂ p
  have valid₁ : n₁.Valid := by decide
  have valid₂ : n₂.Valid := by decide
  have same : n₁.sameAs n₂ = true := by decide
  exact ⟨valid₁, valid₂, same, matchTop_reads_structure p valid₁ valid₂ same⟩

end RubyCheck.Pattern
