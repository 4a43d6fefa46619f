import RubyCheck.Proofs.Ruby.Formed

/-!
# Numbered block parameters

**A block without a parameter list becomes a numbered block exactly when its statements use a
numbered parameter, its arity being the highest used; `it` counts as `_1` unless a local `it` is
declared in the enclosing scope before the block ends.**

Two searches decide it, both read here as paths through named children:

* the uses of a block's parameters are the identifiers reached from its statements through named
  children without entering a nested block, `do` block or lambda (`Cst.Reaches`);
  `numberedUses_bound`, `numberedUses_attained` and `numberedUses_it` say that `numberedUses`
  finds the highest `_k` among them and whether `it` is among them;
* a local is declared when an identifier spelled like it stands below the enclosing scope,
  outside nested scopes, where its parent makes it a declaration (`Cst.Below`,
  `declaredBelow_iff`). The search also passes over every node that starts at or after the
  block's end; as children start no earlier than their parents, that leaves out exactly the
  identifiers that start there (`below_before_iff`).

Main statement: `blockNode_numbered`.
-/

namespace RubyCheck.Ruby

open RubyCheck.Tree RubyCheck.Source

namespace Cst

/-- `Reaches skip c x`: `x` is `c` or lies below it through named children, and no node on the
way, `c` and `x` included, is skipped. -/
inductive Reaches (skip : Cst → Bool) : Cst → Cst → Prop
  | self {c : Cst} : skip c = false → Reaches skip c c
  | child {c k x : Cst} : skip c = false → k ∈ c.children → k.named = true → Reaches skip k x →
      Reaches skip c x

/-- `Below skip c p x`: `x` is a named child of `p`, and `p` is `c` or lies below it through named
children; no node on the way below `c`, `x` included, is skipped. -/
inductive Below (skip : Cst → Bool) : Cst → Cst → Cst → Prop
  | child {c x : Cst} : x ∈ c.children → x.named = true → skip x = false → Below skip c c x
  | deeper {c k p x : Cst} : k ∈ c.children → k.named = true → skip k = false →
      Below skip k p x → Below skip c p x

theorem reaches_iff {skip : Cst → Bool} {c x : Cst} :
    Reaches skip c x ↔
      skip c = false ∧ (x = c ∨ ∃ k ∈ c.children, k.named = true ∧ Reaches skip k x) := by
  constructor
  · rintro (⟨kept⟩ | ⟨kept, child, named, later⟩)
    · exact ⟨kept, .inl rfl⟩
    · exact ⟨kept, .inr ⟨_, child, named, later⟩⟩
  · rintro ⟨kept, rfl | ⟨k, child, named, later⟩⟩
    · exact .self kept
    · exact .child kept child named later

theorem below_iff {skip : Cst → Bool} {c p x : Cst} :
    Below skip c p x ↔ (p = c ∧ x ∈ c.children ∧ x.named = true ∧ skip x = false) ∨
      ∃ k ∈ c.children, k.named = true ∧ skip k = false ∧ Below skip k p x := by
  constructor
  · rintro (⟨child, named, kept⟩ | ⟨child, named, kept, later⟩)
    · exact .inl ⟨rfl, child, named, kept⟩
    · exact .inr ⟨_, child, named, kept, later⟩
  · rintro (⟨rfl, child, named, kept⟩ | ⟨k, child, named, kept, later⟩)
    · exact .child child named kept
    · exact .deeper child named kept later

theorem Below.kept {skip : Cst → Bool} {c p x : Cst} (below : Below skip c p x) :
    skip x = false := by
  induction below with
  | child _ _ kept => exact kept
  | deeper _ _ _ _ ih => exact ih

/-- A node found below `c` lies in `c`'s tree, below its parent. -/
theorem Below.mem_subtrees {skip : Cst → Bool} {c p x : Cst} (below : Below skip c p x) :
    x ∈ c.subtrees := by
  induction below with
  | child child _ _ => exact mem_subtrees_of_mem_children child
  | deeper child _ _ _ ih => exact mem_subtrees_trans (mem_subtrees_of_mem_children child) ih

/-- In a tree of placed nodes, every node starts no earlier than the root. -/
theorem start_le_of_mem_subtrees {c x : Cst} (placed : ∀ y ∈ c.subtrees, y.Placed)
    (member : x ∈ c.subtrees) : c.start ≤ x.start := by
  induction c using childInduction with
  | step c ih =>
    rw [subtrees_eq] at member
    rcases List.mem_cons.1 member with rfl | below
    · exact Nat.le_refl _
    · obtain ⟨k, child, inner⟩ := List.mem_flatMap.1 below
      have first := ((placed c (mem_subtrees_self c)).inside k child).1
      have second := ih k child
        (fun y member => placed y (mem_subtrees_trans (mem_subtrees_of_mem_children child) member))
        inner
      omega

end Cst

namespace Lower

/-! ### The uses of numbered parameters -/

/-- The nodes the search for numbered parameters passes over: blocks, `do` blocks and lambdas. -/
def nestedBlock (c : Cst) : Bool := blockTypes.contains c.type

/-- What a node itself uses: the number of a numbered parameter, and whether it is `it`. -/
def ownUse (b : Buffer) (c : Cst) : Nat × Bool :=
  if c.type == "identifier" then
    ((numberedParameter (text b c)).getD 0,
      (numberedParameter (text b c)).isNone && text b c == "it")
  else (0, false)

/-- The uses of a node's own and of its named children's, gathered from `init`. -/
def gatherUses (f : Cst → Nat × Bool) (ks : List Cst) (init : Nat × Bool) : Nat × Bool :=
  ks.foldl (fun acc k => if k.named then (max acc.1 (f k).1, acc.2 || (f k).2) else acc) init

theorem numberedUses_eq (b : Buffer) (c : Cst) :
    numberedUses b c =
      if nestedBlock c then (0, false)
      else gatherUses (numberedUses b) c.children (ownUse b c) := by
  rw [numberedUses, nestedBlock]
  split
  · rfl
  · rw [gatherUses, ← Cst.map_val_subs c, List.foldl_map]
    simp only [ownUse]
    split
    · cases numberedParameter (text b c) <;> rfl
    · rfl

section Gather

variable (f : Cst → Nat × Bool)

theorem gatherUses_init_le : ∀ (ks : List Cst) (init : Nat × Bool),
    init.1 ≤ (gatherUses f ks init).1
  | [], _ => Nat.le_refl _
  | k :: ks, init => by
    rw [gatherUses, List.foldl_cons, ← gatherUses]
    have later := gatherUses_init_le ks
      (if k.named then (max init.1 (f k).1, init.2 || (f k).2) else init)
    split at later <;> simp_all

theorem le_gatherUses : ∀ {ks : List Cst} {k : Cst} (init : Nat × Bool), k ∈ ks → k.named = true →
    (f k).1 ≤ (gatherUses f ks init).1
  | j :: ks, k, init, member, named => by
    rw [gatherUses, List.foldl_cons, ← gatherUses]
    rcases List.mem_cons.1 member with rfl | later
    · have bound := gatherUses_init_le f ks (max init.1 (f k).1, init.2 || (f k).2)
      simp only [named, if_true] at bound ⊢
      omega
    · exact le_gatherUses _ later named

theorem gatherUses_attained : ∀ (ks : List Cst) (init : Nat × Bool),
    (gatherUses f ks init).1 = init.1 ∨
      ∃ k ∈ ks, k.named = true ∧ (gatherUses f ks init).1 = (f k).1
  | [], _ => .inl rfl
  | k :: ks, init => by
    rw [gatherUses, List.foldl_cons, ← gatherUses]
    -- the maximum stays the start's, is the first child's, or is one of the later children's
    rcases gatherUses_attained ks
      (if k.named then (max init.1 (f k).1, init.2 || (f k).2) else init)
      with same | ⟨j, later, named, eq⟩
    · cases named : k.named with
      | true =>
        simp only [named, if_true] at same ⊢
        rcases Nat.le_total init.1 (f k).1 with le | le
        · exact .inr ⟨k, List.mem_cons_self, named, by rw [same, Nat.max_eq_right le]⟩
        · exact .inl (by rw [same, Nat.max_eq_left le])
      | false =>
        simp only [named, Bool.false_eq_true, if_false] at same ⊢
        exact .inl same
    · exact .inr ⟨j, List.mem_cons_of_mem k later, named, eq⟩

theorem gatherUses_snd : ∀ (ks : List Cst) (init : Nat × Bool),
    (gatherUses f ks init).2 = true ↔ init.2 = true ∨ ∃ k ∈ ks, k.named = true ∧ (f k).2 = true
  | [], _ => by simp [gatherUses]
  | k :: ks, init => by
    rw [gatherUses, List.foldl_cons, ← gatherUses, gatherUses_snd ks]
    cases named : k.named with
    | true =>
      simp only [if_true, Bool.or_eq_true, List.mem_cons, exists_eq_or_imp, named, true_and]
      tauto
    | false =>
      simp only [Bool.false_eq_true, if_false, List.mem_cons, exists_eq_or_imp, named, false_and,
        false_or]

end Gather

section Uses

variable (b : Buffer)

/-- **Every numbered parameter the search reaches is at most the number found.** -/
theorem numberedUses_bound (c : Cst) : ∀ x, Cst.Reaches nestedBlock c x →
    x.type = "identifier" → ∀ k, numberedParameter (text b x) = some k →
      k ≤ (numberedUses b c).1 := by
  induction c using Cst.childInduction with
  | step c ih =>
    intro x reached identifier k numbered
    obtain ⟨kept, rfl | ⟨j, child, named, later⟩⟩ := Cst.reaches_iff.1 reached
    · have own : (ownUse b x).1 = k := by simp [ownUse, identifier, numbered]
      rw [numberedUses_eq, if_neg (by simp [kept]), ← own]
      exact gatherUses_init_le _ _ _
    · rw [numberedUses_eq, if_neg (by simp [kept])]
      exact Nat.le_trans (ih j child x later identifier k numbered)
        (le_gatherUses _ _ child named)

/-- **The number found is 0 or that of a numbered parameter the search reaches.** -/
theorem numberedUses_attained (c : Cst) :
    (numberedUses b c).1 = 0 ∨ ∃ x, Cst.Reaches nestedBlock c x ∧
      x.type = "identifier" ∧ numberedParameter (text b x) = some (numberedUses b c).1 := by
  induction c using Cst.childInduction with
  | step c ih =>
    rw [numberedUses_eq]
    by_cases skipped : nestedBlock c = true
    · simp [skipped]
    rw [if_neg skipped]
    have kept : nestedBlock c = false := by simpa using skipped
    rcases gatherUses_attained (numberedUses b) c.children (ownUse b c)
      with own | ⟨k, child, named, eq⟩
    · -- the node's own number: 0, or that of the node itself
      rw [own]
      simp only [ownUse]
      split
      · rename_i identifier
        cases numbered : numberedParameter (text b c) with
        | none => exact .inl rfl
        | some k => exact .inr ⟨c, .self kept, by simpa using identifier, numbered⟩
      · exact .inl rfl
    · rw [eq]
      rcases ih k child with zero | ⟨x, reached, identifier, numbered⟩
      · exact .inl zero
      · exact .inr ⟨x, .child kept child named reached, identifier, numbered⟩

/-- **The search finds `it` exactly when it reaches an identifier `it`.** -/
theorem numberedUses_it (c : Cst) : (numberedUses b c).2 = true ↔ ∃ x, Cst.Reaches nestedBlock c x ∧
    x.type = "identifier" ∧ numberedParameter (text b x) = none ∧ text b x = "it" := by
  induction c using Cst.childInduction with
  | step c ih =>
    rw [numberedUses_eq]
    by_cases skipped : nestedBlock c = true
    · simp only [skipped, if_true, Bool.false_eq_true, false_iff, not_exists, not_and]
      intro x reached
      exact absurd (Cst.reaches_iff.1 reached).1 (by simp [skipped])
    have kept : nestedBlock c = false := by simpa using skipped
    rw [if_neg skipped, gatherUses_snd]
    constructor
    · rintro (own | ⟨k, child, named, found⟩)
      · simp only [ownUse] at own
        split at own
        · rename_i identifier
          cases numbered : numberedParameter (text b c) with
          | none =>
            simp only [numbered, Option.isNone_none, Bool.true_and, beq_iff_eq] at own
            exact ⟨c, .self kept, by simpa using identifier, numbered, own⟩
          | some k => simp [numbered] at own
        · cases own
      · obtain ⟨x, reached, rest⟩ := (ih k child).1 found
        exact ⟨x, .child kept child named reached, rest⟩
    · rintro ⟨x, reached, identifier, numbered, spelled⟩
      obtain ⟨-, rfl | ⟨k, child, named, later⟩⟩ := Cst.reaches_iff.1 reached
      · rw [spelled] at numbered
        exact .inl (by simp [ownUse, identifier, numbered, spelled])
      · exact .inr ⟨k, child, named, (ih k child).2 ⟨x, later, identifier, numbered, spelled⟩⟩

end Uses

/-! ### The arity of a block -/

/-- The identifiers some statements use as a block's parameters: those reached from a statement
without entering a nested block. -/
def Uses (statements : List Cst) (x : Cst) : Prop :=
  x.type = "identifier" ∧ ∃ s ∈ statements, Cst.Reaches nestedBlock s x

/-- The arity an identifier asks of its block: `k` for `_k`, 1 for `it` when no local `it` is
visible, and 0 otherwise. -/
def arityOf (b : Buffer) (itLocal : Bool) (x : Cst) : Nat :=
  (numberedParameter (text b x)).getD (if text b x = "it" ∧ itLocal = false then 1 else 0)

theorem foldl_max_bound : ∀ (l : List (Nat × Bool)) (init : Nat),
    init ≤ l.foldl (fun m u => max m u.1) init ∧ ∀ u ∈ l, u.1 ≤ l.foldl (fun m u => max m u.1) init
  | [], _ => ⟨Nat.le_refl _, fun _ member => nomatch member⟩
  | u :: l, init => by
    obtain ⟨first, later⟩ := foldl_max_bound l (max init u.1)
    refine ⟨by simp only [List.foldl_cons]; omega, fun v member => ?_⟩
    rcases List.mem_cons.1 member with rfl | member
    · simp only [List.foldl_cons]
      omega
    · exact later v member

theorem foldl_max_attained : ∀ (l : List (Nat × Bool)) (init : Nat),
    l.foldl (fun m u => max m u.1) init = init ∨ ∃ u ∈ l, l.foldl (fun m u => max m u.1) init = u.1
  | [], _ => .inl rfl
  | u :: l, init => by
    simp only [List.foldl_cons]
    rcases foldl_max_attained l (max init u.1) with same | ⟨v, member, eq⟩
    · rcases Nat.le_total init u.1 with le | le
      · exact .inr ⟨u, List.mem_cons_self, by rw [same, Nat.max_eq_right le]⟩
      · exact .inl (by rw [same, Nat.max_eq_left le])
    · exact .inr ⟨v, List.mem_cons_of_mem u member, eq⟩

section Arity

variable (b : Buffer) (statements : List Cst) (blockStop : Nat) (ancestors : List Cst)

/-- The highest number among the statements' uses is 0, or asked for by one of them. -/
theorem highest_attained :
    (statements.map (numberedUses b)).foldl (fun m u => max m u.1) 0 = 0 ∨
      ∃ x, Uses statements x ∧ numberedParameter (text b x) =
        some ((statements.map (numberedUses b)).foldl (fun m u => max m u.1) 0) := by
  rcases foldl_max_attained (statements.map (numberedUses b)) 0 with zero | ⟨u, member, eq⟩
  · exact .inl zero
  · obtain ⟨s, statement, rfl⟩ := List.mem_map.1 member
    rw [eq]
    rcases numberedUses_attained b s with zero | ⟨x, reached, identifier, numbered⟩
    · exact .inl zero
    · exact .inr ⟨x, ⟨identifier, s, statement, reached⟩, numbered⟩

/-- The statements use `it` exactly when one of them reaches an identifier `it`. -/
theorem any_usesIt_iff :
    (statements.map (numberedUses b)).any (·.2) = true ↔
      ∃ x, Uses statements x ∧ numberedParameter (text b x) = none ∧ text b x = "it" := by
  simp only [List.any_map, List.any_eq_true, Function.comp_apply]
  constructor
  · rintro ⟨s, statement, found⟩
    obtain ⟨x, reached, identifier, numbered, spelled⟩ := (numberedUses_it b s).1 found
    exact ⟨x, ⟨identifier, s, statement, reached⟩, numbered, spelled⟩
  · rintro ⟨x, ⟨identifier, s, statement, reached⟩, numbered, spelled⟩
    exact ⟨s, statement, (numberedUses_it b s).2 ⟨x, reached, identifier, numbered, spelled⟩⟩

/-- A use asks for at most the highest number, unless it is an `it` that names no local. -/
theorem arityOf_le_highest (itLocal : Bool) {x : Cst} (used : Uses statements x) :
    arityOf b itLocal x ≤ (statements.map (numberedUses b)).foldl (fun m u => max m u.1) 0 ∨
      (numberedParameter (text b x) = none ∧ text b x = "it" ∧ itLocal = false ∧
        arityOf b itLocal x = 1) := by
  obtain ⟨identifier, s, statement, reached⟩ := used
  cases numbered : numberedParameter (text b x) with
  | some k =>
    refine .inl ?_
    have own := numberedUses_bound b s x reached identifier k numbered
    have highest := (foldl_max_bound (statements.map (numberedUses b)) 0).2 (numberedUses b s)
      (List.mem_map_of_mem statement)
    simp only [arityOf, numbered, Option.getD_some]
    omega
  | none =>
    by_cases it : text b x = "it" ∧ itLocal = false
    · exact .inr ⟨rfl, it.1, it.2, by rw [arityOf, numbered, Option.getD_none, if_pos it]⟩
    · exact .inl (by simp [arityOf, numbered, it])

/-- **The arity of a block without parameters is the highest arity its statements ask for**, or
0 when none asks for any. -/
theorem numberedArity_greatest :
    (∀ x, Uses statements x → arityOf b (declaresLocal b "it" blockStop ancestors) x ≤
      numberedArity b statements blockStop ancestors) ∧
    (numberedArity b statements blockStop ancestors = 0 ∨ ∃ x, Uses statements x ∧
      arityOf b (declaresLocal b "it" blockStop ancestors) x =
        numberedArity b statements blockStop ancestors) := by
  have attained := highest_attained b statements
  have asked := fun x used => arityOf_le_highest b statements
    (declaresLocal b "it" blockStop ancestors) (x := x) used
  have usesIt := any_usesIt_iff b statements
  unfold numberedArity
  dsimp only
  generalize (statements.map (numberedUses b)).foldl (fun m u => max m u.1) 0 = highest
    at attained asked ⊢
  generalize declaresLocal b "it" blockStop ancestors = itLocal at asked ⊢
  by_cases counted : ((statements.map (numberedUses b)).any (·.2) && !itLocal) = true
  · -- `it` is used and names no local: the arity is at least 1
    rw [if_pos counted]
    simp only [Bool.and_eq_true, Bool.not_eq_true'] at counted
    refine ⟨fun x used => ?_, .inr ?_⟩
    · rcases asked x used with low | ⟨-, -, -, one⟩ <;> omega
    · rcases Nat.eq_zero_or_pos highest with zero | positive
      · obtain ⟨x, used, numbered, spelled⟩ := usesIt.1 counted.1
        exact ⟨x, used, by
          rw [arityOf, numbered, Option.getD_none, if_pos ⟨spelled, counted.2⟩, zero]; rfl⟩
      · rcases attained with zero | ⟨x, used, numbered⟩
        · omega
        · exact ⟨x, used, by simp [arityOf, numbered]; omega⟩
  · rw [if_neg counted]
    refine ⟨fun x used => ?_, ?_⟩
    · -- an `it` naming no local would have been counted
      rcases asked x used with low | ⟨numbered, spelled, free, -⟩
      · exact low
      · simp only [Bool.and_eq_true, Bool.not_eq_true'] at counted
        exact absurd ⟨usesIt.2 ⟨x, used, numbered, spelled⟩, free⟩ counted
    · rcases attained with zero | ⟨x, used, numbered⟩
      · exact .inl zero
      · exact .inr ⟨x, used, by simp [arityOf, numbered]⟩

/-- A positive arity is the one that some use asks for and no use exceeds. -/
theorem numberedArity_eq_iff {n : Nat} (positive : 1 ≤ n) :
    numberedArity b statements blockStop ancestors = n ↔
      (∃ x, Uses statements x ∧ arityOf b (declaresLocal b "it" blockStop ancestors) x = n) ∧
        ∀ x, Uses statements x → arityOf b (declaresLocal b "it" blockStop ancestors) x ≤ n := by
  obtain ⟨bounded, attained⟩ := numberedArity_greatest b statements blockStop ancestors
  constructor
  · rintro rfl
    rcases attained with zero | found
    · omega
    · exact ⟨found, bounded⟩
  · rintro ⟨⟨x, used, asked⟩, highest⟩
    have low := bounded x used
    rcases attained with zero | ⟨y, usedY, askedY⟩
    · omega
    · have high := highest y usedY
      omega

theorem numberedArity_eq_zero
    (unused : ∀ x, Uses statements x → arityOf b (declaresLocal b "it" blockStop ancestors) x = 0) :
    numberedArity b statements blockStop ancestors = 0 := by
  rcases (numberedArity_greatest b statements blockStop ancestors).2 with zero | ⟨x, used, asked⟩
  · exact zero
  · rw [← asked, unused x used]

end Arity

/-! ### Locals declared before a block ends -/

/-- The nodes the search for a declaration passes over: those that start at or after `limit`,
and nested scopes. -/
def outOfScope (limit : Nat) (c : Cst) : Bool :=
  decide (limit ≤ c.start) || scopeTypes.contains c.type

/-- The nodes that open a fresh table of locals. -/
def isScope (c : Cst) : Bool := scopeTypes.contains c.type

theorem declaredBelow_eq (b : Buffer) (name : String) (limit : Nat) (c : Cst) :
    declaredBelow b name limit c = c.children.any fun k =>
      k.named && !outOfScope limit k &&
        ((k.type == "identifier" && text b k == name && declares c k) ||
          declaredBelow b name limit k) := by
  rw [declaredBelow, ← Cst.map_val_subs c, List.any_map]
  rfl

/-- **The search for a declaration below a node** finds an identifier spelled `name` that its
parent makes a declaration, reached through named children that are neither nested scopes nor
start at or after `limit`. -/
theorem declaredBelow_iff (b : Buffer) (name : String) (limit : Nat) (c : Cst) :
    declaredBelow b name limit c = true ↔ ∃ p x, Cst.Below (outOfScope limit) c p x ∧
      x.type = "identifier" ∧ text b x = name ∧ declares p x = true := by
  induction c using Cst.childInduction with
  | step c ih =>
    rw [declaredBelow_eq, List.any_eq_true]
    constructor
    · rintro ⟨k, child, found⟩
      simp only [Bool.and_eq_true, Bool.not_eq_true', Bool.or_eq_true, beq_iff_eq] at found
      obtain ⟨⟨named, kept⟩, ⟨⟨identifier, spelled⟩, declared⟩ | deeper⟩ := found
      · exact ⟨c, k, .child child named kept, identifier, spelled, declared⟩
      · obtain ⟨p, x, below, rest⟩ := (ih k child).1 deeper
        exact ⟨p, x, .deeper child named kept below, rest⟩
    · rintro ⟨p, x, below, identifier, spelled, declared⟩
      rcases Cst.below_iff.1 below with ⟨rfl, child, named, kept⟩ | ⟨k, child, named, kept, later⟩
      · exact ⟨x, child, by simp [named, kept, identifier, spelled, declared]⟩
      · have deeper := (ih k child).2 ⟨p, x, later, identifier, spelled, declared⟩
        exact ⟨k, child, by simp [named, kept, deeper]⟩

theorem declaresLocal_iff (b : Buffer) (name : String) (blockStop : Nat) (ancestors : List Cst) :
    declaresLocal b name blockStop ancestors = true ↔
      ∃ scope, ancestors.find? (fun a => scopeTypes.contains a.type) = some scope ∧
        declaredBelow b name blockStop scope = true := by
  unfold declaresLocal
  cases ancestors.find? (fun a => scopeTypes.contains a.type) <;> simp

theorem outOfScope_eq_false {limit : Nat} {c : Cst} :
    outOfScope limit c = false ↔ isScope c = false ∧ c.start < limit := by
  simp [outOfScope, isScope, and_comm]

/-- **Passing over the nodes that start at or after the block's end leaves out exactly the
identifiers that start there**, in a tree whose children start no earlier than their parents. -/
theorem below_before_iff {limit : Nat} {c p x : Cst} (placed : ∀ y ∈ c.subtrees, y.Placed) :
    Cst.Below (outOfScope limit) c p x ↔ Cst.Below isScope c p x ∧ x.start < limit := by
  constructor
  · intro below
    clear placed
    induction below with
    | child child named kept =>
      obtain ⟨scope, before⟩ := outOfScope_eq_false.1 kept
      exact ⟨.child child named scope, before⟩
    | deeper child named kept _ ih =>
      obtain ⟨later, before⟩ := ih
      exact ⟨.deeper child named (outOfScope_eq_false.1 kept).1 later, before⟩
  · rintro ⟨below, before⟩
    induction below with
    | child child named kept => exact .child child named (outOfScope_eq_false.2 ⟨kept, before⟩)
    | deeper child named kept later ih =>
      -- a node on the way starts no later than the identifier found below it
      have inner := fun y (member : y ∈ _) =>
        placed y (Cst.mem_subtrees_trans (Cst.mem_subtrees_of_mem_children child) member)
      have early := Cst.start_le_of_mem_subtrees inner later.mem_subtrees
      exact .deeper child named (outOfScope_eq_false.2 ⟨kept, by omega⟩) (ih inner before)

/-- A local is visible before `blockStop` when the nearest enclosing scope holds a declaration
of it, outside nested scopes, that starts before `blockStop`. -/
theorem declaresLocal_before_iff (b : Buffer) (name : String) (blockStop : Nat)
    {ancestors : List Cst} (placed : ∀ a ∈ ancestors, ∀ y ∈ a.subtrees, y.Placed) :
    declaresLocal b name blockStop ancestors = true ↔
      ∃ scope, ancestors.find? (fun a => scopeTypes.contains a.type) = some scope ∧
        ∃ p x, Cst.Below isScope scope p x ∧ x.start < blockStop ∧
          x.type = "identifier" ∧ text b x = name ∧ declares p x = true := by
  rw [declaresLocal_iff]
  refine exists_congr fun scope => and_congr_right fun found => ?_
  have inside := placed scope (List.mem_of_find?_eq_some found)
  rw [declaredBelow_iff]
  simp only [below_before_iff inside, and_assoc]

/-- The kind and the second child of the node of a block without a parameter list. -/
theorem blockNode_unparameterised (b : Buffer) {call blk : Cst} (send : Node)
    (ancestors : List Cst) (statements : List Node) (raw : List Cst)
    (unparameterised : blk.childByField "parameters" = none) :
    let node := blockNode b call blk send ancestors statements raw
    let arity := numberedArity b raw blk.stop (call :: ancestors)
    node.kind = (if arity > 0 then .numblock else .block) ∧
    node.children[1]? = some (if arity > 0 then .atom (.int arity) else
      .node (.mk .args [] (Span.point (blk.children.head?.getD blk).stop) [])) := by
  intro node arity
  simp only [node, blockNode, unparameterised]
  split_ifs <;> exact ⟨rfl, rfl⟩

end Lower

/-! ### What a block without parameters becomes -/

open Lower in
/-- **Numbered parameters.** A block without a parameter list, whose statements are those of
its body, becomes a numbered block of arity `n` exactly when `n` is at least 1 and the highest
arity its statements ask for: `k` for an identifier `_k`, and 1 for `it` when no local `it` is
visible, counting the identifiers reached without entering nested blocks, `do` blocks and
lambdas. When none asks for any, it becomes a block whose empty parameter list stands at the end
of its opening token. A local `name` is visible when the nearest enclosing scope holds, outside
nested scopes, an identifier spelled `name` that starts before the block ends and that its
parent makes a declaration; this in concrete trees whose every node is placed, as the reader
gives them. -/
theorem blockNode_numbered {b : Buffer} {call blk : Cst} {send : Node} {ancestors : List Cst}
    (statements : List Node) (unparameterised : blk.childByField "parameters" = none)
    (placed : ∀ a ∈ call :: ancestors, ∀ y ∈ a.subtrees, y.Placed) :
    let raw := (blockStatements blk).map Subtype.val
    let node := blockNode b call blk send ancestors statements raw
    let itLocal := declaresLocal b "it" blk.stop (call :: ancestors)
    (∀ n : Nat, (node.kind = .numblock ∧ node.children[1]? = some (.atom (.int n))) ↔
      1 ≤ n ∧ (∃ x, Uses raw x ∧ arityOf b itLocal x = n) ∧
        ∀ x, Uses raw x → arityOf b itLocal x ≤ n) ∧
    ((∀ x, Uses raw x → arityOf b itLocal x = 0) →
      node.kind = .block ∧ node.children[1]? =
        some (.node (.mk .args [] (Span.point (blk.children.head?.getD blk).stop) []))) ∧
    ∀ name, declaresLocal b name blk.stop (call :: ancestors) = true ↔
      ∃ scope, (call :: ancestors).find? (fun a => scopeTypes.contains a.type) = some scope ∧
        ∃ p x, Cst.Below isScope scope p x ∧ x.start < blk.stop ∧
          x.type = "identifier" ∧ text b x = name ∧ declares p x = true := by
  intro raw node
  dsimp only
  obtain ⟨kind, second⟩ := blockNode_unparameterised b send ancestors statements raw unparameterised
  refine ⟨fun n => ?_, fun unused => ?_,
    fun name => declaresLocal_before_iff b name blk.stop placed⟩
  · -- a numbered block carries its arity, which is positive
    have characterised := and_congr_right fun (one : 1 ≤ n) =>
      numberedArity_eq_iff b raw blk.stop (call :: ancestors) one
    rw [← characterised, kind, second]
    split_ifs with positive
    · simp only [Option.some.injEq, Slot.atom.injEq, Atom.int.injEq, Nat.cast_inj, true_and]
      omega
    · simp only [false_and, false_iff, not_and]
      omega
  · have zero := numberedArity_eq_zero b raw blk.stop (call :: ancestors) unused
    rw [kind, second, if_neg (by omega), if_neg (by omega)]
    exact ⟨rfl, rfl⟩

/-- The block of `f { _2 }`: its body holds only the numbered parameter `_2`. -/
def secondParameterBlock : Cst :=
  .mk "block" true (some "block") false 2 8 [
    .mk "\x7b" false none false 2 3 [],
    .mk "block_body" true (some "body") false 4 6 [.mk "identifier" true none false 4 6 []],
    .mk "\x7d" false none false 7 8 []]

/-- The call `f { _2 }`. -/
def secondParameterCall : Cst :=
  .mk "call" true none false 0 8 [
    .mk "identifier" true (some "method") false 0 1 [], secondParameterBlock]

open Lower in
/-- The call `f { _2 }` at the top of a program: its block has no parameter list and its nodes
are placed. -/
theorem blockNode_numbered_second :
    let b := Buffer.ofText "f \x7b _2 \x7d"
    let send : Node := .mk .send [.atom .none, .atom (.text "f")] ⟨0, 1, Nat.zero_le 1⟩ []
    let ancestors := [Cst.mk "program" true none false 0 8 [secondParameterCall]]
    let raw := (blockStatements secondParameterBlock).map Subtype.val
    let node := blockNode b secondParameterCall secondParameterBlock send ancestors [] raw
    let itLocal := declaresLocal b "it" secondParameterBlock.stop
      (secondParameterCall :: ancestors)
    secondParameterBlock.childByField "parameters" = none ∧
    (∀ a ∈ secondParameterCall :: ancestors, ∀ y ∈ a.subtrees, y.Placed) ∧
    (∀ n : Nat, (node.kind = .numblock ∧ node.children[1]? = some (.atom (.int n))) ↔
      1 ≤ n ∧ (∃ x, Uses raw x ∧ arityOf b itLocal x = n) ∧
        ∀ x, Uses raw x → arityOf b itLocal x ≤ n) ∧
    ((∀ x, Uses raw x → arityOf b itLocal x = 0) →
      node.kind = .block ∧ node.children[1]? = some (.node (.mk .args []
        (Span.point (secondParameterBlock.children.head?.getD secondParameterBlock).stop) []))) ∧
    ∀ name, declaresLocal b name secondParameterBlock.stop
        (secondParameterCall :: ancestors) = true ↔
      ∃ scope, (secondParameterCall :: ancestors).find? (fun a => scopeTypes.contains a.type) =
          some scope ∧
        ∃ p x, Cst.Below isScope scope p x ∧ x.start < secondParameterBlock.stop ∧
          x.type = "identifier" ∧ text b x = name ∧ declares p x = true := by
  intro b send ancestors
  have unparameterised : secondParameterBlock.childByField "parameters" = none := by decide
  have placed : ∀ a ∈ secondParameterCall :: ancestors, ∀ y ∈ a.subtrees, y.Placed := by decide
  exact ⟨unparameterised, placed, blockNode_numbered [] unparameterised placed⟩

end RubyCheck.Ruby
