import RubyCheck.Proofs.Pattern.Compile
import RubyCheck.Proofs.Tree.Same
import RubyCheck.Pattern.Match
import RubyCheck.Tree.Shape

/-!
# What matching means

**Matching a compiled pattern against a node agrees with a declarative semantics: what it
returns is a derivation of it, and when no union alternative holds a capture, it finds one
whenever one exists.**

`Sat σ p v names` says that the value `v` matches `p` when each capture `x` stands for `σ x`:
the wildcard matches anything, a capture matches a value equal to what it stands for, a literal
matches its own atom, a union matches what one of its alternatives matches, and a node pattern
matches a node of its kind whose children its child patterns match in order, with `rest`
standing for any further children. `names` are the captures met, one alternative chosen per
union.

* `matchSlot_sound`: the bindings matching returns only grow the ones it started from, keep
  their names distinct, add exactly the names of a derivation, and make every capture stand
  for the value bound to it.
* `Sat.matchSlot_isSome`: for a derivation under captures compatible with the bindings so far,
  matching succeeds. A union keeps its first alternative that matches, which is enough only when
  its alternatives bind nothing; and a capture met twice needs equal structure to be an
  equivalence.
* `matchTop_agrees_with_semantics`: both, for the patterns `compile` returns, matched at the top.
-/

namespace RubyCheck.Pattern

open RubyCheck.Tree

/-! ### Equal values -/

theorem valuesEqual_refl (v : Slot Node) : valuesEqual v v = true := by
  cases v with
  | node n => exact n.sameAs_refl
  | atom a => exact a.same_refl

theorem valuesEqual_symm {v w : Slot Node} (same : valuesEqual v w = true) :
    valuesEqual w v = true := by
  cases v <;> cases w <;> simp_all [valuesEqual, Node.sameAsSlot]
  case node.node m n => exact Node.sameAs_symm same
  case atom.atom a b => exact Atom.same_symm same

theorem valuesEqual_trans {u v w : Slot Node} (first : valuesEqual u v = true)
    (second : valuesEqual v w = true) : valuesEqual u w = true := by
  cases u <;> cases v <;> cases w <;> simp_all [valuesEqual, Node.sameAsSlot]
  case node.node.node => exact Node.sameAs_trans first second
  case atom.atom.atom => exact Atom.same_trans first second

/-- A literal accepts exactly its own atom, truth values never. -/
theorem eq_of_literalAccepts {lit a : Atom} (accepts : literalAccepts lit a = true) : a = lit := by
  cases lit <;> cases a <;> simp_all [literalAccepts]

/-! ### Bindings -/

/-- The names bound, in the order they were first bound. -/
def Bindings.keys (b : Bindings) : List String := b.map (·.1)

/-- The value bound to a name. -/
def Bindings.lookup (b : Bindings) (x : String) : Option (Slot Node) :=
  (b.find? (·.1 == x)).map (·.2.value)

namespace Bindings

variable {b : Bindings} {x : String}

theorem find?_eq_none_iff : b.find? (·.1 == x) = none ↔ x ∉ b.keys := by
  rw [List.find?_eq_none]
  constructor
  · intro none member
    obtain ⟨e, inside, same⟩ := List.mem_map.1 member
    exact none e inside (by simp [same])
  · intro fresh e inside found
    exact fresh (List.mem_map.2 ⟨e, inside, by simpa using found⟩)

theorem mem_keys_of_find? {e : String × Bound} (found : b.find? (·.1 == x) = some e) :
    x ∈ b.keys := by
  have same : e.1 = x := by simpa using List.find?_some found
  exact List.mem_map.2 ⟨e, List.mem_of_find?_eq_some found, same⟩

theorem lookup_of_find? {e : String × Bound} (found : b.find? (·.1 == x) = some e) :
    b.lookup x = some e.2.value := by
  simp [lookup, found]

theorem lookup_append_of_mem (member : x ∈ b.keys) (later : Bindings) :
    (b ++ later).lookup x = b.lookup x := by
  cases found : b.find? (·.1 == x) with
  | none => exact absurd member (find?_eq_none_iff.1 found)
  | some e => simp [lookup, List.find?_append, found]

theorem lookup_append_of_not_mem (fresh : x ∉ b.keys) (later : Bindings) :
    (b ++ later).lookup x = later.lookup x := by
  simp [lookup, List.find?_append, find?_eq_none_iff.2 fresh]

theorem mem_keys_of_lookup {w : Slot Node} (found : b.lookup x = some w) : x ∈ b.keys := by
  cases e : b.find? (·.1 == x) with
  | none => simp [lookup, e] at found
  | some e' => exact mem_keys_of_find? e

theorem lookup_append {later : Bindings} {w : Slot Node} (found : b.lookup x = some w) :
    (b ++ later).lookup x = some w := by
  rw [lookup_append_of_mem (mem_keys_of_lookup found), found]

theorem lookup_singleton (v : Slot Node) (path : List Nat) :
    Bindings.lookup [(x, { value := v, path })] x = some v := by
  simp [lookup]

theorem eq_of_lookup_singleton {y : String} {v w : Slot Node} {path : List Nat}
    (found : Bindings.lookup [(x, { value := v, path })] y = some w) : y = x ∧ w = v := by
  simp only [lookup, List.find?_cons, List.find?_nil] at found
  split at found
  · rename_i same
    simp only [Option.map_some, Option.some.injEq] at found
    exact ⟨(beq_iff_eq.1 same).symm, found.symm⟩
  · cases found

end Bindings

/-! ### The semantics -/

/-- The value each capture stands for, if any. -/
abbrev Captures := String → Option (Slot Node)

mutual

/-- `Sat σ p v names`: the value `v` matches `p` when each capture `x` stands for `σ x`; `names`
are the captures met, one alternative chosen per union. -/
inductive Sat (σ : Captures) : Pattern → Slot Node → List String → Prop
  | wildcard {v : Slot Node} : Sat σ .wildcard v []
  | capture {x : String} {v w : Slot Node} :
      σ x = some w → valuesEqual w v = true → Sat σ (.capture x) v [x]
  | literal {a : Atom} : Sat σ (.literal a) (.atom a) []
  | anyOf {ps : List Pattern} {q : Pattern} {v : Slot Node} {names : List String} :
      q ∈ ps → Sat σ q v names → Sat σ (.anyOf ps) v names
  | kind {k : Kind} {n : Node} {ps : List Pattern} {names : List String} :
      n.kind = k → SatChildren σ ps n.children names → Sat σ (.kind k ps) (.node n) names

/-- `SatChildren σ ps cs names`: the children `cs` match the child patterns `ps` in order, a
last `rest` matching any further children. -/
inductive SatChildren (σ : Captures) : List Pattern → List (Slot Node) → List String → Prop
  | nil : SatChildren σ [] [] []
  | rest {cs : List (Slot Node)} : SatChildren σ [.rest] cs []
  | cons {p : Pattern} {ps : List Pattern} {c : Slot Node} {cs : List (Slot Node)}
      {first later : List String} :
      Sat σ p c first → SatChildren σ ps cs later → SatChildren σ (p :: ps) (c :: cs) (first ++ later)

end

/-- The captures agree with the bindings: every bound name stands for its value. -/
def Agrees (σ : Captures) (b : Bindings) : Prop := ∀ x w, b.lookup x = some w → σ x = some w

/-- How matching changes the bindings: it only adds to them, keeps their names distinct, and
adds exactly the names `names`. -/
structure Grows (b b' : Bindings) (names : List String) : Prop where
  grows : ∃ later, b' = b ++ later
  nodup : b.keys.Nodup → b'.keys.Nodup
  keys : ∀ x, x ∈ b'.keys ↔ x ∈ b.keys ∨ x ∈ names

theorem Agrees.of_grows {σ : Captures} {b b' : Bindings} {names : List String}
    (agrees : Agrees σ b') (grown : Grows b b' names) : Agrees σ b := by
  obtain ⟨later, rfl⟩ := grown.grows
  exact fun x w found => agrees x w (Bindings.lookup_append found)

theorem Grows.refl (b : Bindings) : Grows b b [] :=
  ⟨⟨[], by simp⟩, id, by simp⟩

theorem Grows.trans {b b' b'' : Bindings} {first later : List String} (one : Grows b b' first)
    (two : Grows b' b'' later) : Grows b b'' (first ++ later) := by
  obtain ⟨more, rfl⟩ := one.grows
  obtain ⟨more', rfl⟩ := two.grows
  refine ⟨⟨more ++ more', by simp⟩, fun nodup => two.nodup (one.nodup nodup), fun x => ?_⟩
  rw [two.keys, one.keys, List.mem_append]
  tauto

/-- A name met again: the bindings stay as they are. -/
theorem Grows.bound {b : Bindings} {x : String} (member : x ∈ b.keys) : Grows b b [x] := by
  refine ⟨⟨[], by simp⟩, id, fun y => ⟨Or.inl, ?_⟩⟩
  rintro (old | again)
  · exact old
  · rw [List.mem_singleton.1 again]
    exact member

/-- A name met for the first time: it is bound after the others. -/
theorem Grows.bind {b : Bindings} {x : String} (fresh : x ∉ b.keys) (bound : Bound) :
    Grows b (b ++ [(x, bound)]) [x] := by
  have keys : (b ++ [(x, bound)]).keys = b.keys.concat x := by simp [Bindings.keys]
  refine ⟨⟨_, rfl⟩, fun nodup => ?_, fun y => ?_⟩
  · rw [keys]
    exact List.Nodup.concat fresh nodup
  · simp [keys]

/-! ### Node patterns -/

/-- The count test `matchSlot` makes of a node pattern's child patterns against the children: as
many, or at least all but a last `rest`. -/
abbrev CountTest (ps : List Pattern) (cs : List (Slot Node)) : Prop :=
  if Pattern.endsInRest ps = true then ps.length - 1 ≤ cs.length
  else (ps.length == cs.length) = true

section Kind

variable {k : Kind} {ps : List Pattern} {n : Node} {path : List Nat} {b : Bindings}

theorem matchSlot_kind_eq (kinds : n.kind = k) (count : CountTest ps n.children) :
    matchSlot (.kind k ps) (.node n) path b = matchChildren ps n.children path 0 b := by
  rw [matchSlot, if_neg (by simp [kinds])]
  dsimp only
  rw [if_pos count]

theorem matchSlot_kind_some {b' : Bindings}
    (matched : matchSlot (.kind k ps) (.node n) path b = some b') :
    n.kind = k ∧ CountTest ps n.children ∧ matchChildren ps n.children path 0 b = some b' := by
  rw [matchSlot] at matched
  by_cases other : (n.kind != k) = true
  · rw [if_pos other] at matched
    cases matched
  rw [if_neg other] at matched
  dsimp only at matched
  by_cases count : CountTest ps n.children
  · rw [if_pos count] at matched
    exact ⟨by simpa using other, count, matched⟩
  · rw [if_neg count] at matched
    cases matched

end Kind

/-! ### Matching gives derivations -/

theorem WellFormed.ne_rest {p : Pattern} (wf : WellFormed p) : p = .rest → False := by
  rintro rfl
  cases wf

/-- Child patterns as the count test of a well-formed node pattern admits them: one per child,
or fewer before a last `rest`. -/
inductive Fits : List Pattern → List (Slot Node) → Prop
  | nil : Fits [] []
  | rest {cs : List (Slot Node)} : Fits [.rest] cs
  | cons {p : Pattern} {ps : List Pattern} {c : Slot Node} {cs : List (Slot Node)} :
      WellFormed p → Fits ps cs → Fits (p :: ps) (c :: cs)

theorem fits_of_length : ∀ {ps : List Pattern} {cs : List (Slot Node)},
    (∀ q ∈ ps, WellFormed q) → ps.length = cs.length → Fits ps cs
  | [], [], _, _ => .nil
  | p :: ps, c :: cs, each, lengths =>
    .cons (each p List.mem_cons_self)
      (fits_of_length (fun q member => each q (List.mem_cons_of_mem p member)) (by simpa using lengths))
  | [], _ :: _, _, lengths | _ :: _, [], _, lengths => by simp at lengths

theorem fits_of_rest : ∀ {qs : List Pattern} {cs : List (Slot Node)},
    (∀ q ∈ qs, WellFormed q) → qs.length ≤ cs.length → Fits (qs ++ [.rest]) cs
  | [], _, _, _ => .rest
  | q :: qs, c :: cs, each, lengths =>
    .cons (each q List.mem_cons_self)
      (fits_of_rest (fun r member => each r (List.mem_cons_of_mem q member)) (by simpa using lengths))
  | _ :: _, [], _, lengths => by simp at lengths

theorem endsInRest_eq_false {ps : List Pattern} (each : ∀ q ∈ ps, WellFormed q) :
    Pattern.endsInRest ps = false := by
  cases last : ps.getLast? with
  | none => simp [Pattern.endsInRest, last]
  | some q =>
    have wf := each q (List.mem_of_getLast? last)
    cases q
    case rest => cases wf
    all_goals simp [Pattern.endsInRest, Pattern.isRest, last]

/-- The count test of a well-formed node pattern admits its child patterns exactly as `Fits`. -/
theorem WellFormed.fits {k : Kind} {ps : List Pattern} {cs : List (Slot Node)}
    (wf : WellFormed (.kind k ps)) (count : CountTest ps cs) : Fits ps cs := by
  unfold CountTest at count
  cases wf with
  | kind each =>
    rw [if_neg (by simp [endsInRest_eq_false each])] at count
    exact fits_of_length each (by simpa using count)
  | kindRest each =>
    rw [if_pos (by simp [Pattern.endsInRest, Pattern.isRest])] at count
    exact fits_of_rest each (by simpa using count)

mutual

/-- **What matching returns is a derivation.** The bindings grow by the names of a derivation,
under any captures that agree with them. -/
theorem matchSlot_sound : ∀ (p : Pattern) {v : Slot Node} {path : List Nat} {b b' : Bindings},
    WellFormed p → matchSlot p v path b = some b' →
      ∃ names, Grows b b' names ∧ ∀ σ, Agrees σ b' → Sat σ p v names
  | .wildcard, _, _, _, _, _, matched => by
    cases matched
    exact ⟨[], Grows.refl _, fun _ _ => .wildcard⟩
  | .rest, _, _, _, _, wf, _ => by cases wf
  | .capture name, v, path, b, b', _, matched => by
    rw [matchSlot] at matched
    cases found : b.find? (·.1 == name) with
    | none =>
      rw [found] at matched
      cases matched
      have fresh := Bindings.find?_eq_none_iff.1 found
      refine ⟨[name], Grows.bind fresh _, fun σ agrees =>
        .capture (agrees name v ?_) (valuesEqual_refl v)⟩
      rw [Bindings.lookup_append_of_not_mem fresh, Bindings.lookup_singleton]
    | some e =>
      obtain ⟨y, bound⟩ := e
      rw [found] at matched
      dsimp only at matched
      by_cases same : valuesEqual bound.value v = true
      · rw [if_pos same] at matched
        cases matched
        exact ⟨[name], Grows.bound (Bindings.mem_keys_of_find? found), fun σ agrees =>
          .capture (agrees name _ (Bindings.lookup_of_find? found)) same⟩
      · rw [if_neg same] at matched
        cases matched
  | .literal lit, v, _, _, _, _, matched => by
    cases v with
    | node n => cases matched
    | atom a =>
      rw [matchSlot] at matched
      by_cases accepts : literalAccepts lit a = true
      · rw [if_pos accepts] at matched
        cases matched
        rw [eq_of_literalAccepts accepts]
        exact ⟨[], Grows.refl _, fun _ _ => .literal⟩
      · rw [if_neg accepts] at matched
        cases matched
  | .anyOf alternatives, _, _, _, _, wf, matched => by
    rw [matchSlot] at matched
    cases wf with
    | anyOf _ each =>
      obtain ⟨names, grown, q, member, sat⟩ := matchFirst_sound alternatives each matched
      exact ⟨names, grown, fun σ agrees => .anyOf member (sat σ agrees)⟩
  | .kind k ps, v, _, _, _, wf, matched => by
    cases v with
    | atom a => cases matched
    | node n =>
      obtain ⟨kinds, count, children⟩ := matchSlot_kind_some matched
      obtain ⟨names, grown, sat⟩ := matchChildren_sound ps (wf.fits count) children
      exact ⟨names, grown, fun σ agrees => .kind kinds (sat σ agrees)⟩

theorem matchFirst_sound : ∀ (ps : List Pattern) {v : Slot Node} {path : List Nat}
    {b b' : Bindings}, (∀ q ∈ ps, WellFormed q) → matchFirst ps v path b = some b' →
      ∃ names, Grows b b' names ∧ ∃ q ∈ ps, ∀ σ, Agrees σ b' → Sat σ q v names
  | [], _, _, _, _, _, matched => by cases matched
  | q :: qs, v, path, b, _, each, matched => by
    rw [matchFirst] at matched
    cases first : matchSlot q v path b with
    | some b₁ =>
      rw [first] at matched
      cases matched
      obtain ⟨names, grown, sat⟩ := matchSlot_sound q (each q List.mem_cons_self) first
      exact ⟨names, grown, q, List.mem_cons_self, sat⟩
    | none =>
      rw [first] at matched
      obtain ⟨names, grown, r, member, sat⟩ :=
        matchFirst_sound qs (fun r member => each r (List.mem_cons_of_mem q member)) matched
      exact ⟨names, grown, r, List.mem_cons_of_mem q member, sat⟩

theorem matchChildren_sound : ∀ (ps : List Pattern) {cs : List (Slot Node)} {path : List Nat}
    {index : Nat} {b b' : Bindings}, Fits ps cs → matchChildren ps cs path index b = some b' →
      ∃ names, Grows b b' names ∧ ∀ σ, Agrees σ b' → SatChildren σ ps cs names
  | [], _, _, _, _, _, fits, matched => by
    cases fits
    cases matched
    exact ⟨[], Grows.refl _, fun _ _ => .nil⟩
  | p :: more, _, path, index, b, _, fits, matched => by
    cases fits with
    | rest =>
      cases matched
      exact ⟨[], Grows.refl _, fun _ _ => .rest⟩
    | cons wf fits =>
      rename_i c cs
      rw [matchChildren.eq_2 _ _ _ _ _ _ _ wf.ne_rest] at matched
      cases first : matchSlot p c (path ++ [index]) b with
      | none =>
        rw [first] at matched
        cases matched
      | some b₁ =>
        rw [first] at matched
        obtain ⟨names, grown, sat⟩ := matchSlot_sound p wf first
        obtain ⟨names', grown', sat'⟩ := matchChildren_sound more fits matched
        exact ⟨names ++ names', grown.trans grown', fun σ agrees =>
          .cons (sat σ (agrees.of_grows grown')) (sat' σ agrees)⟩

end

/-! ### Derivations are found -/

theorem Sat.ne_rest {σ : Captures} {p : Pattern} {v : Slot Node} {names : List String}
    (sat : Sat σ p v names) : p = .rest → False := by
  rintro rfl
  cases sat

/-- The count test of node patterns admits the child patterns of every derivation. -/
theorem SatChildren.count {σ : Captures} :
    ∀ {ps : List Pattern} {cs : List (Slot Node)} {names : List String}, SatChildren σ ps cs names →
      CountTest ps cs
  | _, _, _, .nil => by simp [CountTest, Pattern.endsInRest]
  | _, _, _, .rest => by simp [CountTest, Pattern.endsInRest, Pattern.isRest]
  | p :: ps, c :: cs, _, .cons sat later => by
    have tail := later.count
    unfold CountTest at tail ⊢
    cases ps with
    | nil =>
      cases later
      cases p
      case rest => exact absurd rfl sat.ne_rest
      all_goals simp [Pattern.endsInRest, Pattern.isRest]
    | cons q qs =>
      have same : Pattern.endsInRest (p :: q :: qs) = Pattern.endsInRest (q :: qs) := by
        simp [Pattern.endsInRest, List.getLast?_cons_cons]
      rw [same]
      split at tail
      · rw [if_pos ‹_›]
        simp only [List.length_cons] at tail ⊢
        omega
      · rw [if_neg ‹_›]
        simpa using tail

/-- A pattern with no capture in it. -/
inductive CaptureFree : Pattern → Prop
  | wildcard : CaptureFree .wildcard
  | rest : CaptureFree .rest
  | literal (a : Atom) : CaptureFree (.literal a)
  | anyOf {ps : List Pattern} : (∀ q ∈ ps, CaptureFree q) → CaptureFree (.anyOf ps)
  | kind {k : Kind} {ps : List Pattern} : (∀ q ∈ ps, CaptureFree q) → CaptureFree (.kind k ps)

/-- A pattern no union alternative of which holds a capture. -/
inductive UnionsCaptureFree : Pattern → Prop
  | wildcard : UnionsCaptureFree .wildcard
  | rest : UnionsCaptureFree .rest
  | capture (x : String) : UnionsCaptureFree (.capture x)
  | literal (a : Atom) : UnionsCaptureFree (.literal a)
  | anyOf {ps : List Pattern} : (∀ q ∈ ps, CaptureFree q) → UnionsCaptureFree (.anyOf ps)
  | kind {k : Kind} {ps : List Pattern} :
      (∀ q ∈ ps, UnionsCaptureFree q) → UnionsCaptureFree (.kind k ps)

theorem CaptureFree.unionsCaptureFree {p : Pattern} : CaptureFree p → UnionsCaptureFree p
  | .wildcard => .wildcard
  | .rest => .rest
  | .literal a => .literal a
  | .anyOf each => .anyOf each
  | .kind each => .kind fun q member => (each q member).unionsCaptureFree

mutual

/-- Matching a pattern with no capture leaves the bindings as they are. -/
theorem matchSlot_of_captureFree : ∀ (p : Pattern) {v : Slot Node} {path : List Nat}
    {b b' : Bindings}, CaptureFree p → matchSlot p v path b = some b' → b' = b
  | .wildcard, _, _, _, _, _, matched => by
    cases matched
    rfl
  | .rest, _, _, _, _, _, matched => by cases matched
  | .capture _, _, _, _, _, free, _ => by cases free
  | .literal lit, v, _, _, _, _, matched => by
    cases v with
    | node n => cases matched
    | atom a =>
      rw [matchSlot] at matched
      split at matched
      · cases matched
        rfl
      · cases matched
  | .anyOf alternatives, _, _, _, _, free, matched => by
    rw [matchSlot] at matched
    cases free with
    | anyOf each => exact matchFirst_of_captureFree alternatives each matched
  | .kind k ps, v, _, _, _, free, matched => by
    cases v with
    | atom a => cases matched
    | node n =>
      obtain ⟨-, -, children⟩ := matchSlot_kind_some matched
      cases free with
      | kind each => exact matchChildren_of_captureFree ps each children

theorem matchFirst_of_captureFree : ∀ (ps : List Pattern) {v : Slot Node} {path : List Nat}
    {b b' : Bindings}, (∀ q ∈ ps, CaptureFree q) → matchFirst ps v path b = some b' → b' = b
  | [], _, _, _, _, _, matched => by cases matched
  | q :: qs, v, path, b, _, each, matched => by
    rw [matchFirst] at matched
    cases first : matchSlot q v path b with
    | some b₁ =>
      rw [first] at matched
      cases matched
      exact matchSlot_of_captureFree q (each q List.mem_cons_self) first
    | none =>
      rw [first] at matched
      exact matchFirst_of_captureFree qs (fun r member => each r (List.mem_cons_of_mem q member))
        matched

theorem matchChildren_of_captureFree : ∀ (ps : List Pattern) {cs : List (Slot Node)}
    {path : List Nat} {index : Nat} {b b' : Bindings}, (∀ q ∈ ps, CaptureFree q) →
      matchChildren ps cs path index b = some b' → b' = b
  | [], cs, _, _, _, _, _, matched => by
    cases cs <;> cases matched <;> rfl
  | p :: more, [], _, _, _, _, _, matched => by
    cases p <;> cases matched <;> rfl
  | p :: more, c :: cs, path, index, b, _, each, matched => by
    by_cases isRest : p = .rest
    · subst isRest
      cases matched
      rfl
    rw [matchChildren.eq_2 _ _ _ _ _ _ _ isRest] at matched
    cases first : matchSlot p c (path ++ [index]) b with
    | none =>
      rw [first] at matched
      cases matched
    | some b₁ =>
      rw [first] at matched
      have kept := matchSlot_of_captureFree p (each p List.mem_cons_self) first
      subst kept
      exact matchChildren_of_captureFree more
        (fun q member => each q (List.mem_cons_of_mem p member)) matched

end

/-- Every bound value equals what its name stands for. -/
def Compatible (σ : Captures) (b : Bindings) : Prop :=
  ∀ x w, b.lookup x = some w → ∃ u, σ x = some u ∧ valuesEqual u w = true

theorem Compatible.nil (σ : Captures) : Compatible σ [] := by
  intro x w found
  simp [Bindings.lookup] at found

theorem WellFormed.literalAccepts_self {a : Atom} (wf : WellFormed (.literal a)) :
    literalAccepts a a = true := by
  cases wf <;> simp [literalAccepts]

theorem WellFormed.child {k : Kind} {ps : List Pattern} (wf : WellFormed (.kind k ps)) :
    ∀ q ∈ ps, q ≠ .rest → WellFormed q := by
  intro q member notRest
  cases wf with
  | kind each => exact each q member
  | kindRest each =>
    rcases List.mem_append.1 member with inside | last
    · exact each q inside
    · exact absurd (List.mem_singleton.1 last) notRest

/-- A union whose alternatives bind nothing matches, and keeps the bindings, once one of its
alternatives matches. -/
theorem matchFirst_of_mem : ∀ {ps : List Pattern} {q : Pattern} {v : Slot Node} {path : List Nat}
    {b b₁ : Bindings}, (∀ r ∈ ps, CaptureFree r) → q ∈ ps → matchSlot q v path b = some b₁ →
      matchFirst ps v path b = some b
  | r :: rs, q, v, path, b, _, each, member, matched => by
    rw [matchFirst]
    cases first : matchSlot r v path b with
    | some b₂ => rw [matchSlot_of_captureFree r (each r List.mem_cons_self) first]
    | none =>
      rcases List.mem_cons.1 member with rfl | later
      · rw [first] at matched
        cases matched
      · exact matchFirst_of_mem (fun r' inside => each r' (List.mem_cons_of_mem r inside)) later
          matched

mutual

/-- **Matching finds every derivation** of a pattern whose union alternatives bind nothing,
starting from bindings compatible with the captures. -/
theorem Sat.matchSlot_isSome : ∀ {σ : Captures} {p : Pattern} {v : Slot Node} {names : List String},
    Sat σ p v names → ∀ {path : List Nat} {b : Bindings}, WellFormed p → UnionsCaptureFree p →
      Compatible σ b → ∃ b', matchSlot p v path b = some b' ∧ Compatible σ b'
  | _, _, _, _, .wildcard, _, b, _, _, compatible => ⟨b, rfl, compatible⟩
  | _, _, _, _, @Sat.capture _ x v w stands same, path, b, _, _, compatible => by
    rw [matchSlot]
    cases found : b.find? (·.1 == x) with
    | none =>
      refine ⟨_, rfl, fun y u bound => ?_⟩
      by_cases old : y ∈ b.keys
      · rw [Bindings.lookup_append_of_mem old] at bound
        exact compatible y u bound
      · rw [Bindings.lookup_append_of_not_mem old] at bound
        obtain ⟨rfl, rfl⟩ := Bindings.eq_of_lookup_singleton bound
        exact ⟨w, stands, same⟩
    | some e =>
      -- the value bound first equals what `x` stands for, and so equals `v`
      obtain ⟨u, standsU, sameU⟩ := compatible x _ (Bindings.lookup_of_find? found)
      rw [stands] at standsU
      cases standsU
      have equal : valuesEqual e.2.value v = true := valuesEqual_trans (valuesEqual_symm sameU) same
      exact ⟨b, by simp only [equal, if_true], compatible⟩
  | _, _, _, _, @Sat.literal _ a, _, b, wf, _, compatible =>
    ⟨b, by rw [matchSlot, if_pos wf.literalAccepts_self], compatible⟩
  | _, _, _, _, @Sat.anyOf _ ps q v names member sat, path, b, wf, free, compatible => by
    cases free with
    | anyOf each =>
      cases wf with
      | anyOf _ wfs =>
        obtain ⟨b₁, matched, -⟩ :=
          sat.matchSlot_isSome (wfs q member) (each q member).unionsCaptureFree compatible
        exact ⟨b, by rw [matchSlot]; exact matchFirst_of_mem each member matched, compatible⟩
  | _, _, _, _, @Sat.kind _ k n ps names kinds children, path, b, wf, free, compatible => by
    cases free with
    | kind each =>
      obtain ⟨b', matched, compatible'⟩ := children.matchChildren_isSome wf.child each compatible
      exact ⟨b', by rw [matchSlot_kind_eq kinds children.count]; exact matched, compatible'⟩

theorem SatChildren.matchChildren_isSome : ∀ {σ : Captures} {ps : List Pattern}
    {cs : List (Slot Node)} {names : List String}, SatChildren σ ps cs names →
      ∀ {path : List Nat} {index : Nat} {b : Bindings}, (∀ q ∈ ps, q ≠ .rest → WellFormed q) →
        (∀ q ∈ ps, UnionsCaptureFree q) → Compatible σ b →
          ∃ b', matchChildren ps cs path index b = some b' ∧ Compatible σ b'
  | _, _, _, _, .nil, _, _, b, _, _, compatible => ⟨b, rfl, compatible⟩
  | _, _, _, _, .rest, _, _, b, _, _, compatible => ⟨b, rfl, compatible⟩
  | _, _, _, _, @SatChildren.cons _ p ps c cs first later sat tail, path, index, b, wfs, frees,
      compatible => by
    have notRest := sat.ne_rest
    obtain ⟨b₁, matched, compatible₁⟩ :=
      sat.matchSlot_isSome (wfs p List.mem_cons_self notRest) (frees p List.mem_cons_self)
        compatible
    obtain ⟨b₂, matched₂, compatible₂⟩ :=
      tail.matchChildren_isSome (fun q inside => wfs q (List.mem_cons_of_mem p inside))
        (fun q inside => frees q (List.mem_cons_of_mem p inside)) compatible₁
    refine ⟨b₂, ?_, compatible₂⟩
    rw [matchChildren.eq_2 _ _ _ _ _ _ _ notRest, matched]
    exact matched₂

end

/-! ### Matching a compiled pattern -/

/-- **Matching a compiled pattern agrees with its semantics.** Matching a node against a
compiled pattern returns bindings with distinct names that make the node match the pattern, the
names bound being exactly those met along the chosen alternatives. When no union alternative
holds a capture, it fails only on nodes that match the pattern under no captures at all. -/
theorem matchTop_agrees_with_semantics {text : String} {P : Pattern}
    (compiled : compile text = .ok P) (n : Node) :
    (∀ b, matchTop P (.node n) = some b →
      b.keys.Nodup ∧ ∃ names, Sat b.lookup P (.node n) names ∧ ∀ x, x ∈ b.keys ↔ x ∈ names) ∧
    (UnionsCaptureFree P → (∃ σ names, Sat σ P (.node n) names) →
      (matchTop P (.node n)).isSome) := by
  have wf := wellFormed_of_compile compiled
  refine ⟨fun b matched => ?_, fun free ⟨σ, names, sat⟩ => ?_⟩
  · obtain ⟨names, grown, sat⟩ := matchSlot_sound P wf matched
    refine ⟨grown.nodup List.nodup_nil, names, sat b.lookup fun _ _ found => found, fun x => ?_⟩
    simpa [Bindings.keys] using grown.keys x
  · obtain ⟨b, matched, -⟩ : ∃ b, matchSlot P (.node n) [] [] = some b ∧ Compatible σ b :=
      sat.matchSlot_isSome wf free (Compatible.nil σ)
    simp [matchTop, matched]

/-- The pattern `(send {(int _) (str _)} :map ...)` compiles, and it matches the call `1.map`, a
node the shape rules accept, through the first alternative of its union. -/
theorem matchTop_finds_union_alternative :
    compile "(send {(int _) (str _)} :map ...)" =
        .ok (.kind .send [.anyOf [.kind .int [.wildcard], .kind .str [.wildcard]],
          .literal (.text "map"), .rest]) ∧
      ∃ one call, Node.make? .int [.atom (.text "1")] (some ⟨0, 1, Nat.zero_le 1⟩) = .ok one ∧
        Node.make? .send [.node one, .atom (.text "map")] (some ⟨0, 5, Nat.zero_le 5⟩) = .ok call ∧
        (matchTop (.kind .send [.anyOf [.kind .int [.wildcard], .kind .str [.wildcard]],
          .literal (.text "map"), .rest]) (.node call)).isSome := by
  have compiled : compile "(send {(int _) (str _)} :map ...)" =
      .ok (.kind .send [.anyOf [.kind .int [.wildcard], .kind .str [.wildcard]],
        .literal (.text "map"), .rest]) := by cbv
  have free : UnionsCaptureFree (.kind .send [.anyOf [.kind .int [.wildcard],
      .kind .str [.wildcard]], .literal (.text "map"), .rest]) := by
    refine .kind fun q member => ?_
    simp only [List.mem_cons, List.not_mem_nil, or_false] at member
    rcases member with rfl | rfl | rfl
    · refine .anyOf fun r inside => ?_
      simp only [List.mem_cons, List.not_mem_nil, or_false] at inside
      rcases inside with rfl | rfl <;>
        exact .kind fun s single => by rw [List.mem_singleton.1 single]; exact .wildcard
    · exact .literal _
    · exact .rest
  refine ⟨compiled, .mk .int [.atom (.text "1")] ⟨0, 1, Nat.zero_le 1⟩ [],
    .mk .send [.node (.mk .int [.atom (.text "1")] ⟨0, 1, Nat.zero_le 1⟩ []), .atom (.text "map")]
      ⟨0, 5, Nat.zero_le 5⟩ [], rfl, rfl, (matchTop_agrees_with_semantics compiled _).2 free
    ⟨fun _ => none, _, .kind rfl (.cons (.anyOf List.mem_cons_self (.kind rfl (.cons .wildcard .nil)))
      (.cons .literal .rest))⟩⟩

end RubyCheck.Pattern
