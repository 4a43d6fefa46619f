import RubyCheck.Tree.Store
import Mathlib

/-!
# Owners over a history of constructions

**Owners form a forest over every history of constructions: an owner is given once, by the
constructor that lists the node, comes after it and owns it for good; no node occurs twice below
a built node; and a node given a second parent stops the construction, naming the node and its
owner.**

A construction checks the new node's span and shape, adds it to the store, and gives it, from
the left, each node child as its own; it stops at a child that already has an owner, which may
be the new node itself when the child is listed twice. The children taken before that point
keep the aborted node as their owner.

* `Store.Adopts`: what adopting children can change — the owners of listed nodes that had none,
  nothing else (`adopts_adopt`);
* `Store.construct_cases`: a construction fails at once, leaving the store, or adds the node and
  adopts its children;
* `Store.Reached`: the stores a history of constructions leaves, each construction taking as
  children nodes built before, with the positions built; `Store.Forest` holds of every such
  store (`Reached.forest`), and from it no node occurs twice below a built node
  (`Forest.nodup_below`): two children of one node lie on no common owner chain;
* `Store.construction_history`: the whole statement.

Histories here take as children the nodes constructions return. The nodes of an aborted
construction are reachable only through the owner links of the children it took; a history that
hands such a node to a later construction can repeat a node below it
(`aborted_node_repeats_below`).
-/

namespace RubyCheck.Tree

open RubyCheck.Source

/-- A node as it was built, its owner left out. -/
def Entry.unowned (e : Entry) : Entry := { e with owner := none }

/-- The position a child names, when it is a node. -/
def Slot.position : Slot Nat → Option Nat
  | .node id => some id
  | .atom _ => none

@[simp] theorem Slot.position_eq_some {x : Slot Nat} {id : Nat} :
    x.position = some id ↔ x = .node id := by
  cases x <;> simp [Slot.position]

namespace Store

/-- The owner of the node at a position, if it has one. -/
def ownerOf (s : Store) (id : Nat) : Option Nat := (s.entries[id]?).bind (·.owner)

/-- The positions of the node children of the node at a position, in order. -/
def childIds (s : Store) (id : Nat) : List Nat :=
  ((s.entries[id]?).map fun e => e.children.filterMap Slot.position).getD []

/-- The positions below a node, itself first, in pre-order, down to `depth` levels. -/
def below (s : Store) : Nat → Nat → List Nat
  | 0, _ => []
  | depth + 1, id => id :: (s.childIds id).flatMap (s.below depth)

/-- What only owners tell apart: the store read with every owner left out. -/
def Same (s t : Store) : Prop :=
  ∀ j : Nat, (t.entries[j]?).map Entry.unowned = (s.entries[j]?).map Entry.unowned

theorem Same.childIds {s t : Store} (same : Same s t) : t.childIds = s.childIds := by
  funext id
  have children : ∀ r : Store, r.childIds id =
      (((r.entries[id]?).map Entry.unowned).map fun e => e.children.filterMap Slot.position).getD [] := by
    intro r
    simp [Store.childIds, Option.map_map, Function.comp_def, Entry.unowned]
  rw [children, children s, same id]

theorem Same.label {s t : Store} (same : Same s t) : t.label = s.label := by
  funext id
  have := same id
  cases found : s.entries[id]? with
  | none =>
    rw [found] at this
    simp [Store.label, found, Option.map_eq_none_iff.1 this]
  | some e =>
    rw [found] at this
    obtain ⟨e', found', unowned⟩ := Option.map_eq_some_iff.1 this
    change e'.unowned = e.unowned at unowned
    have kind : e'.kind = e.kind := congrArg (·.kind) unowned
    have span : e'.span = e.span := congrArg (·.span) unowned
    simp [Store.label, found, found', kind, span]

theorem Same.refl (s : Store) : Same s s := fun _ => rfl

theorem Same.trans {s t r : Store} (first : Same s t) (second : Same t r) : Same s r :=
  fun j => (second j).trans (first j)

/-! ### Adopting children -/

/-- What adopting the children `cs` for `parent` can do to a store: nothing but give an owner
`parent` to nodes listed in `cs` that had none. -/
structure Adopts (s t : Store) (parent : Nat) (cs : List (Slot Nat)) : Prop where
  size : t.entries.size = s.entries.size
  same : Same s t
  owners : ∀ j, t.ownerOf j = s.ownerOf j ∨
    (s.ownerOf j = none ∧ t.ownerOf j = some parent ∧ .node j ∈ cs)

theorem Adopts.refl (s : Store) (parent : Nat) (cs : List (Slot Nat)) : Adopts s s parent cs :=
  ⟨rfl, Same.refl s, fun _ => .inl rfl⟩

theorem Adopts.trans {s t r : Store} {parent : Nat} {cs ds : List (Slot Nat)}
    (first : Adopts s t parent cs) (second : Adopts t r parent ds) :
    Adopts s r parent (cs ++ ds) := by
  refine ⟨second.size.trans first.size, first.same.trans second.same, fun j => ?_⟩
  rcases first.owners j with kept | ⟨none₁, set₁, listed⟩ <;>
    rcases second.owners j with kept' | ⟨none₂, set₂, listed'⟩
  · exact .inl (kept'.trans kept)
  · exact .inr ⟨kept ▸ none₂, set₂, List.mem_append_right cs listed'⟩
  · exact .inr ⟨none₁, kept'.trans set₁, List.mem_append_left ds listed⟩
  · rw [set₁] at none₂
    cases none₂

theorem getElem?_set (s : Store) {id : Nat} {e : Entry} (found : s.entries[id]? = some e)
    (parent j : Nat) :
    (s.entries.set! id { e with owner := some parent })[j]? =
      if id = j then some { e with owner := some parent } else s.entries[j]? := by
  have inside : id < s.entries.size := (Array.getElem?_eq_some_iff.1 found).1
  simp [Array.set!_eq_setIfInBounds, Array.getElem?_setIfInBounds, inside]

theorem ownerOf_set (s : Store) {id : Nat} {e : Entry} (found : s.entries[id]? = some e)
    (parent j : Nat) :
    ({ s with entries := s.entries.set! id { e with owner := some parent } } : Store).ownerOf j =
      if id = j then some parent else s.ownerOf j := by
  simp only [ownerOf]
  rw [getElem?_set s found]
  by_cases here : id = j <;> simp [here]

/-- Giving one listed node without an owner the owner `parent`. -/
theorem adopts_set (s : Store) {id : Nat} {e : Entry} (found : s.entries[id]? = some e)
    (free : e.owner = none) (parent : Nat) :
    Adopts s { s with entries := s.entries.set! id { e with owner := some parent } } parent
      [.node id] := by
  refine ⟨by simp [Array.set!_eq_setIfInBounds], fun j => ?_, fun j => ?_⟩
  · rw [getElem?_set s found]
    by_cases here : id = j
    · subst here
      simp only [if_true, found]
      rfl
    · simp [here]
  · rw [ownerOf_set s found]
    by_cases here : id = j
    · subst here
      exact .inr ⟨by simp [ownerOf, found, free], by simp, by simp⟩
    · exact .inl (by simp [here])

/-- An owner once given stays. -/
theorem Adopts.keeps {s t : Store} {parent : Nat} {cs : List (Slot Nat)}
    (adopts : Adopts s t parent cs) {j o : Nat} (owned : s.ownerOf j = some o) :
    t.ownerOf j = some o := by
  rcases adopts.owners j with same | ⟨free, -, -⟩
  · rw [same, owned]
  · rw [owned] at free
    cases free

theorem adopts_adopt (s : Store) (parent : Nat) (cs : List (Slot Nat)) :
    Adopts s (s.adopt parent cs).1 parent cs := by
  induction cs generalizing s with
  | nil => exact Adopts.refl s parent []
  | cons slot rest ih =>
    cases slot with
    | atom a =>
      simpa [adopt] using (Adopts.refl s parent [.atom a]).trans (ih s)
    | node id =>
      rcases found : s.entries[id]? with _ | e
      · simpa [adopt, found] using (Adopts.refl s parent [.node id]).trans (ih s)
      · rcases owned : e.owner with _ | o
        · simpa [adopt, found, owned] using (adopts_set s found owned parent).trans (ih _)
        · simpa [adopt, found, owned] using Adopts.refl s parent (.node id :: rest)

/-- An adoption that meets no owner leaves every listed node of the store, owned by no one
before, owned by the parent. -/
theorem adopt_owns (s : Store) (parent : Nat) (cs : List (Slot Nat))
    (adopted : (s.adopt parent cs).2 = none) :
    ∀ j, .node j ∈ cs → j < s.entries.size →
      s.ownerOf j = none ∧ (s.adopt parent cs).1.ownerOf j = some parent := by
  induction cs generalizing s with
  | nil => simp
  | cons slot rest ih =>
    cases slot with
    | atom a =>
      simp only [adopt] at adopted ⊢
      intro j listed inside
      exact ih s adopted j (by simpa using listed) inside
    | node id =>
      intro j listed inside
      rcases found : s.entries[id]? with _ | e
      · simp only [adopt, found] at adopted ⊢
        have other : j ≠ id := by
          rintro rfl
          exact absurd found (by simp [inside])
        exact ih s adopted j (by simpa [other] using listed) inside
      · rcases owned : e.owner with _ | o
        · simp only [adopt, found, owned] at adopted ⊢
          have rest_adopts := adopts_adopt
            ({ s with entries := s.entries.set! id { e with owner := some parent } } : Store)
            parent rest
          by_cases here : id = j
          · subst here
            refine ⟨by simp [ownerOf, found, owned], rest_adopts.keeps ?_⟩
            rw [ownerOf_set s found, if_pos rfl]
          · have later := ih _ adopted j (by simpa [Ne.symm here] using listed)
              (by simpa [Array.set!_eq_setIfInBounds] using inside)
            rw [ownerOf_set s found, if_neg here] at later
            exact later
        · simp [adopt, found, owned] at adopted

/-- An adoption that meets no owner meets no listed node twice. -/
theorem adopt_nodup (s : Store) (parent : Nat) (cs : List (Slot Nat))
    (present : ∀ j, .node j ∈ cs → j < s.entries.size) (adopted : (s.adopt parent cs).2 = none) :
    (cs.filterMap Slot.position).Nodup := by
  induction cs generalizing s with
  | nil => simp
  | cons slot rest ih =>
    cases slot with
    | atom a =>
      simp only [adopt] at adopted
      simp only [List.filterMap_cons, Slot.position]
      exact ih s (fun j listed => present j (by simp [listed])) adopted
    | node id =>
      have inside := present id (by simp)
      obtain ⟨e, found⟩ : ∃ e, s.entries[id]? = some e := ⟨_, Array.getElem?_eq_getElem inside⟩
      rcases owned : e.owner with _ | o
      · simp only [adopt, found, owned] at adopted
        have sized : ∀ j, .node j ∈ rest →
            j < (s.entries.set! id { e with owner := some parent }).size := by
          intro j listed
          simpa [Array.set!_eq_setIfInBounds] using present j (by simp [listed])
        refine List.nodup_cons.2 ⟨fun again => ?_, ih _ sized adopted⟩
        -- a second listing of `id` would meet the owner just given
        obtain ⟨free, -⟩ := adopt_owns _ parent rest adopted id
          (by simpa using again) (sized id (by simpa using again))
        rw [ownerOf_set s found, if_pos rfl] at free
        cases free
      · simp [adopt, found, owned] at adopted

/-- An adoption that meets an owner names the node met and its owner: an owner it had before, or
the parent itself when the node is listed twice. -/
theorem adopt_clash (s : Store) (parent : Nat) (cs : List (Slot Nat)) {m : Malformed}
    (clash : (s.adopt parent cs).2 = some m) :
    ∃ c o, .node c ∈ cs ∧ m = .owned (s.label c) (s.label o) ∧
      (s.ownerOf c = some o ∨ (o = parent ∧ 2 ≤ (cs.filterMap Slot.position).count c)) := by
  induction cs generalizing s with
  | nil => simp [adopt] at clash
  | cons slot rest ih =>
    cases slot with
    | atom a =>
      simp only [adopt] at clash
      obtain ⟨c, o, listed, named, why⟩ := ih s clash
      simp only [List.filterMap_cons, Slot.position]
      exact ⟨c, o, by simp [listed], named, why⟩
    | node id =>
      -- a second listing found in the rest is a second listing in the whole list
      have counted : ∀ c, 2 ≤ (rest.filterMap Slot.position).count c →
          2 ≤ ((Slot.node id :: rest).filterMap Slot.position).count c := by
        intro c twice
        simp only [List.filterMap_cons, Slot.position]
        exact le_trans twice List.count_le_count_cons
      rcases found : s.entries[id]? with _ | e
      · simp only [adopt, found] at clash
        obtain ⟨c, o, listed, named, why⟩ := ih s clash
        refine ⟨c, o, by simp [listed], named, ?_⟩
        rcases why with owner | ⟨rfl, twice⟩
        · exact .inl owner
        · exact .inr ⟨rfl, counted c twice⟩
      · rcases owned : e.owner with _ | o
        · simp only [adopt, found, owned] at clash
          obtain ⟨c, o, listed, named, why⟩ := ih _ clash
          have labels := (adopts_set s found owned parent).same.label
          refine ⟨c, o, by simp [listed], by rw [named, labels], ?_⟩
          rcases why with owner | ⟨rfl, twice⟩
          · rw [ownerOf_set s found] at owner
            by_cases here : id = c
            · subst here
              -- met again: the first listing gave it the parent as owner
              simp only [if_true, Option.some_inj] at owner
              refine .inr ⟨owner.symm, ?_⟩
              have once : 1 ≤ (rest.filterMap Slot.position).count id :=
                List.one_le_count_iff.2 (by simpa using listed)
              simp only [List.filterMap_cons, Slot.position, List.count_cons_self]
              omega
            · rw [if_neg here] at owner
              exact .inl owner
          · exact .inr ⟨rfl, counted _ twice⟩
        · simp only [adopt, found, owned, Option.some_inj] at clash
          exact ⟨id, o, by simp, clash.symm, .inl (by simp [ownerOf, found, owned])⟩

/-! ### One construction -/

/-- The store with a new node added after the others, owned by no one. -/
def started (s : Store) (kind : Kind) (children : List (Slot Nat)) (sp : Span)
    (loc : List (String × Span)) : Store :=
  { s with entries := s.entries.push { kind, children, span := sp, loc, owner := none } }

section Started

variable (s : Store) (kind : Kind) (children : List (Slot Nat)) (sp : Span)
  (loc : List (String × Span))

theorem size_started : (s.started kind children sp loc).entries.size = s.entries.size + 1 := by
  simp [started]

theorem ownerOf_started (j : Nat) : (s.started kind children sp loc).ownerOf j = s.ownerOf j := by
  simp only [ownerOf, started, Array.getElem?_push]
  split_ifs with here
  · subst here
    simp
  · rfl

theorem getElem?_started_of_lt {j : Nat} (inside : j < s.entries.size) :
    (s.started kind children sp loc).entries[j]? = s.entries[j]? := by
  simp [started, Array.getElem?_push, Nat.ne_of_lt inside]

theorem childIds_started_self :
    (s.started kind children sp loc).childIds s.entries.size = children.filterMap Slot.position := by
  simp [childIds, started]

end Started

/-- A construction that passes the shape check adds the node and adopts its children, and
succeeds with the new node's position exactly when the adoption meets no owner. -/
theorem construct_started (s : Store) (kind : Kind) (children : List (Slot Nat)) (sp : Span)
    (loc : List (String × Span)) (shaped : shapeCheck kind (children.map s.part) = none) :
    (s.construct kind children (some sp) loc).1 =
        ((s.started kind children sp loc).adopt s.entries.size children).1 ∧
      (s.construct kind children (some sp) loc).2 =
        ((s.started kind children sp loc).adopt s.entries.size children).2.elim
          (.ok s.entries.size) .error := by
  constructor <;>
  · simp only [construct, shaped, started]
    split <;> rename_i adopted <;> simp [adopted]

/-- **A construction, step by step.** It fails at once, leaving the store as it was, or it passes
the shape check and goes on as `construct_started` says. -/
theorem construct_cases (s : Store) (kind : Kind) (children : List (Slot Nat))
    (span : Option Span) (loc : List (String × Span)) :
    ((s.construct kind children span loc).1 = s ∧
      ∃ m, (s.construct kind children span loc).2 = .error m) ∨
    ∃ sp, span = some sp ∧ shapeCheck kind (children.map s.part) = none ∧
      (s.construct kind children span loc).1 =
        ((s.started kind children sp loc).adopt s.entries.size children).1 ∧
      (s.construct kind children span loc).2 =
        ((s.started kind children sp loc).adopt s.entries.size children).2.elim
          (.ok s.entries.size) .error := by
  rcases span with _ | sp
  · exact .inl ⟨rfl, _, rfl⟩
  · rcases shaped : shapeCheck kind (children.map s.part) with _ | failure
    · exact .inr ⟨sp, rfl, rfl, construct_started s kind children sp loc shaped⟩
    · exact .inl ⟨by simp [construct, shaped], failure, by simp [construct, shaped]⟩

/-- **Owners are given once, by the constructor of a node that lists them.** A construction
keeps every owner, and gives an owner only to a node that had none, listed among the new
node's children, the new node itself being the owner. -/
theorem ownerOf_construct (s : Store) (kind : Kind) (children : List (Slot Nat))
    (span : Option Span) (loc : List (String × Span)) (j : Nat) :
    (s.construct kind children span loc).1.ownerOf j = s.ownerOf j ∨
      (s.ownerOf j = none ∧ (s.construct kind children span loc).1.ownerOf j = some s.entries.size ∧
        .node j ∈ children) := by
  rcases construct_cases s kind children span loc with ⟨same, -⟩ | ⟨sp, -, -, store, -⟩
  · exact .inl (by rw [same])
  · rw [store, ← ownerOf_started s kind children sp loc j]
    exact (adopts_adopt _ _ _).owners j

/-! ### Histories -/

/-- The stores a history of constructions leaves, each construction succeeding or failing, with
the positions of the nodes built so far. Each construction takes as children nodes built
before: the values a construction hands out. -/
inductive Reached : Store → List Nat → Prop
  | empty : Reached {} []
  | construct {s : Store} {built : List Nat} (kind : Kind) (children : List (Slot Nat))
      (span : Option Span) (loc : List (String × Span)) :
      Reached s built → (∀ id, .node id ∈ children → id ∈ built) →
      Reached (s.construct kind children span loc).1
        (built ++ (s.construct kind children span loc).2.toOption.toList)

/-- Owners form a forest over the store: an owner comes after the node it owns and lists it,
and each built node owns its children, listed once, all built. -/
structure Forest (s : Store) (built : List Nat) : Prop where
  owner_after : ∀ id p, s.ownerOf id = some p → id < p ∧ p < s.entries.size ∧ id ∈ s.childIds p
  built_lt : ∀ P ∈ built, P < s.entries.size
  children_built : ∀ P ∈ built, ∀ c ∈ s.childIds P, c ∈ built
  children_owned : ∀ P ∈ built, ∀ c ∈ s.childIds P, s.ownerOf c = some P
  children_nodup : ∀ P ∈ built, (s.childIds P).Nodup

theorem Forest.empty : Forest {} [] :=
  ⟨fun _ _ owned => by simp [ownerOf] at owned, by simp, by simp, by simp, by simp⟩

/-- A forest grows by a node of the store whose children are built, owned by it and listed
once. -/
theorem Forest.snoc {s : Store} {built : List Nat} (forest : Forest s built) {P : Nat}
    (inside : P < s.entries.size) (childrenBuilt : ∀ c ∈ s.childIds P, c ∈ built)
    (owned : ∀ c ∈ s.childIds P, s.ownerOf c = some P) (nodup : (s.childIds P).Nodup) :
    Forest s (built ++ [P]) := by
  refine ⟨forest.owner_after, ?_, ?_, ?_, ?_⟩ <;> simp only [List.mem_append, List.mem_singleton]
  · rintro Q (member | rfl)
    · exact forest.built_lt Q member
    · exact inside
  · rintro Q (member | rfl) c listed
    · exact .inl (forest.children_built Q member c listed)
    · exact .inl (childrenBuilt c listed)
  · rintro Q (member | rfl)
    · exact forest.children_owned Q member
    · exact owned
  · rintro Q (member | rfl)
    · exact forest.children_nodup Q member
    · exact nodup

/-- One construction from built nodes keeps the forest. -/
theorem Forest.construct {s : Store} {built : List Nat} (forest : Forest s built)
    (kind : Kind) (children : List (Slot Nat)) (span : Option Span) (loc : List (String × Span))
    (refs : ∀ id, .node id ∈ children → id ∈ built) :
    Forest (s.construct kind children span loc).1
      (built ++ (s.construct kind children span loc).2.toOption.toList) := by
  rcases construct_cases s kind children span loc with ⟨same, m, failed⟩ |
    ⟨sp, -, -, store, result⟩
  · rw [same, failed]
    simpa [Except.toOption] using forest
  rw [store, result]
  -- the new node takes the next position; the nodes before it keep their children
  generalize started : s.started kind children sp loc = t
  have adopts := adopts_adopt t s.entries.size children
  have sized : t.entries.size = s.entries.size + 1 := by rw [← started, size_started]
  have present : ∀ id, .node id ∈ children → id < s.entries.size :=
    fun id listed => forest.built_lt id (refs id listed)
  have old : ∀ P, P < s.entries.size →
      (t.adopt s.entries.size children).1.childIds P = s.childIds P := by
    intro P inside
    rw [adopts.same.childIds, ← started]
    simp [childIds, getElem?_started_of_lt s kind children sp loc inside]
  have new : (t.adopt s.entries.size children).1.childIds s.entries.size =
      children.filterMap Slot.position := by
    rw [adopts.same.childIds, ← started, childIds_started_self]
  have owners : ∀ j, t.ownerOf j = s.ownerOf j := by
    intro j
    rw [← started, ownerOf_started]
  have kept : ∀ j o, s.ownerOf j = some o → (t.adopt s.entries.size children).1.ownerOf j = some o :=
    fun j o owned => adopts.keeps (by rw [owners, owned])
  have owner_after : ∀ id p, (t.adopt s.entries.size children).1.ownerOf id = some p →
      id < p ∧ p < (t.adopt s.entries.size children).1.entries.size ∧
        id ∈ (t.adopt s.entries.size children).1.childIds p := by
    intro id p owned
    rw [adopts.size, sized]
    rcases adopts.owners id with same | ⟨-, given, listed⟩
    · rw [same, owners] at owned
      obtain ⟨before, inside, listed⟩ := forest.owner_after id p owned
      exact ⟨before, by omega, by rwa [old p inside]⟩
    · rw [given, Option.some_inj] at owned
      subst owned
      exact ⟨present id listed, by omega, by simpa [new] using listed⟩
  -- the nodes built before keep their children and owners
  have grown : Forest (t.adopt s.entries.size children).1 built := by
    refine ⟨owner_after, fun P member => ?_, fun P member c listed => ?_,
      fun P member c listed => ?_, fun P member => ?_⟩
    · have := forest.built_lt P member
      rw [adopts.size, sized]
      omega
    · rw [old P (forest.built_lt P member)] at listed
      exact forest.children_built P member c listed
    · rw [old P (forest.built_lt P member)] at listed
      exact kept c P (forest.children_owned P member c listed)
    · rw [old P (forest.built_lt P member)]
      exact forest.children_nodup P member
  rcases adopted : (t.adopt s.entries.size children).2 with _ | failure
  · -- success: the new node is built and owns its children
    have owns := adopt_owns t s.entries.size children adopted
    have fresh : ∀ j, .node j ∈ children → j < t.entries.size := fun j listed => by
      rw [sized]
      exact Nat.lt_succ_of_lt (present j listed)
    simp only [Option.elim, Except.toOption, Option.toList]
    refine grown.snoc (by rw [adopts.size, sized]; omega) (fun c listed => ?_)
      (fun c listed => ?_) (by rw [new]; exact adopt_nodup t s.entries.size children fresh adopted)
    · rw [new] at listed
      exact refs c (by simpa using listed)
    · rw [new] at listed
      have listed : .node c ∈ children := by simpa using listed
      exact (owns c listed (fresh c listed)).2
  · -- failure: nothing more is built
    simpa [Option.elim, Except.toOption] using grown

/-- Every history leaves a forest. -/
theorem Reached.forest {s : Store} {built : List Nat} (reached : Reached s built) :
    Forest s built := by
  induction reached with
  | empty => exact Forest.empty
  | construct kind children span loc _ refs ih => exact ih.construct kind children span loc refs

/-! ### Subtrees -/

/-- Following owners from `a` reaches `b`. -/
inductive Reaches (s : Store) : Nat → Nat → Prop
  | refl (a : Nat) : Reaches s a a
  | up {a p b : Nat} : s.ownerOf a = some p → Reaches s p b → Reaches s a b

/-- Two nodes an owner chain reaches lie on one chain: one reaches the other. -/
theorem Reaches.linear {s : Store} {a b c : Nat} (first : Reaches s a b) (second : Reaches s a c) :
    Reaches s b c ∨ Reaches s c b := by
  induction first generalizing c with
  | refl a => exact .inl second
  | @up a p b owned _ ih =>
    cases second with
    | refl => exact .inr (.up owned ‹_›)
    | up owned' rest =>
      rw [owned, Option.some_inj] at owned'
      subst owned'
      exact ih rest

theorem Reaches.trans {s : Store} {a b c : Nat} (first : Reaches s a b)
    (second : Reaches s b c) : Reaches s a c := by
  induction first with
  | refl => exact second
  | up owned _ ih => exact .up owned (ih second)

section Forest

variable {s : Store} {built : List Nat} (forest : Forest s built)
include forest

/-- Owner chains climb. -/
theorem Forest.le_of_reaches {a b : Nat} (reaches : Reaches s a b) : a ≤ b := by
  induction reaches with
  | refl => exact le_refl _
  | up owned _ ih => exact le_trans (forest.owner_after _ _ owned).1.le ih

/-- Every node below a built node reaches it through owners. -/
theorem Forest.reaches_of_mem_below (depth : Nat) :
    ∀ P ∈ built, ∀ y ∈ s.below depth P, Reaches s y P := by
  induction depth with
  | zero => simp [below]
  | succ depth ih =>
    intro P member y listed
    simp only [below, List.mem_cons, List.mem_flatMap] at listed
    rcases listed with rfl | ⟨c, child, below⟩
    · exact .refl y
    · have reaches := ih c (forest.children_built P member c child) y below
      exact reaches.trans (.up (forest.children_owned P member c child) (.refl P))

/-- Two children of a built node are on no common chain: each chain from a child goes up to the
parent, which comes after both. -/
theorem Forest.not_reaches_sibling {P a b : Nat} (member : P ∈ built) (ha : a ∈ s.childIds P)
    (hb : b ∈ s.childIds P) (other : a ≠ b) : ¬ Reaches s a b := by
  intro reaches
  cases reaches with
  | refl => exact other rfl
  | up owned rest =>
    rw [forest.children_owned P member a ha, Option.some_inj] at owned
    subst owned
    have above := forest.le_of_reaches rest
    have below := (forest.owner_after b P (forest.children_owned P member b hb)).1
    omega

/-- **Owner chains end.** Following owners from any node reaches a node with no owner: each
owner comes after the node it owns. -/
theorem Forest.exists_root (id : Nat) : ∃ top, Reaches s id top ∧ s.ownerOf top = none := by
  induction hd : s.entries.size - id using Nat.strong_induction_on generalizing id with
  | _ d ih =>
    rcases owned : s.ownerOf id with _ | p
    · exact ⟨id, .refl id, owned⟩
    · obtain ⟨after, inside, -⟩ := forest.owner_after id p owned
      obtain ⟨top, reaches, root⟩ := ih (s.entries.size - p) (by omega) p rfl
      exact ⟨top, .up owned reaches, root⟩

/-- **No node occurs twice below a built node**, down to any depth. -/
theorem Forest.nodup_below (depth : Nat) : ∀ P ∈ built, (s.below depth P).Nodup := by
  induction depth with
  | zero => simp [below]
  | succ depth ih =>
    intro P member
    simp only [below]
    refine List.nodup_cons.2 ⟨?_, List.nodup_flatMap.2 ⟨?_, ?_⟩⟩
    · -- the node comes after everything below its children
      simp only [List.mem_flatMap, not_exists, not_and]
      intro c child listed
      have reaches := forest.reaches_of_mem_below depth c (forest.children_built P member c child)
        P listed
      have above := forest.le_of_reaches reaches
      have before := (forest.owner_after c P (forest.children_owned P member c child)).1
      omega
    · exact fun c child => ih c (forest.children_built P member c child)
    · -- what lies below two children lies on no common chain
      refine (forest.children_nodup P member).pairwise_of_forall_ne fun a ha b hb other => ?_
      intro y below_a below_b
      have to_a := forest.reaches_of_mem_below depth a (forest.children_built P member a ha) y below_a
      have to_b := forest.reaches_of_mem_below depth b (forest.children_built P member b hb) y below_b
      rcases to_a.linear to_b with ab | ba
      · exact forest.not_reaches_sibling member ha hb other ab
      · exact forest.not_reaches_sibling member hb ha (Ne.symm other) ba

end Forest

/-! ### Nodes given twice -/

/-- **A node given a second parent stops the construction.** Building a node whose children, all
in the store, include one that already has an owner or one listed twice fails with a malformed
tree naming such a child and its owner, the owner being the new node for a repeated child. -/
theorem construct_owned (s : Store) (kind : Kind) (children : List (Slot Nat)) (sp : Span)
    (loc : List (String × Span)) (shaped : shapeCheck kind (children.map s.part) = none)
    (present : ∀ id, .node id ∈ children → id < s.entries.size)
    (clash : ∃ c, .node c ∈ children ∧
      (s.ownerOf c ≠ none ∨ 2 ≤ (children.filterMap Slot.position).count c)) :
    ∃ c o, (s.construct kind children (some sp) loc).2 =
        .error (.owned ((s.construct kind children (some sp) loc).1.label c)
          ((s.construct kind children (some sp) loc).1.label o)) ∧
      .node c ∈ children ∧
      (s.ownerOf c = some o ∨
        (o = s.entries.size ∧ 2 ≤ (children.filterMap Slot.position).count c)) := by
  obtain ⟨store, result⟩ := construct_started s kind children sp loc shaped
  generalize started : s.started kind children sp loc = t at store result
  have adopts := adopts_adopt t s.entries.size children
  have owners : ∀ j, t.ownerOf j = s.ownerOf j := by
    intro j
    rw [← started, ownerOf_started]
  rcases adopted : (t.adopt s.entries.size children).2 with _ | m
  · -- an adoption that meets no owner contradicts the clash
    exfalso
    obtain ⟨c, listed, owned | twice⟩ := clash
    · have := (adopt_owns t s.entries.size children adopted c listed (by
        rw [← started, size_started]
        exact Nat.lt_succ_of_lt (present c listed))).1
      rw [owners] at this
      exact owned this
    · have nodup := adopt_nodup t s.entries.size children (fun j listed => by
        rw [← started, size_started]
        exact Nat.lt_succ_of_lt (present j listed)) adopted
      have := List.nodup_iff_count_le_one.1 nodup c
      omega
  · obtain ⟨c, o, listed, named, why⟩ := adopt_clash t s.entries.size children adopted
    refine ⟨c, o, ?_, listed, by rwa [owners] at why⟩
    rw [result, store, adopted, named, adopts.same.label]
    rfl

/-- **Parent links over every history of constructions.** A construction gives an owner only
to a node without one, listed among the new node's children, the new node being the owner; so
an owner is given once and never changes. After any history of constructions, each from nodes
built before and each succeeding or failing: an owner comes after the node it owns and lists it,
and following owners from any node ends; every built node owns each of its children; and no
node occurs twice below a built node. A construction from nodes in the store, one of which
already has an owner or is listed twice, fails naming that child and its owner. Only nodes built
before may be taken: a failed construction still owns the children it linked before failing,
and taking it repeats them below a built node (`aborted_node_repeats_below`). -/
theorem construction_history (s : Store) (built : List Nat) :
    (∀ (kind : Kind) (children : List (Slot Nat)) (span : Option Span)
        (loc : List (String × Span)) (j : Nat),
      (s.construct kind children span loc).1.ownerOf j = s.ownerOf j ∨
        (s.ownerOf j = none ∧
          (s.construct kind children span loc).1.ownerOf j = some s.entries.size ∧
          .node j ∈ children)) ∧
    (Reached s built →
      (∀ id p, s.ownerOf id = some p → id < p ∧ id ∈ s.childIds p) ∧
      (∀ id, ∃ top, Reaches s id top ∧ s.ownerOf top = none) ∧
      (∀ P ∈ built, ∀ c ∈ s.childIds P, s.ownerOf c = some P) ∧
      (∀ P ∈ built, ∀ depth, (s.below depth P).Nodup)) ∧
    (∀ (kind : Kind) (children : List (Slot Nat)) (sp : Span) (loc : List (String × Span)),
      shapeCheck kind (children.map s.part) = none →
      (∀ id, .node id ∈ children → id < s.entries.size) →
      (∃ c, .node c ∈ children ∧
        (s.ownerOf c ≠ none ∨ 2 ≤ (children.filterMap Slot.position).count c)) →
      ∃ c o, (s.construct kind children (some sp) loc).2 =
          .error (.owned ((s.construct kind children (some sp) loc).1.label c)
            ((s.construct kind children (some sp) loc).1.label o)) ∧
        (Malformed.owned ((s.construct kind children (some sp) loc).1.label c)
            ((s.construct kind children (some sp) loc).1.label o)).message =
          (s.construct kind children (some sp) loc).1.label c ++ " already belongs to " ++
            (s.construct kind children (some sp) loc).1.label o ∧
        .node c ∈ children ∧
        (s.ownerOf c = some o ∨
          (o = s.entries.size ∧ 2 ≤ (children.filterMap Slot.position).count c))) := by
  refine ⟨ownerOf_construct s, fun reached => ?_, fun kind children sp loc shaped present clash =>
    ?_⟩
  · have forest := reached.forest
    exact ⟨fun id p owned => ⟨(forest.owner_after id p owned).1, (forest.owner_after id p owned).2.2⟩,
      forest.exists_root, forest.children_owned, fun P member depth => forest.nodup_below depth P member⟩
  · obtain ⟨c, o, failed, listed, why⟩ := construct_owned s kind children sp loc shaped present clash
    exact ⟨c, o, failed, rfl, listed, why⟩

/-- A variable built into an array, then given to a second array. -/
theorem construction_history_reuse :
    let first := ({} : Store).construct .lvar [.atom (.text "x")]
      (some ⟨1, 2, Nat.le_of_ble_eq_true rfl⟩) []
    let second := first.1.construct .array [.node 0] (some ⟨0, 3, Nat.le_of_ble_eq_true rfl⟩) []
    Reached second.1 [0, 1] ∧
      (∀ P ∈ [0, 1], ∀ c ∈ second.1.childIds P, second.1.ownerOf c = some P) ∧
      (∀ P ∈ [0, 1], ∀ depth, (second.1.below depth P).Nodup) ∧
      shapeCheck .array ([Slot.node 0].map second.1.part) = none ∧
      ∃ c o, (second.1.construct .array [.node 0] (some ⟨0, 3, Nat.le_of_ble_eq_true rfl⟩) []).2 =
        .error (.owned ((second.1.construct .array [.node 0]
            (some ⟨0, 3, Nat.le_of_ble_eq_true rfl⟩) []).1.label c)
          ((second.1.construct .array [.node 0] (some ⟨0, 3, Nat.le_of_ble_eq_true rfl⟩) []).1.label o)) := by
  intro first second
  have reached : Reached second.1 [0, 1] :=
    Reached.construct .array [.node 0] _ [] (Reached.construct .lvar [.atom (.text "x")] _ []
      Reached.empty (by simp)) (by simp; decide)
  have shaped : shapeCheck .array ([Slot.node 0].map second.1.part) = none := by decide
  obtain ⟨-, -, owned, nodup⟩ := (construction_history second.1 [0, 1]).2.1 reached
  obtain ⟨c, o, failed, -⟩ := (construction_history second.1 [0, 1]).2.2 .array [.node 0] _ [] shaped
    (by simp; decide) ⟨0, by simp, .inl (by decide)⟩
  exact ⟨reached, owned, nodup, shaped, c, o, failed⟩

/-- **An aborted node handed on repeats a node below a built one.** An array listing a variable
twice takes the variable at the first listing and fails at the second; the variable's owner is
then the aborted array. A construction given that owner succeeds, and the variable occurs twice
below the node it builds. -/
theorem aborted_node_repeats_below :
    let single := ({} : Store).construct .lvar [.atom (.text "a")]
      (some ⟨0, 1, Nat.le_of_ble_eq_true rfl⟩) []
    let array := single.1.construct .array [.node 0, .node 0]
      (some ⟨0, 3, Nat.le_of_ble_eq_true rfl⟩) []
    let outer := array.1.construct .begin [.node 1] (some ⟨0, 3, Nat.le_of_ble_eq_true rfl⟩) []
    single.2 = .ok 0 ∧ array.2.toOption = none ∧ array.1.ownerOf 0 = some 1 ∧
      outer.2 = .ok 2 ∧ outer.1.childIds 1 = [0, 0] ∧ outer.1.below 3 2 = [2, 1, 0, 0] ∧
      ¬ (outer.1.below 3 2).Nodup := by
  intro single array outer
  have below : outer.1.below 3 2 = [2, 1, 0, 0] := by decide
  refine ⟨rfl, rfl, rfl, rfl, by decide, below, ?_⟩
  rw [below]
  decide

end Store
end RubyCheck.Tree
