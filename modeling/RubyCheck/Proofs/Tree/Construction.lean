import RubyCheck.Proofs.Tree.Ownership
import RubyCheck.Proofs.Tree.Readers

/-!
# Building one node

**A construction succeeds exactly when the node has a span, a child count within its kind's
bounds, children that follow its kind's shape rule, and node children that have no owner and are
listed once. Otherwise it fails with the first of these checks that fails, in that order, the
last one child by child from the left. The node built can be read as its kind says. A
construction that fails at a child leaves the node children before that child owned by the
aborted node; every other owner stays as it was.**

Taking the children is where a construction can fail after changing the store: each node child
is given the new node as its owner before the next one is looked at, so the children taken
before one that already has an owner keep the aborted node as theirs.

* `Store.Free`, `Store.StopsAt`, `Store.Took`: node children that can be taken, the first that
  cannot, and the owners once children are taken;
* `Store.adopt_of_free`, `Store.adopt_of_stop`: taking children that can be taken, and taking
  them up to the first that cannot, with the owner that child is reported with;
* `Store.free_or_stop`: children can all be taken, or a first one cannot;
* `Store.construct_of_free`, `Store.construct_of_stop`: a construction past its shape check;
* `Store.construct_eq_ok_iff`, `Store.construct_reports`: when a construction succeeds, and what
  it reports when it does not;
* `Store.tree_construct`: the node a construction builds passes its own check;
* `Store.construct_then_read`: the whole of it, with what the readers answer on the node built;
* `Store.construct_failure_owners`: what a failed construction leaves of the owners.
-/

namespace RubyCheck.Tree

open RubyCheck.Source

namespace Store

/-! ### Children that can be taken -/

/-- Node children a construction can take: each has no owner and is listed once. -/
def Free (s : Store) (cs : List (Slot Nat)) : Prop :=
  (∀ id, .node id ∈ cs → s.ownerOf id = none) ∧ (cs.filterMap Slot.position).Nodup

/-- Whether taking children stops at the node `c` after the children `pre`: `c` has an owner,
or it was taken already. -/
def StopsAt (s : Store) (pre : List (Slot Nat)) (c : Nat) : Prop :=
  s.ownerOf c ≠ none ∨ .node c ∈ pre

/-- The owners after taking the children `cs` for `parent`: each node listed has the owner
`parent`, and every other node keeps its owner. -/
structure Took (t t' : Store) (parent : Nat) (cs : List (Slot Nat)) : Prop where
  taken : ∀ j, .node j ∈ cs → t'.ownerOf j = some parent
  kept : ∀ j, .node j ∉ cs → t'.ownerOf j = t.ownerOf j

section Free

variable {s : Store}

@[simp] theorem free_nil : s.Free [] := ⟨by simp, List.nodup_nil⟩

@[simp] theorem free_cons_atom {a : Atom} {cs : List (Slot Nat)} :
    s.Free (.atom a :: cs) ↔ s.Free cs := by
  simp [Free, Slot.position, List.filterMap_cons]

theorem mem_positions {id : Nat} {cs : List (Slot Nat)} :
    id ∈ cs.filterMap Slot.position ↔ .node id ∈ cs := by
  simp [List.mem_filterMap]

theorem free_cons_node {id : Nat} {cs : List (Slot Nat)} :
    s.Free (.node id :: cs) ↔ s.ownerOf id = none ∧ .node id ∉ cs ∧ s.Free cs := by
  have positions : (Slot.node id :: cs).filterMap Slot.position =
      id :: cs.filterMap Slot.position := rfl
  simp only [Free, positions, List.nodup_cons, mem_positions, List.mem_cons, Slot.node.injEq,
    forall_eq_or_imp]
  tauto

@[simp] theorem stopsAt_cons_atom {a : Atom} {pre : List (Slot Nat)} {c : Nat} :
    s.StopsAt (.atom a :: pre) c ↔ s.StopsAt pre c := by
  simp [StopsAt]

/-- Children taken in a store are taken alike in one whose owners agree on them. -/
theorem Free.congr {t : Store} {cs : List (Slot Nat)} (free : s.Free cs)
    (owners : ∀ id, .node id ∈ cs → t.ownerOf id = s.ownerOf id) : t.Free cs :=
  ⟨fun id listed => (owners id listed).trans (free.1 id listed), free.2⟩

/-- Children that can all be taken stop nowhere. -/
theorem Free.not_stopsAt {pre post : List (Slot Nat)} {c : Nat}
    (free : s.Free (pre ++ .node c :: post)) : ¬ s.StopsAt pre c := by
  rintro (owned | again)
  · exact owned (free.1 c (by simp))
  · have nodup := free.2
    simp only [List.filterMap_append, List.filterMap_cons, Slot.position] at nodup
    exact List.disjoint_of_nodup_append nodup (mem_positions.2 again) List.mem_cons_self

end Free

theorem Took.nil (t : Store) (parent : Nat) : Took t t parent [] :=
  ⟨fun _ listed => by simp at listed, fun _ _ => rfl⟩

theorem Took.cons_atom {t t' : Store} {parent : Nat} {a : Atom} {cs : List (Slot Nat)}
    (took : Took t t' parent cs) : Took t t' parent (.atom a :: cs) :=
  ⟨fun j listed => took.taken j (by simpa using listed),
    fun j unlisted => took.kept j (by simpa using unlisted)⟩

/-- Owners taken from a store are taken alike from one with the same owners. -/
theorem Took.congr_left {s t t' : Store} {parent : Nat} {cs : List (Slot Nat)}
    (took : Took t t' parent cs) (owners : ∀ j, t.ownerOf j = s.ownerOf j) :
    Took s t' parent cs :=
  ⟨took.taken, fun j unlisted => (took.kept j unlisted).trans (owners j)⟩

/-- Taking a node first, from a store where it had no owner, then the rest. -/
theorem Took.cons_node {t t' : Store} {parent id : Nat} {e : Entry} {cs : List (Slot Nat)}
    (found : t.entries[id]? = some e)
    (took : Took { t with entries := t.entries.set! id { e with owner := some parent } } t'
      parent cs)
    (fresh : .node id ∉ cs) : Took t t' parent (.node id :: cs) := by
  have owners := ownerOf_set t found parent
  refine ⟨fun j listed => ?_, fun j unlisted => ?_⟩
  · rcases List.mem_cons.1 listed with same | later
    · cases same
      rw [took.kept id fresh, owners, if_pos rfl]
    · exact took.taken j later
  · have other : id ≠ j := fun same => unlisted (by simp [same])
    rw [took.kept j (fun later => unlisted (List.mem_cons_of_mem _ later)), owners, if_neg other]

/-- Taking children that can all be taken: each listed node gets the owner `parent`. -/
theorem adopt_of_free (t : Store) (parent : Nat) (cs : List (Slot Nat))
    (present : ∀ id, .node id ∈ cs → id < t.entries.size) (free : t.Free cs) :
    (t.adopt parent cs).2 = none ∧ Took t (t.adopt parent cs).1 parent cs := by
  induction cs generalizing t with
  | nil => exact ⟨rfl, Took.nil t parent⟩
  | cons slot rest ih =>
    cases slot with
    | atom a =>
      obtain ⟨none, took⟩ := ih t (fun id listed => present id (by simp [listed]))
        (free_cons_atom.1 free)
      exact ⟨none, took.cons_atom⟩
    | node id =>
      obtain ⟨unowned, fresh, rest_free⟩ := free_cons_node.1 free
      obtain ⟨e, found⟩ : ∃ e, t.entries[id]? = some e :=
        ⟨_, Array.getElem?_eq_getElem (present id (by simp))⟩
      have owner : e.owner = none := by simpa [ownerOf, found] using unowned
      -- the rest is taken from the store where `id` is owned; its owners there are unchanged
      obtain ⟨none, took⟩ := ih { t with entries := t.entries.set! id { e with owner := some parent } }
        (fun j listed => by
          simpa [Array.set!_eq_setIfInBounds] using present j (by simp [listed]))
        (rest_free.congr fun j listed => by
          rw [ownerOf_set t found, if_neg (by rintro rfl; exact fresh listed)])
      simp only [adopt, found, owner]
      exact ⟨none, Took.cons_node found took fresh⟩

/-- **Taking children up to the first that cannot be taken.** The children before it get the
owner `parent`, and taking stops, naming that child and its owner: the owner it had, or
`parent` when it was taken already. -/
theorem adopt_of_stop (t : Store) (parent : Nat) (pre post : List (Slot Nat)) (c : Nat)
    (present : ∀ id, .node id ∈ pre ++ .node c :: post → id < t.entries.size)
    (free : t.Free pre) (stop : t.StopsAt pre c) :
    (t.adopt parent (pre ++ .node c :: post)).2 =
        some (.owned (t.label c) (t.label ((t.ownerOf c).getD parent))) ∧
      Took t (t.adopt parent (pre ++ .node c :: post)).1 parent pre := by
  induction pre generalizing t with
  | nil =>
    -- nothing taken before: `c` has an owner already
    have owned : t.ownerOf c ≠ none := by simpa [StopsAt] using stop
    obtain ⟨o, hasOwner⟩ := Option.ne_none_iff_exists'.1 owned
    obtain ⟨e, found, eOwner⟩ : ∃ e, t.entries[c]? = some e ∧ e.owner = some o := by
      simpa [ownerOf, Option.bind_eq_some_iff] using hasOwner
    simp only [List.nil_append, adopt, found, eOwner, hasOwner, Option.getD_some]
    exact ⟨trivial, Took.nil t parent⟩
  | cons slot rest ih =>
    cases slot with
    | atom a =>
      obtain ⟨stopped, took⟩ := ih t (fun id listed => present id (by simp [listed]))
        (free_cons_atom.1 free) (stopsAt_cons_atom.1 stop)
      exact ⟨by simpa [adopt] using stopped, by simpa [adopt] using took.cons_atom⟩
    | node id =>
      obtain ⟨unowned, fresh, rest_free⟩ := free_cons_node.1 free
      obtain ⟨e, found⟩ : ∃ e, t.entries[id]? = some e :=
        ⟨_, Array.getElem?_eq_getElem (present id (by simp))⟩
      have owner : e.owner = none := by simpa [ownerOf, found] using unowned
      have owners := ownerOf_set t found parent
      -- `c` stops the rest too: it was just taken, or it had an owner, or it was taken before
      have stop' : StopsAt { t with entries := t.entries.set! id { e with owner := some parent } }
          rest c := by
        by_cases here : id = c
        · exact .inl (by rw [owners, if_pos here]; simp)
        · rcases stop with owned | listed
          · exact .inl (by rw [owners, if_neg here]; exact owned)
          · exact .inr (by simpa [Ne.symm here] using listed)
      obtain ⟨stopped, took⟩ := ih
        { t with entries := t.entries.set! id { e with owner := some parent } }
        (fun j listed => by simpa [Array.set!_eq_setIfInBounds] using present j (by simp [listed]))
        (rest_free.congr fun j listed => by
          rw [owners, if_neg (by rintro rfl; exact fresh listed)])
        stop'
      have labels := (adopts_set t found owner parent).same.label
      have reported : (({ t with entries := t.entries.set! id { e with owner := some parent } } :
          Store).ownerOf c).getD parent = (t.ownerOf c).getD parent := by
        by_cases here : id = c
        · rw [owners, if_pos here, ← here, unowned]
          rfl
        · rw [owners, if_neg here]
      simp only [List.cons_append, adopt, found, owner]
      exact ⟨by rw [stopped, labels, reported], Took.cons_node found took fresh⟩

/-- **Children can all be taken, or a first one cannot.** -/
theorem free_or_stop (t : Store) (cs : List (Slot Nat)) :
    t.Free cs ∨ ∃ pre c post, cs = pre ++ .node c :: post ∧ t.Free pre ∧ t.StopsAt pre c := by
  induction cs using List.reverseRecOn with
  | nil => exact .inl free_nil
  | append_singleton cs x ih =>
    rcases ih with free | ⟨pre, c, post, rfl, free, stop⟩
    · cases x with
      | atom a =>
        left
        refine ⟨fun id listed => free.1 id (by simpa using listed), ?_⟩
        simpa [List.filterMap_append, List.filterMap_cons, Slot.position] using free.2
      | node c =>
        by_cases stop : t.StopsAt cs c
        · exact .inr ⟨cs, c, [], rfl, free, stop⟩
        · left
          simp only [StopsAt, not_or, not_not] at stop
          refine ⟨fun id listed => ?_, ?_⟩
          · rcases List.mem_append.1 listed with old | new
            · exact free.1 id old
            · cases List.mem_singleton.1 new
              exact stop.1
          · simp only [List.filterMap_append, Slot.position, List.filterMap_cons,
              List.filterMap_nil]
            exact List.Nodup.append free.2 (List.nodup_singleton c)
              (List.disjoint_singleton.2 fun again => stop.2 (mem_positions.1 again))
    · exact .inr ⟨pre, c, post ++ [x], by simp, free, stop⟩

/-! ### Reading the store -/

theorem Same.part {s t : Store} (same : Same s t) : t.part = s.part := by
  funext slot
  cases slot with
  | node id =>
    have kinds := congrArg (Option.map Entry.kind) (same id)
    simp only [Option.map_map, Function.comp_def, Entry.unowned] at kinds
    simp [Store.part, kinds]
  | atom a => rfl

theorem kind_treeAt (t : Store) (depth id : Nat) :
    (t.treeAt (depth + 1) id).kind = ((t.entries[id]?).map (·.kind)).getD .nil := by
  cases found : t.entries[id]? <;> simp [treeAt, found, Node.kind]

/-- Read two levels down, a node's children show the shape rules what its children in the store
do. -/
theorem parts_treeAt (t : Store) (depth id : Nat) :
    (t.treeAt (depth + 1 + 1) id).children.map Slot.part =
      ((t.entries[id]?).map fun e => e.children.map t.part).getD [] := by
  cases found : t.entries[id]? with
  | none => simp [treeAt, found, Node.children]
  | some e =>
    simp only [treeAt, found, Node.children, List.map_map, Option.map_some, Option.getD_some]
    refine List.map_congr_left fun slot _ => ?_
    cases slot with
    | node c =>
      show Part.node (t.treeAt (depth + 1) c).kind = _
      rw [kind_treeAt]
      rfl
    | atom a => rfl

/-! ### A construction -/

section Construct

variable (s : Store) (kind : Kind) (children : List (Slot Nat)) (loc : List (String × Span))

theorem construct_of_shapeCheck {sp : Span} {m : Malformed}
    (failed : shapeCheck kind (children.map s.part) = some m) :
    s.construct kind children (some sp) loc = (s, .error m) := by
  simp [construct, failed]

variable {s kind children loc}

/-- The positions a construction's children name are positions of the store it starts. -/
theorem present_started {sp : Span} (present : ∀ id, .node id ∈ children → id < s.entries.size) :
    ∀ id, .node id ∈ children → id < (s.started kind children sp loc).entries.size :=
  fun id listed => by
    rw [size_started]
    exact Nat.lt_succ_of_lt (present id listed)

/-- **A construction whose children can all be taken succeeds** with the new node's position,
each node child now owned by the new node. -/
theorem construct_of_free {sp : Span} (present : ∀ id, .node id ∈ children → id < s.entries.size)
    (shaped : shapeCheck kind (children.map s.part) = none) (free : s.Free children) :
    (s.construct kind children (some sp) loc).2 = .ok s.entries.size ∧
      Took s (s.construct kind children (some sp) loc).1 s.entries.size children := by
  obtain ⟨store, result⟩ := construct_started s kind children sp loc shaped
  have owners := ownerOf_started s kind children sp loc
  obtain ⟨none, took⟩ := adopt_of_free (s.started kind children sp loc) s.entries.size children
    (present_started present) (free.congr fun j _ => owners j)
  rw [result, none, store]
  exact ⟨rfl, took.congr_left owners⟩

/-- **A construction stops at the first child that cannot be taken**, naming it and its owner,
the new node itself when the child was taken before; the node children before it are left
owned by the aborted node. -/
theorem construct_of_stop {sp : Span} (present : ∀ id, .node id ∈ children → id < s.entries.size)
    (shaped : shapeCheck kind (children.map s.part) = none) {pre post : List (Slot Nat)} {c : Nat}
    (split : children = pre ++ .node c :: post) (free : s.Free pre) (stop : s.StopsAt pre c) :
    (s.construct kind children (some sp) loc).2 =
        .error (.owned ((s.construct kind children (some sp) loc).1.label c)
          ((s.construct kind children (some sp) loc).1.label ((s.ownerOf c).getD s.entries.size))) ∧
      Took s (s.construct kind children (some sp) loc).1 s.entries.size pre := by
  subst split
  obtain ⟨store, result⟩ := construct_started s kind _ sp loc shaped
  have owners := ownerOf_started s kind (pre ++ .node c :: post) sp loc
  have present' := @present_started s kind (pre ++ .node c :: post) loc sp present
  generalize s.started kind (pre ++ .node c :: post) sp loc = t at store result owners present'
  have stop' : t.StopsAt pre c := by
    rwa [StopsAt, owners]
  obtain ⟨stopped, took⟩ := adopt_of_stop t s.entries.size pre post c present'
    (free.congr fun j _ => owners j) stop'
  have labels := (adopts_adopt t s.entries.size (pre ++ .node c :: post)).same.label
  rw [result, stopped, store, labels, owners]
  exact ⟨rfl, took.congr_left owners⟩

/-- **When a construction succeeds**: it has a span, a child count within its kind's bounds,
children that follow its kind's rule, and node children that can all be taken. -/
theorem construct_eq_ok_iff (span : Option Span)
    (present : ∀ id, .node id ∈ children → id < s.entries.size) :
    (∃ id, (s.construct kind children span loc).2 = .ok id) ↔
      span.isSome ∧ kind.CountFits children.length ∧ ShapeRule kind (children.map s.part) ∧
        s.Free children := by
  rcases span with _ | sp
  · simp [construct]
  by_cases shaped : shapeCheck kind (children.map s.part) = none
  · obtain ⟨fits, rule⟩ := (shapeCheck_eq_none_iff kind _).1 shaped
    rw [List.length_map] at fits
    rcases free_or_stop s children with free | ⟨pre, c, post, split, free, stop⟩
    · exact iff_of_true ⟨_, (construct_of_free present shaped free).1⟩ ⟨rfl, fits, rule, free⟩
    · refine iff_of_false ?_ ?_
      · rw [(construct_of_stop present shaped split free stop).1]
        simp
      · rintro ⟨-, -, -, all⟩
        rw [split] at all
        exact all.not_stopsAt stop
  · obtain ⟨m, failed⟩ := Option.ne_none_iff_exists'.1 shaped
    refine iff_of_false ?_ ?_
    · rw [construct_of_shapeCheck s kind children loc failed]
      simp
    · rintro ⟨-, fits, rule, -⟩
      exact shaped ((shapeCheck_eq_none_iff kind _).2 ⟨by rwa [List.length_map], rule⟩)

/-- **What a failed construction reports**: the first check that fails, in the order span, child
count, the kind's rule, then the node children from the left. -/
theorem construct_reports (present : ∀ id, .node id ∈ children → id < s.entries.size) :
    (s.construct kind children none loc).2 = .error (.noSpan kind) ∧
    ∀ sp : Span,
      (¬ kind.CountFits children.length →
        (s.construct kind children (some sp) loc).2 = .error (.childCount kind children.length)) ∧
      (kind.CountFits children.length → ¬ ShapeRule kind (children.map s.part) →
        ∃ m, shapeFailure kind (children.map s.part) = some m ∧
          (s.construct kind children (some sp) loc).2 = .error m) ∧
      (kind.CountFits children.length → ShapeRule kind (children.map s.part) →
        ∀ pre c post, children = pre ++ .node c :: post → s.Free pre → s.StopsAt pre c →
          (s.construct kind children (some sp) loc).2 =
            .error (.owned ((s.construct kind children (some sp) loc).1.label c)
              ((s.construct kind children (some sp) loc).1.label
                ((s.ownerOf c).getD s.entries.size)))) := by
  refine ⟨rfl, fun sp => ⟨fun outside => ?_, fun fits broken => ?_, fun fits rule => ?_⟩⟩
  · have counted := @shapeCheck_of_not_countFits kind (children.map s.part)
      (by rwa [List.length_map])
    rw [List.length_map] at counted
    rw [construct_of_shapeCheck s kind children loc counted]
  · have fits' : kind.CountFits (children.map s.part).length := by rwa [List.length_map]
    obtain ⟨m, failed⟩ := Option.ne_none_iff_exists'.1
      (mt (shapeFailure_eq_none_iff fits').1 broken)
    refine ⟨m, failed, ?_⟩
    rw [construct_of_shapeCheck s kind children loc ((shapeCheck_of_countFits fits').trans failed)]
  · have shaped := (shapeCheck_eq_none_iff kind _).2 ⟨by rwa [List.length_map], rule⟩
    intro pre c post split free stop
    exact (construct_of_stop present shaped split free stop).1

/-! ### The node built -/

/-- What the shape rules see of the children of the new node, read in the store it starts, is
what they see read in the store before. -/
theorem parts_started {sp : Span} (present : ∀ id, .node id ∈ children → id < s.entries.size) :
    children.map (s.started kind children sp loc).part = children.map s.part := by
  refine List.map_congr_left fun slot listed => ?_
  cases slot with
  | node c => simp [part, getElem?_started_of_lt s kind children sp loc (present c listed)]
  | atom a => rfl

/-- **The node a construction builds** is the one asked for: the new position, its kind, and
children that show the shape rules what the construction's children did; so it passes its own
check. -/
theorem tree_construct (span : Option Span)
    (present : ∀ id, .node id ∈ children → id < s.entries.size) {id : Nat}
    (built : (s.construct kind children span loc).2 = .ok id) :
    id = s.entries.size ∧ ((s.construct kind children span loc).1.tree id).kind = kind ∧
      ((s.construct kind children span loc).1.tree id).children.map Slot.part =
        children.map s.part ∧
      shapeCheck ((s.construct kind children span loc).1.tree id).kind
        (((s.construct kind children span loc).1.tree id).children.map Slot.part) = none := by
  rcases construct_cases s kind children span loc with ⟨-, m, failed⟩ |
    ⟨sp, rfl, shaped, store, result⟩
  · rw [failed] at built
    cases built
  have at_size : id = s.entries.size := by
    rw [result] at built
    cases adopted : ((s.started kind children sp loc).adopt s.entries.size children).2 <;>
      simp [adopted] at built
    exact built.symm
  subst at_size
  have adopts := adopts_adopt (s.started kind children sp loc) s.entries.size children
  rw [← store] at adopts
  generalize s.construct kind children (some sp) loc = done at adopts ⊢
  -- the new node as the store holds it once its children are taken: only its owner can differ
  obtain ⟨e, found, unowned⟩ := Option.map_eq_some_iff.1 ((adopts.same s.entries.size).trans
    (by simp [started, Entry.unowned]) : (done.1.entries[s.entries.size]?).map Entry.unowned =
      some { kind, children, span := sp, loc, owner := none })
  have kind_e : e.kind = kind := congrArg (·.kind) unowned
  have children_e : e.children = children := congrArg (·.children) unowned
  have size : done.1.entries.size = s.entries.size + 1 := by
    rw [adopts.size, size_started]
  have kind_tree : (done.1.tree s.entries.size).kind = kind := by
    rw [tree, kind_treeAt, found, Option.map_some, Option.getD_some, kind_e]
  have parts_tree : (done.1.tree s.entries.size).children.map Slot.part = children.map s.part := by
    rw [tree, size, parts_treeAt, found, Option.map_some, Option.getD_some, children_e,
      adopts.same.part, parts_started present]
  refine ⟨rfl, kind_tree, parts_tree, ?_⟩
  rw [kind_tree, parts_tree]
  exact shaped

end Construct

/-! ### Building a node, then reading it -/

/-- **Building a node, then reading it.** A construction from nodes of the store succeeds
exactly when it has a span, a child count within its kind's bounds, children that follow its
kind's rule, and node children that have no owner and are listed once; otherwise it reports the
first of these checks that fails, in that order, the last one child by child from the left. The
node it builds is the one asked for: every reader its kind has answers with the child the kind's
rule puts there, and every other reader fails. The arguments of a numbered block are its arity,
a number, where those of a block are its `args` node. -/
theorem construct_then_read (s : Store) (kind : Kind) (children : List (Slot Nat))
    (span : Option Span) (loc : List (String × Span))
    (present : ∀ id, .node id ∈ children → id < s.entries.size) :
    ((∃ id, (s.construct kind children span loc).2 = .ok id) ↔
      span.isSome ∧ kind.CountFits children.length ∧ ShapeRule kind (children.map s.part) ∧
        s.Free children) ∧
    ((s.construct kind children none loc).2 = .error (.noSpan kind) ∧
      ∀ sp : Span,
        (¬ kind.CountFits children.length →
          (s.construct kind children (some sp) loc).2 = .error (.childCount kind children.length)) ∧
        (kind.CountFits children.length → ¬ ShapeRule kind (children.map s.part) →
          ∃ m, shapeFailure kind (children.map s.part) = some m ∧
            (s.construct kind children (some sp) loc).2 = .error m) ∧
        (kind.CountFits children.length → ShapeRule kind (children.map s.part) →
          ∀ pre c post, children = pre ++ .node c :: post → s.Free pre → s.StopsAt pre c →
            (s.construct kind children (some sp) loc).2 =
              .error (.owned ((s.construct kind children (some sp) loc).1.label c)
                ((s.construct kind children (some sp) loc).1.label
                  ((s.ownerOf c).getD s.entries.size))))) ∧
    ∀ id, (s.construct kind children span loc).2 = .ok id →
      id = s.entries.size ∧ ((s.construct kind children span loc).1.tree id).kind = kind ∧
        ((s.construct kind children span loc).1.tree id).Readable := by
  refine ⟨construct_eq_ok_iff span present, construct_reports present, fun id built => ?_⟩
  obtain ⟨at_size, kind_tree, -, valid⟩ := tree_construct span present built
  exact ⟨at_size, kind_tree, Node.readable_of_shapeCheck valid⟩

/-- A numbered block over a call and a variable built before it is built and can be read. -/
theorem numbered_block_built_and_read :
    let call := ({} : Store).construct .send [.atom .none, .atom (.text "each")]
      (some ⟨0, 5, Nat.le_of_ble_eq_true rfl⟩) []
    let body := call.1.construct .lvar [.atom (.text "_1")] (some ⟨8, 10, Nat.le_of_ble_eq_true rfl⟩) []
    let block := body.1.construct .numblock [.node 0, .atom (.int 1), .node 1]
      (some ⟨0, 12, Nat.le_of_ble_eq_true rfl⟩) []
    (∀ id, .node id ∈ [Slot.node 0, .atom (.int 1), .node 1] → id < body.1.entries.size) ∧
      block.2 = .ok 2 ∧ (block.1.tree 2).Readable := by
  intro call body block
  have present : ∀ id, .node id ∈ [Slot.node 0, .atom (.int 1), .node 1] →
      id < body.1.entries.size := by
    simp only [List.mem_cons, Slot.node.injEq, reduceCtorEq, List.not_mem_nil, or_false, false_or]
    rintro id (rfl | rfl) <;> decide
  have built : block.2 = .ok 2 := rfl
  obtain ⟨-, -, read⟩ := construct_then_read body.1 .numblock [.node 0, .atom (.int 1), .node 1]
    _ [] present
  exact ⟨present, built, (read 2 built).2.2⟩

/-- **The arguments of a numbered block are a number.** The numbered block above answers its
arguments with its arity, 1, and not with a node. -/
theorem numbered_block_arguments_are_arity :
    let call := ({} : Store).construct .send [.atom .none, .atom (.text "each")]
      (some ⟨0, 5, Nat.le_of_ble_eq_true rfl⟩) []
    let body := call.1.construct .lvar [.atom (.text "_1")] (some ⟨8, 10, Nat.le_of_ble_eq_true rfl⟩) []
    let block := body.1.construct .numblock [.node 0, .atom (.int 1), .node 1]
      (some ⟨0, 12, Nat.le_of_ble_eq_true rfl⟩) []
    block.2 = .ok 2 ∧ (block.1.tree 2).kind = .numblock ∧
      (block.1.tree 2).arguments = .ok (.params (.atom (.int 1))) ∧
      ¬ ∃ a : Node, (block.1.tree 2).arguments = .ok (.params (.node a)) := by
  intro call body block
  have arguments : (block.1.tree 2).arguments = .ok (.params (.atom (.int 1))) := by cbv
  refine ⟨by decide +kernel, by decide +kernel, arguments, ?_⟩
  rintro ⟨a, node⟩
  rw [arguments] at node
  cases node

/-! ### Failed constructions -/

/-- **What a failed construction leaves of the owners.** Either it failed before taking any
child, and every owner is as it was; or it stopped at a node child that cannot be taken, after
giving the node children before it, which had no owner, the aborted node as their owner, every
other owner being as it was. So a failed construction keeps every owner exactly when no node
child comes before the one it stops at. -/
theorem construct_failure_owners (s : Store) (kind : Kind) (children : List (Slot Nat))
    (span : Option Span) (loc : List (String × Span))
    (present : ∀ id, .node id ∈ children → id < s.entries.size) {m : Malformed}
    (failed : (s.construct kind children span loc).2 = .error m) :
    (∀ j, (s.construct kind children span loc).1.ownerOf j = s.ownerOf j) ∨
    ∃ pre c post, children = pre ++ .node c :: post ∧ s.Free pre ∧ s.StopsAt pre c ∧
      Took s (s.construct kind children span loc).1 s.entries.size pre ∧
      ((∀ j, (s.construct kind children span loc).1.ownerOf j = s.ownerOf j) ↔
        ∀ j, .node j ∉ pre) := by
  rcases span with _ | sp
  · exact .inl fun j => rfl
  by_cases shaped : shapeCheck kind (children.map s.part) = none
  · rcases free_or_stop s children with free | ⟨pre, c, post, split, free, stop⟩
    · rw [(construct_of_free present shaped free).1] at failed
      cases failed
    · obtain ⟨-, took⟩ := @construct_of_stop s kind children loc sp present shaped pre post c split
        free stop
      refine .inr ⟨pre, c, post, split, free, stop, took, fun kept j listed => ?_,
        fun unlisted j => took.kept j (unlisted j)⟩
      -- a node taken had no owner and now has the aborted node
      have taken := (kept j).symm.trans (took.taken j listed)
      rw [free.1 j listed] at taken
      cases taken
  · obtain ⟨m', failed'⟩ := Option.ne_none_iff_exists'.1 shaped
    rw [construct_of_shapeCheck s kind children loc failed']
    exact .inl fun j => rfl

/-- A variable listed twice in one array: the array stops at the second listing. -/
theorem construct_failure_owners_repeated :
    let first := ({} : Store).construct .lvar [.atom (.text "a")] (some ⟨0, 1, Nat.le_of_ble_eq_true rfl⟩) []
    let second := first.1.construct .array [.node 0, .node 0] (some ⟨0, 3, Nat.le_of_ble_eq_true rfl⟩) []
    (∀ id, .node id ∈ [Slot.node 0, .node 0] → id < first.1.entries.size) ∧
    ∃ m, second.2 = .error m ∧
      ((∀ j, second.1.ownerOf j = first.1.ownerOf j) ∨
        ∃ pre c post, [Slot.node 0, .node 0] = pre ++ .node c :: post ∧ first.1.Free pre ∧
          first.1.StopsAt pre c ∧ Took first.1 second.1 first.1.entries.size pre ∧
          ((∀ j, second.1.ownerOf j = first.1.ownerOf j) ↔ ∀ j, .node j ∉ pre)) := by
  intro first second
  have present : ∀ id, .node id ∈ [Slot.node 0, .node 0] → id < first.1.entries.size := by
    simp only [List.mem_cons, Slot.node.injEq, List.not_mem_nil, or_false, or_self, forall_eq]
    decide
  have stopped := @construct_of_stop first.1 .array [.node 0, .node 0] [] ⟨0, 3, Nat.le_of_ble_eq_true rfl⟩ present
    (by decide) [.node 0] [] 0 rfl (free_cons_node.2 ⟨by decide, by simp, free_nil⟩) (.inr (by simp))
  exact ⟨present, _, stopped.1,
    construct_failure_owners first.1 .array [.node 0, .node 0] _ [] present stopped.1⟩

/-- **A failed construction can change an owner.** A variable listed twice in one array: the
array fails at the second listing, naming the aborted array as the variable's owner, and the
variable, owned by no one before, keeps the aborted array as its owner. -/
theorem repeated_child_keeps_aborted_owner :
    let first := ({} : Store).construct .lvar [.atom (.text "a")] (some ⟨0, 1, Nat.le_of_ble_eq_true rfl⟩) []
    let second := first.1.construct .array [.node 0, .node 0] (some ⟨0, 3, Nat.le_of_ble_eq_true rfl⟩) []
    first.1.ownerOf 0 = none ∧
      second.2 = .error (.owned (second.1.label 0) (second.1.label 1)) ∧
      second.1.ownerOf 0 = some 1 := by
  intro first second
  have unowned : first.1.ownerOf 0 = none := by decide
  have size : first.1.entries.size = 1 := by decide
  obtain ⟨failed, took⟩ := @construct_of_stop first.1 .array [.node 0, .node 0] []
    ⟨0, 3, Nat.le_of_ble_eq_true rfl⟩ (by simp [size]) (by decide) [.node 0] [] 0 rfl
    (free_cons_node.2 ⟨unowned, by simp, free_nil⟩) (.inr (by simp))
  rw [unowned, size, Option.getD_none] at failed
  refine ⟨unowned, failed, ?_⟩
  rw [← size]
  exact took.taken 0 (by simp)

end Store

end RubyCheck.Tree
