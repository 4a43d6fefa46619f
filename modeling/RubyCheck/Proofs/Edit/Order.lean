import RubyCheck.Lint.Edit
import Mathlib

/-!
# The order of a batch of edits

**A batch of edits is read in the stable order of its spans, and only neighbours are compared.**

`resolve` sorts a batch by span, start first and stop second, and keeps the edits of one span in
the order they were given. What it decides afterwards, the conflict it reports and the octets it
splices, is read off that order.

* `StableOrder edits o`: `o` holds `edits` sorted by span, the edits of each span in their given
  order. `stableOrder_mergeSort` and `StableOrder.unique`: the merge sort `resolve` runs gives
  it, and no other list does.
* `filter_span_eq_of_apart`: among edits no two of which overlap, only insertions can share a
  span, so a reordering that keeps the insertions at each offset in their order keeps the stable
  order.
* `pairwise_apart_of_isChain`: in span order, neighbours that do not overlap make a list no two
  of whose edits overlap. An insertion at the start of a replacement sorts before it and stays
  apart from it; one strictly inside it overlaps it and sorts right after it.
* `firstConflict_spec`: the conflict `resolve` reports is the first pair of overlapping
  neighbours.
-/

namespace RubyCheck.Source.Span

theorem eq_of_start_stop {s t : Span} (start : s.start = t.start) (stop : s.stop = t.stop) :
    s = t := by
  cases s
  cases t
  simp_all

theorem eq_point_of_start_eq_stop {s : Span} (empty : s.start = s.stop) : s = point s.start :=
  eq_of_start_stop rfl empty.symm

end RubyCheck.Source.Span

namespace RubyCheck.Lint

open RubyCheck.Source

namespace Edit

/-- `a` comes no later than `b` in span order: it starts first, or starts with `b` and stops no
later. -/
def SpanLE (a b : Edit) : Prop :=
  a.span.start < b.span.start ∨ a.span.start = b.span.start ∧ a.span.stop ≤ b.span.stop

/-- Two edits whose spans do not overlap. -/
def Apart (a b : Edit) : Prop := a.span.overlaps b.span = false

theorem before_iff {a b : Edit} : before a b = true ↔ a.SpanLE b := by
  simp only [before, SpanLE, Bool.or_eq_true, Bool.and_eq_true, decide_eq_true_eq, beq_iff_eq]

theorem apart_iff {a b : Edit} :
    a.Apart b ↔ b.span.stop ≤ a.span.start ∨ a.span.stop ≤ b.span.start := by
  simp only [Apart, Span.overlaps, Bool.and_eq_false_iff, decide_eq_false_iff_not, Nat.not_lt]

theorem Apart.symm {a b : Edit} (apart : a.Apart b) : b.Apart a := by
  rw [Apart, Span.overlaps_comm]
  exact apart

theorem SpanLE.refl (a : Edit) : a.SpanLE a := Or.inr ⟨rfl, Nat.le_refl _⟩

theorem SpanLE.trans {a b c : Edit} (first : a.SpanLE b) (second : b.SpanLE c) : a.SpanLE c := by
  unfold SpanLE at *
  omega

theorem SpanLE.total (a b : Edit) : a.SpanLE b ∨ b.SpanLE a := by
  unfold SpanLE
  omega

theorem span_eq_of_spanLE {a b : Edit} (first : a.SpanLE b) (second : b.SpanLE a) :
    a.span = b.span := by
  unfold SpanLE at first second
  exact Span.eq_of_start_stop (by omega) (by omega)

/-- **Sorted neighbours that do not overlap are disjoint in order**: the first stops where the
second starts, or before. The one case to rule out is an empty span right at the start of `a`,
which the order would have put first. -/
theorem stop_le_start {a b : Edit} (order : a.SpanLE b) (apart : a.Apart b) :
    a.span.stop ≤ b.span.start := by
  have := a.span.ordered
  have := b.span.ordered
  rw [apart_iff] at apart
  unfold SpanLE at order
  omega

theorem apart_of_stop_le {a b : Edit} (disjoint : a.span.stop ≤ b.span.start) : a.Apart b :=
  apart_iff.2 (Or.inr disjoint)

/-- A non-empty span overlaps itself, so two edits of one non-empty span are never apart. -/
theorem not_apart_of_span_eq {a b : Edit} {s : Span} (nonempty : s.start ≠ s.stop)
    (first : a.span = s) (second : b.span = s) : ¬ a.Apart b := by
  have := s.ordered
  rw [apart_iff, first, second]
  omega

end Edit

/-! ### The stable order -/

/-- `o` lists the edits of `edits` by span, start first and stop second, and the edits of one
span in the order `edits` gives them. -/
structure StableOrder (edits o : List Edit) : Prop where
  sorted : o.Pairwise Edit.SpanLE
  stable : ∀ s : Span, o.filter (·.span = s) = edits.filter (·.span = s)

theorem StableOrder.perm {edits o : List Edit} (order : StableOrder edits o) : o.Perm edits := by
  rw [List.perm_iff_count]
  intro e
  have counted := congrArg (List.count e) (order.stable e.span)
  rwa [List.count_filter (by simp), List.count_filter (by simp)] at counted

/-- The head of a list sorted by span comes no later than any of its members. -/
theorem head_spanLE {b a : Edit} {t : List Edit} (sorted : (b :: t).Pairwise Edit.SpanLE)
    (member : a ∈ b :: t) : b.SpanLE a := by
  rcases List.mem_cons.1 member with rfl | later
  · exact Edit.SpanLE.refl _
  · exact (List.pairwise_cons.1 sorted).1 a later

theorem mem_of_filter_span_eq {s t : List Edit}
    (same : ∀ sp : Span, s.filter (·.span = sp) = t.filter (·.span = sp)) {a : Edit}
    (member : a ∈ s) : a ∈ t := by
  have : a ∈ t.filter (·.span = a.span) := by simp [← same a.span, member]
  exact (List.mem_filter.1 this).1

/-- Two lists sorted by span are equal as soon as their edits of each span are. -/
theorem eq_of_sorted_of_filter_span {s t : List Edit} (sortedS : s.Pairwise Edit.SpanLE)
    (sortedT : t.Pairwise Edit.SpanLE)
    (same : ∀ sp : Span, s.filter (·.span = sp) = t.filter (·.span = sp)) : s = t := by
  induction s generalizing t with
  | nil =>
    cases t with
    | nil => rfl
    | cons b t => simpa using same b.span
  | cons a s ih =>
    cases t with
    | nil => simpa using same a.span
    | cons b t =>
      -- each head lies in the other list, whose head comes no later: so the heads share a span
      have ba := head_spanLE sortedT (mem_of_filter_span_eq same List.mem_cons_self)
      have ab := head_spanLE sortedS
        (mem_of_filter_span_eq (fun sp => (same sp).symm) List.mem_cons_self)
      have spans := Edit.span_eq_of_spanLE ab ba
      have heads : a = b := by
        have := same a.span
        simp only [List.filter_cons, decide_true, spans, if_true, List.cons.injEq] at this
        exact this.1
      subst heads
      have tails : ∀ sp : Span, s.filter (·.span = sp) = t.filter (·.span = sp) := by
        intro sp
        have := same sp
        by_cases here : a.span = sp <;> simp_all [List.filter_cons]
      rw [ih sortedS.of_cons sortedT.of_cons tails]

theorem StableOrder.unique {edits o o' : List Edit} (order : StableOrder edits o)
    (order' : StableOrder edits o') : o = o' :=
  eq_of_sorted_of_filter_span order.sorted order'.sorted
    fun s => (order.stable s).trans (order'.stable s).symm

/-- **The merge sort of `resolve` gives the stable order**: it sorts by span, and it keeps the
edits of one span in their order (`List.sublist_mergeSort`). -/
theorem stableOrder_mergeSort (edits : List Edit) :
    StableOrder edits (edits.mergeSort Edit.before) := by
  have trans : ∀ a b c : Edit, Edit.before a b → Edit.before b c → Edit.before a c :=
    fun a b c first second =>
      Edit.before_iff.2 ((Edit.before_iff.1 first).trans (Edit.before_iff.1 second))
  have total : ∀ a b : Edit, (Edit.before a b || Edit.before b a) = true := by
    intro a b
    rcases Edit.SpanLE.total a b with order | order <;> simp [Edit.before_iff.2 order]
  refine ⟨(List.pairwise_mergeSort trans total edits).imp Edit.before_iff.1, fun s => ?_⟩
  -- the edits of span `s` are sorted already, so the sort keeps them as a sublist
  have sortedSpan : (edits.filter (·.span = s)).Pairwise fun a b => Edit.before a b := by
    refine List.pairwise_of_forall_mem_list fun a memA b memB => Edit.before_iff.2 ?_
    have spanA := of_decide_eq_true (List.mem_filter.1 memA).2
    have spanB := of_decide_eq_true (List.mem_filter.1 memB).2
    rw [Edit.SpanLE, spanA, spanB]
    exact Or.inr ⟨rfl, Nat.le_refl _⟩
  have kept := (List.sublist_mergeSort trans total sortedSpan List.filter_sublist).filter
    (·.span = s)
  rw [List.filter_filter, List.filter_congr (fun e _ => Bool.and_self _)] at kept
  refine (kept.eq_of_length ?_).symm
  exact (((List.mergeSort_perm edits Edit.before).filter _).length_eq).symm

theorem StableOrder.eq_mergeSort {edits o : List Edit} (order : StableOrder edits o) :
    o = edits.mergeSort Edit.before :=
  order.unique (stableOrder_mergeSort edits)

/-- **Among edits no two of which overlap, only insertions share a span.** So a reordering of
such a batch that keeps the insertions at each offset in their order keeps the edits of every
span in their order, and with them the stable order. -/
theorem filter_span_eq_of_apart {edits edits' : List Edit} (apart : edits.Pairwise Edit.Apart)
    (perm : edits'.Perm edits)
    (inserts : ∀ p,
      edits'.filter (·.span = Span.point p) = edits.filter (·.span = Span.point p))
    (s : Span) : edits'.filter (·.span = s) = edits.filter (·.span = s) := by
  by_cases empty : s.start = s.stop
  · rw [Span.eq_point_of_start_eq_stop empty]
    exact inserts s.start
  · -- at most one edit has the non-empty span `s`, and the two filters are permutations
    have permSpan := perm.filter (·.span = s)
    have apartSpan := apart.filter (·.span = s)
    generalize edits.filter (·.span = s) = ofSpan at permSpan apartSpan
    match ofSpan, apartSpan with
    | [], _ => exact List.perm_nil.1 permSpan
    | [_], _ => exact List.perm_singleton.1 permSpan
    | a :: b :: _, apartSpan =>
      have memA := permSpan.symm.subset (List.mem_cons_self)
      have memB := permSpan.symm.subset (List.mem_cons_of_mem a List.mem_cons_self)
      exact absurd ((List.pairwise_cons.1 apartSpan).1 b List.mem_cons_self)
        (Edit.not_apart_of_span_eq empty (of_decide_eq_true (List.mem_filter.1 memA).2)
          (of_decide_eq_true (List.mem_filter.1 memB).2))

/-! ### Neighbours -/

/-- In span order, neighbours that do not overlap leave each edit stopping before every later
one starts. -/
theorem pairwise_stop_le_start : ∀ {o : List Edit}, o.Pairwise Edit.SpanLE →
    o.IsChain Edit.Apart → o.Pairwise fun a b => a.span.stop ≤ b.span.start
  | [], _, _ => List.Pairwise.nil
  | [_], _, _ => List.pairwise_singleton _ _
  | a :: b :: rest, sorted, chain => by
    obtain ⟨apartAB, chainRest⟩ := List.isChain_cons_cons.1 chain
    have tail := pairwise_stop_le_start sorted.of_cons chainRest
    have first := Edit.stop_le_start ((List.pairwise_cons.1 sorted).1 b List.mem_cons_self)
      apartAB
    refine List.pairwise_cons.2 ⟨fun x member => ?_, tail⟩
    rcases List.mem_cons.1 member with rfl | later
    · exact first
    · have := (List.pairwise_cons.1 tail).1 x later
      have := b.span.ordered
      omega

/-- **Comparing neighbours finds every overlap**: in span order, a list whose neighbours do not
overlap has no two edits that overlap. -/
theorem pairwise_apart_of_isChain {o : List Edit} (sorted : o.Pairwise Edit.SpanLE)
    (chain : o.IsChain Edit.Apart) : o.Pairwise Edit.Apart :=
  (pairwise_stop_le_start sorted chain).imp Edit.apart_of_stop_le

theorem pairwise_apart_iff_isChain {o : List Edit} (sorted : o.Pairwise Edit.SpanLE) :
    o.Pairwise Edit.Apart ↔ o.IsChain Edit.Apart :=
  ⟨List.Pairwise.isChain, pairwise_apart_of_isChain sorted⟩

theorem firstConflict_eq_none : ∀ {o : List Edit}, firstConflict o = none → o.IsChain Edit.Apart
  | [], _ => List.IsChain.nil
  | [_], _ => List.IsChain.singleton _
  | a :: b :: rest, found => by
    unfold firstConflict at found
    split at found
    · cases found
    · rename_i separate
      exact List.isChain_cons_cons.2 ⟨by simpa [Edit.Apart] using separate,
        firstConflict_eq_none found⟩

theorem firstConflict_of_isChain :
    ∀ {o : List Edit}, o.IsChain Edit.Apart → firstConflict o = none
  | [], _ => rfl
  | [_], _ => rfl
  | a :: b :: rest, chain => by
    obtain ⟨apart, chainRest⟩ := List.isChain_cons_cons.1 chain
    unfold firstConflict
    rw [if_neg (by simpa [Edit.Apart] using apart)]
    exact firstConflict_of_isChain chainRest

/-- **The conflict reported is the first pair of overlapping neighbours.** -/
theorem firstConflict_spec : ∀ {o : List Edit} {a b : Edit}, firstConflict o = some (a, b) →
    ∃ front back, o = front ++ a :: b :: back ∧ a.span.overlaps b.span = true ∧
      (front ++ [a]).IsChain Edit.Apart
  | [], _, _, found => by cases found
  | [_], _, _, found => by cases found
  | x :: y :: rest, a, b, found => by
    unfold firstConflict at found
    split at found
    · cases found
      exact ⟨[], rest, rfl, ‹_›, List.IsChain.singleton _⟩
    · rename_i separate
      obtain ⟨front, back, split, overlap, chain⟩ := firstConflict_spec found
      refine ⟨x :: front, back, by rw [split]; rfl, overlap, ?_⟩
      have head : (front ++ [a]).head? = some y := by
        cases front with
        | nil => simp_all
        | cons f front => simp_all
      refine List.isChain_cons.2 ⟨fun z member => ?_, chain⟩
      have atHead : z ∈ (front ++ [a]).head? := member
      rw [head, Option.mem_some_iff] at atHead
      subst atHead
      simpa [Edit.Apart] using separate

end RubyCheck.Lint
