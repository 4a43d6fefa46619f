import RubyCheck.Proofs.Edit.Splice
import RubyCheck.Proofs.Text.Utf8

/-!
# Resolving a batch of edits

**`resolve` refuses a batch exactly when an edit reaches past the text or two edits overlap,
and otherwise decodes the octets that applying the edits one at a time from the end gives.**

`resolve` runs in three stages over the batch in stable span order: it looks for an edit that
stops past the end of the octets, then for two overlapping neighbours, then splices and decodes.

* `resolve_outside_iff`: an edit is refused as outside exactly when one stops past the end.
* `resolve_conflict_iff`: within the octets, a conflict is reported exactly when two edits of
  the batch overlap, although only neighbours are compared; `resolve_conflict_first`: the pair
  reported is the first overlapping pair of neighbours.
* `resolve_eq_of_apart`: for a batch within the octets no two of whose edits overlap, the result
  is the strict decoding of the edits applied from the end.
-/

namespace RubyCheck.Source.Span

theorem overlaps_iff {s t : Span} : s.overlaps t = true ↔ s.start < t.stop ∧ t.start < s.stop := by
  simp [overlaps]

end RubyCheck.Source.Span

namespace RubyCheck.Lint

open RubyCheck.Source

theorem Edit.not_apart_iff {a b : Edit} :
    ¬ a.Apart b ↔ a.span.start < b.span.stop ∧ b.span.start < a.span.stop := by
  rw [Edit.Apart, Bool.not_eq_false, Span.overlaps_iff]

/-! ### The stages of `resolve` -/

section Stages

variable {bytes : ByteArray} {edits : List Edit}

theorem resolve_of_find?_eq_some {e : Edit}
    (found : (edits.mergeSort Edit.before).find? (·.span.stop > bytes.size) = some e) :
    resolve bytes edits = .error (.outside e bytes.size) := by
  simp only [resolve, found]
  rfl

theorem find?_outside_eq_none (inside : ∀ e ∈ edits, e.span.stop ≤ bytes.size) :
    (edits.mergeSort Edit.before).find? (·.span.stop > bytes.size) = none := by
  rw [List.find?_eq_none]
  intro e member
  have := inside e ((List.mergeSort_perm edits _).mem_iff.1 member)
  simpa using this

theorem resolve_of_firstConflict_eq_some (inside : ∀ e ∈ edits, e.span.stop ≤ bytes.size)
    {a b : Edit} (found : firstConflict (edits.mergeSort Edit.before) = some (a, b)) :
    resolve bytes edits = .error (.conflict a b) := by
  simp only [resolve, find?_outside_eq_none inside, found]
  rfl

theorem resolve_of_firstConflict_eq_none (inside : ∀ e ∈ edits, e.span.stop ≤ bytes.size)
    (found : firstConflict (edits.mergeSort Edit.before) = none) :
    resolve bytes edits =
      (Text.Utf8.decode? (splice bytes (edits.mergeSort Edit.before))).mapError .undecodable := by
  simp only [resolve, find?_outside_eq_none inside, found]
  cases Text.Utf8.decode? (splice bytes (edits.mergeSort Edit.before)) <;> rfl

/-- Only the stable order of a batch decides what `resolve` does with it. -/
theorem resolve_congr {edits' : List Edit}
    (same : edits'.mergeSort Edit.before = edits.mergeSort Edit.before) :
    resolve bytes edits' = resolve bytes edits := by
  unfold resolve
  rw [same]

/-- Past its two checks, `resolve` fails only to decode. -/
theorem undecodable_of_firstConflict_eq_none (inside : ∀ e ∈ edits, e.span.stop ≤ bytes.size)
    (found : firstConflict (edits.mergeSort Edit.before) = none) {err : EditError}
    (failed : resolve bytes edits = .error err) : ∃ m, err = .undecodable m := by
  rw [resolve_of_firstConflict_eq_none inside found] at failed
  cases decoded : Text.Utf8.decode? (splice bytes (edits.mergeSort Edit.before)) with
  | ok text => simp [decoded, Except.mapError] at failed
  | error m =>
    simp only [decoded, Except.mapError, Except.error.injEq] at failed
    exact ⟨m, failed.symm⟩

end Stages

/-! ### Refusals -/

section Refusals

variable {bytes : ByteArray} {edits : List Edit}

/-- **An edit is refused as outside the text exactly when one stops past its end.** -/
theorem resolve_outside_iff :
    (∃ e n, resolve bytes edits = .error (.outside e n)) ↔
      ∃ e ∈ edits, bytes.size < e.span.stop := by
  constructor
  · rintro ⟨e, n, refused⟩
    by_contra within
    have inside : ∀ e ∈ edits, e.span.stop ≤ bytes.size :=
      fun e member => Nat.le_of_not_lt fun past => within ⟨e, member, past⟩
    cases found : firstConflict (edits.mergeSort Edit.before) with
    | some pair =>
      rw [resolve_of_firstConflict_eq_some inside found] at refused
      cases refused
    | none =>
      obtain ⟨m, same⟩ := undecodable_of_firstConflict_eq_none inside found refused
      cases same
  · rintro ⟨e, member, past⟩
    cases found : (edits.mergeSort Edit.before).find? (·.span.stop > bytes.size) with
    | none =>
      have kept := List.find?_eq_none.1 found e ((List.mergeSort_perm edits _).mem_iff.2 member)
      simp [past] at kept
    | some first => exact ⟨first, bytes.size, resolve_of_find?_eq_some found⟩

/-- A conflict is reported for the pair of neighbours that `firstConflict` finds. -/
theorem firstConflict_of_resolve (inside : ∀ e ∈ edits, e.span.stop ≤ bytes.size) {a b : Edit}
    (refused : resolve bytes edits = .error (.conflict a b)) :
    firstConflict (edits.mergeSort Edit.before) = some (a, b) := by
  cases found : firstConflict (edits.mergeSort Edit.before) with
  | some pair =>
    rw [resolve_of_firstConflict_eq_some inside found] at refused
    cases refused
    rfl
  | none =>
    obtain ⟨m, same⟩ := undecodable_of_firstConflict_eq_none inside found refused
    cases same

/-- All pairs of a batch are apart exactly when the neighbours of its stable order are. -/
theorem pairwise_apart_iff_firstConflict_eq_none (edits : List Edit) :
    edits.Pairwise Edit.Apart ↔ firstConflict (edits.mergeSort Edit.before) = none := by
  rw [← (List.mergeSort_perm edits Edit.before).pairwise_iff Edit.Apart.symm,
    pairwise_apart_iff_isChain (stableOrder_mergeSort edits).sorted]
  exact ⟨firstConflict_of_isChain, firstConflict_eq_none⟩

/-- **Within the octets, a conflict is reported exactly when two edits of the batch overlap.**
Only neighbours in the stable order are compared, and that finds every overlapping pair. -/
theorem resolve_conflict_iff (inside : ∀ e ∈ edits, e.span.stop ≤ bytes.size) :
    (∃ a b, resolve bytes edits = .error (.conflict a b)) ↔
      ∃ a b, [a, b].Sublist edits ∧ a.span.start < b.span.stop ∧ b.span.start < a.span.stop := by
  have overlap : (∃ a b, [a, b].Sublist edits ∧ a.span.start < b.span.stop ∧
      b.span.start < a.span.stop) ↔ ¬ edits.Pairwise Edit.Apart := by
    rw [List.pairwise_iff_forall_sublist]
    constructor
    · rintro ⟨a, b, pair, overlaps⟩ apart
      exact Edit.not_apart_iff.2 overlaps (apart pair)
    · intro notApart
      by_contra none
      exact notApart fun {a b} pair =>
        Classical.byContradiction fun overlaps => none ⟨a, b, pair, Edit.not_apart_iff.1 overlaps⟩
  rw [overlap, pairwise_apart_iff_firstConflict_eq_none]
  constructor
  · rintro ⟨a, b, refused⟩ found
    rw [firstConflict_of_resolve inside refused] at found
    cases found
  · intro found
    cases first : firstConflict (edits.mergeSort Edit.before) with
    | none => exact absurd first found
    | some pair => exact ⟨pair.1, pair.2, resolve_of_firstConflict_eq_some inside first⟩

/-- **The pair reported is the first pair of overlapping neighbours in the stable order.** -/
theorem resolve_conflict_first (inside : ∀ e ∈ edits, e.span.stop ≤ bytes.size) {o : List Edit}
    (order : StableOrder edits o) {a b : Edit}
    (refused : resolve bytes edits = .error (.conflict a b)) :
    ∃ front back, o = front ++ a :: b :: back ∧
      (a.span.start < b.span.stop ∧ b.span.start < a.span.stop) ∧
      (front ++ [a]).IsChain Edit.Apart := by
  obtain ⟨front, back, split, overlaps, chain⟩ :=
    firstConflict_spec (firstConflict_of_resolve inside refused)
  exact ⟨front, back, order.eq_mergeSort ▸ split, Span.overlaps_iff.1 overlaps, chain⟩

end Refusals

/-! ### Batches that apply -/

section Applies

variable {bytes : ByteArray} {edits o : List Edit}

theorem StableOrder.isChain_apart (order : StableOrder edits o)
    (apart : edits.Pairwise Edit.Apart) : o.IsChain Edit.Apart :=
  (pairwise_apart_iff_isChain order.sorted).1 ((order.perm.pairwise_iff Edit.Apart.symm).2 apart)

/-- In stable order, edits within the octets no two of which overlap are laid in order. -/
theorem StableOrder.laid (order : StableOrder edits o)
    (inside : ∀ e ∈ edits, e.span.stop ≤ bytes.size) (apart : edits.Pairwise Edit.Apart) :
    Laid bytes o :=
  ⟨pairwise_stop_le_start order.sorted (order.isChain_apart apart),
    fun e member => inside e (order.perm.mem_iff.1 member)⟩

/-- **A batch within the octets, no two of whose edits overlap, resolves to the strict decoding
of its edits applied from the end.** -/
theorem resolve_eq_of_apart (inside : ∀ e ∈ edits, e.span.stop ≤ bytes.size)
    (apart : edits.Pairwise Edit.Apart) (order : StableOrder edits o) :
    resolve bytes edits = (Text.Utf8.decode? (applyFromEnd bytes o)).mapError .undecodable := by
  have found : firstConflict (edits.mergeSort Edit.before) = none :=
    (pairwise_apart_iff_firstConflict_eq_none edits).1 apart
  rw [resolve_of_firstConflict_eq_none inside found, ← order.eq_mergeSort,
    applyFromEnd_eq_splice (order.laid inside apart)]

/-- The change in length a batch makes, edit by edit. -/
theorem sum_map_growth (l : List Edit) :
    (l.map fun e => (e.replacement.utf8ByteSize : Int) - e.span.length).sum +
      (l.map (·.span.length)).sum = (l.map (·.replacement.utf8ByteSize)).sum := by
  induction l with
  | nil => simp
  | cons e rest ih =>
    simp only [List.map_cons, List.sum_cons, Int.natCast_add]
    omega

/-- The octets grow by every replacement and shrink by every span. -/
theorem size_applyFromEnd_of_laid (laid : Laid bytes o) (perm : o.Perm edits) :
    ((applyFromEnd bytes o).size : Int) =
      bytes.size + (edits.map fun e => (e.replacement.utf8ByteSize : Int) - e.span.length).sum := by
  have sizes := size_applyFromEnd laid
  rw [(perm.map _).sum_nat, (perm.map _).sum_nat] at sizes
  have growth := sum_map_growth edits
  omega

end Applies

/-! ### What `resolve` does -/

/-- **Resolving a batch within the octets, no two of whose edits overlap.** With `o` the batch in
stable span order, `resolve` gives the text whose encoding is the octets with the edits of `o`
applied one at a time from the last to the first, and fails to decode exactly when those octets
are not valid UTF-8. The result is the same for every reordering of the batch that keeps the
insertions at each offset in their order, and the octets grow by every replacement less every
span. -/
theorem resolve_applies_edits_from_end {bytes : ByteArray} {edits o : List Edit}
    (inside : ∀ e ∈ edits, e.span.stop ≤ bytes.size) (apart : edits.Pairwise Edit.Apart)
    (order : StableOrder edits o) :
    (∀ text : String, resolve bytes edits = .ok text ↔ text.toByteArray = applyFromEnd bytes o) ∧
    ((∃ m, resolve bytes edits = .error (.undecodable m)) ↔
      ¬ (applyFromEnd bytes o).IsValidUTF8) ∧
    (∀ edits' : List Edit, edits'.Perm edits →
      (∀ p, edits'.filter (·.span = Span.point p) = edits.filter (·.span = Span.point p)) →
      resolve bytes edits' = resolve bytes edits) ∧
    ((applyFromEnd bytes o).size : Int) =
      bytes.size + (edits.map fun e => (e.replacement.utf8ByteSize : Int) - e.span.length).sum := by
  have resolved := resolve_eq_of_apart inside apart order
  refine ⟨fun text => ?_, ?_, fun edits' perm inserts => ?_,
    size_applyFromEnd_of_laid (order.laid inside apart) order.perm⟩
  · rw [resolved, ← Text.Utf8.decode?_eq_ok_iff]
    cases Text.Utf8.decode? (applyFromEnd bytes o) <;> simp [Except.mapError]
  · rw [resolved, ← Text.Utf8.decode?_isError_iff]
    cases Text.Utf8.decode? (applyFromEnd bytes o) <;> simp [Except.mapError]
  · -- the reordered batch has the same stable order
    have same : StableOrder edits' (edits.mergeSort Edit.before) :=
      ⟨(stableOrder_mergeSort edits).sorted, fun s => by
        rw [(stableOrder_mergeSort edits).stable s, filter_span_eq_of_apart apart perm inserts s]⟩
    exact resolve_congr same.eq_mergeSort.symm

theorem resolve_inserts_around_replacement :
    StableOrder [⟨Span.point 1, "x"⟩, ⟨⟨0, 1, by omega⟩, "é"⟩, ⟨Span.point 1, "y"⟩]
        [⟨⟨0, 1, by omega⟩, "é"⟩, ⟨Span.point 1, "x"⟩, ⟨Span.point 1, "y"⟩] ∧
      resolve "abc".toUTF8
        [⟨Span.point 1, "x"⟩, ⟨⟨0, 1, by omega⟩, "é"⟩, ⟨Span.point 1, "y"⟩] = .ok "éxybc" := by
  have order : StableOrder [⟨Span.point 1, "x"⟩, ⟨⟨0, 1, by omega⟩, "é"⟩, ⟨Span.point 1, "y"⟩]
      [⟨⟨0, 1, by omega⟩, "é"⟩, ⟨Span.point 1, "x"⟩, ⟨Span.point 1, "y"⟩] := by
    have sorted := stableOrder_mergeSort
      [⟨Span.point 1, "x"⟩, ⟨⟨0, 1, by omega⟩, "é"⟩, ⟨Span.point 1, "y"⟩]
    rwa [show List.mergeSort _ Edit.before = _ by cbv] at sorted
  refine ⟨order, ((resolve_applies_edits_from_end (by decide) ?_ order).1 "éxybc").2 (by cbv)⟩
  simp [Edit.Apart, Span.overlaps, Span.point]

/-- **What `resolve` refuses.** An edit is refused as outside the octets exactly when one stops
past their end. Otherwise a conflict is reported exactly when two edits of the batch overlap, and
the pair reported is the first pair of overlapping neighbours in the stable order `o`. -/
theorem resolve_refusals {bytes : ByteArray} {edits o : List Edit} (order : StableOrder edits o) :
    ((∃ e n, resolve bytes edits = .error (.outside e n)) ↔
      ∃ e ∈ edits, bytes.size < e.span.stop) ∧
    ((∀ e ∈ edits, e.span.stop ≤ bytes.size) →
      ((∃ a b, resolve bytes edits = .error (.conflict a b)) ↔
        ∃ a b, [a, b].Sublist edits ∧ a.span.start < b.span.stop ∧ b.span.start < a.span.stop) ∧
      ∀ a b, resolve bytes edits = .error (.conflict a b) →
        ∃ front back, o = front ++ a :: b :: back ∧
          (a.span.start < b.span.stop ∧ b.span.start < a.span.stop) ∧
          (front ++ [a]).IsChain Edit.Apart) :=
  ⟨resolve_outside_iff, fun inside =>
    ⟨resolve_conflict_iff inside, fun _ _ refused => resolve_conflict_first inside order refused⟩⟩

theorem resolve_refuses_insert_inside_replacement :
    StableOrder [⟨⟨2, 2, by omega⟩, "y"⟩, ⟨⟨1, 3, by omega⟩, "x"⟩]
        [⟨⟨1, 3, by omega⟩, "x"⟩, ⟨⟨2, 2, by omega⟩, "y"⟩] ∧
      ∃ a b, resolve "abcd".toUTF8 [⟨⟨2, 2, by omega⟩, "y"⟩, ⟨⟨1, 3, by omega⟩, "x"⟩] =
        .error (.conflict a b) := by
  have order : StableOrder [⟨⟨2, 2, by omega⟩, "y"⟩, ⟨⟨1, 3, by omega⟩, "x"⟩]
      [⟨⟨1, 3, by omega⟩, "x"⟩, ⟨⟨2, 2, by omega⟩, "y"⟩] := by
    have sorted := stableOrder_mergeSort [⟨⟨2, 2, by omega⟩, "y"⟩, ⟨⟨1, 3, by omega⟩, "x"⟩]
    rwa [show List.mergeSort _ Edit.before = _ by cbv] at sorted
  refine ⟨order, ((resolve_refusals order).2 (by decide)).1.2 ⟨_, _, List.Sublist.refl _, ?_⟩⟩
  decide

end RubyCheck.Lint
