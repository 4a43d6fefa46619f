import RubyCheck.Lint.Engine
import RubyCheck.Lint.Scripted
import Mathlib

/-!
# Fixing a text pass by pass

**`fixString` returns the `passes`-th correction of its text, with the diagnostics of that text,
after at most `max_passes` passes; stopping early means nothing more can be fixed.**

A *correction* of a text applies, to its octets, the edits of the fixable diagnostics its lint
reports (`correction`); `corrections j s` is the `j`-th correction of `s`, or the first failure on
the way. The fixing loop lints, then corrects as long as a pass is left, something is fixable and
the correction changes the text.

* `FixedRun`: what a finished run returns — a correction of the text, reached through texts that
  each had something to fix, with its own diagnostics, and settled when passes were left;
* `FailedRun`: where a failed run fails — linting a text the loop reached, or applying the
  corrections of one while a pass was left;
* `fixString_iterates_corrections`: `fixString` meets these, a second run on a settled result
  changes nothing, and a failing application the loop reaches is what `fixString` raises;
* `fixString_raises_overlapping_corrections`: two corrections of one range, found at the first
  pass, make fixing raise their conflict.

All of it holds for every reader of concrete trees (`fixStringWith`), whatever trees it gives.
-/

namespace RubyCheck.Lint

open RubyCheck.Source RubyCheck.Ruby

section Fixing

variable (read : String → Cst) (rules : List Rule) (name : String)

/-- The diagnostics of linting a text, or why linting it failed. -/
def lints (t : String) : Except LintFailure (List Diagnostic) :=
  (lintStringWith read rules t name).2.result

/-- One correction of a text: the edits of the fixable diagnostics of its lint, applied to its
octets. -/
def correction (t : String) : Except LintFailure String := do
  let ds ← lints read rules name t
  (applyFixes (Buffer.ofText t name).bytes (ds.filter (·.fixable))).mapError .edit

/-- The `j`-th correction of a text, or the first failure on the way. -/
def corrections : Nat → String → Except LintFailure String
  | 0, s => .ok s
  | j + 1, s => corrections j s >>= correction read rules name

/-- The loop gets past the `i`-th correction of `s`: a pass is left, that text has a fixable
diagnostic, and correcting it changes it. -/
def Continues (s : String) (m : Int) (i : Nat) : Prop :=
  (i : Int) < m ∧ ∃ t ds t', corrections read rules name i s = .ok t ∧
    lints read rules name t = .ok ds ∧
    (∃ d ∈ ds, d.fixable = true) ∧ correction read rules name t = .ok t' ∧ t' ≠ t

/-- What a run fixing `s` with at most `m` passes returns: after `passes` passes, the
`passes`-th correction, every earlier one having had something to fix; its diagnostics are those
of the text returned, `modified` says whether it differs from `s`, and when passes were left
nothing is fixable or the correction leaves the text as it is. -/
structure FixedRun (s : String) (m : Int) (r : Fixed) : Prop where
  passes_le : r.passes ≤ m.toNat
  source_eq : corrections read rules name r.passes s = .ok r.source
  fixable_before : ∀ j < r.passes, ∃ t ds, corrections read rules name j s = .ok t ∧
    lints read rules name t = .ok ds ∧ ∃ d ∈ ds, d.fixable = true
  diagnostics_eq : lints read rules name r.source = .ok r.diagnostics
  modified_iff : r.modified = true ↔ r.source ≠ s
  settled : (r.passes : Int) < m →
    (∀ d ∈ r.diagnostics, d.fixable = false) ∨
      correction read rules name r.source = .ok r.source

/-- Where a run fixing `s` with at most `m` passes fails with `e`: at a correction the loop
reaches, linting fails, or a pass is left, something is fixable and applying the edits fails. -/
def FailedRun (s : String) (m : Int) (e : LintFailure) : Prop :=
  ∃ j t, (∀ i < j, Continues read rules name s m i) ∧
    corrections read rules name j s = .ok t ∧
    (lints read rules name t = .error e ∨
      ((j : Int) < m ∧ ∃ ds, lints read rules name t = .ok ds ∧
        (∃ d ∈ ds, d.fixable = true) ∧
        correction read rules name t = .error e))

/-- What a run fixing `s` with at most `m` passes gives: a finished run or a failed one. -/
def RunMeets (s : String) (m : Int) : Except LintFailure Fixed → Prop
  | .ok r => FixedRun read rules name s m r
  | .error e => FailedRun read rules name s m e

variable {read rules name}

theorem corrections_succ (j : Nat) (s : String) :
    corrections read rules name (j + 1) s =
      corrections read rules name j s >>= correction read rules name :=
  rfl

/-- One more correction of a text the corrections reached is that text's correction. -/
theorem corrections_succ_of_ok {j : Nat} {s t : String}
    (reached : corrections read rules name j s = .ok t) :
    corrections read rules name (j + 1) s = correction read rules name t := by
  rw [corrections_succ, reached]
  exact pure_bind t _

theorem correction_of_lints {t : String} {ds : List Diagnostic}
    (linted : lints read rules name t = .ok ds) :
    correction read rules name t =
      (applyFixes (Buffer.ofText t name).bytes (ds.filter (·.fixable))).mapError .edit := by
  simp only [correction, linted]
  rfl

/-- A text the loop reached, with its diagnostics, is a finished run once the loop settles. -/
theorem fixedRun_of_reached {s current : String} {m : Int} {passes : Nat}
    {ds : List Diagnostic} (buffer : Buffer) (within : passes ≤ m.toNat)
    (reached : corrections read rules name passes s = .ok current)
    (linted : lints read rules name current = .ok ds)
    (continued : ∀ i < passes, Continues read rules name s m i)
    (settled : (passes : Int) < m →
      (∀ d ∈ ds, d.fixable = false) ∨ correction read rules name current = .ok current) :
    FixedRun read rules name s m
      { source := current, modified := current != s, passes, diagnostics := ds, buffer } where
  passes_le := within
  source_eq := reached
  fixable_before j before := by
    obtain ⟨-, t, ds', -, at_j, linted_j, fixable, -⟩ := continued j before
    exact ⟨t, ds', at_j, linted_j, fixable⟩
  diagnostics_eq := linted
  modified_iff := by simp
  settled := settled

/-- **The loop's invariant.** From a correction the loop reached with its diagnostics, the rest
of the loop finishes or fails as `RunMeets` says. -/
theorem fixLoop_meets (s : String) (m : Int) :
    ∀ (budget passes : Nat) (current : String) (ds : List Diagnostic) (ran : List Visited),
      passes + budget = m.toNat →
      corrections read rules name passes s = .ok current →
      lints read rules name current = .ok ds →
      (∀ i < passes, Continues read rules name s m i) →
      RunMeets read rules name s m
        (fixLoop read rules name s budget current passes (Buffer.ofText current name) ds
          ran).2 := by
  intro budget
  induction budget with
  | zero =>
    -- no pass left: the loop returns the text it holds
    intro passes current ds ran budget_eq reached linted continued
    exact fixedRun_of_reached _ (by omega) reached linted continued (by omega)
  | succ budget ih =>
    intro passes current ds ran budget_eq reached linted continued
    have left : (passes : Int) < m := by omega
    simp only [fixLoop]
    split
    · -- nothing is fixable
      rename_i nothing
      refine fixedRun_of_reached _ (by omega) reached linted continued fun _ => .inl ?_
      intro d member
      simpa using List.filter_eq_nil_iff.1 (List.isEmpty_iff.1 nothing) d member
    · rename_i something
      have fixable : ∃ d ∈ ds, d.fixable = true := by simpa using something
      split
      · -- applying the edits fails
        rename_i e applied
        exact ⟨passes, current, continued, reached, .inr ⟨left, ds, linted, fixable,
          by rw [correction_of_lints linted, applied]; rfl⟩⟩
      · rename_i corrected applied
        have corrects : correction read rules name current = .ok corrected := by
          rw [correction_of_lints linted, applied]; rfl
        have next : corrections read rules name (passes + 1) s = .ok corrected :=
          (corrections_succ_of_ok reached).trans corrects
        split
        · -- the correction changes nothing: that pass counts, and the loop stops
          rename_i same
          have same : corrected = current := by simpa using same
          subst same
          have fixable_at : ∀ j < passes + 1, ∃ t ds,
              corrections read rules name j s = .ok t ∧
              lints read rules name t = .ok ds ∧ ∃ d ∈ ds, d.fixable = true := by
            intro j before
            rcases Nat.lt_succ_iff_lt_or_eq.1 before with earlier | rfl
            · obtain ⟨-, t, ds', -, at_j, linted_j, fixable_j, -⟩ := continued j earlier
              exact ⟨t, ds', at_j, linted_j, fixable_j⟩
            · exact ⟨corrected, ds, reached, linted, fixable⟩
          exact ⟨show passes + 1 ≤ m.toNat by omega, next, fixable_at, linted, by simp,
            fun _ => .inr corrects⟩
        · rename_i changed
          have changed : corrected ≠ current := by simpa using changed
          have continued' : ∀ i < passes + 1, Continues read rules name s m i := by
            intro i before
            rcases Nat.lt_succ_iff_lt_or_eq.1 before with earlier | rfl
            · exact continued i earlier
            · exact ⟨left, current, ds, corrected, reached, linted, fixable, corrects, changed⟩
          split
          · -- linting the corrected text fails
            rename_i f linted_next
            exact ⟨passes + 1, corrected, continued', next, .inl linted_next⟩
          · rename_i ds' linted_next
            exact ih (passes + 1) corrected ds' _ (by omega) next linted_next continued'

theorem fixString_meets (s : String) (m : Int) :
    RunMeets read rules name s m (fixStringWith read rules s name m).2 := by
  simp only [fixStringWith]
  split
  · -- linting the text itself fails
    rename_i f linted
    exact ⟨0, s, fun _ none => absurd none (Nat.not_lt_zero _), rfl, .inl linted⟩
  · rename_i ds linted
    exact fixLoop_meets s m m.toNat 0 s ds _ (by omega) rfl linted
      (fun _ none => absurd none (Nat.not_lt_zero _))

/-- A failure on the way stays the failure of every later correction. -/
theorem corrections_error_of_le {s : String} {i k : Nat} {e : LintFailure}
    (failed : corrections read rules name i s = .error e) (later : i ≤ k) :
    corrections read rules name k s = .error e := by
  induction k with
  | zero => rwa [Nat.le_zero.1 later] at failed
  | succ k ih =>
    rcases Nat.lt_succ_iff_lt_or_eq.1 (Nat.lt_succ_of_le later) with earlier | rfl
    · rw [corrections_succ, ih (Nat.le_of_lt_succ earlier)]
      rfl
    · exact failed

/-- **A settled run is fixed.** Fixing again what a run returned while passes were left returns
the same text, unmodified. -/
theorem FixedRun.refix {s : String} {m : Int} {r : Fixed} (run : FixedRun read rules name s m r)
    (left : (r.passes : Int) < m) :
    ∃ r', (fixStringWith read rules r.source name m).2 = .ok r' ∧ r'.source = r.source ∧
      r'.modified = false := by
  obtain ⟨budget, budget_eq⟩ : ∃ budget, m.toNat = budget + 1 := ⟨m.toNat - 1, by omega⟩
  have linted : (lintStringWith read rules r.source name).2.result = .ok r.diagnostics :=
    run.diagnostics_eq
  simp only [fixStringWith, linted, budget_eq, fixLoop]
  split
  · exact ⟨_, rfl, rfl, by simp⟩
  · rename_i something
    have fixable : ∃ d ∈ r.diagnostics, d.fixable = true := by simpa using something
    -- something is fixable, so the settled run's correction must leave the text as it is
    have unchanged : correction read rules name r.source = .ok r.source := by
      rcases run.settled left with none_fixable | unchanged
      · obtain ⟨d, member, fixable_d⟩ := fixable
        exact absurd (none_fixable d member) (by simp [fixable_d])
      · exact unchanged
    rw [correction_of_lints run.diagnostics_eq] at unchanged
    have applied : applyFixes (lintStringWith read rules r.source name).1.buffer.bytes
        (r.diagnostics.filter (·.fixable)) = .ok r.source := by
      cases applying : applyFixes (Buffer.ofText r.source name).bytes
          (r.diagnostics.filter (·.fixable)) with
      | error e => rw [applying] at unchanged; cases unchanged
      | ok t => rw [applying] at unchanged; cases unchanged; exact applying
    rw [applied]
    dsimp only
    rw [if_pos (beq_self_eq_true _)]
    exact ⟨_, rfl, rfl, by simp⟩

/-- The loop stops at no correction it gets past. -/
theorem Continues.unsettled {s : String} {m : Int} {i : Nat} {t : String}
    (past : Continues read rules name s m i) (reached : corrections read rules name i s = .ok t) :
    (∃ ds, lints read rules name t = .ok ds ∧ ∃ d ∈ ds, d.fixable = true) ∧
      ∃ t', correction read rules name t = .ok t' ∧ t' ≠ t := by
  obtain ⟨-, t₁, ds, t', at_i, linted, fixable, corrects, changed⟩ := past
  rw [reached] at at_i
  cases at_i
  exact ⟨⟨ds, linted, fixable⟩, t', corrects, changed⟩

/-- A finished run stops at no correction the loop gets past. -/
theorem FixedRun.not_continues {s : String} {m : Int} {r : Fixed}
    (run : FixedRun read rules name s m r) : ¬ Continues read rules name s m r.passes := by
  intro past
  obtain ⟨⟨ds, linted, d, member, fixable⟩, t', corrects, changed⟩ :=
    past.unsettled run.source_eq
  rw [run.diagnostics_eq] at linted
  cases linted
  rcases run.settled past.1 with none_fixable | unchanged
  · simp [none_fixable d member] at fixable
  · rw [corrects] at unchanged
    exact changed (Except.ok.inj unchanged)

/-- The loop gets past no correction whose lint or correction fails. -/
theorem Continues.not_fails {s : String} {m : Int} {i : Nat} {t : String} {e : LintFailure}
    (past : Continues read rules name s m i) (reached : corrections read rules name i s = .ok t)
    (fails : lints read rules name t = .error e ∨ correction read rules name t = .error e) :
    False := by
  obtain ⟨⟨ds, linted, -⟩, t', corrects, -⟩ := past.unsettled reached
  rcases fails with linting | applying
  · rw [linted] at linting
    cases linting
  · rw [corrects] at applying
    cases applying

/-- **A failing application reaches the caller.** When the loop reaches a correction with a
pass left and something to fix, and applying the edits fails, `fixString` raises that failure. -/
theorem fixString_raises_failed_application {s : String} {m : Int} {j : Nat} {t : String}
    {ds : List Diagnostic} {err : EditError}
    (continued : ∀ i < j, Continues read rules name s m i) (left : (j : Int) < m)
    (reached : corrections read rules name j s = .ok t) (linted : lints read rules name t = .ok ds)
    (fixable : ∃ d ∈ ds, d.fixable = true)
    (fails : applyFixes (Buffer.ofText t name).bytes (ds.filter (·.fixable)) = .error err) :
    (fixStringWith read rules s name m).2 = .error (.edit err) := by
  have failure : correction read rules name t = .error (.edit err) := by
    rw [correction_of_lints linted, fails]
    rfl
  have meets := @fixString_meets read rules name s m
  cases outcome : (fixStringWith read rules s name m).2 with
  | ok r =>
    rw [outcome] at meets
    change FixedRun read rules name s m r at meets
    exfalso
    rcases lt_trichotomy r.passes j with before | same | after
    · -- the run stopped at a correction the loop gets past
      exact meets.not_continues (continued r.passes before)
    · subst same
      rw [meets.source_eq] at reached
      cases reached
      rcases meets.settled left with none_fixable | unchanged
      · rw [meets.diagnostics_eq] at linted
        cases linted
        obtain ⟨d, member, fixable_d⟩ := fixable
        simp [none_fixable d member] at fixable_d
      · rw [unchanged] at failure
        cases failure
    · -- the run went past the failing correction
      have failed_next : corrections read rules name (j + 1) s = .error (.edit err) :=
        (corrections_succ_of_ok reached).trans failure
      have reached_end := meets.source_eq
      rw [corrections_error_of_le failed_next after] at reached_end
      cases reached_end
  | error e =>
    rw [outcome] at meets
    change FailedRun read rules name s m e at meets
    obtain ⟨j', t', continued', reached', failed'⟩ := meets
    rcases lt_trichotomy j' j with before | same | after
    · -- the run failed at a correction the loop gets past
      refine ((continued j' before).not_fails (e := e) reached' ?_).elim
      rcases failed' with linting | ⟨-, -, -, -, applying⟩
      · exact .inl linting
      · exact .inr applying
    · subst same
      rw [reached] at reached'
      cases reached'
      rcases failed' with linting | ⟨-, -, -, -, applying⟩
      · rw [linted] at linting
        cases linting
      · rw [failure] at applying
        cases applying
        rfl
    · -- the run got past the failing correction
      exact ((continued' j after).not_fails reached (.inr failure)).elim

/-- **Fixing iterates corrections.** What `fixString` returns after `passes` passes is the
`passes`-th correction of the text, with its diagnostics, within the pass limit, every earlier
correction having had something to fix; with passes left it is settled, so fixing it again returns
it unmodified. When it fails, it fails where the loop lints or corrects a text it reached; and a
failing application the loop reaches is what it raises. -/
theorem fixString_iterates_corrections (read : String → Cst) (rules : List Rule) (s name : String)
    (m : Int) :
    (match (fixStringWith read rules s name m).2 with
      | .ok r => FixedRun read rules name s m r ∧ ((r.passes : Int) < m →
          ∃ r', (fixStringWith read rules r.source name m).2 = .ok r' ∧ r'.source = r.source ∧
            r'.modified = false)
      | .error e => FailedRun read rules name s m e) ∧
    ∀ (j : Nat) (t : String) (ds : List Diagnostic) (err : EditError),
      (∀ i < j, Continues read rules name s m i) → (j : Int) < m →
      corrections read rules name j s = .ok t → lints read rules name t = .ok ds →
      (∃ d ∈ ds, d.fixable = true) →
      applyFixes (Buffer.ofText t name).bytes (ds.filter (·.fixable)) = .error err →
      (fixStringWith read rules s name m).2 = .error (.edit err) := by
  refine ⟨?_, fun j t ds err continued left reached linted fixable fails =>
    fixString_raises_failed_application continued left reached linted fixable fails⟩
  have meets : RunMeets read rules name s m (fixStringWith read rules s name m).2 :=
    fixString_meets s m
  cases outcome : (fixStringWith read rules s name m).2 with
  | ok r =>
    rw [outcome] at meets
    exact ⟨meets, meets.refix⟩
  | error e =>
    rw [outcome] at meets
    exact meets

set_option maxRecDepth 4000 in
/-- A rule reporting the program and its variable, each with the correction `b`: on the text `a`
the two corrections overlap, so the first pass reaches a failing application, and fixing raises
the conflict. -/
theorem fixString_raises_overlapping_corrections :
    let read : String → Cst := fun _ =>
      .mk "program" true none false 0 1 [.mk "identifier" true none false 0 1 []]
    let rules := [Script.rule
      ⟨⟨"Test/Both", "both", .info, true, "", []⟩, [.begin, .lvar], .report, "found", some "b",
        .lookup⟩]
    let e : Edit := ⟨⟨0, 1, Nat.le_of_ble_eq_true rfl⟩, "b"⟩
    let d : Diagnostic := ⟨"Test/Both", ⟨0, 1, Nat.le_of_ble_eq_true rfl⟩, "found", .info, some e⟩
    lints read rules "t" "a" = .ok [d, d] ∧
      applyFixes (Buffer.ofText "a" "t").bytes ([d, d].filter (·.fixable)) =
        .error (.conflict e e) ∧
      (fixStringWith read rules "a" "t" 1).2 = .error (.edit (.conflict e e)) := by
  intro read rules e d
  have linted : lints read rules "t" "a" = .ok [d, d] := by cbv
  have fails : applyFixes (Buffer.ofText "a" "t").bytes ([d, d].filter (·.fixable)) =
      .error (.conflict e e) := by cbv
  exact ⟨linted, fails, (fixString_iterates_corrections read rules "a" "t" 1).2 0 "a" [d, d]
    (.conflict e e) (fun _ none => absurd none (Nat.not_lt_zero _)) (by decide) rfl linted
    ⟨d, List.mem_cons_self, rfl⟩ fails⟩

end Fixing

end RubyCheck.Lint
