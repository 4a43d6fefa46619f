import RubyCheck.Cli.Run
import RubyCheck.Proofs.Files.Memory
import RubyCheck.Proofs.Lint.Fixing
import RubyCheck.Proofs.Lint.ZipEdits
import RubyCheck.Proofs.Text.Utf8
import Mathlib

/-!
# What `lint` does to files, and how it ends

**Each file is left as it was or holds the text its fix gave; the status says whether the
settings or a file failed, and otherwise whether an issue is left.**

- `FileFate` says what linting one file may leave, and `lintFile_fate` that every file meets it:
  the file system as it was, with no issue marked corrected; or, with fixing asked for and a fix
  that changed the text, the file holding exactly the fixed text, with the issues that carry an
  edit marked corrected. A file that cannot be read or decoded, whose lint or fix fails, or whose
  write is refused is never touched.
- `Linted` threads the file system through the files named, one after another. A run of the
  files that does not crash is exactly such a chain (`Linted.of_run`, `Linted.run`), so every
  file gets its report, in the order named.
- Loading settings only reads (`settingsFor_readOnly`). A run that does not crash either refuses
  the settings with status 2, or lints every file and ends with the report's status
  (`runLint_finished`): 2 when a file failed, else 1 when an issue is left uncorrected, else 0
  (`Report.exitCode_eq_two_iff` and the two after it). The count of corrected issues that a
  plain report prints is the number of issues marked corrected.
- `lint_command_fixes_file`: with no settings file, fixing a file holding `a.map { |x| [x] }`
  loads the default settings, rewrites the file to `a.zip` and ends with 0.
-/

namespace RubyCheck

open Lint

/-! ## Issues and reports -/

@[simp] theorem Issue.corrected_ofDiagnostic (buffer : Source.Buffer) (path : String)
    (corrected : Bool) (d : Diagnostic) :
    (Issue.ofDiagnostic buffer path corrected d).corrected = (corrected && d.fixable) := rfl

@[simp] theorem Issue.correction_isSome_ofDiagnostic (buffer : Source.Buffer) (path : String)
    (corrected : Bool) (d : Diagnostic) :
    (Issue.ofDiagnostic buffer path corrected d).correction.isSome = d.fixable := by
  simp [Issue.ofDiagnostic, Diagnostic.fixable]

namespace Report

/-- All issues of a report, file after file. -/
theorem issueCount_eq (r : Report) : r.issueCount = (r.files.flatMap (·.issues)).length := by
  simp only [issueCount]
  induction r.files with
  | nil => rfl
  | cons f rest ih => simp [ih]

theorem offenseCount_eq (r : Report) :
    r.offenseCount = ((r.files.flatMap (·.issues)).filter fun i => !i.corrected).length := by
  simp only [offenseCount]
  induction r.files with
  | nil => rfl
  | cons f rest ih => simp [ih, List.filter_append]

/-- The count a plain report gives as corrected is the number of issues marked corrected. -/
theorem issueCount_sub_offenseCount (r : Report) :
    r.issueCount - r.offenseCount = ((r.files.flatMap (·.issues)).filter (·.corrected)).length := by
  rw [issueCount_eq, offenseCount_eq,
    List.length_eq_length_filter_add (l := r.files.flatMap (·.issues)) (·.corrected)]
  omega

theorem offenseCount_pos_iff (r : Report) :
    0 < r.offenseCount ↔ ∃ f ∈ r.files, ∃ i ∈ f.issues, i.corrected = false := by
  rw [offenseCount_eq, List.length_pos_iff_exists_mem]
  constructor
  · rintro ⟨i, kept⟩
    obtain ⟨listed, unfixed⟩ := List.mem_filter.1 kept
    obtain ⟨f, mem, has⟩ := List.mem_flatMap.1 listed
    exact ⟨f, mem, i, has, by simpa using unfixed⟩
  · rintro ⟨f, mem, i, has, unfixed⟩
    exact ⟨i, List.mem_filter.2 ⟨List.mem_flatMap.2 ⟨f, mem, has⟩, by simp [unfixed]⟩⟩

theorem any_failed_eq_false_iff (r : Report) :
    (r.files.any fun f => f.error.isSome) = false ↔ ∀ f ∈ r.files, f.error = none := by
  simp

/-- A report ends a run with 2 exactly when a file failed. -/
theorem exitCode_eq_two_iff (r : Report) :
    r.exitCode = 2 ↔ ∃ f ∈ r.files, f.error.isSome := by
  rw [← List.any_eq_true]
  unfold exitCode
  split_ifs <;> simp_all

/-- A report ends a run with 1 exactly when no file failed and an issue was left uncorrected. -/
theorem exitCode_eq_one_iff (r : Report) :
    r.exitCode = 1 ↔
      (∀ f ∈ r.files, f.error = none) ∧ ∃ f ∈ r.files, ∃ i ∈ f.issues, i.corrected = false := by
  rw [← offenseCount_pos_iff, ← any_failed_eq_false_iff]
  cases failed : r.files.any fun f => f.error.isSome <;> simp [exitCode, failed]

/-- A report ends a run with 0 exactly when no file failed and every issue was corrected. -/
theorem exitCode_eq_zero_iff (r : Report) :
    r.exitCode = 0 ↔
      (∀ f ∈ r.files, f.error = none) ∧ ∀ f ∈ r.files, ∀ i ∈ f.issues, i.corrected = true := by
  have none_left : (∀ f ∈ r.files, ∀ i ∈ f.issues, i.corrected = true) ↔ ¬ 0 < r.offenseCount := by
    simp [offenseCount_pos_iff]
  rw [none_left, ← any_failed_eq_false_iff]
  cases failed : r.files.any fun f => f.error.isSome <;> simp [exitCode, failed]

end Report

/-! ## Settings are only read -/

namespace Config

open Files

theorem readDocument_readOnly (path : String) :
    ReadOnly (readDocument path : StateM Memory _) := by
  unfold readDocument
  refine ReadOnly.bind (ReadOnly.readFile path) fun _ => ?_
  split
  · exact ReadOnly.pure _
  · split <;> exact ReadOnly.pure _

theorem atPath_readOnly (path : Option String) :
    ReadOnly (Settings.atPath path : StateM Memory _) := by
  unfold Settings.atPath
  split
  · exact ReadOnly.pure _
  · refine ReadOnly.bind (ReadOnly.entry _) fun _ => ?_
    split
    · exact ReadOnly.pure _
    · exact ReadOnly.bind (readDocument_readOnly _) fun _ => ReadOnly.pure _

theorem projectHasSettings_readOnly (path : String) :
    ReadOnly (projectHasSettings path : StateM Memory _) := by
  unfold projectHasSettings
  refine ReadOnly.bind (ReadOnly.readFile path) fun _ => ?_
  split
  · exact ReadOnly.pure _
  · split
    · exact ReadOnly.pure _
    · split <;> exact ReadOnly.pure _

theorem firstCandidate_readOnly :
    ∀ candidates : List (String × Bool), ReadOnly (firstCandidate candidates : StateM Memory _)
  | [] => ReadOnly.pure _
  | (path, needsSettings) :: rest => by
    unfold firstCandidate
    refine ReadOnly.bind (ReadOnly.entry path) fun _ => ?_
    split
    · exact firstCandidate_readOnly rest
    · split
      · refine ReadOnly.bind (projectHasSettings_readOnly path) fun _ => ?_
        split
        · exact ReadOnly.pure _
        · exact firstCandidate_readOnly rest
        · exact atPath_readOnly _
      · exact atPath_readOnly _

/-- Where no candidate is a file, the settings are the defaults. -/
theorem firstCandidate_absent (fs : Memory) :
    ∀ candidates : List (String × Bool), (∀ c ∈ candidates, fs.entry c.1 ≠ some .file) →
      (firstCandidate candidates : StateM Memory _).run fs = (.ok {}, fs)
  | [], _ => rfl
  | (path, needsSettings) :: rest, absent => by
    have here : (fs.entry path != some .file) = true := bne_iff_ne.2 (absent _ List.mem_cons_self)
    unfold firstCandidate
    simp only [stateRun_bind, entry_run, here, ↓reduceIte]
    exact firstCandidate_absent fs rest fun c member => absent c (List.mem_cons_of_mem _ member)

theorem discover_readOnly (start : String) :
    ReadOnly (Settings.discover start : StateM Memory _) :=
  ReadOnly.bind ReadOnly.workingDirectory fun _ => firstCandidate_readOnly _

/-- With no configuration file in the starting directory or above it, the settings discovered
are the defaults. -/
theorem discover_absent (fs : Memory) (start : String)
    (absent : ∀ d ∈ Path.ancestors (Path.resolve fs.cwd start), ∀ n ∈ candidateNames,
      fs.entry (Path.join d n.1) ≠ some .file) :
    (Settings.discover start : StateM Memory _).run fs = (.ok {}, fs) := by
  have cwd : (FileSystem.workingDirectory : StateM Memory _).run fs = (fs.cwd, fs) := rfl
  unfold Settings.discover
  rw [stateRun_bind, cwd]
  refine firstCandidate_absent fs _ fun c member => ?_
  obtain ⟨d, inside, named⟩ := List.mem_flatMap.1 member
  obtain ⟨n, listed, rfl⟩ := List.mem_map.1 named
  exact absent d inside n listed

end Config

namespace Cli

open Files

/-- Loading the settings of a run writes nothing. -/
theorem settingsFor_readOnly (config : Option String) :
    ReadOnly (settingsFor config : StateM Memory _) := by
  unfold settingsFor
  split
  · refine ReadOnly.bind (ReadOnly.entry _) fun _ => ?_
    split
    · exact ReadOnly.pure _
    · exact Config.atPath_readOnly _
  · exact Config.discover_readOnly _

section Files

variable {read : String → Ruby.Cst} {rules : List Rule} {fix : Bool} {maxPasses : Nat}
  {path text : String}

theorem fileError_bind_eq_ok {β : Type} {f : LintFailure} {k : String → Except Crash β} {b : β}
    (h : (fileError f >>= k) = .ok b) : ∃ msg, fileError f = .ok msg ∧ k msg = .ok b := by
  cases failed : fileError f with
  | error c => rw [failed] at h; nomatch h
  | ok msg => rw [failed] at h; exact ⟨msg, rfl, h⟩

/-- What linting a text can give: nothing to write and nothing marked corrected, or, with fixing
asked for, the text a fix changed, with the issues that carry an edit marked corrected. -/
theorem lintText_eq_ok {report : FileReport} {w : Option String}
    (linted : lintText read rules fix maxPasses path text = .ok (report, w)) :
    report.path = path ∧
      (w = none ∧ (∀ i ∈ report.issues, i.corrected = false) ∨
        fix = true ∧ ∃ fixed, (fixStringWith read rules text path maxPasses).2 = .ok fixed ∧
          fixed.modified = true ∧ w = some fixed.source ∧ report.error = none ∧
          ∀ i ∈ report.issues, i.corrected = i.correction.isSome) := by
  simp only [lintText] at linted
  split at linted
  · -- linting fails: the failure is the report's error
    obtain ⟨msg, -, linted⟩ := fileError_bind_eq_ok linted
    cases linted
    exact ⟨rfl, .inl ⟨rfl, by simp⟩⟩
  · rename_i ds _
    split at linted
    · -- nothing to fix, or fixing not asked for
      cases linted
      exact ⟨rfl, .inl ⟨rfl, by simp⟩⟩
    · rename_i asked
      have fixing : fix = true := by simp_all
      split at linted
      · -- fixing fails: the failure is the report's error
        obtain ⟨msg, -, linted⟩ := fileError_bind_eq_ok linted
        cases linted
        exact ⟨rfl, .inl ⟨rfl, by simp⟩⟩
      · rename_i fixed fixed_eq
        split at linted
        · cases linted
          exact ⟨rfl, .inr ⟨fixing, fixed, fixed_eq, ‹_›, rfl, rfl, by simp⟩⟩
        · cases linted
          exact ⟨rfl, .inl ⟨rfl, by simp⟩⟩

/-- What linting the file at `path` may leave, from the file system `fs`: its result `r`, and
the file system after. Either the file system is as it was and no issue is marked corrected; or
fixing was asked for, the fix changed the file's text, the file now holds the fixed text, and
the issues marked corrected are exactly those that carry an edit. Each report names its file. -/
inductive FileFate (read : String → Ruby.Cst) (rules : List Rule) (fix : Bool) (maxPasses : Nat)
    (path : String) (fs : Memory) : Except Crash FileReport → Memory → Prop
  | kept (r : Except Crash FileReport)
      (unmarked : ∀ report, r = .ok report →
        report.path = path ∧ ∀ i ∈ report.issues, i.corrected = false) :
      FileFate read rules fix maxPasses path fs r fs
  | rewritten (bytes : ByteArray) (text : String) (fixed : Fixed) (report : FileReport)
      (after : Memory) (stored : fs.read path = .ok bytes)
      (decoded : Text.Utf8.decode? bytes = .ok text) (fixing : fix = true)
      (fixed_eq : (fixStringWith read rules text path maxPasses).2 = .ok fixed)
      (modified : fixed.modified = true) (wrote : fs.write path fixed.source = .ok after)
      (holds : after.read path = .ok fixed.source.toUTF8) (changed : bytes ≠ fixed.source.toUTF8)
      (named : report.path = path) (clean : report.error = none)
      (marked : ∀ i ∈ report.issues, i.corrected = i.correction.isSome) :
      FileFate read rules fix maxPasses path fs (.ok report) after

/-- A fix that changed a text gives other octets than the text's. -/
theorem fixed_ne_of_decode {bytes : ByteArray} {fixed : Fixed}
    (decoded : Text.Utf8.decode? bytes = .ok text)
    (fixed_eq : (fixStringWith read rules text path maxPasses).2 = .ok fixed)
    (modified : fixed.modified = true) : bytes ≠ fixed.source.toUTF8 := by
  have run : FixedRun read rules path text maxPasses fixed := by
    have meets : RunMeets read rules path text maxPasses (fixStringWith read rules text path maxPasses).2 :=
      fixString_meets text maxPasses
    rwa [fixed_eq] at meets
  intro same
  have encoded := Text.Utf8.decode?_eq_ok_iff.1 decoded
  rw [same] at encoded
  exact run.modified_iff.1 modified (String.toByteArray_inj.1 encoded).symm

/-- Every file linted meets its fate: untouched and unmarked, or rewritten with the fixed text
and marked where an edit was carried. -/
theorem lintFile_fate (fs : Memory) :
    FileFate read rules fix maxPasses path fs ((lintFile read rules fix maxPasses path : StateM Memory _).run fs).1
      ((lintFile read rules fix maxPasses path : StateM Memory _).run fs).2 := by
  cases reading : fs.read path with
  | error e =>
    -- an unreadable file is reported with the system's refusal
    simp only [lintFile, stateRun_bind, readFile_run, reading, stateRun_pure]
    exact .kept _ (by rintro _ ⟨⟩; simp)
  | ok bytes =>
    cases decoded : Text.Utf8.decode? bytes with
    | error bad =>
      simp only [lintFile, stateRun_bind, readFile_run, reading, decoded, stateRun_pure]
      exact .kept _ (by rintro _ ⟨⟩; simp)
    | ok text =>
      cases linted : lintText read rules fix maxPasses path text with
      | error c =>
        simp only [lintFile, stateRun_bind, readFile_run, reading, decoded, linted, stateRun_pure]
        exact .kept _ (by rintro _ ⟨⟩)
      | ok outcome =>
        obtain ⟨report, w⟩ := outcome
        obtain ⟨named, ⟨rfl, unmarked⟩ | ⟨fixing, fixed, fixed_eq, modified, rfl, clean, marked⟩⟩ :=
          lintText_eq_ok linted
        · -- nothing to write
          simp only [lintFile, stateRun_bind, readFile_run, reading, decoded, linted, stateRun_pure]
          exact .kept _ (by rintro _ ⟨⟩; exact ⟨named, unmarked⟩)
        · cases wrote : fs.write path fixed.source with
          | ok after =>
            simp only [lintFile, stateRun_bind, readFile_run, reading, decoded, linted,
              writeFile_run_of_ok wrote, stateRun_pure]
            exact .rewritten bytes text fixed report after reading decoded fixing fixed_eq modified
              wrote (Memory.read_write wrote) (fixed_ne_of_decode decoded fixed_eq modified)
              named clean marked
          | error e =>
            -- the write is refused: the refusal is the report's error, and nothing changed
            simp only [lintFile, stateRun_bind, readFile_run, reading, decoded, linted,
              writeFile_run_of_error wrote, stateRun_pure]
            exact .kept _ (by rintro _ ⟨⟩; simp)

/-- The file a report is about is the file linted. -/
theorem lintFile_path {fs after : Memory} {report : FileReport}
    (step : (lintFile read rules fix maxPasses path : StateM Memory _).run fs = (.ok report, after)) :
    report.path = path := by
  have fate : FileFate read rules fix maxPasses path fs _ _ := lintFile_fate fs
  rw [step] at fate
  cases fate with
  | kept _ unmarked => exact (unmarked report rfl).1
  | rewritten => assumption

end Files

/-- Files linted in turn: `paths`, from the file system `fs`, give `reports` and leave `after`,
each file linted against the file system the ones before it left. -/
inductive Linted (read : String → Ruby.Cst) (rules : List Rule) (fix : Bool) (maxPasses : Nat) :
    List String → Memory → List FileReport → Memory → Prop
  | nil (fs : Memory) : Linted read rules fix maxPasses [] fs [] fs
  | cons {path : String} {rest : List String} {fs mid after : Memory} {report : FileReport}
      {reports : List FileReport}
      (step : (lintFile read rules fix maxPasses path : StateM Memory _).run fs = (.ok report, mid))
      (more : Linted read rules fix maxPasses rest mid reports after) :
      Linted read rules fix maxPasses (path :: rest) fs (report :: reports) after

namespace Linted

variable {read : String → Ruby.Cst} {rules : List Rule} {fix : Bool} {maxPasses : Nat}

/-- Every file named gets a report, in the order named: a file that fails does not stop the
others. -/
theorem paths {paths : List String} {fs after : Memory} {reports : List FileReport}
    (linted : Linted read rules fix maxPasses paths fs reports after) :
    reports.map (·.path) = paths := by
  induction linted with
  | nil => rfl
  | cons step _ ih => rw [List.map_cons, lintFile_path step, ih]

end Linted

/-- A run of the files that does not crash lints each in turn. -/
theorem Linted.of_run {read : String → Ruby.Cst} {rules : List Rule} {fix : Bool}
    {maxPasses : Nat} :
    ∀ (paths : List String) (fs after : Memory) (reports : List FileReport),
      (lintFiles read rules fix maxPasses paths : StateM Memory _).run fs = (.ok reports, after) →
        Linted read rules fix maxPasses paths fs reports after
  | [], fs, after, reports, ran => by
    simp only [lintFiles, stateRun_pure] at ran
    cases ran
    exact .nil fs
  | path :: rest, fs, after, reports, ran => by
    simp only [lintFiles, stateRun_bind] at ran
    -- the first file, then the rest from the file system it left
    cases step : (lintFile read rules fix maxPasses path : StateM Memory _).run fs with
    | mk r mid =>
      rw [step] at ran
      cases r with
      | error c => nomatch ran
      | ok report =>
        simp only [stateRun_bind] at ran
        cases more : (lintFiles read rules fix maxPasses rest : StateM Memory _).run mid with
        | mk r' after' =>
          rw [more] at ran
          cases r' with
          | error c => nomatch ran
          | ok rs =>
            cases ran
            exact .cons step (Linted.of_run rest mid after' rs more)

/-- Linting each file in turn is what the run of the files does. -/
theorem Linted.run {read : String → Ruby.Cst} {rules : List Rule} {fix : Bool} {maxPasses : Nat}
    {paths : List String}
    {fs after : Memory} {reports : List FileReport}
    (linted : Linted read rules fix maxPasses paths fs reports after) :
    (lintFiles read rules fix maxPasses paths : StateM Memory _).run fs = (.ok reports, after) := by
  induction linted with
  | nil => rfl
  | cons step _ ih => simp only [lintFiles, stateRun_bind, step, ih, stateRun_pure]

/-- How `lint` ends when it does not crash: settings refused, reported, and nothing linted; or
settings loaded and every file linted in turn, with the report printed and its status. -/
theorem runLint_finished {read : String → Ruby.Cst} {files : List String} {config : Option String}
    {fix json : Bool}
    {fs after : Memory} {o : Outcome}
    (ran : (runLint read files config fix json : StateM Memory _).run fs = (o, after))
    (finished : o.crash = none) :
    (∃ e, (settingsFor config : StateM Memory _).run fs = (.error e, fs) ∧ e.isVerdict = true ∧
        o = { stderr := "Error: " ++ e.message ++ "\n", exitCode := 2 } ∧ after = fs) ∨
    ∃ settings reports, (settingsFor config : StateM Memory _).run fs = (.ok settings, fs) ∧
      Linted read (Registry.builtin.enabled settings.select settings.ignore) fix settings.maxFixPasses
        (files.map Path.normalize) fs reports after ∧
      o = { stdout := if json then (Report.mk reports).json else (Report.mk reports).plain,
            exitCode := (Report.mk reports).exitCode } := by
  have loaded := (settingsFor_readOnly config).run_eq fs
  cases result : ((settingsFor config : StateM Memory _).run fs).1 with
  | error e =>
    rw [result] at loaded
    simp only [runLint, stateRun_bind, loaded] at ran
    by_cases verdict : e.isVerdict = true
    · -- a verdict on the settings is printed and ends the run
      simp only [verdict, ↓reduceIte, stateRun_pure] at ran
      cases ran
      exact .inl ⟨e, loaded, verdict, rfl, rfl⟩
    · -- any other failure to load is a crash
      simp only [verdict, Bool.false_eq_true, ↓reduceIte, stateRun_pure] at ran
      cases ran
      nomatch finished
  | ok settings =>
    rw [result] at loaded
    simp only [runLint, stateRun_bind, loaded] at ran
    cases linted : (lintFiles read (Registry.builtin.enabled settings.select settings.ignore) fix
        settings.maxFixPasses (files.map Path.normalize) : StateM Memory _).run fs with
    | mk r after' =>
      rw [linted] at ran
      cases r with
      | error c =>
        cases ran
        nomatch finished
      | ok reports =>
        cases ran
        exact .inr ⟨settings, reports, loaded, Linted.of_run _ _ _ _ linted, rfl⟩

/-- A settings file named that is not there is refused without a look at anything else, and
the run ends with 2, having linted nothing. -/
theorem runLint_absent {read : String → Ruby.Cst} {files : List String} {c : String}
    {fix json : Bool} {fs : Memory}
    (absent : fs.entry (Path.normalize c) = none) :
    (settingsFor (some c) : StateM Memory _).run fs = (.error (.absent (Path.normalize c)), fs) ∧
      (runLint read files (some c) fix json : StateM Memory _).run fs =
        ({ stderr := "Error: " ++ ("Config file " ++ Path.normalize c ++ " does not exist") ++ "\n",
           exitCode := 2 }, fs) := by
  have loaded : (settingsFor (some c) : StateM Memory _).run fs =
      (.error (.absent (Path.normalize c)), fs) := by
    simp only [settingsFor, stateRun_bind, entry_run, absent, Option.isNone_none, ↓reduceIte,
      stateRun_pure]
  refine ⟨loaded, ?_⟩
  simp only [runLint, stateRun_bind, loaded]
  rfl

/-- The contract of `lint`: what it does to each file, and how it ends. -/
theorem lint_command_contract (read : String → Ruby.Cst) :
    -- each file is left as it was, or holds the text its fix gave
    (∀ (rules : List Rule) (fix : Bool) (maxPasses : Nat) (path : String) (fs : Memory),
      FileFate read rules fix maxPasses path fs
        ((lintFile read rules fix maxPasses path : StateM Memory _).run fs).1
        ((lintFile read rules fix maxPasses path : StateM Memory _).run fs).2) ∧
    -- a settings file named that is not there
    (∀ (files : List String) (c : String) (fix json : Bool) (fs : Memory),
      fs.entry (Path.normalize c) = none →
        (settingsFor (some c) : StateM Memory _).run fs =
            (.error (.absent (Path.normalize c)), fs) ∧
          (runLint read files (some c) fix json : StateM Memory _).run fs =
            ({ stderr := "Error: " ++ ("Config file " ++ Path.normalize c ++ " does not exist") ++
                "\n", exitCode := 2 }, fs)) ∧
    -- a run that ends with a status
    ∀ (files : List String) (config : Option String) (fix json : Bool) (fs after : Memory)
      (o : Outcome), (runLint read files config fix json : StateM Memory _).run fs = (o, after) →
      o.crash = none →
        (∃ e, (settingsFor config : StateM Memory _).run fs = (.error e, fs) ∧ o.exitCode = 2 ∧
          after = fs) ∨
        ∃ settings reports, (settingsFor config : StateM Memory _).run fs = (.ok settings, fs) ∧
          Linted read (Registry.builtin.enabled settings.select settings.ignore) fix
            settings.maxFixPasses (files.map Path.normalize) fs reports after ∧
          reports.map (·.path) = files.map Path.normalize ∧
          (o.exitCode = 2 ↔ ∃ f ∈ reports, f.error.isSome) ∧
          (o.exitCode = 1 ↔ (∀ f ∈ reports, f.error = none) ∧
            ∃ f ∈ reports, ∃ i ∈ f.issues, i.corrected = false) ∧
          (o.exitCode = 0 ↔ (∀ f ∈ reports, f.error = none) ∧
            ∀ f ∈ reports, ∀ i ∈ f.issues, i.corrected = true) ∧
          (json = false → ∃ body, o.stdout = body ++ "\nTotal issues found: " ++
            toString (reports.flatMap (·.issues)).length ++ " (" ++
            toString ((reports.flatMap (·.issues)).filter (·.corrected)).length ++
            " corrected)\n") := by
  refine ⟨fun _ _ _ _ fs => lintFile_fate fs, fun _ _ _ _ _ absent => runLint_absent absent,
    fun files config fix json fs after o ran finished => ?_⟩
  rcases runLint_finished ran finished with ⟨e, loaded, -, rfl, rfl⟩ | ⟨settings, reports, loaded, linted, rfl⟩
  · exact .inl ⟨e, loaded, rfl, rfl⟩
  · refine .inr ⟨settings, reports, loaded, linted, linted.paths, Report.exitCode_eq_two_iff _,
      Report.exitCode_eq_one_iff _, Report.exitCode_eq_zero_iff _, fun plain => ?_⟩
    -- the plain report ends with the count of issues and of those corrected
    refine ⟨String.join (((Report.mk reports).files.flatMap FileReport.lines).map (· ++ "\n")), ?_⟩
    have counted : (reports.flatMap (·.issues)).length = (Report.mk reports).issueCount :=
      (Report.issueCount_eq _).symm
    rw [plain, counted, ← Report.issueCount_sub_offenseCount]
    rfl

/-- A run told to read settings from a file that is not there: the hypotheses of the contract
hold, it refuses the settings, and it ends with 2. -/
theorem lint_command_missing_settings :
    let fs : Memory := { cwd := "/" }
    fs.entry (Path.normalize "c") = none ∧
      ((runLint Ruby.concreteTree ["a"] (some "c") false false : StateM Memory _).run fs).1.crash = none ∧
      ((runLint Ruby.concreteTree ["a"] (some "c") false false : StateM Memory _).run fs).1.exitCode = 2 ∧
      ∃ e, (settingsFor (some "c") : StateM Memory _).run fs = (.error e, fs) := by
  intro fs
  have absent : fs.entry (Path.normalize "c") = none := by cbv
  obtain ⟨refused, ran⟩ := (lint_command_contract Ruby.concreteTree).2.1 ["a"] "c" false false fs absent
  rcases (lint_command_contract Ruby.concreteTree).2.2 ["a"] (some "c") false false fs fs _ ran rfl with
    ⟨e, loaded, two, -⟩ | ⟨settings, -, loaded, -⟩
  · rw [ran]
    exact ⟨absent, rfl, two, e, loaded⟩
  · rw [refused] at loaded
    cases loaded

/-- A run with no settings file, fixing the file `a` that holds `a.map { |x| [x] }` (read as its
concrete tree, and its correction as `a.zip`'s): the default settings load, the file now holds
`a.zip`, its issue is corrected, and the run ends with 0. -/
theorem lint_command_fixes_file :
    let read : String → Ruby.Cst := fun t =>
      if t = "a.map \x7b |x| [x] \x7d" then Ruby.mapWrapProgram else Ruby.zipProgram
    let fs : Memory := { cwd := "/", files := [("/a", "a.map \x7b |x| [x] \x7d".toUTF8)] }
    let ran := (runLint read ["a"] none true false : StateM Memory _).run fs
    ran.1.crash = none ∧ ran.1.exitCode = 0 ∧ ran.2.read "a" = .ok "a.zip".toUTF8 ∧
      ∃ settings reports, (settingsFor none : StateM Memory _).run fs = (.ok settings, fs) ∧
        Linted read (Registry.builtin.enabled settings.select settings.ignore) true
          settings.maxFixPasses ["a"] fs reports ran.2 ∧
        reports.map (·.path) = ["a"] ∧ ∀ f ∈ reports, ∀ i ∈ f.issues, i.corrected = true := by
  intro read fs ran
  -- the text reads as `a.map { |x| [x] }`, with one offense, fixed in one pass to `a.zip`
  have lint1 := @lintStringWith_mapWrap read (if_pos rfl) "a"
  have fixed := @fixStringWith_mapWrap read (if_pos rfl) (if_neg (by decide)) "a" ((10 : Nat) : Int)
    (by decide)
  -- the file's report marks its issue corrected, and the file is given the fixed text
  obtain ⟨report, linted, clean, corrected⟩ : ∃ report,
      lintText read [useZip] true 10 "a" "a.map \x7b |x| [x] \x7d" = .ok (report, some "a.zip") ∧
        report.error = none ∧ ∀ i ∈ report.issues, i.corrected = true := by
    simp only [lintText, lint1, fixed, List.any_cons, List.any_nil, Diagnostic.fixable,
      Option.isSome_some, Bool.true_and, Bool.true_or, Bool.not_true, Bool.false_eq_true,
      ↓reduceIte]
    exact ⟨_, rfl, rfl, by simp [Diagnostic.fixable]⟩
  have reading : fs.read "a" = .ok "a.map \x7b |x| [x] \x7d".toUTF8 := by decide +kernel
  have decoded : Text.Utf8.decode? "a.map \x7b |x| [x] \x7d".toUTF8 =
      .ok "a.map \x7b |x| [x] \x7d" := by
    cbv
  obtain ⟨after, wrote⟩ : ∃ after, fs.write "a" "a.zip" = .ok after := by
    have writes : (fs.write "a" "a.zip").toBool = true := by decide +kernel
    revert writes
    cases fs.write "a" "a.zip" <;> simp [Except.toBool]
  -- no configuration file exists, so the settings are the defaults, which run the zip rule alone
  have loaded : (settingsFor none : StateM Memory _).run fs = (.ok {}, fs) :=
    Config.discover_absent fs "." (by decide +kernel)
  have rules : Registry.builtin.enabled ({} : Config.Settings).select
      ({} : Config.Settings).ignore = [useZip] := rfl
  have passes : ({} : Config.Settings).maxFixPasses = 10 := rfl
  -- the run lints the one file, writes it, and reports
  have step : (lintFile read [useZip] true 10 "a" : StateM Memory _).run fs =
      (.ok report, after) := by
    simp only [lintFile, stateRun_bind, readFile_run, reading, decoded, linted,
      writeFile_run_of_ok wrote, stateRun_pure]
  have files : (lintFiles read [useZip] true 10 ["a"] : StateM Memory _).run fs =
      (.ok [report], after) := by
    simp only [lintFiles, stateRun_bind, step, stateRun_pure]
  have normalized : ["a"].map Path.normalize = ["a"] := by decide +kernel
  have outcome : ran = ({ stdout := (Report.mk [report]).plain,
                          exitCode := (Report.mk [report]).exitCode }, after) := by
    simp only [ran, runLint, stateRun_bind, loaded, rules, normalized, files,
      Bool.false_eq_true, ↓reduceIte, stateRun_pure]
  have rewritten : after.read "a" = .ok "a.zip".toUTF8 := Memory.read_write wrote
  rw [outcome]
  rcases (lint_command_contract read).2.2 ["a"] none true false fs after _ outcome rfl with
    ⟨e, -, -, same⟩ | ⟨settings', reports, loaded', linted', paths, -, -, zero, -⟩
  · -- the file changed, so the run did not stop at the settings
    rw [same, reading] at rewritten
    exact absurd rewritten (by decide)
  · -- the settings are those loaded above, and the files linted give the one report
    rw [loaded, Prod.mk.injEq, Except.ok.injEq] at loaded'
    obtain ⟨rfl, -⟩ := loaded'
    have ran_files := linted'.run
    rw [rules, passes, normalized, files, Prod.mk.injEq, Except.ok.injEq] at ran_files
    obtain ⟨rfl, -⟩ := ran_files
    have all : ∀ f ∈ [report], ∀ i ∈ f.issues, i.corrected = true := by simpa using corrected
    exact ⟨rfl, zero.2 ⟨by simpa using clean, all⟩, rewritten, {}, [report], loaded, linted', paths,
      all⟩

end Cli

end RubyCheck
