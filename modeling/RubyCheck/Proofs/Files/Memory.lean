import RubyCheck.Files.Memory
import Mathlib

/-!
# The file system in memory, read and written

**A file written reads back as the text written; a computation that only looks leaves the
file system as it was.**

A write that succeeds replaces the file at its path or adds one there (`Memory.write_cases`).
Either way the file system keeps every directory it had (`Memory.Keeps`), so a path found before
the write is found again at the same place, and reading it gives the octets of the text written
(`Memory.read_write`).

Commands run in `StateM Memory`. The lemmas `stateRun_*` evaluate its binds with the state
passed by hand, and `ReadOnly` names the computations that give the state back unchanged:
reading a file, asking what stands at a path, and whatever is built from them.
-/

namespace RubyCheck.Files

namespace Memory

/-- `fs'` keeps what makes a directory in `fs`: the working directory, the directories made,
and a file at every path where `fs` has one. -/
structure Keeps (fs fs' : Memory) : Prop where
  cwd : fs'.cwd = fs.cwd
  dirs : fs'.dirs = fs.dirs
  paths : ∀ e ∈ fs.files, ∃ e' ∈ fs'.files, e'.1 = e.1

theorem Keeps.isDirectory {fs fs' : Memory} (keeps : Keeps fs fs') {p : String}
    (dir : fs.isDirectory p = true) : fs'.isDirectory p = true := by
  simp only [Memory.isDirectory, keeps.cwd, keeps.dirs, Bool.or_eq_true, List.any_eq_true]
    at dir ⊢
  rcases dir with ((((top | cwd) | above) | made) | below) | ⟨e, mem, under⟩
  · exact .inl (.inl (.inl (.inl (.inl top))))
  · exact .inl (.inl (.inl (.inl (.inr cwd))))
  · exact .inl (.inl (.inl (.inr above)))
  · exact .inl (.inl (.inr made))
  · exact .inl (.inr below)
  · -- a file below the path is still there
    obtain ⟨e', mem', same⟩ := keeps.paths e mem
    exact .inr ⟨e', mem', same ▸ under⟩

/-- Walking a path succeeds in `fs'` where it succeeds in `fs`, and ends at the same place:
each directory walked through is still a directory. -/
theorem Keeps.locate_go {fs fs' : Memory} (keeps : Keeps fs fs') {p abs : String} :
    ∀ (acc ps : List String), locate.go fs p acc ps = .ok abs → locate.go fs' p acc ps = .ok abs
  | acc, [] => by simp [locate.go]
  | acc, [last] => by simp [locate.go]
  | acc, c :: d :: rest => by
    simp only [locate.go]
    generalize (if (c == "..") = true then acc.dropLast else acc ++ [c]) = next
    intro found
    by_cases dir : fs.isDirectory (Path.ofParts true next) = true
    · rw [if_pos dir] at found
      rw [if_pos (keeps.isDirectory dir)]
      exact keeps.locate_go _ _ found
    · rw [if_neg dir] at found
      split at found <;> nomatch found

theorem Keeps.locate {fs fs' : Memory} (keeps : Keeps fs fs') {p abs : String}
    (found : fs.locate p = .ok abs) : fs'.locate p = .ok abs := by
  simp only [Memory.locate, keeps.cwd] at found ⊢
  exact keeps.locate_go _ _ found

/-- A write that succeeds found its path, and either replaced the file there or added one. -/
theorem write_cases {fs fs' : Memory} {p text : String} (wrote : fs.write p text = .ok fs') :
    ∃ abs, fs.locate p = .ok abs ∧ fs'.cwd = fs.cwd ∧ fs'.dirs = fs.dirs ∧
      ((fs.fileAt? abs).isSome ∧
          fs'.files = fs.files.map (fun e => if e.1 == abs then (abs, text.toUTF8) else e) ∨
        fs.fileAt? abs = none ∧ fs'.files = fs.files ++ [(abs, text.toUTF8)]) := by
  simp only [Memory.write] at wrote
  cases found : fs.locate p with
  | error e => rw [found] at wrote; nomatch wrote
  | ok abs =>
    rw [found] at wrote
    simp only [bind, Except.bind] at wrote
    refine ⟨abs, rfl, ?_⟩
    by_cases there : (fs.fileAt? abs).isSome
    · rw [if_pos there] at wrote
      cases wrote
      exact ⟨rfl, rfl, .inl ⟨there, rfl⟩⟩
    · rw [if_neg there] at wrote
      split at wrote
      · nomatch wrote
      · split at wrote
        · cases wrote
          exact ⟨rfl, rfl, .inr ⟨Option.not_isSome_iff_eq_none.1 there, rfl⟩⟩
        · nomatch wrote

theorem write_keeps {fs fs' : Memory} {p text : String} (wrote : fs.write p text = .ok fs') :
    Keeps fs fs' := by
  obtain ⟨abs, -, cwd, dirs, ⟨-, files⟩ | ⟨-, files⟩⟩ := write_cases wrote
  · refine ⟨cwd, dirs, fun e mem => ?_⟩
    refine ⟨if e.1 == abs then (abs, text.toUTF8) else e, files ▸ List.mem_map_of_mem mem, ?_⟩
    split <;> simp_all
  · exact ⟨cwd, dirs, fun e mem => ⟨e, files ▸ List.mem_append_left _ mem, rfl⟩⟩

/-- A file written reads back as the octets of the text written. -/
theorem read_write {fs fs' : Memory} {p text : String} (wrote : fs.write p text = .ok fs') :
    fs'.read p = .ok text.toUTF8 := by
  obtain ⟨abs, found, -, -, written⟩ := write_cases wrote
  have there : fs'.fileAt? abs = some text.toUTF8 := by
    rcases written with ⟨was, files⟩ | ⟨was, files⟩
    · -- the first file at the path is the one replaced
      have same : ((fun e : String × ByteArray => e.1 == abs) ∘
          fun e => if e.1 == abs then (abs, text.toUTF8) else e) = fun e => e.1 == abs := by
        funext e
        by_cases hit : e.1 = abs <;> simp [hit]
      obtain ⟨e, hit⟩ := Option.isSome_iff_exists.1 was
      obtain ⟨e, first, rfl⟩ := Option.map_eq_some_iff.1 hit
      have at_abs : e.1 = abs := by simpa using List.find?_some first
      rw [fileAt?, files, List.find?_map, same, first]
      simp [at_abs]
    · -- no file was at the path, so the one added is found
      have none_before : fs.files.find? (fun e => e.1 == abs) = none := Option.map_eq_none_iff.1 was
      simp [fileAt?, files, List.find?_append, none_before]
  simp only [Memory.read, (write_keeps wrote).locate found, bind, Except.bind, there]

end Memory

/-! ## Running in memory -/

/-- A run of a bound computation in the state monad, with the state passed by hand. -/
theorem stateRun_bind {σ α β : Type} (x : StateM σ α) (f : α → StateM σ β) (s : σ) :
    (x >>= f).run s = (f (x.run s).1).run (x.run s).2 := rfl

theorem stateRun_pure {σ α : Type} (a : α) (s : σ) : (pure a : StateM σ α).run s = (a, s) := rfl

theorem stateRun_get {σ : Type} (s : σ) : (get : StateM σ σ).run s = (s, s) := rfl

theorem stateRun_set {σ : Type} (s s' : σ) : (set s' : StateM σ PUnit).run s = (⟨⟩, s') := rfl

theorem readFile_run (p : String) (fs : Memory) :
    (FileSystem.readFile p : StateM Memory _).run fs = (fs.read p, fs) := rfl

theorem entry_run (p : String) (fs : Memory) :
    (FileSystem.entry p : StateM Memory _).run fs = (fs.entry p, fs) := rfl

theorem writeFile_run_of_ok {p t : String} {fs fs' : Memory} (wrote : fs.write p t = .ok fs') :
    (FileSystem.writeFile p t : StateM Memory _).run fs = (.ok (), fs') := by
  simp only [FileSystem.writeFile, stateRun_bind, stateRun_get, wrote, stateRun_set,
    stateRun_pure]

theorem writeFile_run_of_error {p t : String} {fs : Memory} {e : FileError}
    (refused : fs.write p t = .error e) :
    (FileSystem.writeFile p t : StateM Memory _).run fs = (.error e, fs) := by
  simp only [FileSystem.writeFile, stateRun_bind, stateRun_get, refused, stateRun_pure]

/-- A computation on a file system in memory that gives it back as it found it. -/
def ReadOnly {α : Type} (x : StateM Memory α) : Prop :=
  ∀ fs, (x.run fs).2 = fs

namespace ReadOnly

theorem pure {α : Type} (a : α) : ReadOnly (Pure.pure a : StateM Memory α) := fun _ => rfl

theorem bind {α β : Type} {x : StateM Memory α} {f : α → StateM Memory β} (first : ReadOnly x)
    (rest : ∀ a, ReadOnly (f a)) : ReadOnly (x >>= f) := fun fs => by
  rw [stateRun_bind, rest, first]

theorem readFile (p : String) : ReadOnly (FileSystem.readFile p : StateM Memory _) :=
  fun _ => rfl

theorem entry (p : String) : ReadOnly (FileSystem.entry p : StateM Memory _) := fun _ => rfl

theorem workingDirectory : ReadOnly (FileSystem.workingDirectory : StateM Memory _) :=
  fun _ => rfl

/-- What a read-only computation gives, with the state it leaves. -/
theorem run_eq {α : Type} {x : StateM Memory α} (looks : ReadOnly x) (fs : Memory) :
    x.run fs = ((x.run fs).1, fs) :=
  Prod.ext rfl (looks fs)

end ReadOnly

end RubyCheck.Files
