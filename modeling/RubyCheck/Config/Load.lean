import RubyCheck.Config.Settings
import RubyCheck.Files.System

/-!
# Finding and loading settings

**Settings from a named file, or from the first file found above a directory.**

- `Settings.atPath` loads the file at a path when something stands there; otherwise the defaults
  hold. A directory at the path cannot be read, and says so.
- `Settings.discover` climbs from a path, made absolute, to the top. In each directory it takes
  `.rblint.toml` if that is a file, and otherwise `pyproject.toml` if that is a file whose `tool`
  table names the linter. A `pyproject.toml` that cannot be read or is not TOML is passed over.
  When no directory has either, the defaults hold.

A file that is not UTF-8, or that writes a number too long to be read, fails the load in every
case.
-/

namespace RubyCheck.Config

open Files

variable {m : Type → Type} [Monad m] [FileSystem m]

/-- The document in the file at `path`. -/
def readDocument (path : String) : m (Except ConfigError Toml.Table) := do
  match ← FileSystem.readFile path with
  | .error e => return .error (.unreadable path e.message)
  | .ok bytes =>
    match Text.Utf8.decode? bytes with
    | .error bad => return .error (.undecodable bad)
    | .ok text =>
      return (Toml.parse text).mapError fun
        | .malformed reason => .unreadable path reason
        | .number e => .number e

/-- The settings in the file at `path`. -/
def Settings.load (path : String) : m (Except ConfigError Settings) := do
  return (← readDocument path).bind (Settings.ofTable path)

/-- The settings of the file at `path` when something stands there, else the defaults. -/
def Settings.atPath (path : Option String) : m (Except ConfigError Settings) := do
  match path with
  | none => return .ok {}
  | some p =>
    let p := Path.normalize p
    match ← FileSystem.entry p with
    | none => return .ok {}
    | some _ => Settings.load p

/-- Whether the `pyproject.toml` at `path` holds settings of the linter; one that cannot be read
or is not TOML does not. -/
def projectHasSettings (path : String) : m (Except ConfigError Bool) := do
  match ← FileSystem.readFile path with
  | .error _ => return .ok false
  | .ok bytes =>
    match Text.Utf8.decode? bytes with
    | .error bad => return .error (.undecodable bad)
    | .ok text =>
      match Toml.parse text with
      | .error (.malformed _) => return .ok false
      | .error (.number e) => return .error (.number e)
      | .ok doc => return hasSettings doc

/-- The file names looked for in each directory, and whether the file must name the linter. -/
def candidateNames : List (String × Bool) := [(".rblint.toml", false), ("pyproject.toml", true)]

/-- The settings of the first candidate that is a file and, where asked, names the linter. -/
def firstCandidate : List (String × Bool) → m (Except ConfigError Settings)
  | [] => return .ok {}
  | (path, needsSettings) :: rest => do
    if (← FileSystem.entry path) != some .file then return ← firstCandidate rest
    if needsSettings then
      match ← projectHasSettings path with
      | .error e => return .error e
      | .ok false => return ← firstCandidate rest
      | .ok true => Settings.atPath (some path)
    else Settings.atPath (some path)

/-- The settings of the first configuration file in `start` or a directory above it. -/
def Settings.discover (start : String) : m (Except ConfigError Settings) := do
  let cwd ← FileSystem.workingDirectory
  let dirs := Path.ancestors (Path.resolve cwd start)
  firstCandidate (dirs.flatMap fun d => candidateNames.map fun (n, s) => (Path.join d n, s))

end RubyCheck.Config
