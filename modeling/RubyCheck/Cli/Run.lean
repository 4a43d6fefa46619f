import RubyCheck.Cli.Args
import RubyCheck.Config.Load
import RubyCheck.Lint.Engine
import RubyCheck.Lint.Registry
import RubyCheck.Report.Basic

/-!
# Running a command

**A command of the command line, run against a file system: what it prints and how it ends.**

`lint` first settles its settings: from the file named by `--config`, which must exist, or from
the first settings file found from the working directory upward. A verdict on the settings is
printed to the error stream and ends the run with status 2.

Then each file is linted in the order named, against the file system as the files before it left
it. A file that cannot be read, is not UTF-8, or fails the linter gets an error in the report.
With `--fix`, a file with a fixable issue is fixed, as many rounds as the settings allow, and
written back when its text changed; its fixable issues are then marked corrected. The issues
reported are those of the first lint of the file.

The report is printed plain or as JSON, and the run ends with the report's status.

A failure that no part of the run handles (`Crash`) ends the run with status 1 and nothing
printed.

The parts of `lint` take the reader of concrete trees as a parameter; `run` reads with
`Ruby.concreteTree`.
-/

namespace RubyCheck.Cli

open Files Config Lint

/-- A failure that no part of a run handles. -/
inductive Crash where
  /-- A settings file could not be read as settings. -/
  | config (e : ConfigError)
  /-- A correction reached past the end of a file's text. -/
  | edit (e : EditError)
  deriving Repr

/-- The sentence that reports a crash. -/
def Crash.message : Crash → String
  | .config e => e.message
  | .edit e => e.message

/-- How a run ended: what it printed to each stream, its status, and the failure that ended it,
if one did. -/
structure Outcome where
  stdout : String := ""
  stderr : String := ""
  exitCode : Nat := 0
  crash : Option Crash := none
  deriving Repr

/-- The lines of `rules`: each rule's id, whether it corrects, and what it looks for. -/
def rulesListing (reg : Registry) : String :=
  String.join (reg.rules.map fun r =>
    r.id ++ (if r.fixable then " (autocorrectable)" else "") ++ ": " ++ r.description ++ "\n")

/-- A linter failure as a file's error, or the crash it is when no part of the run handles it. -/
def fileError (f : LintFailure) : Except Crash String :=
  match f with
  | .edit (.outside e size) => throw (.edit (.outside e size))
  | f => pure f.message

variable {m : Type → Type} [Monad m] [FileSystem m] (read : String → Ruby.Cst)

/-- The report of a file whose text is `text`, and the text it must be given, if a fix changed
it; `read` reads concrete trees. -/
def lintText (rules : List Rule) (fix : Bool) (maxPasses : Nat) (path text : String) :
    Except Crash (FileReport × Option String) := do
  let (parsed, linted) := lintStringWith read rules text path
  match linted.result with
  | .error f => return ({ path, error := some (← fileError f) }, none)
  | .ok ds =>
    let issues (corrected : Bool) := ds.map (Issue.ofDiagnostic parsed.buffer path corrected)
    if !(fix && ds.any Diagnostic.fixable) then
      return ({ path, parseErrors := parsed.errors, issues := issues false }, none)
    match (fixStringWith read rules text path maxPasses).2 with
    | .error f =>
      return ({ path, parseErrors := parsed.errors, error := some (← fileError f) }, none)
    | .ok fixed =>
      if fixed.modified then
        return ({ path, parseErrors := parsed.errors, issues := issues true }, some fixed.source)
      else return ({ path, parseErrors := parsed.errors, issues := issues false }, none)

/-- Lints the file at `path`, fixing it when asked. -/
def lintFile (rules : List Rule) (fix : Bool) (maxPasses : Nat) (path : String) :
    m (Except Crash FileReport) := do
  match ← FileSystem.readFile path with
  | .error e => return .ok { path, error := some e.message }
  | .ok bytes =>
    match Text.Utf8.decode? bytes with
    | .error bad => return .ok { path, error := some bad.message }
    | .ok text =>
      match lintText read rules fix maxPasses path text with
      | .error c => return .error c
      | .ok (report, none) => return .ok report
      | .ok (report, some fixedText) =>
        match ← FileSystem.writeFile path fixedText with
        | .ok () => return .ok report
        | .error e => return .ok { path, parseErrors := report.parseErrors, error := some e.message }

/-- Lints the files in order, each against the file system the ones before it left. -/
def lintFiles (rules : List Rule) (fix : Bool) (maxPasses : Nat) :
    List String → m (Except Crash (List FileReport))
  | [] => return .ok []
  | path :: rest => do
    match ← lintFile read rules fix maxPasses path with
    | .error c => return .error c
    | .ok r =>
      match ← lintFiles rules fix maxPasses rest with
      | .error c => return .error c
      | .ok rs => return .ok (r :: rs)

/-- The settings of a run: from the file named, which must exist, or found from the working
directory. -/
def settingsFor (config : Option String) : m (Except ConfigError Settings) := do
  match config with
  | some c =>
    let c := Path.normalize c
    if (← FileSystem.entry c).isNone then return .error (.absent c)
    Settings.atPath (some c)
  | none => Settings.discover "."

/-- Runs `lint` on `files`, reading concrete trees with `read`. -/
def runLint (files : List String) (config : Option String) (fix json : Bool) : m Outcome := do
  match ← settingsFor config with
  | .error e =>
    if e.isVerdict then return { stderr := "Error: " ++ e.message ++ "\n", exitCode := 2 }
    else return { exitCode := 1, crash := some (.config e) }
  | .ok settings =>
    let rules := Registry.builtin.enabled settings.select settings.ignore
    match ← lintFiles read rules fix settings.maxFixPasses (files.map Path.normalize) with
    | .error c => return { exitCode := 1, crash := some c }
    | .ok reports =>
      let report : Report := { files := reports }
      return { stdout := if json then report.json else report.plain, exitCode := report.exitCode }

/-- Runs the command that the words after the program's name ask for. -/
def run (args : List String) : m Outcome :=
  match Command.ofArgs args with
  | .lint files config fix json _ => runLint Ruby.concreteTree files config fix json
  | .rules => return { stdout := rulesListing Registry.builtin }
  | .usage reason => return { stderr := "Error: " ++ reason ++ "\n", exitCode := 2 }

end RubyCheck.Cli
