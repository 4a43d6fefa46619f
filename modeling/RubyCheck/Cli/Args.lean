/-!
# The command line's words

**The words after the program's name, read as one of its commands.**

- `lint FILES...` lints the files named. Among the files may stand the flags `--fix` (and
  `--no-fix`), `--json`, `--verbose` or `-v`, and `--config PATH` or `--config=PATH`. After `--`,
  every word is a file.
- `rules` lists the rules.

Any other use is a usage error, reported in one line.
-/

namespace RubyCheck.Cli

/-- What the command line asks for. -/
inductive Command where
  /-- Lint `files`; `config` names the settings file, else it is looked for. -/
  | lint (files : List String) (config : Option String) (fix json verbose : Bool)
  /-- List the rules. -/
  | rules
  /-- A use the command line does not accept, and why. -/
  | usage (reason : String)
  deriving Repr, DecidableEq

/-- The options of `lint` gathered so far. -/
structure LintOptions where
  files : List String := []
  config : Option String := none
  fix : Bool := false
  json : Bool := false
  verbose : Bool := false

/-- Reads the words of `lint` after the command's name. -/
def lintOptions (opts : LintOptions) : List String → Except String LintOptions
  | [] => pure opts
  | "--" :: rest => pure { opts with files := opts.files ++ rest }
  | "--fix" :: rest => lintOptions { opts with fix := true } rest
  | "--no-fix" :: rest => lintOptions { opts with fix := false } rest
  | "--json" :: rest => lintOptions { opts with json := true } rest
  | "--verbose" :: rest | "-v" :: rest => lintOptions { opts with verbose := true } rest
  | "--config" :: value :: rest => lintOptions { opts with config := some value } rest
  | ["--config"] => throw "Option '--config' requires an argument."
  | w :: rest =>
    if w.startsWith "--config=" then
      lintOptions { opts with config := some (w.drop 9).toString } rest
    else if w.startsWith "-" && w != "-" then throw ("No such option: " ++ w)
    else lintOptions { opts with files := opts.files ++ [w] } rest

/-- The command that the words after the program's name ask for. -/
def Command.ofArgs : List String → Command
  | "lint" :: rest =>
    match lintOptions {} rest with
    | .error reason => .usage reason
    | .ok o =>
      if o.files.isEmpty then .usage "Missing argument 'FILES...'."
      else .lint o.files o.config o.fix o.json o.verbose
  | ["rules"] => .rules
  | "rules" :: w :: _ => .usage ("Got unexpected extra argument (" ++ w ++ ")")
  | w :: _ => .usage ("No such command '" ++ w ++ "'.")
  | [] => .usage "Missing command."

end RubyCheck.Cli
