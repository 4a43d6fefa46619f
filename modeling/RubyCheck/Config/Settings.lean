import RubyCheck.Toml.Document
import RubyCheck.Text.Utf8

/-!
# Lint settings

**Which rules run, and how often fixing may repeat, as a configuration table says.**

A configuration file is a TOML document. Its settings are the table `tool.rblint` when the
document has one, and the whole document otherwise:

- `select`: a list of strings naming the rules, departments or rule names to run; all rules run
  when it is absent;
- `ignore`: a list of strings naming what not to run, none by default;
- `max-fix-passes`: a positive integer bounding the rounds of fixing, 10 by default.

Settings are checked in that order; the first that is wrong fails the whole file.
-/

namespace RubyCheck.Config

open Toml

/-- Why settings could not be loaded. -/
inductive ConfigError where
  /-- The file could not be read, or is not TOML: the path and the reason. -/
  | unreadable (path reason : String)
  /-- A setting that must be a list of strings is not. -/
  | notStrings (path key : String)
  /-- `max-fix-passes` is not a positive integer. -/
  | badPasses (path : String)
  /-- The file named on the command line does not exist. -/
  | absent (path : String)
  /-- The file is not UTF-8. -/
  | undecodable (m : Text.Utf8.Malformed)
  /-- A value that must be a table to be looked into is of another kind. -/
  | notTable (kind : String)
  /-- A value that must hold names to be searched is of another kind. -/
  | notContainer (kind : String)
  /-- The file writes a number too long to be read. -/
  | number (e : Text.NumberError)
  deriving Repr

/-- The sentence that reports a configuration error. -/
def ConfigError.message : ConfigError → String
  | .unreadable path reason => "Cannot read " ++ path ++ ": " ++ reason
  | .notStrings path key => path ++ ": " ++ key ++ " must be a list of strings"
  | .badPasses path => path ++ ": max-fix-passes must be a positive integer"
  | .absent path => "Config file " ++ path ++ " does not exist"
  | .undecodable m => m.message
  | .notTable kind => "'" ++ kind ++ "' object has no attribute 'get'"
  | .notContainer kind => "argument of type '" ++ kind ++ "' is not iterable"
  | .number e => e.message

/-- Whether an error is a verdict on the settings, which the command line reports and ends on.
The others (a file that is not UTF-8, a value of the wrong kind where a table or a list is looked
into) are failures of reading that no part of the linter handles. -/
def ConfigError.isVerdict : ConfigError → Bool
  | .unreadable .. | .notStrings .. | .badPasses _ | .absent _ => true
  | .undecodable _ | .notTable _ | .notContainer _ | .number _ => false

/-- The name of a value's kind, as errors about it say. -/
def kindName : Value → String
  | .string _ => "str"
  | .integer _ => "int"
  | .float _ => "float"
  | .boolean _ => "bool"
  | .dateTime _ => "datetime.datetime"
  | .date _ => "datetime.date"
  | .time _ => "datetime.time"
  | .array _ => "list"
  | .table _ => "dict"

/-- The settings of a run. -/
structure Settings where
  /-- The rules to run, by id, name or department; `none` runs all. -/
  select : Option (List String) := none
  /-- The rules not to run. -/
  ignore : List String := []
  /-- The most rounds of fixing. -/
  maxFixPasses : Nat := 10
  /-- The file the settings came from, if any. -/
  source : Option String := none
  deriving Repr

/-- The value of `key` in the settings table, which must be a table. -/
def lookup (settings : Value) (key : String) : Except ConfigError (Option Value) :=
  match settings with
  | .table t => pure (Table.get? t key)
  | other => throw (.notTable (kindName other))

/-- The list of strings at `key`, if there is one. -/
def stringList? (path : String) (settings : Value) (key : String) :
    Except ConfigError (Option (List String)) := do
  match ← lookup settings key with
  | none => pure none
  | some (.array items) =>
    let strings := items.filterMap fun | .string s => some s | _ => none
    if strings.length == items.length then pure (some strings)
    else throw (.notStrings path key)
  | some _ => throw (.notStrings path key)

/-- The settings table of a document: `tool.rblint`, or the whole document. -/
def settingsOf (doc : Table) : Except ConfigError Value :=
  match doc.get? "tool" with
  | none => pure (.table doc)
  | some (.table tool) => pure ((Table.get? tool "rblint").getD (.table doc))
  | some other => throw (.notTable (kindName other))

/-- The settings a document gives, read from the file at `path`. -/
def Settings.ofTable (path : String) (doc : Table) : Except ConfigError Settings := do
  let settings ← settingsOf doc
  let select ← stringList? path settings "select"
  let ignore ← stringList? path settings "ignore"
  let passes ← match ← lookup settings "max-fix-passes" with
    | none => pure 10
    | some (.integer n) => if n ≥ 1 then pure n.toNat else throw (.badPasses path)
    | some _ => throw (.badPasses path)
  return { select, ignore := ignore.getD [], maxFixPasses := passes, source := some path }

/-- Whether a document has settings of the linter: a `tool` value that holds the name `rblint`,
as a key of a table, a part of a string or an item of a list. -/
def hasSettings (doc : Table) : Except ConfigError Bool :=
  match doc.get? "tool" with
  | none => pure false
  | some (.table tool) => pure (Table.contains tool "rblint")
  | some (.string s) => pure ((s.splitOn "rblint").length > 1)
  | some (.array items) => pure (items.any fun | .string s => s == "rblint" | _ => false)
  | some other => throw (.notContainer (kindName other))

end RubyCheck.Config
