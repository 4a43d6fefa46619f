import RubyCheck.Report.Json
import RubyCheck.Lint.Rule

/-!
# Lint reports

**What a run over files found, and the two ways it is printed.**

A report holds one entry per file named, in the order named. An entry holds the file's issues,
the reader's complaints about its syntax, and the error that stopped it, if one did. An issue is a
diagnostic placed in its file, with whether a fix of the file removed it.

- `Report.plain` prints, per file, a line for its error, a line per syntax complaint and a line
  per issue, sorted by line and column; then a blank line and the count of issues and of those
  corrected.
- `Report.json` prints the report as JSON, members in the order of the fields below.
- `Report.exitCode` is 2 when a file failed, 1 when an issue remains uncorrected, and 0 otherwise.
-/

namespace RubyCheck

open Lint

/-- A replacement proposed for a range of octets. -/
structure Correction where
  start : Nat
  stop : Nat
  replacement : String
  deriving Repr

/-- A diagnostic placed in its file. -/
structure Issue where
  /-- The severity, in capitals. -/
  severity : String
  path : String
  /-- The line, from one. -/
  line : Int
  /-- The column, from zero. -/
  column : Int
  ruleId : String
  message : String
  correction : Option Correction := none
  fixable : Bool := false
  /-- Whether a fix of the file removed the issue. -/
  corrected : Bool := false
  deriving Repr

/-- The issue of a diagnostic of the file at `path`, whose text is in `buffer`. -/
def Issue.ofDiagnostic (buffer : Source.Buffer) (path : String) (corrected : Bool)
    (d : Diagnostic) : Issue :=
  let (line, column) := d.location buffer
  { severity := d.severity.value.toUpper, path, line, column, ruleId := d.ruleId,
    message := d.message,
    correction := d.edit.map fun e => ⟨e.span.start, e.span.stop, e.replacement⟩,
    fixable := d.fixable, corrected := corrected && d.fixable }

/-- What a run found in one file. -/
structure FileReport where
  path : String
  issues : List Issue := []
  parseErrors : List String := []
  error : Option String := none
  deriving Repr

/-- What a run found in every file, in the order named. -/
structure Report where
  files : List FileReport := []
  deriving Repr

/-- The number of issues. -/
def Report.issueCount (r : Report) : Nat :=
  (r.files.map fun f => f.issues.length).foldr (· + ·) 0

/-- The number of issues that remain: those not corrected. -/
def Report.offenseCount (r : Report) : Nat :=
  (r.files.map fun f => (f.issues.filter fun i => !i.corrected).length).foldr (· + ·) 0

/-- The line of an issue: severity, place (column from one), rule, mark of correction, message. -/
def Issue.text (i : Issue) : String :=
  i.severity ++ ": " ++ i.path ++ ":" ++ toString i.line ++ ":" ++ toString (i.column + 1) ++
    " [" ++ i.ruleId ++ "]" ++ (if i.corrected then " [Corrected]" else "") ++ " - " ++ i.message

/-- Whether `a` comes no later than `b`: by line, then column. -/
def Issue.before (a b : Issue) : Bool :=
  a.line < b.line || (a.line == b.line && a.column ≤ b.column)

/-- The lines of one file: its error, its syntax complaints, its issues by place. -/
def FileReport.lines (f : FileReport) : List String :=
  (f.error.map fun e => "ERROR: " ++ f.path ++ " - " ++ e).toList ++
    f.parseErrors.map (fun e => "PARSE: " ++ f.path ++ " - " ++ e) ++
    (f.issues.mergeSort Issue.before).map Issue.text

/-- The report as lines of text, each ended by a line break. -/
def Report.plain (r : Report) : String :=
  let body := (r.files.flatMap FileReport.lines).map (· ++ "\n")
  let corrected := r.issueCount - r.offenseCount
  String.join body ++ "\nTotal issues found: " ++ toString r.issueCount ++ " (" ++
    toString corrected ++ " corrected)\n"

/-- An issue as a JSON object. -/
def Issue.toJson (i : Issue) : JsonValue :=
  .obj [("severity", .str i.severity), ("file_path", .str i.path), ("line_number", .int i.line),
    ("column", .int i.column), ("rule_id", .str i.ruleId), ("message", .str i.message),
    ("correction", match i.correction with
      | some c => .obj [("start", .int c.start), ("end", .int c.stop),
          ("replacement", .str c.replacement)]
      | none => .null),
    ("auto_fixable", .bool i.fixable), ("corrected", .bool i.corrected)]

/-- A file's entry as a JSON object. -/
def FileReport.toJson (f : FileReport) : JsonValue :=
  .obj [("file_path", .str f.path), ("issues", .arr (f.issues.map Issue.toJson)),
    ("parse_errors", .arr (f.parseErrors.map .str)),
    ("error", match f.error with
      | some e => .str e
      | none => .null)]

/-- The report as indented JSON, ended by a line break. -/
def Report.json (r : Report) : String :=
  (JsonValue.obj [("files", .arr (r.files.map FileReport.toJson))]).pretty ++ "\n"

/-- The status a run ends with: 2 when a file failed, 1 when an issue remains, else 0. -/
def Report.exitCode (r : Report) : Nat :=
  if r.files.any fun f => f.error.isSome then 2
  else if r.offenseCount > 0 then 1
  else 0

end RubyCheck
