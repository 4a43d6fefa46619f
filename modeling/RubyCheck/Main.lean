import RubyCheck.Cli.Run

/-!
# The command line

**`rblint lint FILES...` and `rblint rules`, against the disk.**

The disk answers as a `FileSystem`: a path names a file or a directory when it resolves, and a
refusal to read or write is sorted by what the system says. The outcome's streams are printed
and its status is the process's.
-/

namespace RubyCheck.Cli

open Files

/-- A refusal of the disk, sorted by kind, naming the path as given. -/
def refusal (path : String) : IO.Error → FileError
  | .noFileOrDirectory .. => .notFound path
  | .inappropriateType _ _ details =>
    if details == "Is a directory" then .isDirectory path
    else if details == "not a directory" then .notDirectory path
    else .other details
  | e => .other (toString e)

instance : FileSystem IO where
  workingDirectory := return (← IO.currentDir).toString
  entry p := do
    try
      let real ← IO.FS.realPath p
      return some (if ← real.isDir then .directory else .file)
    catch _ => return none
  readFile p := do
    try return .ok (← IO.FS.readBinFile p)
    catch e => return .error (refusal p e)
  writeFile p text := do
    try
      IO.FS.writeFile p text
      return .ok ()
    catch e => return .error (refusal p e)

end RubyCheck.Cli

open RubyCheck.Cli in
/-- Runs the command line's words, prints what the run printed, and ends with its status. -/
def main (args : List String) : IO UInt32 := do
  let out ← (run args : IO Outcome)
  IO.print out.stdout
  IO.eprint out.stderr
  if let some c := out.crash then IO.eprintln c.message
  return out.exitCode.toUInt32
