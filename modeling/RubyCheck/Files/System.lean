import RubyCheck.Files.Path
import RubyCheck.Text.Quoted

/-!
# File systems

**What the linter asks of a file system, as a class over the effect that answers.**

Loading a configuration and linting files read and write files through `FileSystem m`, so the
same definitions run against the disk (in `IO`) and against a tree held in memory (`Memory`).
Paths are given as the program has them, relative to the working directory or absolute; a
failure names the path as given.
-/

namespace RubyCheck.Files

/-- What stands at a path. -/
inductive Entry where
  | file
  | directory
  deriving DecidableEq, Repr

/-- Why the system refused to read or write a file. -/
inductive FileError where
  /-- Nothing stands at the path. -/
  | notFound (path : String)
  /-- A directory stands at the path. -/
  | isDirectory (path : String)
  /-- A file stands where the path needs a directory. -/
  | notDirectory (path : String)
  /-- Another refusal, in the system's words. -/
  | other (message : String)
  deriving DecidableEq, Repr

/-- A refusal as the system reports it: its number, its words and the quoted path. -/
def FileError.message : FileError → String
  | .notFound p => "[Errno 2] No such file or directory: " ++ Text.quoted p
  | .isDirectory p => "[Errno 21] Is a directory: " ++ Text.quoted p
  | .notDirectory p => "[Errno 20] Not a directory: " ++ Text.quoted p
  | .other m => m

/-- A file system, as seen through the effect `m`. -/
class FileSystem (m : Type → Type) where
  /-- The working directory, as an absolute path. -/
  workingDirectory : m String
  /-- What stands at a path, if anything. -/
  entry : String → m (Option Entry)
  /-- The octets of the file at a path. -/
  readFile : String → m (Except FileError ByteArray)
  /-- Replaces the contents of the file at a path by a text, in UTF-8. -/
  writeFile : String → String → m (Except FileError Unit)

end RubyCheck.Files
