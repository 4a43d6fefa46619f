import RubyCheck.Files.System

/-!
# A file system in memory

**Files and directories held as data, and the file system they make.**

A `Memory` holds files by absolute path, directories that were made empty, and a working
directory. A directory stands at a path when it was made there, when it is the top `/` or the
working directory or one above it, or when a file or made directory lies below it. Reading or
writing fails as a disk does: at a directory, below a file, or (for reading, or for writing in a
directory that is not there) where nothing stands. A path is walked part by part, so `..` climbs
only out of a directory that exists.
-/

namespace RubyCheck.Files

/-- Files and directories in memory, with a working directory. -/
structure Memory where
  /-- The working directory, absolute. -/
  cwd : String
  /-- Each file's absolute path and octets, in the order they were made. -/
  files : List (String × ByteArray) := []
  /-- Directories made, by absolute path. -/
  dirs : List String := []

namespace Memory

/-- Whether `inner` lies strictly below the directory `outer`. -/
def below (outer inner : String) : Bool :=
  (Path.join outer "").toList.isPrefixOf inner.toList

/-- The octets of the file at the absolute path `p`, if one is there. -/
def fileAt? (fs : Memory) (p : String) : Option ByteArray :=
  (fs.files.find? fun e => e.1 == p).map (·.2)

/-- Whether a directory stands at the absolute path `p`. -/
def isDirectory (fs : Memory) (p : String) : Bool :=
  p == "/" || p == fs.cwd || below p fs.cwd || fs.dirs.contains p ||
    fs.dirs.any (below p) || fs.files.any fun e => below p e.1

/-- The absolute path that `p` names, walked as a disk walks it: every part before the last
must lead into a directory, so that `..` climbs out of one that exists. -/
def locate (fs : Memory) (p : String) : Except FileError String :=
  let start := if Path.isAbsolute p then [] else Path.parts fs.cwd
  go start (Path.parts p)
where
  /-- Walks the parts `ps` from the directory whose parts are `acc`. -/
  go (acc : List String) : List String → Except FileError String
    | [] => .ok (Path.ofParts true acc)
    | [last] => .ok (Path.ofParts true (if last == ".." then acc.dropLast else acc ++ [last]))
    | c :: rest =>
      let next := if c == ".." then acc.dropLast else acc ++ [c]
      let here := Path.ofParts true next
      if fs.isDirectory here then go next rest
      else if (fs.fileAt? here).isSome then .error (.notDirectory p)
      else .error (.notFound p)

/-- What stands at a path. -/
def entry (fs : Memory) (p : String) : Option Entry :=
  match fs.locate p with
  | .error _ => none
  | .ok abs =>
    if (fs.fileAt? abs).isSome then some .file
    else if fs.isDirectory abs then some .directory
    else none

/-- The octets of the file at a path, or why there are none. -/
def read (fs : Memory) (p : String) : Except FileError ByteArray := do
  let abs ← fs.locate p
  match fs.fileAt? abs with
  | some bytes => .ok bytes
  | none => if fs.isDirectory abs then .error (.isDirectory p) else .error (.notFound p)

/-- The file system with the file at a path holding `text`, or why it cannot. -/
def write (fs : Memory) (p : String) (text : String) : Except FileError Memory := do
  let abs ← fs.locate p
  let bytes := text.toUTF8
  if (fs.fileAt? abs).isSome then
    .ok { fs with files := fs.files.map fun e => if e.1 == abs then (abs, bytes) else e }
  else if fs.isDirectory abs then .error (.isDirectory p)
  else
    let parent := Path.ofParts true (Path.parts abs).dropLast
    if fs.isDirectory parent then .ok { fs with files := fs.files ++ [(abs, bytes)] }
    else .error (.notFound p)

/-- A file system with the file at the relative path `p` holding `bytes`. -/
def addFile (fs : Memory) (p : String) (bytes : ByteArray) : Memory :=
  let abs := Path.resolve fs.cwd p
  if (fs.fileAt? abs).isSome then
    { fs with files := fs.files.map fun e => if e.1 == abs then (abs, bytes) else e }
  else { fs with files := fs.files ++ [(abs, bytes)] }

/-- A file system with a directory made at the relative path `p`. -/
def addDirectory (fs : Memory) (p : String) : Memory :=
  { fs with dirs := fs.dirs ++ [Path.resolve fs.cwd p] }

/-- Every file, by its path relative to the working directory, in the order they were made. -/
def listing (fs : Memory) : List (String × ByteArray) :=
  fs.files.map fun (p, b) => ((p.drop (Path.join fs.cwd "").length).toString, b)

end Memory

instance : FileSystem (StateM Memory) where
  workingDirectory := return (← get).cwd
  entry p := return (← get).entry p
  readFile p := return (← get).read p
  writeFile p text := do
    match (← get).write p text with
    | .ok fs => set fs; return .ok ()
    | .error e => return .error e

end RubyCheck.Files
