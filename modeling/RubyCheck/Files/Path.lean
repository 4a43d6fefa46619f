/-!
# Paths

**Slash-separated paths, written the short way, made absolute, and climbed.**

- `Path.normalize` writes a path without empty parts and `.` parts: `./a//b/` is `a/b`, and the
  empty path is `.`. A `..` part stays, since what it names depends on the files.
- `Path.resolve` makes a path absolute against a working directory and removes `.` and `..`
  parts; `..` at the top stays at the top.
- `Path.ancestors` lists an absolute path and every directory above it, up to `/`.
-/

namespace RubyCheck.Files

namespace Path

/-- The pieces of a path's characters between its slashes, empty pieces included. -/
def pieces : List Char → List (List Char)
  | [] => [[]]
  | c :: cs =>
    if c = '/' then [] :: pieces cs
    else
      match pieces cs with
      | [] => [[c]]
      | w :: ws => (c :: w) :: ws

/-- The parts of a path between its slashes, without empty and `.` parts. -/
def parts (p : String) : List String :=
  ((pieces p.toList).map String.ofList).filter fun s => s != "" && s != "."

/-- Whether a path starts at the top of the tree. -/
def isAbsolute (p : String) : Bool := p.toList.head? == some '/'

/-- A path written from its parts, absolute or relative. -/
def ofParts (absolute : Bool) (ps : List String) : String :=
  if absolute then "/" ++ "/".intercalate ps
  else if ps.isEmpty then "." else "/".intercalate ps

/-- A path written the short way: no empty or `.` parts, `.` for the empty path. -/
def normalize (p : String) : String := ofParts (isAbsolute p) (parts p)

/-- The parts of an absolute path with `..` parts applied to the parts before them. -/
def climb (ps : List String) : List String :=
  (ps.foldl (fun acc s => if s == ".." then acc.dropLast else acc ++ [s]) [])

/-- A path made absolute against the working directory `cwd`, with `.` and `..` applied. -/
def resolve (cwd p : String) : String :=
  let whole := if isAbsolute p then parts p else parts cwd ++ parts p
  ofParts true (climb whole)

/-- The path of `name` inside the directory `dir`. -/
def join (dir name : String) : String :=
  if dir.toList.getLast? == some '/' then dir ++ name else dir ++ "/" ++ name

/-- An absolute path, then each directory above it, up to `/`. -/
def ancestors (p : String) : List String :=
  let ps := parts p
  (List.range (ps.length + 1)).reverse.map fun n => ofParts true (ps.take n)

end Path

end RubyCheck.Files
