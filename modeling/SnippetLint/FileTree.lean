/-
Files as data.

A file tree is what a program sees of a disk: directories that hold files and directories under
their names. Reading is a function of the tree and a path, with the ways in which it can fail.
-/
import SnippetLint.Path

namespace SnippetLint

inductive FileTree where
  | file (content : ByteArray)
  | directory (entries : List (String × FileTree))

/-- Why a file cannot be read. -/
inductive FileError where
  | notFound
  | notADirectory
  | isADirectory
  | nameTooLong
  | nameWithNul
  | notText
  deriving DecidableEq, Repr

namespace FileError

/-- The words of the operating system, or for its text reader, for an error. -/
def message : FileError → String
  | notFound => "No such file or directory (os error 2)"
  | notADirectory => "Not a directory (os error 20)"
  | isADirectory => "Is a directory (os error 21)"
  | nameTooLong => "File name too long (os error 36)"
  | nameWithNul => "file name contained an unexpected NUL byte"
  | notText => "stream did not contain valid UTF-8"

end FileError

namespace FileTree

/-- The entries of a directory; a file has none. -/
def entries : FileTree → List (String × FileTree)
  | file _ => []
  | directory entries => entries

def isFile : FileTree → Bool
  | file _ => true
  | directory _ => false

def isDirectory : FileTree → Bool
  | file _ => false
  | directory _ => true

mutual

/-- How many directories can lie inside each other, with the file inside. -/
def depth : FileTree → Nat
  | file _ => 0
  | directory entries => entriesDepth entries + 1

def entriesDepth : List (String × FileTree) → Nat
  | [] => 0
  | (_, t) :: rest => max t.depth (entriesDepth rest)

end

/-- Entries with one under a name, in place of the one there was. -/
def setEntry (entries : List (String × FileTree)) (name : String) (t : FileTree) :
    List (String × FileTree) :=
  (name, t) :: entries.filter (·.1 != name)

/--
A tree with another one put where names lead to; missing directories are made. A directory that is
there is not made empty.
-/
def put (old : FileTree) : List String → FileTree → FileTree
  | [], new =>
    match new, old with
    | directory [], directory _ => old
    | _, _ => new
  | name :: rest, new =>
    let inner := (old.entries.lookup name).getD (directory [])
    directory (setEntry old.entries name (put inner rest new))

/-- The length, in bytes, that a name in a directory may have. -/
def maxNameLength : Nat := 255

/-- The length, in bytes, that a path may have. -/
def maxPathLength : Nat := 4095

/--
Follows names from a place, which is given by the directories that lead to it, the innermost first.
Above the outermost directory is that directory itself.
-/
def walk (above : List FileTree) (here : FileTree) : List String → Except FileError FileTree
  | [] => .ok here
  | name :: rest =>
    match here with
    | file _ => .error .notADirectory
    | directory entries =>
      if name = "" ∨ name = "." then walk above here rest
      else if name = ".." then
        match above with
        | [] => walk [] here rest
        | outer :: further => walk further outer rest
      else if maxNameLength < name.utf8ByteSize then .error .nameTooLong
      else match entries.lookup name with
        | some inner => walk (here :: above) inner rest
        | none => .error .notFound

end FileTree

/-- A disk with the directory that relative paths start from. -/
structure FileSystem where
  root : FileTree
  /-- The names that lead from the root to the working directory. -/
  working : List String

namespace FileSystem

/-- The names of a path, with empty ones for slashes in a row. -/
def names (path : String) : List String :=
  (Text.pieces (· == '/') path.toList).map String.ofList

/-- What a path leads to. -/
def locate (s : FileSystem) (path : String) : Except FileError FileTree :=
  if path.isEmpty then .error .notFound
  else if path.toList.contains '\x00' then .error .nameWithNul
  else if FileTree.maxPathLength < path.utf8ByteSize then .error .nameTooLong
  else if Text.startsWith path.toList "/" then FileTree.walk [] s.root (names path)
  else FileTree.walk [] s.root (s.working ++ names path)

/-- Whether a path leads to a file. -/
def isFile (s : FileSystem) (path : String) : Bool :=
  match s.locate path with
  | .ok found => found.isFile
  | .error _ => false

/-- Whether a path leads to a directory. -/
def isDirectory (s : FileSystem) (path : String) : Bool :=
  match s.locate path with
  | .ok found => found.isDirectory
  | .error _ => false

/-- Whether a path leads anywhere. -/
def isThere (s : FileSystem) (path : String) : Bool :=
  match s.locate path with
  | .ok _ => true
  | .error _ => false

/-- The names in a directory, in order. -/
def listing (s : FileSystem) (path : String) : List String :=
  match s.locate path with
  | .ok found => (found.entries.map (·.1)).mergeSort fun a b => !decide (b < a)
  | .error _ => []

/-- The text of a file. -/
def readText (s : FileSystem) (path : String) : Except FileError String := do
  match ← s.locate path with
  | .directory _ => throw .isADirectory
  | .file content =>
    match String.fromUTF8? content with
    | some text => return text
    | none => throw .notText

end FileSystem

end SnippetLint
