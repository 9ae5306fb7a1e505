/-
The paths that a wildcard stands for.

A wildcard is followed name by name. A name without anything left open is looked for by itself; for
another one the directory is searched, and its names are taken in order. Two stars stay behind for the
directories inside.
-/
import SnippetLint.FileTree
import SnippetLint.Wildcard.Basic

namespace SnippetLint.Wildcard

/-- A path on the way. -/
structure Candidate where
  path : String
  /-- What the last name of the path and the names below it have to match; nothing if all is done. -/
  pending : List (List Part)

/-- Whether a path is another way to write the directory one is in. -/
def isHere (path : String) : Bool := Text.startsWith path.toList "." && (Path.parts path).isEmpty

/-- A name inside a directory; inside the one that one is in, the name alone. -/
def inside (directory name : String) : String :=
  if isHere directory then name else Path.join directory name

/-- Whether a name stands for a directory on the way instead of one inside. -/
def isSpecial (name : String) : Bool := name == "." || name == ".."

/-- The candidates below a path, in the order in which they are to be followed. -/
def reach (s : FileSystem) (path : String) : List (List Part) → List Candidate
  | [] => [⟨path, []⟩]
  | parts :: rest =>
    match literalName? parts with
    | some name =>
      let next := inside path name
      if if isSpecial name then s.isDirectory path else s.isThere next then reach s next rest else []
    | none =>
      if !s.isDirectory path then []
      else
        let special := fun name =>
          if parts.head? = some (.literal '.') && matchesName parts name then
            reach s (Path.join path name) rest
          else []
        special ".." ++ special "."
          ++ (s.listing path).map fun name => ⟨inside path name, parts :: rest⟩

/--
The paths that a candidate leads to. The number of steps bounds how many names are passed on the way;
`further` continues with a candidate below.
-/
def follow (s : FileSystem) (directoriesOnly : Bool) : Nat → Candidate → List String
  | 0, _ => []
  | steps + 1, ⟨path, pending⟩ =>
    let named := fun parts rest =>
      if (Path.fileName? path).any (matchesName parts) then
        match rest with
        | [] => if directoriesOnly && !s.isDirectory path then [] else [path]
        | rest => (reach s path rest).flatMap (follow s directoriesOnly steps)
      else []
    match pending with
    | [] => if directoriesOnly && !s.isDirectory path then [] else [path]
    | parts :: rest =>
      if isRecursive parts then
        let rest := rest.dropWhile isRecursive
        let here := match rest with
          | [] => if s.isDirectory path then [path] else []
          | parts :: rest => named parts rest
        here ++ (reach s path (parts :: rest)).flatMap (follow s directoriesOnly steps)
      else named parts rest

/-- The names in a wildcard; a slash at its end adds none, and there is at least one. -/
def names (t : List Char) : List (List Char) :=
  let pieces := Text.pieces (· == '/') t
  let pieces := if pieces.getLast? = some [] then pieces.dropLast else pieces
  if pieces.isEmpty then [[]] else pieces

/-- The paths that a wildcard stands for, in order. -/
def expand (s : FileSystem) (wildcard : String) : Except Error (List String) := do
  let text := wildcard.toList
  let _ ← parse text
  let (start, relative) := match text with
    | '/' :: rest => ("/", rest)
    | _ => (".", text)
  let pending ← (names relative).mapM parse
  let steps := (pending.length + 1) * (s.root.depth + 2)
  return (reach s start pending).flatMap (follow s (text.getLast? == some '/') steps)

end SnippetLint.Wildcard
