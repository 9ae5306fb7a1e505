/-
File paths as text.

A path is a sequence of names between slashes. Empty names and single dots say nothing and are
passed over, except that a path which begins with a single dot keeps it.
-/
import SnippetLint.Text.Basic

namespace SnippetLint.Path

/-- The parts of a path that say something. -/
def parts (path : String) : List String :=
  ((Text.pieces (· == '/') path.toList).filter fun p => !p.isEmpty && p != ['.']).map String.ofList

/-- The last name of a path, unless the path leads upwards there. -/
def fileName? (path : String) : Option String :=
  match (parts path).getLast? with
  | some ".." => none
  | last => last

/--
What stands behind the last dot of the file name. A name that has no dot, or only one at its very
front, has no extension.
-/
def extension? (path : String) : Option String := do
  let name := (← fileName? path).toList
  let tail := name.reverse.takeWhile (· != '.')
  if tail.length + 1 < name.length then some (String.ofList tail.reverse) else none

/-- A name inside a directory. -/
def join (directory name : String) : String :=
  if directory.isEmpty || directory.endsWith "/" then directory ++ name else directory ++ "/" ++ name

end SnippetLint.Path
