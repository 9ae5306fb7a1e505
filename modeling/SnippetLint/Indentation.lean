/-
Indentation: the white space that a line begins with, one for each character of it.
-/
import SnippetLint.Rule

namespace SnippetLint.Indentation

/-- The white space at the front of a line. -/
def indent (line : Text) : Text := line.takeWhile Unicode.isBlank

/-- The width of that white space. -/
def width (line : Text) : Nat := (indent line).length

/-- The finding for a line that is not indented like the first. -/
def misplaced (line : Text) (number : Nat) : Finding :=
  .onLine number line ("Inconsistent indentation at line " ++ toString number ++ ": \""
    ++ String.ofList (Text.trim line) ++ "\"")

/-- Reports each line that is not indented as far as the first; blank lines do not count. -/
def inconsistent : Check := fun t =>
  match (Text.numberedLines t).filter fun (line, _) => !Text.isBlank line with
  | [] => return []
  | (first, _) :: rest =>
    return (rest.filter fun (line, _) => width line != width first).map fun (line, number) =>
      misplaced line number

end SnippetLint.Indentation
