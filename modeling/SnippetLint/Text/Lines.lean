/-
Lines.

A line ends with a line feed, and a carriage return just before the line feed belongs to the
ending. The end of the text ends the last line too, unless that line is empty; a carriage return
there is part of the line.

Rules name a place in one of two ways: they number the lines and look at each, or they hold an
offset and ask for the line around it (`lineAt`).
-/
import SnippetLint.Text.Basic

namespace SnippetLint.Text

/-- The lines together with their endings; nothing is lost. -/
def linesWithEnds : Text → List Text
  | [] => []
  | c :: rest =>
    if c = '\n' then [c] :: linesWithEnds rest
    else match linesWithEnds rest with
      | [] => [[c]]
      | line :: more => (c :: line) :: more

/-- Without its line ending. -/
def dropLineEnd : Text → Text
  | [] => []
  | ['\n'] => []
  | ['\r', '\n'] => []
  | c :: rest => c :: dropLineEnd rest

/-- The lines of a text without their endings. -/
def lines (t : Text) : List Text := (linesWithEnds t).map dropLineEnd

/-- The lines of a text, each with its number, from 1. -/
def numberedLines (t : Text) : List (Text × Nat) := (lines t).zipIdx 1

/-- The offset behind the last line feed of a text, where its last line begins. -/
def lastLineStart (t : Text) : Nat := ((findLast? ['\n'] t).map (· + 1)).getD 0

/-- The offset of the first line feed of a text, or of its end. -/
def firstLineStop (t : Text) : Nat := (find? ['\n'] t).getD (size t)

/--
The number of the line around an offset, and what stands on it between its white space. An offset
behind the end counts as the end.
-/
def lineAt (t : Text) (offset : Nat) : Checked (Nat × Text) := do
  let offset := min offset (size t)
  let head ← before t offset
  let tail ← after t offset
  let line ← slice t (lastLineStart head) (offset + firstLineStop tail)
  return (head.count '\n' + 1, trim line)

end SnippetLint.Text
