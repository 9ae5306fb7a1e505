/-
Braces.

Depth is counted on the bare text: strings and comments are not told apart from code, and a closing
brace at depth zero leaves the depth at zero.
-/
import SnippetLint.Text.Lines

namespace SnippetLint.Braces

/-- How many braces open, and how many close. -/
def counts (t : Text) : Nat × Nat := (t.count '\x7b', t.count '\x7d')

/-- The depth behind a character. -/
def depthAfter (depth : Nat) (c : Char) : Nat :=
  if c = '\x7b' then depth + 1 else if c = '\x7d' then depth - 1 else depth

/-- The depth behind a text that begins at some depth. -/
def depthOver (depth : Nat) (t : Text) : Nat := t.foldl depthAfter depth

/-- The greatest depth that a text which begins at some depth reaches. -/
def peakFrom (depth : Nat) : Text → Nat
  | [] => depth
  | c :: rest => max depth (peakFrom (depthAfter depth c) rest)

/-- The greatest depth anywhere in a text. -/
def peak (t : Text) : Nat := peakFrom 0 t

/-- The depth at the start of each of several lines, the first of which begins at some depth. -/
def depthsFrom (depth : Nat) : List Text → List Nat
  | [] => []
  | line :: rest => depth :: depthsFrom (depthOver depth line) rest

/-- The depth at the start of each line. -/
def lineDepths (t : Text) : List Nat := depthsFrom 0 (Text.lines t)

end SnippetLint.Braces
