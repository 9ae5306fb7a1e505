/-
Places in a YAML text.

Structure in YAML is told by columns, so a place knows its line and column. Before anything else the
line endings of a text are made the same; two Unicode line separators break lines too, and are kept.
-/
namespace SnippetLint.Yaml

/-- Characters that may stand in a YAML text. -/
def isAllowed (c : Char) : Bool :=
  let n := c.toNat
  n == 0x09 || n == 0x0A || n == 0x0D || (0x20 ≤ n && n ≤ 0x7E) || n == 0x85
    || (0xA0 ≤ n && n ≤ 0xFFFD) || 0x10000 ≤ n

/-- With a line feed in place of each line ending. -/
def unifyLineEnds : List Char → List Char
  | '\r' :: '\n' :: rest => '\n' :: unifyLineEnds rest
  | c :: rest => (if c = '\r' ∨ c = '\u0085' then '\n' else c) :: unifyLineEnds rest
  | [] => []

/-- A space or a tab. -/
def isBlank (c : Char) : Bool := c == ' ' || c == '\t'

/-- The end of a line. -/
def isBreak (c : Char) : Bool := c == '\n' || c == '\u2028' || c == '\u2029'

/-- A blank, the end of a line, or the end of the text. -/
def isGap (c : Option Char) : Bool := c.all fun c => isBlank c || isBreak c

/-- The end of a line, or the end of the text. -/
def isLineEnd (c : Option Char) : Bool := c.all isBreak

structure Place where
  rest : List Char
  line : Nat
  column : Nat
  index : Nat

namespace Place

def start (t : List Char) : Place := ⟨t, 0, 0, 0⟩

/-- The character that follows. -/
def peek (p : Place) : Option Char := p.rest.head?

/-- The character that follows after a number of others. -/
def peekAt (p : Place) (n : Nat) : Option Char := p.rest[n]?

/-- Behind the character that follows, which ends no line. -/
def skip (p : Place) : Place := ⟨p.rest.tail, p.line, p.column + 1, p.index + 1⟩

/-- Behind several characters, none of which ends a line. -/
def skipMany (p : Place) (n : Nat) : Place :=
  ⟨p.rest.drop n, p.line, p.column + n, p.index + n⟩

/-- Behind the line end that follows. -/
def skipBreak (p : Place) : Place := ⟨p.rest.tail, p.line + 1, 0, p.index + 1⟩

/-- Behind the characters of a class, none of which ends a line, and those characters. -/
def skipWhile (p : Place) (f : Char → Bool) : List Char × Place :=
  let passed := p.rest.takeWhile f
  (passed, p.skipMany passed.length)

/-- Behind blanks. -/
def skipBlanks (p : Place) : Place := (p.skipWhile isBlank).2

/-- Behind a comment, if one begins here. -/
def skipComment (p : Place) : Place :=
  if p.peek = some '#' then (p.skipWhile fun c => !isBreak c).2 else p

/-- Whether a line begins here with a mark of three characters that stands alone. -/
def atMark (p : Place) (c : Char) : Bool :=
  p.column == 0 && p.rest.take 3 == [c, c, c] && isGap (p.peekAt 3)

/-- Whether a document begins or ends here. -/
def atDocumentMark (p : Place) : Bool := p.atMark '-' || p.atMark '.'

end Place

end SnippetLint.Yaml
