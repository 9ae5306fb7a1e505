/-
Patterns over text.

A pattern is a regular expression with groups and with the assertions that signatures and rules
need: word edges, and the edges of the text or of a line. It is data, so what a signature looks for
can be read off its definition and reasoned about.

Repetition comes in three forms. `many f` and `few f` repeat a single character class, preferring
more or fewer characters; every repetition that is not of this kind is a `repeated p`, which prefers
more rounds.
-/
import SnippetLint.Text.Basic
import SnippetLint.Unicode.Word

namespace SnippetLint

inductive Pattern where
  /-- Nothing. -/
  | nothing
  /-- One character of a class. -/
  | one (members : Char → Bool)
  /-- Characters of a class, as many as possible first. -/
  | many (members : Char → Bool)
  /-- Characters of a class, as few as possible first. -/
  | few (members : Char → Bool)
  /-- A place with a word character on one side only. -/
  | wordEdge
  /-- The very start of the text. -/
  | textStart
  /-- The very end of the text. -/
  | textEnd
  /-- The start of the text, or a place behind a line feed. -/
  | lineStart
  /-- The end of the text, or a place before a line feed. -/
  | lineEnd
  /-- One pattern after another. -/
  | both (first second : Pattern)
  /-- One of two patterns, the first if both are possible. -/
  | either (first second : Pattern)
  /-- Rounds of a pattern, each of which takes up text, as many as possible first. -/
  | repeated (round : Pattern)
  /-- A pattern whose extent is remembered under a number. -/
  | group (index : Nat) (inner : Pattern)

namespace Pattern

instance : Append Pattern := ⟨both⟩

instance : OrOp Pattern := ⟨either⟩

/-! ### Character classes -/

/-- A blank of any script. -/
def blank : Char → Bool := Unicode.isBlank

/-- A word character of any script. -/
def word : Char → Bool := Unicode.isWord

/-- A decimal digit of any script. -/
def digit : Char → Bool := Unicode.isDigit

/-- A letter of the English alphabet. -/
def latin (c : Char) : Bool := c.isAlpha

/-- A space or a tab. -/
def spaceOrTab (c : Char) : Bool := c == ' ' || c == '\t'

/-- Anything but a line feed. -/
def inLine (c : Char) : Bool := c != '\n'

/-- Any character. -/
def anything (_ : Char) : Bool := true

/-- The characters of a string. -/
def among (members : String) (c : Char) : Bool := members.toList.contains c

/-- All but the characters of a string. -/
def except (members : String) (c : Char) : Bool := !members.toList.contains c

/-- The characters of either class. -/
def union (f g : Char → Bool) (c : Char) : Bool := f c || g c

/--
A letter in either case. Two letters have a third form: the long s, and the sign for kelvin.
-/
def caseless (letter c : Char) : Bool :=
  c.toLower == letter.toLower || (letter.toLower == 's' && c == '\u017F')
    || (letter.toLower == 'k' && c == '\u212A')

/-! ### Compound patterns -/

/-- The given characters, in order. -/
def exactly : List Char → Pattern
  | [] => nothing
  | [c] => one (· == c)
  | c :: rest => both (one (· == c)) (exactly rest)

/-- The given characters in either case. -/
def exactlyCaseless : List Char → Pattern
  | [] => nothing
  | [c] => one (caseless c)
  | c :: rest => both (one (caseless c)) (exactlyCaseless rest)

/-- A fixed text. -/
def text (s : String) : Pattern := exactly s.toList

/-- A fixed text in either case. -/
def textCaseless (s : String) : Pattern := exactlyCaseless s.toList

/-- One of several fixed texts; the first that leads to a match counts. -/
def oneOf : List String → Pattern
  | [] => one fun _ => false
  | [s] => text s
  | s :: more => either (text s) (oneOf more)

/-- Characters of a class, at least one. -/
def several (f : Char → Bool) : Pattern := both (one f) (many f)

/-- Blanks, or none. -/
def blanks : Pattern := many blank

/-- At least one blank. -/
def gap : Pattern := several blank

/-- A run of word characters. -/
def wordRun : Pattern := several word

/-- A pattern that may be left out, but not if it is possible. -/
def perhaps (p : Pattern) : Pattern := either p nothing

/-- A name: an English letter or an underscore, then word characters. -/
def name : Pattern := both (one fun c => latin c || c == '_') (many word)

/-- A fixed word, not as a part of a longer one at its front. -/
def keyword (s : String) : Pattern := both wordEdge (text s)

/-- A fixed word that stands alone. -/
def wholeWord (s : String) : Pattern := both wordEdge (both (text s) wordEdge)

end Pattern

end SnippetLint
