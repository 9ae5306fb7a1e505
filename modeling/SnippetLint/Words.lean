/-
Words: maximal runs of word characters.

A name is used if it occurs as a word other than where it is declared, and a numeric literal is a
word that consists of digits. Neither looks at strings, comments or scopes.
-/
import SnippetLint.Pattern.Match

namespace SnippetLint.Words

open Pattern

/-- A word of digits. -/
def numeral : Pattern := wordEdge ++ several digit ++ wordEdge

/-- The words of a text that consist of digits. -/
def numerals (t : Text) : List Span := numeral.findSpans t

/-- A given text that no word character extends on either side. -/
def standing (name : Text) : Pattern := wordEdge ++ exactly name ++ wordEdge

/--
Whether a name stands anywhere in a text but in the span from `start` up to `stop`. A pattern that is
too large to be compiled finds nothing, and its name would have to count as used; that takes a name of
hundreds of thousands of characters and is not looked at here.
-/
def usedOutside (t name : Text) (start stop : Nat) : Bool :=
  ((standing name).findSpans t).any fun s => s.start < start || stop ≤ s.start

/-- Whether what a span declares is used outside that span. -/
def isUsed (t : Text) (declared : Span) : Bool :=
  usedOutside t declared.text declared.start declared.stop

end SnippetLint.Words
