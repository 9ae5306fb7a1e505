/-
Styles of text on a terminal.

A styled text stands between an escape sequence that switches its style on and one that switches all
styles off. Where the text itself switches all styles off, its own style is switched on again.
-/
import SnippetLint.Text.Basic

namespace SnippetLint

/-- A way to set text off. -/
inductive Style where
  | bold | dimmed | underline | red | yellow | blue | magenta | cyan | redBold | yellowBold
  deriving DecidableEq, Repr

namespace Style

/-- The numbers by which a terminal knows a style. -/
def code : Style → String
  | bold => "1"
  | dimmed => "2"
  | underline => "4"
  | red => "31"
  | yellow => "33"
  | blue => "34"
  | magenta => "35"
  | cyan => "36"
  | redBold => "1;31"
  | yellowBold => "1;33"

/-- The sequence that switches a style on. -/
def on (s : Style) : String := "\x1b[" ++ s.code ++ "m"

/-- The sequence that switches all styles off. -/
def off : String := "\x1b[0m"

/-- A text in which a style is switched on again wherever all are switched off. -/
def renew (s : Style) : Text → Text
  | '\x1b' :: '[' :: '0' :: 'm' :: rest => off.toList ++ s.on.toList ++ renew s rest
  | c :: rest => c :: renew s rest
  | [] => []

/-- A text in a style. -/
def apply (s : Style) (t : String) : String :=
  s.on ++ String.ofList (renew s t.toList) ++ off

end Style

end SnippetLint
