/-
Code behind a return.

A return statement ends the block it stands in, so what follows it directly is never run, unless the
return is guarded: by a condition without braces on the same line or on the line before.
-/
import SnippetLint.Pattern.Match
import SnippetLint.Text.Lines

namespace SnippetLint.Returns

open Pattern

/-- A return with its value, up to the semicolon. -/
def statement : Pattern := wholeWord "return" ++ many (except ";\x7b\x7d") ++ text ";"

/-- Whether what stands before a return on its line guards it. -/
def guardedBySameLine (lead : Text) : Bool :=
  !(Text.endsWith lead "\x7b" || Text.endsWith lead ";" || Text.endsWith lead "\x7d")

/-- Whether the last line that is not blank, of those before the line of a return, guards it. -/
def guardedByLineBefore (earlier : Text) : Bool :=
  match (Text.lines earlier).reverse.find? fun line => !Text.isBlank line with
  | some line => Text.endsWith (Text.trim line) ")" || Text.endsWith (Text.trim line) "else"
  | none => false

/-- Whether the return at an offset is guarded. -/
def isGuarded (t : Text) (offset : Nat) : Checked Bool := do
  let start := Text.lastLineStart (← Text.before t offset)
  let lead := Text.trim (← Text.slice t start offset)
  if lead.isEmpty then
    return guardedByLineBefore (← Text.before t start)
  else
    return guardedBySameLine lead

/-- Whether what follows a return, its blanks left out, is not part of the same block. -/
def endsBlock (next : Text) : Bool :=
  next.isEmpty || ["\x7d", "case ", "default", "//", "/*", "#"].any (Text.startsWith next)

/-- The offset of the code directly behind one return that never runs, if there is such code. -/
def unreachableAfter (t : Text) (return_ : Span) : Checked (Option Nat) := do
  if ← isGuarded t return_.start then return none
  let next := Text.trimStart (← Text.after t return_.stop)
  if endsBlock next then return none
  return some (← difference (Text.size t) (Text.size next))

/-- The offsets of code directly behind a return that never runs. -/
def unreachable (t : Text) : Checked (List Nat) := do
  let offsets ← (statement.findSpans t).mapM (unreachableAfter t)
  return offsets.filterMap fun offset => offset

end SnippetLint.Returns
