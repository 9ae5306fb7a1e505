/-
Rules.

A rule is a named check of a whole text. The check yields findings; which rule they come from and
how severe they are is added when the rule is run. A check computes with offsets, so it may fault.
-/
import SnippetLint.Diagnostic
import SnippetLint.Language
import SnippetLint.Pattern.Match
import SnippetLint.Text.Lines

namespace SnippetLint

/-- One thing a check has to report. -/
structure Finding where
  message : String
  line : Option Nat
  snippet : Option String
  deriving DecidableEq, Repr

namespace Finding

/-- About the input as a whole. -/
def general (message : String) : Finding := ⟨message, none, none⟩

/-- About one line, whose text is shown without its outer blanks. -/
def onLine (line : Nat) (text : Text) (message : String) : Finding :=
  ⟨message, some line, some (String.ofList (Text.trim text))⟩

/-- About the line around an offset. -/
def atOffset (t : Text) (offset : Nat) (message : String) : Checked Finding := do
  let (line, snippet) ← Text.lineAt t offset
  return ⟨message, some line, some (String.ofList snippet)⟩

/-- About the line on which each of several spans begins. -/
def atSpans (t : Text) (spans : List Span) (message : Span → String) : Checked (List Finding) :=
  spans.mapM fun s => atOffset t s.start (message s)

/-- About the input as a whole, unless what was looked for is there. -/
def ifMissing (present : Bool) (message : String) : Checked (List Finding) :=
  return if present then [] else [general message]

/-- About the input as a whole, if something is there that should not be. -/
def ifPresent (present : Bool) (message : String) : Checked (List Finding) :=
  return if present then [general message] else []

end Finding

/-- What a rule does with a text. -/
abbrev Check := Text → Checked (List Finding)

/-- What kind of trouble a rule looks for. -/
inductive Category where
  /-- Code that is wrong or useless. -/
  | correctness
  /-- Code that is likely to be wrong. -/
  | suspicious
  /-- Matters of idiom and consistency. -/
  | style
  /-- Naming and layout as the language's community has it. -/
  | convention
  /-- Strictness beyond what most want. -/
  | pedantic
  deriving DecidableEq, Repr

namespace Category

def id : Category → String
  | correctness => "correctness"
  | suspicious => "suspicious"
  | style => "style"
  | convention => "convention"
  | pedantic => "pedantic"

end Category

structure Rule where
  id : String
  description : String
  check : Check
  severity : Severity := .warning
  category : Category := .style

/-- The rules for one language in the order in which they run. -/
structure RuleSet where
  language : Language
  rules : List Rule
  /-- What is said when no rule finds anything. -/
  cleanMessage : String := "No " ++ language.display ++ " issues found."

namespace RuleSet

/-- The rule with an id. -/
def rule? (s : RuleSet) (id : String) : Option Rule := s.rules.find? (·.id == id)

end RuleSet

end SnippetLint
