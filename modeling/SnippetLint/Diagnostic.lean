/-
Diagnostics: what linting has to say about an input.

Most diagnostics are findings of rules. Two are not: the one that says that the rules of a language
found nothing, and the one that says that there are no rules for it. Both are told from findings by
their rule id.
-/
import SnippetLint.Text.Basic
import SnippetLint.Unicode.Case

namespace SnippetLint

/-- How bad a finding is. -/
inductive Severity where
  | info | warning | error
  deriving DecidableEq, Repr

namespace Severity

def all : List Severity := [info, warning, error]

/-- The word for a severity. -/
def id : Severity → String
  | info => "info"
  | warning => "warning"
  | error => "error"

/-- The severity with a word. -/
def ofId? (s : String) : Option Severity := all.find? fun x => x.id == s

@[simp] theorem ofId?_id (x : Severity) : ofId? x.id = some x := by cases x <;> decide

/-- The names under which a severity can be asked for. -/
def names : Severity → List String
  | info => ["info", "hint", "note"]
  | warning => ["warning", "warn"]
  | error => ["error", "err"]

/-- The severity asked for by a name in any letter case. -/
def ofName? (s : String) : Option Severity :=
  let name := String.ofList (Unicode.lower s.toList)
  all.find? fun x => x.names.contains name

/-- The place in the order of severities. -/
def rank : Severity → Nat
  | info => 0
  | warning => 1
  | error => 2

/-- Severities, the mildest first. -/
def sort (severities : List Severity) : List Severity :=
  severities.mergeSort fun a b => a.rank ≤ b.rank

end Severity

/-- The line that a diagnostic points at: its number, from 1, and its text without outer blanks. -/
structure Location where
  line : Nat
  snippet : String
  deriving DecidableEq, Repr

structure Diagnostic where
  ruleId : String
  severity : Severity
  message : String
  location : Option Location
  deriving DecidableEq, Repr

namespace Diagnostic

/-- The rule id of "nothing found". -/
def cleanId : String := "no-issues"

/-- The rule id of "no rules for this language". -/
def unsupportedId : String := "unsupported-language"

/-- Says that the rules ran and found nothing. -/
def clean (message : String) : Diagnostic := ⟨cleanId, .info, message, none⟩

/-- Says that there are no rules to run. -/
def unsupported : Diagnostic := ⟨unsupportedId, .info, "Unsupported language.", none⟩

def line? (d : Diagnostic) : Option Nat := d.location.map (·.line)

def isClean (d : Diagnostic) : Bool := d.ruleId == cleanId

def isUnsupported (d : Diagnostic) : Bool := d.ruleId == unsupportedId

/-- Neither of the two that are no findings. -/
def isFinding (d : Diagnostic) : Bool := !(d.isClean || d.isUnsupported)

def isError (d : Diagnostic) : Bool := d.severity = .error

def isWarning (d : Diagnostic) : Bool := d.severity = .warning

/-- A diagnostic on one line: line number if there is one, severity, rule, message. -/
def display (d : Diagnostic) : String :=
  let rest := d.severity.id ++ " [" ++ d.ruleId ++ "] " ++ d.message
  match d.line? with
  | some n => toString n ++ ":" ++ rest
  | none => rest

end Diagnostic

end SnippetLint
