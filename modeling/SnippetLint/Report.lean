/-
Reports: the outcome of linting one input, or several files.
-/
import SnippetLint.Diagnostic
import SnippetLint.Language

namespace SnippetLint

/--
The outcome for one input. There is always a diagnostic: findings, or else the one that says why there
are none.
-/
structure Report where
  language : Language
  diagnostics : List Diagnostic
  /-- Whether there are rules for the language. -/
  supported : Bool
  /-- The rules that faulted on this input. -/
  faultedRules : List String
  deriving DecidableEq, Repr

namespace Report

/-- What is shown for a language without rules. -/
def unsupportedDisplay : String := "Unsupported language or no issues found"

/-- What is shown for an input in which nothing was found. -/
def cleanDisplay : String := "No issues found"

/-- The outcome for a language without rules. -/
def unsupported (language : Language) : Report := ⟨language, [.unsupported], false, []⟩

/-- Whether the rules ran and found nothing. -/
def isClean (r : Report) : Bool := r.supported && r.diagnostics.all (·.isClean)

/-- The diagnostics that are findings. -/
def findings (r : Report) : List Diagnostic := r.diagnostics.filter (·.isFinding)

/-- The whole report on one line. -/
def display (r : Report) : String :=
  let messages := Text.join ", " (r.diagnostics.map (·.message))
  match r.diagnostics with
  | [only] =>
    if only.isUnsupported then unsupportedDisplay
    else if only.isClean then cleanDisplay
    else messages
  | _ => messages

end Report

/-- The report on one file. -/
structure FileReport where
  path : String
  report : Report
  deriving DecidableEq, Repr

/-- The reports on several files, and how long it took to make them. -/
structure Batch where
  reports : List FileReport
  milliseconds : Nat
  deriving DecidableEq, Repr

namespace Batch

/-- All findings, in the order of the files. -/
def findings (b : Batch) : List Diagnostic := b.reports.flatMap (·.report.findings)

/-- The number of findings with a severity. -/
def count (b : Batch) (severity : Severity) : Nat := b.findings.countP (·.severity = severity)

def errorCount (b : Batch) : Nat := b.count .error

def warningCount (b : Batch) : Nat := b.count .warning

def infoCount (b : Batch) : Nat := b.count .info

/-- The number of all findings. -/
def findingCount (b : Batch) : Nat := b.errorCount + b.warningCount + b.infoCount

def fileCount (b : Batch) : Nat := b.reports.length

def hasErrors (b : Batch) : Bool := 0 < b.errorCount

/-- Without findings. -/
def isClean (b : Batch) : Bool := b.findingCount == 0

end Batch

end SnippetLint
