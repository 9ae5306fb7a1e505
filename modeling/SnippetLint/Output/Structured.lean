/-
Results as JSON, and diagnostics read back from it.
-/
import SnippetLint.Document
import SnippetLint.Json.Printer
import SnippetLint.Report

namespace SnippetLint

open Document

namespace Location

def toJson (l : Location) : Json :=
  .object [("line", .count l.line), ("snippet", .text l.snippet)]

def fieldNames : List String := ["line", "snippet"]

def ofDocument? {δ : Type} [Document δ] (d : δ) : Option Location := do
  let fields ← record? fieldNames d
  return ⟨← required count? fields "line", ← required text? fields "snippet"⟩

end Location

namespace Diagnostic

/-- A diagnostic without a location says nothing of one. -/
def toJson (d : Diagnostic) : Json :=
  .object ([("rule_id", .text d.ruleId), ("severity", .text d.severity.id),
      ("message", .text d.message)]
    ++ (d.location.map fun l => ("location", l.toJson)).toList)

def fieldNames : List String := ["rule_id", "severity", "message", "location"]

def ofDocument? {δ : Type} [Document δ] (d : δ) : Option Diagnostic := do
  let fields ← record? fieldNames d
  let ruleId ← required text? fields "rule_id"
  let severity ← required (choice Severity.ofId?) fields "severity"
  let message ← required text? fields "message"
  let location ← optional (nullable Location.ofDocument?) none fields "location"
  return ⟨ruleId, severity, message, location⟩

end Diagnostic

namespace Report

/-- The members of a report; rules that faulted are listed if there are any. -/
def members (r : Report) : List (String × Json) :=
  [("language", .text r.language.id), ("diagnostics", .array (r.diagnostics.map Diagnostic.toJson)),
      ("supported", .flag r.supported)]
    ++ if r.faultedRules.isEmpty then []
      else [("faulted_rules", .array (r.faultedRules.map .text))]

def toJson (r : Report) : Json := .object r.members

end Report

namespace FileReport

/-- The members of the report, behind the path. -/
def toJson (f : FileReport) : Json := .object (("path", .text f.path) :: f.report.members)

end FileReport

namespace Batch

/-- The summary of several reports. -/
def summaryJson (b : Batch) : Json :=
  .object [("files_processed", .count b.fileCount),
    ("files_with_findings", .count (b.reports.countP fun f => !f.report.findings.isEmpty)),
    ("unsupported_files", .count (b.reports.countP fun f => !f.report.supported)),
    ("error_count", .count b.errorCount), ("warning_count", .count b.warningCount),
    ("info_count", .count b.infoCount), ("duration_ms", .count b.milliseconds)]

def toJson (b : Batch) : Json :=
  .object [("reports", .array (b.reports.map FileReport.toJson)), ("summary", b.summaryJson)]

end Batch

end SnippetLint
