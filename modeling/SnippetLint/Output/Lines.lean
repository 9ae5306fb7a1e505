/-
Results for other programs to take apart by lines: one for each finding, or one for each file.
-/
import SnippetLint.Report

namespace SnippetLint

namespace Compact

/-- A finding on one line: place, severity, rule and message. -/
def diagnosticLine (path : String) (d : Diagnostic) : String :=
  let position := match d.line? with
    | some line => path ++ ":" ++ toString line
    | none => path
  Text.join ": " [position, d.severity.id, d.ruleId, d.message] ++ "\n"

/-- The lines for one file; none if there is no finding. -/
def fileLines (f : FileReport) : String :=
  String.join (f.report.findings.map (diagnosticLine f.path))

/-- The lines for several files. -/
def batchLines (b : Batch) : String := String.join (b.reports.map fileLines)

end Compact

/-- How the report on a file is put on one line. -/
structure Plain where
  /-- Whether the line begins with the file's path. -/
  showPath : Bool := false

namespace Plain

/-- The report on a file, without a line break. -/
def fileText (o : Plain) (f : FileReport) : String :=
  if o.showPath then f.path ++ ": " ++ f.report.display else f.report.display

/-- One line for each file. -/
def batchLines (o : Plain) (b : Batch) : String :=
  String.join (b.reports.map fun f => o.fileText f ++ "\n")

end Plain

end SnippetLint
