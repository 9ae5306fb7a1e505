/-
Results for people: each file with its findings and their lines, and a summary at the end.
-/
import SnippetLint.Output.Seconds
import SnippetLint.Output.Style
import SnippetLint.Report

namespace SnippetLint

/-- How results for people are shown. -/
structure Terminal where
  /-- Whether styles are used. -/
  colored : Bool := true
  /-- Whether the line of a finding is shown below it. -/
  showSource : Bool := true
  /-- Whether there is a summary. -/
  showStatistics : Bool := true
  /-- Whether the place that is written to shows styles at all. -/
  ansi : Bool := true

namespace Terminal

/-- A text in a style, where styles are used and shown. -/
def paint (o : Terminal) (style : Style) (t : String) : String :=
  if o.colored && o.ansi then style.apply t else t

/-- The style of the word for a severity. -/
def severityStyle : Severity → Style
  | .error => .redBold
  | .warning => .yellowBold
  | .info => .blue

/-- A number filled up with blanks from the left to four places. -/
def position (line : Nat) : String :=
  let digits := toString line
  String.ofList (List.replicate (4 - digits.length) ' ') ++ digits

/-- A finding, and its line below it. -/
def diagnosticLines (o : Terminal) (d : Diagnostic) : String :=
  let head := (match d.line? with
      | some line => position line
      | none => "   -")
    ++ ": " ++ o.paint (severityStyle d.severity) d.severity.id ++ "[" ++ o.paint .cyan d.ruleId
    ++ "]: " ++ d.message ++ "\n"
  match d.location with
  | some location =>
    if o.showSource then head ++ "     " ++ o.paint .blue "|" ++ " " ++ location.snippet ++ "\n"
    else head
  | none => head

/-- The note on a rule that faulted. -/
def faultLine (o : Terminal) (rule : String) : String :=
  "     " ++ o.paint .magenta "note:" ++ " rule " ++ rule ++ " failed on this input and was skipped\n"

/-- The part for one file. -/
def fileLines (o : Terminal) (f : FileReport) : String :=
  let header := o.paint .underline (f.path ++ " (" ++ f.report.language.display ++ ")") ++ "\n"
  let body :=
    if f.report.findings.isEmpty then "     " ++ o.paint .dimmed f.report.display ++ "\n"
    else String.join (f.report.findings.map o.diagnosticLines)
  header ++ body ++ String.join (f.report.faultedRules.map o.faultLine)

/-- A number with the word for what is counted, or nothing for zero. -/
def countPart (o : Terminal) (style : Style) (count : Nat) (word : String) : Option String :=
  if count = 0 then none
  else some (o.paint style (toString count ++ " " ++ if count = 1 then word else word ++ "s"))

/-- The summary. -/
def summaryLines (o : Terminal) (b : Batch) : String :=
  let files := toString b.fileCount ++ " " ++ (if b.fileCount = 1 then "file" else "files")
    ++ " processed"
  let counts := [o.countPart .red b.errorCount "error", o.countPart .yellow b.warningCount "warning",
    o.countPart .blue b.infoCount "info"].filterMap id
  files ++ (if counts.isEmpty then "" else ": " ++ Text.join ", " counts) ++ "\n"
    ++ "Finished in " ++ Seconds.render b.milliseconds ++ "s\n"

/-- All files and the summary. -/
def batchLines (o : Terminal) (b : Batch) : String :=
  String.join (b.reports.map fun f => o.fileLines f ++ "\n")
    ++ if o.showStatistics then o.summaryLines b else ""

end Terminal

end SnippetLint
