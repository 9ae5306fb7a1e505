/-
The views of a batch agree.

What is counted, what is printed line by line and what the summary in JSON says are computed apart.
All of them look at the findings of each report only, whatever else the report holds, and for each
there is one lemma here that says so.
-/
import Mathlib.Algebra.Ring.Nat
import SnippetLint.Proofs.Output.Lines
import SnippetLint.Proofs.Output.Structured

namespace SnippetLint

/-- A report whose findings are shown on one line each. -/
structure FileReport.OneLined (f : FileReport) : Prop where
  path : OneLine f.path
  findings : ∀ d ∈ f.report.findings, d.OneLined

namespace Batch

/-- How many diagnostics of a severity there are in several reports, but for the two that are no
findings. -/
def tally (reports : List FileReport) (severity : Severity) : Nat :=
  (reports.map fun f => f.report.diagnostics.countP fun d =>
    d.ruleId ∉ [Diagnostic.cleanId, Diagnostic.unsupportedId] ∧ d.severity = severity).sum

/-- All findings, each with the path of its file, in the order of the files. -/
def placedFindings (b : Batch) : List (String × Diagnostic) :=
  b.reports.flatMap fun f => f.report.findings.map fun d => (f.path, d)

/-! ### Counts -/

theorem count_eq_tally (b : Batch) (severity : Severity) :
    b.count severity = tally b.reports severity := by
  rw [count, findings, List.countP_flatMap, tally]
  refine congrArg List.sum (List.map_congr_left fun f _ => ?_)
  rw [Function.comp_apply, Report.findings, List.countP_filter]
  refine List.countP_congr fun d _ => ?_
  simp [Diagnostic.isFinding, Diagnostic.isClean, Diagnostic.isUnsupported, and_comm]

theorem count_append (b c : Batch) (milliseconds : Nat) (severity : Severity) :
    count ⟨b.reports ++ c.reports, milliseconds⟩ severity = b.count severity + c.count severity := by
  rw [count, findings, List.flatMap_append, List.countP_append]
  rfl

/-! ### No findings -/

theorem isClean_iff (b : Batch) : b.isClean ↔ ∀ f ∈ b.reports, f.report.findings = [] := by
  rw [isClean, beq_iff_eq, findingCount_eq, List.length_eq_zero_iff, findings,
    List.flatMap_eq_nil_iff]

theorem placedFindings_eq_nil_iff (b : Batch) :
    b.placedFindings = [] ↔ ∀ f ∈ b.reports, f.report.findings = [] := by
  simp only [placedFindings, List.flatMap_eq_nil_iff, List.map_eq_nil_iff]

theorem filesWithFindings_eq_zero_iff (b : Batch) :
    b.summaryJson.members.lookup "files_with_findings" = some (.count 0) ↔
      ∀ f ∈ b.reports, f.report.findings = [] := by
  have hlookup : b.summaryJson.members.lookup "files_with_findings" =
      some (.count (b.reports.countP fun f => !f.report.findings.isEmpty)) := rfl
  rw [hlookup, Option.some_inj, Json.count.injEq, List.countP_eq_zero]
  simp

end Batch

namespace Compact

theorem diagnosticLine_ne (path : String) (d : Diagnostic) : diagnosticLine path d ≠ "" := by
  unfold diagnosticLine
  split <;> exact fun h => absurd (String.append_eq_empty_iff.mp h).2 (by decide)

theorem toList_batchLines_placed (b : Batch) :
    (batchLines b).toList =
      (b.placedFindings.map fun (path, d) => (diagnosticLine path d).toList).flatten := by
  rw [toList_batchLines, Batch.placedFindings, List.map_flatMap, List.map_flatMap]
  simp only [List.map_map, Function.comp_def]

theorem batchLines_eq_empty_iff (b : Batch) :
    batchLines b = "" ↔ ∀ f ∈ b.reports, f.report.findings = [] := by
  rw [← b.placedFindings_eq_nil_iff, ← String.toList_inj, toList_batchLines_placed, String.toList_empty,
    List.flatten_eq_nil_iff]
  constructor
  · intro hempty
    by_contra hne
    obtain ⟨⟨path, d⟩, hmem⟩ := List.exists_mem_of_ne_nil _ hne
    have hline := hempty _ (List.mem_map_of_mem hmem)
    exact diagnosticLine_ne path d (String.toList_eq_nil_iff.mp hline)
  · intro hnil
    rw [hnil]
    simp

/-- The lines that are printed are those of the findings, one after another. -/
theorem linesWithEnds_batchLines {b : Batch} (h : ∀ f ∈ b.reports, f.OneLined) :
    Text.linesWithEnds (batchLines b).toList =
      b.placedFindings.map fun (path, d) => (diagnosticLine path d).toList := by
  rw [toList_batchLines_placed]
  refine Text.linesWithEnds_flatten fun line hline => ?_
  obtain ⟨⟨path, d⟩, hmem, rfl⟩ := List.mem_map.mp hline
  obtain ⟨f, hf, hmem⟩ := List.mem_flatMap.mp hmem
  obtain ⟨_, hd, heq⟩ := List.mem_map.mp hmem
  cases heq
  exact exists_diagnosticLine (h f hf).path ((h f hf).findings d hd)

end Compact

namespace Batch

theorem findings_placedFindings (b : Batch) : b.placedFindings.map Prod.snd = b.findings := by
  simp only [placedFindings, findings, List.map_flatMap, List.map_map, Function.comp_def,
    List.map_id']

/-- **All views of a batch agree.**  The counts are those of the diagnostics that are findings, and
they add up where lists of reports are put behind each other.  There is nothing to report just if
nothing is printed line by line, and just if the summary in JSON knows of no file with findings.  And
where every path, rule id and message stands on one line, what is printed is one line for each finding
that is counted, in the order of the reports. -/
theorem views_agree (b c : Batch) (milliseconds : Nat) :
    let joined : Batch := ⟨b.reports ++ c.reports, milliseconds⟩
    let lines := Text.linesWithEnds (Compact.batchLines b).toList
    (b.errorCount = tally b.reports .error ∧ b.warningCount = tally b.reports .warning ∧
      b.infoCount = tally b.reports .info) ∧
    (joined.errorCount = b.errorCount + c.errorCount ∧
      joined.warningCount = b.warningCount + c.warningCount ∧
      joined.infoCount = b.infoCount + c.infoCount) ∧
    b.findingCount = b.errorCount + b.warningCount + b.infoCount ∧
    (b.isClean ↔ Compact.batchLines b = "") ∧
    (b.isClean ↔ b.summaryJson.members.lookup "files_with_findings" = some (.count 0)) ∧
    ((∀ f ∈ b.reports, f.OneLined) → lines.length = b.findingCount ∧
      b.placedFindings.map Prod.snd = b.findings ∧
      lines = b.placedFindings.map fun (path, d) => (Compact.diagnosticLine path d).toList) := by
  intro joined lines
  refine ⟨⟨b.count_eq_tally _, b.count_eq_tally _, b.count_eq_tally _⟩,
    ⟨b.count_append c _ _, b.count_append c _ _, b.count_append c _ _⟩, rfl, ?_, ?_, ?_⟩
  · rw [isClean_iff, Compact.batchLines_eq_empty_iff]
  · rw [isClean_iff, filesWithFindings_eq_zero_iff]
  · intro hlines
    have heq : lines = _ := Compact.linesWithEnds_batchLines hlines
    refine ⟨?_, b.findings_placedFindings, heq⟩
    rw [heq, List.length_map, findingCount_eq, ← findings_placedFindings, List.length_map]

/-- A report may hold findings next to a diagnostic that is none. -/
theorem views_agree_mixed :
    let tabs : Diagnostic := ⟨"tabs", .warning, "Tab used.", some ⟨2, "x"⟩⟩
    let naming : Diagnostic := ⟨"naming", .error, "Bad name.", none⟩
    let b : Batch := ⟨[⟨"a.py", .python, [tabs, .clean "No issues.", naming], true, []⟩,
      ⟨"notes", .unsupported .unknown⟩, ⟨"b.py", .python, [naming], true, ["tabs"]⟩], 7⟩
    (∀ f ∈ b.reports, f.OneLined) ∧ b.findingCount = 3 ∧
      (Text.linesWithEnds (Compact.batchLines b).toList).length = b.findingCount ∧
      (Text.linesWithEnds (Compact.batchLines b).toList)[2]? =
        some "b.py: error: naming: Bad name.\n".toList := by
  intro tabs naming b
  have htabs : tabs.OneLined := ⟨by decide, by decide⟩
  have hnaming : naming.OneLined := ⟨by decide, by decide⟩
  have hlines : ∀ f ∈ b.reports, f.OneLined := by
    simp only [b, List.forall_mem_cons]
    refine ⟨⟨by decide, ?_⟩, ⟨by decide, ?_⟩, ⟨by decide, ?_⟩, by simp⟩
    · change ∀ d ∈ [tabs, naming], d.OneLined
      exact List.forall_mem_cons.mpr ⟨htabs, List.forall_mem_singleton.mpr hnaming⟩
    · exact fun d hd => absurd hd List.not_mem_nil
    · exact List.forall_mem_singleton.mpr hnaming
  obtain ⟨-, -, -, -, -, hprinted⟩ := b.views_agree b 7
  obtain ⟨hlength, -, heq⟩ := hprinted hlines
  refine ⟨hlines, by decide +kernel, hlength, ?_⟩
  rw [heq]
  decide +kernel

end Batch

end SnippetLint
