/-
Results lose nothing by being written as JSON.

Members that would say nothing are left out, so decoding has to put back what their absence stands
for.  Diagnostics are decoded by the function that reads them elsewhere; for whole reports there is
no such function, and `FileReport.ofDocument?` is what a reader of the output would do.  The layout
makes no difference, since a value is read back from what it is written as in either.
-/
import Mathlib.Data.List.Forall2
import SnippetLint.Output.Structured
import SnippetLint.Proofs.Json.Reader

namespace SnippetLint

open Document

/-! ### Diagnostics -/

namespace Location

theorem plain_toJson (l : Location) : l.toJson.Plain := by
  refine .object ?_
  simp only [List.forall_mem_cons]
  exact ⟨.count _, .text _, by simp⟩

theorem ofDocument?_toJson {l : Location} (h : l.line < countLimit) :
    ofDocument? l.toJson = some l := by
  simp [ofDocument?, toJson, record?, jsonRecord?, required, field?, single?, count?, jsonCount?, h,
    text?]

end Location

namespace Diagnostic

theorem plain_toJson (d : Diagnostic) : d.toJson.Plain := by
  refine .object ?_
  cases d.location with
  | none => simp [Json.Plain.text]
  | some l => simp [Json.Plain.text, l.plain_toJson]

theorem ofDocument?_toJson {d : Diagnostic} (h : ∀ n, d.line? = some n → n < countLimit) :
    ofDocument? d.toJson = some d := by
  obtain ⟨ruleId, severity, message, location⟩ := d
  cases location with
  | none =>
      simp [ofDocument?, toJson, record?, jsonRecord?, required, field?, single?, text?, choice,
        word?, jsonWord?, Document.optional]
  | some l =>
      have hread : nullable Location.ofDocument? l.toJson = some (some l) :=
        congrArg (Option.map some) (Location.ofDocument?_toJson (h l.line rfl))
      simp [ofDocument?, toJson, record?, jsonRecord?, required, field?, single?, text?, choice,
        word?, jsonWord?, Document.optional, hread]

theorem location_mem_names (d : Diagnostic) : "location" ∈ d.toJson.names ↔ d.location ≠ none := by
  cases h : d.location <;> simp [toJson, Json.names, Json.members, h]

end Diagnostic

/-! ### Reports on files -/

namespace FileReport

/-- Line numbers are machine words. -/
def WordLines (f : FileReport) : Prop :=
  ∀ d ∈ f.report.diagnostics, ∀ n, d.line? = some n → n < countLimit

/-- A report read back from its members. -/
def ofDocument? (d : Json) : Option FileReport := do
  let fields ← table? d
  let path ← required text? fields "path"
  let language ← required (choice Language.ofId?) fields "language"
  let diagnostics ← required (fun d => do (← list? d).mapM Diagnostic.ofDocument?) fields
    "diagnostics"
  let supported ← required flag? fields "supported"
  let faulted ← Document.optional texts [] fields "faulted_rules"
  return ⟨path, language, diagnostics, supported, faulted⟩

/-- A value is what the report is written as, in either layout, and does not mention what is not
there. -/
structure ShownBy (f : FileReport) (v : Json) : Prop where
  written : ∀ layout, Json.read? (Json.render layout f.toJson) = some v
  faulted : "faulted_rules" ∈ v.names ↔ f.report.faultedRules ≠ []
  located : ∃ diagnostics, ("diagnostics", .array diagnostics) ∈ v.members ∧
    List.Forall₂ (fun d w => "location" ∈ w.names ↔ d.location ≠ none) f.report.diagnostics diagnostics

theorem plain_toJson (f : FileReport) : f.toJson.Plain := by
  refine .object ?_
  have hdiagnostics := Json.Plain.array_map Diagnostic.plain_toJson f.report.diagnostics
  have hfaulted := Json.Plain.array_map Json.Plain.text f.report.faultedRules
  have hmembers : ∀ member ∈ f.report.members, member.2.Plain := by
    unfold Report.members
    split
    · simp [Json.Plain.text, Json.Plain.flag, hdiagnostics]
    · simp [Json.Plain.text, Json.Plain.flag, hdiagnostics, hfaulted]
  exact List.forall_mem_cons.mpr ⟨.text _, hmembers⟩

theorem ofDocument?_toJson {f : FileReport} (h : f.WordLines) : ofDocument? f.toJson = some f := by
  obtain ⟨path, language, diagnostics, supported, faulted⟩ := f
  have hdiagnostics : (diagnostics.map Diagnostic.toJson).mapM Diagnostic.ofDocument? =
      some diagnostics :=
    Json.mapM_map_eq_some fun d hd => Diagnostic.ofDocument?_toJson (h d hd)
  have hfaulted : texts (Json.array (faulted.map .text)) = some faulted := by
    show (faulted.map Json.text).mapM text? = some faulted
    exact Json.mapM_map_eq_some fun _ _ => rfl
  cases faulted with
  | nil =>
      simp [ofDocument?, toJson, Report.members, table?, required, field?, single?, text?, choice,
        word?, jsonWord?, list?, flag?, Document.optional, hdiagnostics]
  | cons id rest =>
      rw [List.map_cons] at hfaulted
      simp [ofDocument?, toJson, Report.members, table?, required, field?, single?, text?, choice,
        word?, jsonWord?, list?, flag?, Document.optional, hdiagnostics, hfaulted]

theorem shownBy_toJson (f : FileReport) : f.ShownBy f.toJson where
  written layout := Json.read?_render layout f.plain_toJson
  faulted := by
    cases hfaulted : f.report.faultedRules <;>
      simp [toJson, Json.names, Json.members, Report.members, hfaulted]
  located := by
    refine ⟨f.report.diagnostics.map Diagnostic.toJson, ?_, List.forall₂_map_right_iff.mpr ?_⟩
    · simp [toJson, Json.members, Report.members]
    · exact List.forall₂_same.mpr fun d _ => d.location_mem_names

end FileReport

/-! ### Batches -/

namespace Batch

/-- What is counted in several reports. -/
def counts (b : Batch) : List (String × Nat) :=
  [("files_processed", b.reports.length),
    ("files_with_findings", (b.reports.filter fun f => f.report.findings ≠ []).length),
    ("unsupported_files", (b.reports.filter fun f => f.report.supported = false).length),
    ("error_count", (b.findings.filter fun d => d.severity = .error).length),
    ("warning_count", (b.findings.filter fun d => d.severity = .warning).length),
    ("info_count", (b.findings.filter fun d => d.severity = .info).length),
    ("duration_ms", b.milliseconds)]

theorem summaryJson_eq (b : Batch) :
    b.summaryJson = .object (b.counts.map fun (name, n) => (name, .count n)) := by
  have hempty : ∀ f : FileReport, (!f.report.findings.isEmpty) = !decide (f.report.findings = []) :=
    fun f => congrArg _ (Bool.eq_iff_iff.mpr (by simp))
  simp [summaryJson, counts, fileCount, errorCount, warningCount, infoCount, count,
    List.countP_eq_length_filter, hempty]

theorem plain_toJson (b : Batch) : b.toJson.Plain := by
  have hreports := Json.Plain.array_map FileReport.plain_toJson b.reports
  have hsummary : b.summaryJson.Plain := by
    rw [summaryJson_eq]
    refine .object fun member hmember => ?_
    obtain ⟨⟨name, n⟩, -, rfl⟩ := List.mem_map.mp hmember
    exact .count n
  exact .object (by simp [hreports, hsummary])

/-- **What is written as JSON loses nothing.**  In either layout the text of a result is read back as
one and the same value.  Its summary holds the counts, its reports are decoded as the ones it was
made of, and each of them is also what the report is written as when it stands alone. -/
theorem toJson_lossless (b : Batch) (h : ∀ f ∈ b.reports, f.WordLines) :
    ∃ reports : List Json,
      (∀ layout, Json.read? (Json.render layout b.toJson) =
        some (.object [("reports", .array reports),
          ("summary", .object (b.counts.map fun (name, n) => (name, .count n)))])) ∧
      reports.mapM FileReport.ofDocument? = some b.reports ∧
      List.Forall₂ FileReport.ShownBy b.reports reports := by
  refine ⟨b.reports.map FileReport.toJson, fun layout => ?_, ?_, ?_⟩
  · rw [← summaryJson_eq]
    exact Json.read?_render layout b.plain_toJson
  · exact Json.mapM_map_eq_some fun f hf => FileReport.ofDocument?_toJson (h f hf)
  · exact List.forall₂_map_right_iff.mpr (List.forall₂_same.mpr fun f _ => f.shownBy_toJson)

theorem toJson_lossless_escaped :
    let found : Diagnostic := ⟨"tabs", .warning, "Replace \"\t\" by \u2423.", some ⟨2, "a\\b"⟩⟩
    let b : Batch :=
      ⟨[⟨"caf\u00e9.py", .python, [found], true, []⟩, ⟨"notes", .unsupported .unknown⟩], 3⟩
    (∀ f ∈ b.reports, f.WordLines) ∧
      ∃ v reports, Json.read? (Json.render .pretty b.toJson) = some v ∧
        Json.read? (Json.render .compact b.toJson) = some v ∧
        ("reports", .array reports) ∈ v.members ∧
        reports.mapM FileReport.ofDocument? = some b.reports := by
  intro found b
  have hlines : ∀ f ∈ b.reports, f.WordLines := by
    simp [b, found, FileReport.WordLines, Report.unsupported, Diagnostic.unsupported,
      Diagnostic.line?, countLimit]
  obtain ⟨reports, hread, hdecoded, -⟩ := toJson_lossless b hlines
  exact ⟨hlines, _, reports, hread .pretty, hread .compact, List.mem_cons_self, hdecoded⟩

end Batch

end SnippetLint
