/-
What is printed for each finding, or for each file, stays on a line of its own.

Both ways to print by lines put their parts next to each other without escapes, so everything rests on
the parts: a path, an id or a message with a line feed in it would be taken apart at the wrong place.
Ids and severities are fixed words.  Messages are one line each, for all rules but those of
`Rule.quotingIds`: these quote an argument list, a module's name or an import just as it is written,
over as many lines as it takes.  Where what they quote stands on one line, the lines of what is
printed are the findings, or the files, in order.
-/
import SnippetLint.Output.Lines
import SnippetLint.Proofs.Reports

namespace SnippetLint

/-! ### Lines put together and taken apart -/

/-- Lines that are each ended by a line feed are taken apart again as they were. -/
theorem Text.linesWithEnds_flatten {lines : List Text}
    (h : ∀ line ∈ lines, ∃ body, line = body ++ ['\n'] ∧ '\n' ∉ body) :
    linesWithEnds lines.flatten = lines := by
  induction lines with
  | nil => rfl
  | cons line rest ih =>
      rw [List.forall_mem_cons] at h
      obtain ⟨⟨body, rfl, hbody⟩, hrest⟩ := h
      have hflat : ((body ++ ['\n']) :: rest).flatten = body ++ '\n' :: rest.flatten := by simp
      rw [hflat, linesWithEnds_append hbody, ih hrest]

/-! ### Messages in a report -/

namespace Registry

theorem builtinRuleSets_oneLine : ∀ rules ∈ builtinRuleSets, ∀ rule ∈ rules.rules,
    rule.id ∉ Rule.quotingIds → Check.Says OneLine rule.check := by
  simp only [builtinRuleSets, List.forall_mem_cons]
  exact ⟨fun rule h _ => Cpp.ruleSet_oneLine rule h, fun rule h _ => Java.ruleSet_oneLine rule h,
    fun rule h _ => CSharp.ruleSet_oneLine rule h, Go.ruleSet_oneLine,
    fun rule h _ => Php.ruleSet_oneLine rule h, fun rule h _ => TypeScript.ruleSet_oneLine rule h,
    JavaScript.ruleSet_oneLine, fun rule h _ => Python.ruleSet_oneLine rule h,
    fun rule h _ => Html.ruleSet_oneLine rule h, by simp⟩

theorem builtinRuleSets_id_oneLine :
    ∀ rules ∈ builtinRuleSets, ∀ rule ∈ rules.rules, OneLine rule.id := by
  simp only [builtinRuleSets, Cpp.ruleSet, Java.ruleSet, CSharp.ruleSet, Go.ruleSet, Php.ruleSet,
    TypeScript.ruleSet, JavaScript.ruleSet, Python.ruleSet, Html.ruleSet, List.forall_mem_cons,
    List.not_mem_nil, false_imp_iff, implies_true, and_true]
  and_intros
  all_goals exact .of_eq rfl (by decide)

theorem builtinRuleSets_cleanMessage : ∀ rules ∈ builtinRuleSets,
    rules.cleanMessage = "No " ++ rules.language.display ++ " issues found." := by
  simp only [builtinRuleSets, List.forall_mem_cons]
  exact ⟨rfl, rfl, rfl, rfl, rfl, rfl, rfl, rfl, rfl, by simp⟩

end Registry

theorem Language.display_oneLine (language : Language) : OneLine language.display := by
  cases language <;> exact .of_eq rfl (by decide)

theorem RuleSet.cleanMessage_oneLine {rules : RuleSet} (h : rules ∈ Registry.builtinRuleSets) :
    OneLine rules.cleanMessage := by
  rw [Registry.builtinRuleSets_cleanMessage rules h]
  have hfront : OneLine "No " := .of_eq rfl (by decide)
  have hback : OneLine " issues found." := .of_eq rfl (by decide)
  exact (hfront.append rules.language.display_oneLine).append hback

theorem Severity.id_oneLine (severity : Severity) : OneLine severity.id := by
  cases severity <;> exact .of_eq rfl (by decide)

/-- A diagnostic whose parts stand on one line. -/
structure Diagnostic.OneLined (d : Diagnostic) : Prop where
  id : OneLine d.ruleId
  message : OneLine d.message

namespace Linter

section

variable {config : Config} {language : Language} {t : Text}
  (hquoting : ∀ d ∈ (lintAs ⟨.builtin, config⟩ language t).findings, d.ruleId ∈ Rule.quotingIds →
    OneLine d.message)

include hquoting

theorem oneLined_of_mem_diagnostics {d : Diagnostic}
    (h : d ∈ (lintAs ⟨.builtin, config⟩ language t).diagnostics) : d.OneLined := by
  rcases lintAs_cases config language t with heq | ⟨rules, hrules, heq⟩
  · rw [heq] at h
    rw [List.mem_singleton.mp h]
    exact ⟨.of_eq rfl (by decide), .of_eq rfl (by decide)⟩
  · rw [Report.findings, heq] at hquoting
    rw [heq] at h
    have hids := Registry.builtinRuleSets_properId rules hrules
    rw [RuleRun.filter_isFinding hids] at hquoting
    rw [RuleRun.diagnostics_eq_found] at h
    split at h
    · rw [List.mem_singleton.mp h]
      exact ⟨.of_eq rfl (by decide), RuleSet.cleanMessage_oneLine hrules⟩
    · obtain ⟨rule, hrule, -, hreported⟩ := RuleRun.mem_found.mp h
      have hid : OneLine d.ruleId := by
        rw [RuleRun.ruleId_of_mem_reported hreported]
        exact Registry.builtinRuleSets_id_oneLine rules hrules rule hrule
      by_cases hquotes : d.ruleId ∈ Rule.quotingIds
      · exact ⟨hid, hquoting d h hquotes⟩
      · refine ⟨hid, RuleRun.says_of_mem_found h fun rule hrule heq => ?_⟩
        exact Registry.builtinRuleSets_oneLine rules hrules rule hrule (heq ▸ hquotes)

theorem display_oneLine : OneLine (lintAs ⟨.builtin, config⟩ language t).display := by
  have hmessages : OneLine (Text.join ", "
      ((lintAs ⟨.builtin, config⟩ language t).diagnostics.map (·.message))) := by
    refine .join (.of_eq rfl (by decide)) fun message hmessage => ?_
    obtain ⟨d, hd, rfl⟩ := List.mem_map.mp hmessage
    exact (oneLined_of_mem_diagnostics hquoting hd).message
  unfold Report.display
  dsimp only
  split
  · split
    · exact .of_eq rfl (by decide)
    · split
      · exact .of_eq rfl (by decide)
      · exact hmessages
  · exact hmessages

end

end Linter

/-! ### Lines of a batch -/

/-- The lines of all findings in order. -/
theorem Compact.toList_batchLines (b : Batch) :
    (batchLines b).toList = ((b.reports.flatMap fun f =>
      f.report.findings.map (diagnosticLine f.path)).map String.toList).flatten := by
  rw [batchLines, String.toList_join, List.flatMap_map, ← List.flatMap_def, List.flatMap_assoc]
  refine congrArg (fun g => b.reports.flatMap g) (funext fun f => ?_)
  rw [fileLines, String.toList_join]

theorem Plain.toList_batchLines (o : Plain) (b : Batch) :
    (o.batchLines b).toList = (b.reports.map fun f => (o.fileText f ++ "\n").toList).flatten := by
  rw [batchLines, String.toList_join, List.flatMap_map, List.flatMap_def]

/-- A finding is printed as one line. -/
theorem Compact.exists_diagnosticLine {path : String} (hpath : OneLine path) {d : Diagnostic}
    (h : d.OneLined) :
    ∃ body, (diagnosticLine path d).toList = body ++ ['\n'] ∧ '\n' ∉ body := by
  have hline : ∀ position, OneLine position → ∃ body,
      (Text.join ": " [position, d.severity.id, d.ruleId, d.message] ++ "\n").toList = body ++ ['\n'] ∧
        '\n' ∉ body := by
    intro position hposition
    refine ⟨_, String.toList_append, OneLine.join (.of_eq rfl (by decide)) ?_⟩
    simp only [List.forall_mem_cons]
    exact ⟨hposition, d.severity.id_oneLine, h.id, h.message, by simp⟩
  unfold diagnosticLine
  split
  · exact hline _ ((hpath.append (.of_eq rfl (by decide))).append (.toString _))
  · exact hline _ hpath

theorem Plain.exists_fileText (o : Plain) {f : FileReport} (hpath : OneLine f.path)
    (h : OneLine f.report.display) :
    ∃ body, (o.fileText f ++ "\n").toList = body ++ ['\n'] ∧ '\n' ∉ body := by
  refine ⟨(o.fileText f).toList, by rw [String.toList_append]; rfl, ?_⟩
  unfold fileText
  split
  · exact (hpath.append (.of_eq rfl (by decide))).append h
  · exact h

/-- Every finding has one of the three severities. -/
theorem Batch.findingCount_eq (b : Batch) : b.findingCount = b.findings.length := by
  unfold findingCount errorCount warningCount infoCount count
  induction b.findings with
  | nil => rfl
  | cons d rest ih =>
      simp only [List.countP_cons, List.length_cons]
      cases d.severity <;> simp <;> omega

namespace Linter

/-- The reports on several texts, each with a path and the language it is linted as. -/
def lintTexts (l : Linter) (inputs : List (String × Language × Text)) (milliseconds : Nat) : Batch :=
  ⟨inputs.map fun (path, language, t) => ⟨path, l.lintAs language t⟩, milliseconds⟩

/-- **One line for each finding, one line for each file.**  Where paths hold no line feed, and
neither does what the rules of `Rule.quotingIds` quote, the compact lines of a batch are its findings
in order, as many as are counted, and the plain lines are its files in order; each is ended by a line
feed. -/
theorem lines_of_batch (config : Config) (o : Plain) (inputs : List (String × Language × Text))
    (milliseconds : Nat) (hpaths : ∀ input ∈ inputs, OneLine input.1)
    (hquoting : ∀ d ∈ (lintTexts ⟨.builtin, config⟩ inputs milliseconds).findings,
      d.ruleId ∈ Rule.quotingIds → OneLine d.message) :
    let b := lintTexts ⟨.builtin, config⟩ inputs milliseconds
    let compact := Text.linesWithEnds (Compact.batchLines b).toList
    let plain := Text.linesWithEnds (o.batchLines b).toList
    (compact = (b.reports.flatMap fun f => f.report.findings.map (Compact.diagnosticLine f.path)).map
        String.toList ∧ compact.length = b.findingCount) ∧
      (plain = b.reports.map (fun f => (o.fileText f ++ "\n").toList) ∧
        plain.length = inputs.length) ∧
      ∀ line ∈ compact ++ plain, ∃ body, line = body ++ ['\n'] ∧ '\n' ∉ body := by
  intro b compact plain
  have hreports : ∀ f ∈ b.reports, OneLine f.path ∧ (∀ d ∈ f.report.findings, d.OneLined) ∧
      OneLine f.report.display := by
    intro f hf
    obtain ⟨⟨path, language, t⟩, hinput, rfl⟩ := List.mem_map.mp hf
    have hquoted : ∀ d ∈ (lintAs ⟨.builtin, config⟩ language t).findings,
        d.ruleId ∈ Rule.quotingIds → OneLine d.message :=
      fun d hd => hquoting d (List.mem_flatMap.mpr ⟨_, hf, hd⟩)
    refine ⟨hpaths _ hinput, fun d hd => ?_, display_oneLine hquoted⟩
    exact oneLined_of_mem_diagnostics hquoted (List.mem_filter.mp hd).1
  have hfindings : ∀ line ∈ (b.reports.flatMap fun f =>
      f.report.findings.map (Compact.diagnosticLine f.path)).map String.toList,
      ∃ body, line = body ++ ['\n'] ∧ '\n' ∉ body := by
    intro line hline
    obtain ⟨_, hmem, rfl⟩ := List.mem_map.mp hline
    obtain ⟨f, hf, hmem⟩ := List.mem_flatMap.mp hmem
    obtain ⟨d, hd, rfl⟩ := List.mem_map.mp hmem
    obtain ⟨hpath, hall, -⟩ := hreports f hf
    exact Compact.exists_diagnosticLine hpath (hall d hd)
  have hfiles : ∀ line ∈ b.reports.map (fun f => (o.fileText f ++ "\n").toList),
      ∃ body, line = body ++ ['\n'] ∧ '\n' ∉ body := by
    intro line hline
    obtain ⟨f, hf, rfl⟩ := List.mem_map.mp hline
    obtain ⟨hpath, -, hdisplay⟩ := hreports f hf
    exact o.exists_fileText hpath hdisplay
  have hcompact : compact = (b.reports.flatMap fun f =>
      f.report.findings.map (Compact.diagnosticLine f.path)).map String.toList := by
    rw [← Text.linesWithEnds_flatten hfindings, ← Compact.toList_batchLines]
  have hplain : plain = b.reports.map (fun f => (o.fileText f ++ "\n").toList) := by
    rw [← Text.linesWithEnds_flatten hfiles, ← o.toList_batchLines]
  refine ⟨⟨hcompact, ?_⟩, ⟨hplain, ?_⟩, ?_⟩
  · rw [hcompact, b.findingCount_eq]
    simp [Batch.findings, List.length_flatMap]
  · rw [hplain]
    simp [b, lintTexts]
  · rw [hcompact, hplain]
    exact fun line hline => (List.mem_append.mp hline).elim (hfindings line) (hfiles line)

theorem lines_of_batch_two_files :
    let inputs := [("a.js", Language.javascript, "f(a,b,c,d,e,g)".toList),
      ("b.py", Language.python, "import os\n".toList)]
    let b := lintTexts default inputs 7
    (∀ input ∈ inputs, OneLine input.1) ∧
      (∀ d ∈ b.findings, d.ruleId ∈ Rule.quotingIds → OneLine d.message) ∧
      (Text.linesWithEnds (Compact.batchLines b).toList).length = b.findingCount ∧
      b.findingCount = 4 ∧
      (Text.linesWithEnds (Plain.batchLines { showPath := true } b).toList).length = 2 := by
  intro inputs b
  have hpaths : ∀ input ∈ inputs, OneLine input.1 := by decide +kernel
  have hquoting : ∀ d ∈ b.findings, d.ruleId ∈ Rule.quotingIds → OneLine d.message := by
    decide +kernel
  obtain ⟨⟨-, hcompact⟩, ⟨-, hplain⟩, -⟩ :=
    lines_of_batch {} { showPath := true } inputs 7 hpaths hquoting
  exact ⟨hpaths, hquoting, hcompact, by decide +kernel, hplain⟩

/-- A list of arguments is quoted with the line feed in it. -/
theorem lines_of_batch_quoted :
    let b := lintTexts default [("a.js", .javascript, "'use strict';f(a,\nb,c,d,e,g);".toList)] 0
    b.findingCount = 1 ∧ (Text.linesWithEnds (Compact.batchLines b).toList).length = 2 ∧
      b.fileCount = 1 ∧ (Text.linesWithEnds (Plain.batchLines {} b).toList).length = 2 := by
  decide +kernel

end Linter

end SnippetLint
