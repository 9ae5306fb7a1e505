/-
What a run that lints prints.

It prints the results in the configured format, with a line break at their end if there is none.  The
compact lines of findings all have theirs, so where anything is found they are printed as they are.
Where nothing is found there are no compact lines, and a run prints the line break alone.
-/
import SnippetLint.CommandLine.Run
import SnippetLint.Proofs.CommandLine.Exit
import SnippetLint.Proofs.Output.Counts

namespace SnippetLint.CommandLine

/-! ### The line break at the end -/

theorem endsWith_iff {t : String} : t.endsWith "\n" = true ↔ ['\n'] <:+ t.toList := by
  rw [String.endsWith_eq_endsWith_toSlice, String.Slice.endsWith_string_iff, String.copy_toSlice]
  rfl

theorem endLine_of_suffix {t : String} (h : ['\n'] <:+ t.toList) : endLine t = t :=
  if_pos (endsWith_iff.mpr h)

/-! ### Compact lines -/

theorem suffix_diagnosticLine (path : String) (d : Diagnostic) :
    ['\n'] <:+ (Compact.diagnosticLine path d).toList := by
  unfold Compact.diagnosticLine
  dsimp only
  rw [String.toList_append]
  exact List.suffix_append _ ['\n']

/-- Lines of findings end in a line break, if there are any. -/
theorem suffix_batchLines {b : Batch} (h : Compact.batchLines b ≠ "") :
    ['\n'] <:+ (Compact.batchLines b).toList := by
  have hplaced : b.placedFindings ≠ [] := fun hnil =>
    h ((Compact.batchLines_eq_empty_iff b).mpr (b.placedFindings_eq_nil_iff.mp hnil))
  rw [Compact.toList_batchLines_placed, ← List.dropLast_append_getLast hplaced, List.map_append,
    List.flatten_append]
  refine List.suffix_append_of_suffix ?_
  simpa using suffix_diagnosticLine _ _

theorem endLine_batchLines (b : Batch) :
    endLine (Compact.batchLines b) =
      if Compact.batchLines b = "" then "\n" else Compact.batchLines b := by
  split
  · rename_i h
    rw [h]
    decide
  · rename_i h
    exact endLine_of_suffix (suffix_batchLines h)

/-- A run whose options make a job prints its results. -/
theorem run_eq_outcome {arguments : List String} {o : Options} {env : Environment} {job : Job}
    (harguments : Options.ofArguments arguments = .ok o) (hplan : o.plan env = .lint job)
    (milliseconds : Nat) :
    run arguments env milliseconds = job.outcome env ⟨job.reports env, milliseconds⟩ := by
  rw [run, harguments]
  simp only [Options.run, hplan]

/-- Without a configuration file the defaults stand. -/
theorem loadConfig_of_none {o : Options} {env : Environment} (hconfig : o.config = none)
    (hhome : env.home = none) (hfind : Config.findIn env.files env.working = none) :
    o.loadConfig env = .ok {} := by
  have hlayer : Config.layer env.files {} env.working = .ok {} := by rw [Config.layer, hfind]
  rw [Options.loadConfig, hconfig]
  dsimp only
  rw [Config.loadLayered, hhome]
  change (([env.working].foldlM (Config.layer env.files) {}).mapError _) = _
  rw [List.foldlM_cons, hlayer]
  rfl

/-- What is to be linted is linted with the rule sets of this library. -/
theorem plan_eq_lint {o : Options} {env : Environment} {c : Config} {input : Input}
    (hconfig : o.effectiveConfig env = .ok c) (hinput : o.collectInput env c = .ok input)
    (hlist : o.listRules = false) (hdetect : o.detect = false) :
    o.plan env = .lint ⟨⟨.builtin, c⟩, input⟩ := by
  simp [Options.plan, hconfig, hinput, hlist, hdetect]

/-- **Where anything is found, the compact lines of the findings are all that is printed.**  For every
configuration and all inputs, a run that lints with the compact format prints the lines for each input
one after another, in the order of the inputs, if there are any; there are none just if there is no
finding, and then a line break is printed. -/
theorem run_output_compact {arguments : List String} {o : Options} {env : Environment} {job : Job}
    (harguments : Options.ofArguments arguments = .ok o) (hplan : o.plan env = .lint job)
    (hformat : job.linter.config.output.format = .compact) (milliseconds : Nat) :
    let lines := String.join ((job.reports env).map Compact.fileLines)
    (run arguments env milliseconds).output = (if lines = "" then "\n" else lines) ∧
      (lines = "" ↔ ∀ f ∈ job.reports env, f.report.findings = []) := by
  intro lines
  let b : Batch := ⟨job.reports env, milliseconds⟩
  have hlines : Compact.batchLines b = lines := rfl
  refine ⟨?_, Compact.batchLines_eq_empty_iff b⟩
  rw [run_eq_outcome harguments hplan, Job.outcome, ← hlines, ← endLine_batchLines]
  simp only [formatted, hformat, b]

theorem run_output_compact_two_files :
    let arguments := ["--format", "compact", "--file", "a.py", "--file", "b.py"]
    let o : Options := { files := ["a.py", "b.py"], format := some .compact }
    let env : Environment :=
      { files := ⟨.directory [("w", .directory [("a.py", .file "import os\n".toUTF8),
          ("b.py", .file "x = 1\n".toUTF8)])], ["w"]⟩
        home := none
        input := .empty }
    let job : Job := ⟨⟨.builtin, ({} : Config).override o.overrides⟩, .files ["a.py", "b.py"]⟩
    Options.ofArguments arguments = .ok o ∧ o.plan env = .lint job ∧
      job.linter.config.output.format = .compact ∧
      (run arguments env 3).output =
        "a.py:1: warning: unused-import: Unused import detected: os.\n" := by
  intro arguments o env job
  have harguments : Options.ofArguments arguments = .ok o := by rfl
  have hload : o.loadConfig env = .ok {} := loadConfig_of_none rfl rfl (by decide +kernel)
  have hconfig : o.effectiveConfig env = .ok job.linter.config :=
    Options.effectiveConfig_eq_ok_iff.mpr ⟨{}, hload, by decide, rfl⟩
  have hfiles : o.files.mapM (wildcardFiles env job.linter.config) = .ok [["a.py"], ["b.py"]] := by
    decide +kernel
  have hinput : o.collectInput env job.linter.config = .ok job.input := by
    rw [Options.collectInput_files rfl (by decide), hfiles]
    rfl
  have hplan : o.plan env = .lint job := plan_eq_lint hconfig hinput rfl rfl
  have hformat : job.linter.config.output.format = .compact := by rfl
  obtain ⟨houtput, -⟩ := run_output_compact harguments hplan hformat 3
  exact ⟨harguments, hplan, hformat, houtput.trans (by decide +kernel)⟩

/-- A clean text is answered with an empty line. -/
theorem run_output_compact_clean :
    let arguments := ["--format", "compact", "--language", "python", "x = 1"]
    let env : Environment := { files := ⟨.directory [], []⟩, home := none, input := .empty }
    let linter : Linter :=
      ⟨.builtin, ({} : Config).override { format := some .compact, language := some .python }⟩
    (linter.lint "x = 1".toList).findings = [] ∧ (run arguments env 0).output = "\n" := by
  decide +kernel

end SnippetLint.CommandLine
