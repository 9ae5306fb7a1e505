/-
What linting with the rule sets of this library guarantees.

Whatever rule set the registry hands out is one of the nine, and every rule of those is sound: it
finishes, and it names lines of the text only.  So a report lists no faulted rule, and a location in
it can be trusted, whatever the text is and whatever the configuration says.
-/
import SnippetLint.Linter
import SnippetLint.Proofs.RuleRun
import SnippetLint.Proofs.Rules.CSharp
import SnippetLint.Proofs.Rules.Cpp
import SnippetLint.Proofs.Rules.Go
import SnippetLint.Proofs.Rules.Html
import SnippetLint.Proofs.Rules.Java
import SnippetLint.Proofs.Rules.JavaScript
import SnippetLint.Proofs.Rules.Php
import SnippetLint.Proofs.Rules.Python
import SnippetLint.Proofs.Rules.TypeScript

namespace SnippetLint

/-! ### The rule sets of this library -/

namespace Registry

theorem mem_of_mem_register {r : Registry} {added rules : RuleSet}
    (h : rules ∈ (r.register added).ruleSets) : rules = added ∨ rules ∈ r.ruleSets := by
  unfold register at h
  split at h
  · exact .inr h
  · rcases List.mem_cons.mp h with rfl | h
    · exact .inl rfl
    · exact .inr (List.mem_filter.mp h).1

theorem mem_of_mem_foldl_register {r : Registry} {added : List RuleSet} {rules : RuleSet}
    (h : rules ∈ (added.foldl register r).ruleSets) : rules ∈ added ∨ rules ∈ r.ruleSets := by
  induction added generalizing r with
  | nil => exact .inr h
  | cons first rest ih =>
      rcases ih h with h | h
      · exact .inl (List.mem_cons_of_mem _ h)
      · rcases mem_of_mem_register h with rfl | h
        · exact .inl List.mem_cons_self
        · exact .inr h

theorem mem_builtinRuleSets_of_resolve? {language : Language} {rules : RuleSet}
    (h : builtin.resolve? language = some rules) : rules ∈ builtinRuleSets := by
  rcases mem_of_mem_foldl_register (List.mem_of_find?_eq_some h) with h | h
  · exact h
  · simp [empty] at h

/-- Every rule of this library is sound. -/
theorem builtinRuleSets_sound :
    ∀ rules ∈ builtinRuleSets, ∀ rule ∈ rules.rules, Check.Sound rule.check := by
  simp only [builtinRuleSets, List.forall_mem_cons]
  exact ⟨Cpp.ruleSet_sound, Java.ruleSet_sound, CSharp.ruleSet_sound, Go.ruleSet_sound,
    Php.ruleSet_sound, TypeScript.ruleSet_sound, JavaScript.ruleSet_sound, Python.ruleSet_sound,
    Html.ruleSet_sound, by simp⟩

end Registry

/-! ### Rules that finish -/

namespace Rule

variable {rule : Rule} {t : Text}

theorem findings_of_sound (h : Check.Sound rule.check) :
    rule.check t = .ok (rule.findings t) ∧ Finding.AllPlaced t (rule.findings t) := by
  obtain ⟨found, hok, hplaced⟩ := h t
  have hfindings : rule.findings t = found := by rw [findings, hok]
  rw [hfindings]
  exact ⟨hok, hplaced⟩

theorem faults_of_sound (h : Check.Sound rule.check) : rule.faults t = false := by
  rw [faults, (findings_of_sound h).1]

end Rule

namespace Linter

/-- A report is that of a rule set of this library, or says that there is none. -/
theorem lintAs_cases (config : Config) (language : Language) (t : Text) :
    (lintAs ⟨.builtin, config⟩ language t = .unsupported language) ∨
      ∃ rules ∈ Registry.builtinRuleSets,
        lintAs ⟨.builtin, config⟩ language t =
          ⟨language, (RuleRun.ofRuleSet rules (filter ⟨.builtin, config⟩) t).diagnostics, true,
            (RuleRun.ofRuleSet rules (filter ⟨.builtin, config⟩) t).faulted⟩ := by
  unfold lintAs
  split
  · exact .inl rfl
  · rename_i rules h
    exact .inr ⟨rules, Registry.mem_builtinRuleSets_of_resolve? h, rfl⟩

theorem faulted_builtin {rules : RuleSet} (h : rules ∈ Registry.builtinRuleSets)
    (f : RuleFilter) (t : Text) : (RuleRun.ofRuleSet rules f t).faulted = [] := by
  rw [RuleRun.faulted_ofRuleSet, List.map_eq_nil_iff, List.filter_eq_nil_iff]
  intro rule hrule
  have hrule := ((RuleRun.mem_enabled ..).mp hrule).1
  rw [Rule.faults_of_sound (Registry.builtinRuleSets_sound rules h rule hrule)]
  exact Bool.false_ne_true

/-- **No rule faults.**  Each rule of each language finishes on every text, so no report lists a
faulted rule. -/
theorem faulted_eq_nil (config : Config) (language : Language) (t : Text) :
    (∀ rules ∈ Registry.builtinRuleSets, ∀ rule ∈ rules.rules, ∃ found, rule.check t = .ok found) ∧
      (lintAs ⟨.builtin, config⟩ language t).faultedRules = [] := by
  have hsound := Registry.builtinRuleSets_sound
  constructor
  · intro rules hrules rule hrule
    exact ⟨_, (Rule.findings_of_sound (hsound rules hrules rule hrule)).1⟩
  · rcases lintAs_cases config language t with h | ⟨rules, hrules, h⟩
    · rw [h]
      rfl
    · rw [h]
      exact faulted_builtin hrules _ t

/-- **A location can be trusted.**  The line that a diagnostic points at is one of the lines of the
text, and the snippet is that line without its outer blanks. -/
theorem location_sound (config : Config) (language : Language) (t : Text) {d : Diagnostic}
    {location : Location} (h : d ∈ (lintAs ⟨.builtin, config⟩ language t).diagnostics)
    (hlocation : d.location = some location) :
    1 ≤ location.line ∧ location.line ≤ (Text.lines t).length ∧
      ((Text.lines t)[location.line - 1]?.map fun line => String.ofList (Text.trim line)) =
        some location.snippet := by
  rcases lintAs_cases config language t with heq | ⟨rules, hrules, heq⟩
  · rw [heq] at h
    rw [List.mem_singleton.mp h] at hlocation
    simp [Diagnostic.unsupported] at hlocation
  · rw [heq] at h
    rcases RuleRun.mem_diagnostics_ofRuleSet _ _ h with rfl | ⟨rule, hrule, hd⟩
    · simp [Diagnostic.clean] at hlocation
    · have hrule := ((RuleRun.mem_enabled ..).mp hrule).1
      obtain ⟨finding, hfinding, rfl⟩ := List.mem_map.mp hd
      have hplaced := (Rule.findings_of_sound
        (Registry.builtinRuleSets_sound rules hrules rule hrule)).2 finding hfinding
      obtain ⟨n, hn, rfl⟩ := Option.map_eq_some_iff.mp hlocation
      obtain ⟨line, hmem, hsnippet⟩ := hplaced n hn
      obtain ⟨hpos, hline⟩ := List.mk_mem_zipIdx_iff_le_and_getElem?_sub.mp hmem
      obtain ⟨hlt, -⟩ := List.getElem?_eq_some_iff.mp hline
      refine ⟨hpos, show n ≤ _ by omega, ?_⟩
      rw [hline, hsnippet]
      rfl

theorem location_sound_second_line :
    let t := "é\r\nimport os\n".toList
    ⟨"unused-import", .warning, "Unused import detected: os.", some ⟨2, "import os"⟩⟩ ∈
        (lintAs default .python t).diagnostics ∧
      1 ≤ 2 ∧ 2 ≤ (Text.lines t).length ∧
      ((Text.lines t)[1]?.map fun line => String.ofList (Text.trim line)) = some "import os" := by
  intro t
  have h : ⟨"unused-import", .warning, "Unused import detected: os.", some ⟨2, "import os"⟩⟩ ∈
      (lintAs default .python t).diagnostics := by decide +kernel
  exact ⟨h, location_sound {} .python t h rfl⟩

end Linter

end SnippetLint
