/-
What a report shows of a text with either line endings.

All rules but those of `Rule.endingIds` are steady, and a run of rules adds up what each of them
finds.  So once the findings of those rules are left out, two reports on a text that differ in the
line endings show the same: the same rules, with the same severities, at the same lines with the same
snippets.  Where none of those rules is to run nothing has to be left out.  What is said may differ,
where a message quotes text over several lines.

No rule is left out that need not be: for each there is a text in which it finds something else
than in its counterpart (`Rule.endingIds_dependent`).
-/
import SnippetLint.Proofs.Findings

namespace SnippetLint

/-- What is seen of a diagnostic: who makes it, how severe it is, and where it points. -/
def Diagnostic.sight (d : Diagnostic) : String × Severity × Option Location :=
  (d.ruleId, d.severity, d.location)

namespace Registry

theorem builtinRuleSets_steady : ∀ rules ∈ builtinRuleSets, ∀ rule ∈ rules.rules,
    rule.id ∈ Rule.endingIds rules.language ∨ Check.Steady rule.check := by
  simp only [builtinRuleSets, List.forall_mem_cons]
  exact ⟨fun rule h => .inr (Cpp.ruleSet_steady rule h), Java.ruleSet_steady, CSharp.ruleSet_steady,
    fun rule h => .inr (Go.ruleSet_steady rule h), fun rule h => .inr (Php.ruleSet_steady rule h),
    fun rule h => .inr (TypeScript.ruleSet_steady rule h), JavaScript.ruleSet_steady,
    Python.ruleSet_steady, fun rule h => .inr (Html.ruleSet_steady rule h), by simp⟩

theorem language_of_resolve? {language : Language} {rules : RuleSet}
    (h : builtin.resolve? language = some rules) : rules.language = language := by
  have hfound := List.find?_some h
  exact of_decide_eq_true hfound

end Registry

section

variable {rule : Rule} {t : Text}

/-- A sound and steady rule finds the same in both texts, one by one. -/
theorem Rule.findings_alike (hsound : Check.Sound rule.check) (hsteady : Check.Steady rule.check)
    (ht : '\r' ∉ t) :
    List.Forall₂ Finding.SameSight (rule.findings t) (rule.findings (Text.crlf t)) := by
  obtain ⟨found, hfound, halike⟩ := hsteady t ht _ (findings_of_sound hsound).1
  have hsame : found = rule.findings (Text.crlf t) :=
    Except.ok.inj (hfound.symm.trans (findings_of_sound hsound).1)
  exact hsame ▸ halike

namespace RuleRun

variable {language : Language} {filter : RuleFilter}

theorem sight_diagnose {f f' : Finding} (h : f.SameSight f') (ruleId : String)
    (severity : Severity) :
    (diagnose ruleId severity f').sight = (diagnose ruleId severity f).sight := by
  rw [Diagnostic.sight, diagnose, h.1, h.2]
  rfl

theorem sight_reported (hsound : Check.Sound rule.check) (hsteady : Check.Steady rule.check)
    (ht : '\r' ∉ t) : (reported language filter (Text.crlf t) rule).map Diagnostic.sight =
      (reported language filter t rule).map Diagnostic.sight := by
  rw [reported, reported, List.map_map, List.map_map]
  exact map_eq_of_forall₂ (Rule.findings_alike hsound hsteady ht) fun _ _ h => sight_diagnose h ..

/-- A rule is left out together with all it reports, or stays with all of it. -/
theorem sight_reported_settled (hsound : Check.Sound rule.check)
    (h : rule.id ∈ Rule.endingIds language ∨ Check.Steady rule.check) (ht : '\r' ∉ t) :
    ((reported language filter (Text.crlf t) rule).filter
        fun d => d.ruleId ∉ Rule.endingIds language).map Diagnostic.sight =
      ((reported language filter t rule).filter
        fun d => d.ruleId ∉ Rule.endingIds language).map Diagnostic.sight := by
  by_cases hid : rule.id ∈ Rule.endingIds language
  · have hnone : ∀ u, ((reported language filter u rule).filter
        fun d => d.ruleId ∉ Rule.endingIds language) = [] := by
      refine fun u => List.filter_eq_nil_iff.mpr fun d hd => ?_
      simpa [ruleId_of_mem_reported hd] using hid
    rw [hnone, hnone]
  · have hall : ∀ u, ((reported language filter u rule).filter
        fun d => d.ruleId ∉ Rule.endingIds language) = reported language filter u rule := by
      refine fun u => List.filter_eq_self.mpr fun d hd => ?_
      simpa [ruleId_of_mem_reported hd] using hid
    rw [hall, hall]
    exact sight_reported hsound (h.resolve_left hid) ht

section

variable {rules : List Rule} (hsound : ∀ rule ∈ rules, Check.Sound rule.check)
  (hsteady : ∀ rule ∈ rules, rule.id ∈ Rule.endingIds language ∨ Check.Steady rule.check)
  (ht : '\r' ∉ t)

include hsound hsteady ht

theorem sight_found_settled :
    ((found language filter (Text.crlf t) rules).filter
        fun d => d.ruleId ∉ Rule.endingIds language).map Diagnostic.sight =
      ((found language filter t rules).filter
        fun d => d.ruleId ∉ Rule.endingIds language).map Diagnostic.sight := by
  rw [found, found, List.filter_flatMap, List.filter_flatMap, List.map_flatMap, List.map_flatMap]
  refine List.flatMap_congr fun rule hrule => ?_
  have hmem := ((mem_enabled ..).mp hrule).1
  exact sight_reported_settled (hsound rule hmem) (hsteady rule hmem) ht

theorem sight_found (hoff : ∀ id ∈ Rule.endingIds language, filter.isEnabled language id = false) :
    (found language filter (Text.crlf t) rules).map Diagnostic.sight =
      (found language filter t rules).map Diagnostic.sight := by
  rw [found, found, List.map_flatMap, List.map_flatMap]
  refine List.flatMap_congr fun rule hrule => ?_
  obtain ⟨hmem, henabled⟩ := (mem_enabled ..).mp hrule
  refine sight_reported (hsound rule hmem) ((hsteady rule hmem).resolve_left fun hid => ?_) ht
  rw [hoff _ hid] at henabled
  exact Bool.false_ne_true henabled

end

/-- One text is clean where the other one is. -/
theorem sight_diagnostics {rules : RuleSet}
    (hsound : ∀ rule ∈ rules.rules, Check.Sound rule.check)
    (hsteady : ∀ rule ∈ rules.rules,
      rule.id ∈ Rule.endingIds rules.language ∨ Check.Steady rule.check)
    (ht : '\r' ∉ t)
    (hoff : ∀ id ∈ Rule.endingIds rules.language, filter.isEnabled rules.language id = false) :
    (ofRuleSet rules filter (Text.crlf t)).diagnostics.map Diagnostic.sight =
      (ofRuleSet rules filter t).diagnostics.map Diagnostic.sight := by
  have hfound := sight_found hsound hsteady ht hoff
  have hnil : found rules.language filter (Text.crlf t) rules.rules = [] ↔
      found rules.language filter t rules.rules = [] := by
    rw [← List.map_eq_nil_iff, hfound, List.map_eq_nil_iff]
  rw [diagnostics_eq_found, diagnostics_eq_found]
  by_cases hclean : found rules.language filter t rules.rules = []
  · rw [if_pos hclean, if_pos (hnil.mpr hclean)]
  · rw [if_neg hclean, if_neg (mt hnil.mp hclean)]
    exact hfound

end RuleRun

end

namespace Linter

/-- **A report does not depend on the line endings, but for the rules of `Rule.endingIds`.**  On a text
without carriage returns and on the same text with one before each line feed, the findings of all
other rules are the same in their order, each with its rule, severity, line and snippet.  Where the
configuration leaves none of those rules to run, or there is none for the language, that holds for
all diagnostics. -/
theorem sights_crlf (config : Config) (language : Language) (t : Text) (ht : '\r' ∉ t) :
    let l : Linter := ⟨.builtin, config⟩
    let settled := fun u => (l.lintAs language u).findings.filter fun d =>
      d.ruleId ∉ Rule.endingIds language
    (settled (Text.crlf t)).map Diagnostic.sight = (settled t).map Diagnostic.sight ∧
      ((∀ id ∈ Rule.endingIds language, l.filter.isEnabled language id = false) →
        (l.lintAs language (Text.crlf t)).diagnostics.map Diagnostic.sight =
          (l.lintAs language t).diagnostics.map Diagnostic.sight) := by
  intro l settled
  cases hresolve : Registry.builtin.resolve? language with
  | none =>
      have hreport : ∀ u, l.lintAs language u = .unsupported language := by
        intro u
        unfold lintAs
        rw [hresolve]
      simp only [settled, hreport, and_true, implies_true]
  | some rules =>
      have hreport : ∀ u, l.lintAs language u =
          ⟨language, (RuleRun.ofRuleSet rules l.filter u).diagnostics, true,
            (RuleRun.ofRuleSet rules l.filter u).faulted⟩ := by
        intro u
        unfold lintAs
        rw [hresolve]
      have hrules := Registry.mem_builtinRuleSets_of_resolve? hresolve
      obtain rfl := Registry.language_of_resolve? hresolve
      have hids := Registry.builtinRuleSets_properId rules hrules
      have hsound := Registry.builtinRuleSets_sound rules hrules
      have hsteady := Registry.builtinRuleSets_steady rules hrules
      refine ⟨?_, fun hoff => ?_⟩
      · simp only [settled, Report.findings, hreport, RuleRun.filter_isFinding hids]
        exact RuleRun.sight_found_settled hsound hsteady ht
      · rw [hreport, hreport]
        exact RuleRun.sight_diagnostics hsound hsteady ht hoff

theorem sights_crlf_without_imports :
    let t := "import os\nif x == None:\n  print(x)".toList
    let l : Linter := ⟨.builtin, { rules := { disabled := ["unused-import"] } }⟩
    '\r' ∉ t ∧ (∀ id ∈ Rule.endingIds .python, l.filter.isEnabled .python id = false) ∧
      (l.lintAs .python (Text.crlf t)).diagnostics.map Diagnostic.sight =
        (l.lintAs .python t).diagnostics.map Diagnostic.sight ∧
      (l.lintAs .python t).diagnostics.length = 2 := by
  intro t l
  have ht : '\r' ∉ t := by decide
  have hoff : ∀ id ∈ Rule.endingIds .python, l.filter.isEnabled .python id = false := by
    decide +kernel
  exact ⟨ht, hoff, (sights_crlf l.config .python t ht).2 hoff, by decide +kernel⟩

/-- An unused import is not seen if its line ends with a carriage return, which its pattern does not
pass. -/
theorem sights_crlf_unused_import :
    let t := "import os\n".toList
    '\r' ∉ t ∧
      (default.lintAs .python t).diagnostics.map Diagnostic.sight =
        [("unused-import", .warning, some ⟨1, "import os"⟩)] ∧
      (default.lintAs .python (Text.crlf t)).diagnostics.map Diagnostic.sight =
        [("no-issues", .info, none)] := by
  decide +kernel

end Linter

/-! ### The rules left out -/

namespace Rule

/-- A text for each rule of `Rule.endingIds` that shows it to depend on the line endings. -/
def dependent : List (Language × String × Text) :=
  [(.python, "unused-import", "import os\n".toList),
    (.javascript, "no-duplicate-imports", "import\nfrom 'x'\nimport\nfrom 'x'".toList),
    (.csharp, "method-access-modifier", "void Foo()\n\x7b\n\x7d".toList),
    (.java, "method-naming", "void Foo() throws\n\x7b\n\x7d".toList),
    (.java, "method-access-modifier", "void Foo() throws\n\x7b\n\x7d".toList)]

/-- **No rule is left out that need not be.** -/
theorem endingIds_dependent (language : Language) (id : String) (h : id ∈ endingIds language) :
    ∃ t : Text, '\r' ∉ t ∧
      let count := fun u => (Linter.default.lintAs language u).findings.countP (·.ruleId == id)
      count (Text.crlf t) ≠ count t := by
  have hall : ∀ x ∈ dependent, '\r' ∉ x.2.2 ∧
      let count := fun u => (Linter.default.lintAs x.1 u).findings.countP (·.ruleId == x.2.1)
      count (Text.crlf x.2.2) ≠ count x.2.2 := by
    decide +kernel
  have hlisted : ∀ id ∈ endingIds language, ∃ x ∈ dependent, x.1 = language ∧ x.2.1 = id := by
    cases language <;> decide
  obtain ⟨x, hx, rfl, rfl⟩ := hlisted id h
  exact ⟨x.2.2, hall x hx⟩

end Rule

end SnippetLint
