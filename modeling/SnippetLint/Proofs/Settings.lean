/-
What settings of rules do to a report.

Settings are consulted while the rules run: a disabled rule is not run at all, and a finding is given
its severity when it is made.  The same report comes out if nothing is consulted and the report is
edited afterwards, as `Report.configured` does it.  The reason is that a run is a list of what each
rule reports on its own, so leaving a rule out is the same as leaving its findings out.

A report of one language looks up the ids of its own rules only, plain or qualified with that
language, so settings that agree on those ids are the same to it.
-/
import SnippetLint.Proofs.Findings

namespace SnippetLint

/-! ### Editing a report -/

/-- The severity of what a rule of a language finds: the configured one, or else its own. -/
def RulesConfig.severityFor (c : RulesConfig) (language : Language) (id : String) (own : Severity) :
    Severity :=
  match c.severity.get? (qualifiedId language id), c.severity.get? id with
  | some severity, _ => severity
  | none, some severity => severity
  | none, none => own

/--
A report without the findings of disabled rules and with the configured severities. If no finding
is left it says that the text is clean.
-/
def Report.configured (r : Report) (c : RulesConfig) (cleanMessage : String) : Report :=
  let kept := r.findings.filter fun d =>
    d.ruleId ∉ c.disabled ∧ qualifiedId r.language d.ruleId ∉ c.disabled
  let adjusted := kept.map fun d => { d with severity := c.severityFor r.language d.ruleId d.severity }
  { r with diagnostics := if adjusted = [] then [.clean cleanMessage] else adjusted }

namespace RuleFilter

/-- The filter that settings of rules make. -/
def ofConfig (c : RulesConfig) : RuleFilter := ⟨c.disabled, c.severity⟩

theorem isEnabled_iff {f : RuleFilter} {language : Language} {id : String} :
    f.isEnabled language id = true ↔ id ∉ f.disabled ∧ qualifiedId language id ∉ f.disabled := by
  rw [isEnabled, Bool.and_eq_true, Bool.not_eq_true', Bool.not_eq_true', List.contains_eq_mem,
    List.contains_eq_mem, decide_eq_false_iff_not, decide_eq_false_iff_not]

theorem isEnabled_empty (language : Language) (id : String) :
    empty.isEnabled language id = true :=
  isEnabled_iff.mpr ⟨List.not_mem_nil, List.not_mem_nil⟩

theorem severityOf_ofConfig (c : RulesConfig) (language : Language) (rule : Rule) :
    (ofConfig c).severityOf language rule = c.severityFor language rule.id rule.severity := by
  unfold severityOf RulesConfig.severityFor ofConfig
  dsimp only
  cases c.severity.get? (qualifiedId language rule.id) <;> cases c.severity.get? rule.id <;> rfl

end RuleFilter

namespace RuleRun

section

variable {language : Language} {text : Text}

theorem enabled_empty (rules : List Rule) : enabled language .empty rules = rules :=
  List.filter_eq_self.mpr fun _ _ => RuleFilter.isEnabled_empty ..

/-- The settings change the severity of a finding that would have been made without them. -/
theorem reported_ofConfig (c : RulesConfig) (rule : Rule) :
    reported language (.ofConfig c) text rule =
      (reported language .empty text rule).map fun d =>
        { d with severity := c.severityFor language d.ruleId d.severity } := by
  unfold reported
  rw [List.map_map, RuleFilter.severityOf_ofConfig]
  rfl

/-- Leaving a rule out leaves its findings out. -/
theorem filter_reported (c : RulesConfig) (rule : Rule) :
    (reported language .empty text rule).filter (fun d =>
        d.ruleId ∉ c.disabled ∧ qualifiedId language d.ruleId ∉ c.disabled) =
      if (RuleFilter.ofConfig c).isEnabled language rule.id then reported language .empty text rule
      else [] := by
  by_cases h : (RuleFilter.ofConfig c).isEnabled language rule.id = true
  · rw [if_pos h, List.filter_eq_self]
    intro d hd
    rw [ruleId_of_mem_reported hd]
    exact decide_eq_true (RuleFilter.isEnabled_iff.mp h)
  · rw [if_neg h, List.filter_eq_nil_iff]
    intro d hd
    rw [ruleId_of_mem_reported hd]
    exact fun hkept => h (RuleFilter.isEnabled_iff.mpr (of_decide_eq_true hkept))

/-- What is found under settings, from what is found without any. -/
theorem found_ofConfig (c : RulesConfig) (rules : List Rule) :
    found language (.ofConfig c) text rules =
      ((found language .empty text rules).filter fun d =>
          d.ruleId ∉ c.disabled ∧ qualifiedId language d.ruleId ∉ c.disabled).map fun d =>
        { d with severity := c.severityFor language d.ruleId d.severity } := by
  unfold found
  rw [enabled_empty, List.filter_flatMap, List.map_flatMap]
  induction rules with
  | nil => rfl
  | cons rule rest ih =>
      rw [enabled_cons, List.flatMap_cons, filter_reported, ← ih]
      by_cases h : (RuleFilter.ofConfig c).isEnabled language rule.id = true
      · rw [if_pos h, if_pos h, List.flatMap_cons, reported_ofConfig]
      · rw [if_neg h, if_neg h]
        rfl

end

end RuleRun

/-! ### Settings that a language does not see -/

/-- An id by which settings speak of a rule of this set. -/
def RuleSet.Names (rules : RuleSet) (id : String) : Prop :=
  ∃ rule ∈ rules.rules, id = rule.id ∨ id = qualifiedId rules.language rule.id

/-- Two settings say the same of what goes by an id. -/
structure RulesConfig.AgreeOn (id : String) (c c' : RulesConfig) : Prop where
  disabled : id ∈ c.disabled ↔ id ∈ c'.disabled
  severity : c.severity.get? id = c'.severity.get? id

theorem RuleRun.ofRuleSet_congr {rules : RuleSet} {c c' : RulesConfig}
    (h : ∀ id, rules.Names id → c.AgreeOn id c') (text : Text) :
    ofRuleSet rules (.ofConfig c) text = ofRuleSet rules (.ofConfig c') text := by
  have hrule : ∀ rule ∈ rules.rules, c.AgreeOn rule.id c' ∧
      c.AgreeOn (qualifiedId rules.language rule.id) c' := fun rule hrule =>
    ⟨h _ ⟨rule, hrule, .inl rfl⟩, h _ ⟨rule, hrule, .inr rfl⟩⟩
  have henabled : enabled rules.language (.ofConfig c) rules.rules =
      enabled rules.language (.ofConfig c') rules.rules := by
    refine List.filter_congr fun rule hmem => Bool.eq_iff_iff.mpr ?_
    obtain ⟨hplain, hqualified⟩ := hrule rule hmem
    rw [RuleFilter.isEnabled_iff, RuleFilter.isEnabled_iff]
    exact and_congr (not_congr hplain.disabled) (not_congr hqualified.disabled)
  have hreported : ∀ rule ∈ rules.rules, reported rules.language (.ofConfig c) text rule =
      reported rules.language (.ofConfig c') text rule := by
    intro rule hmem
    obtain ⟨hplain, hqualified⟩ := hrule rule hmem
    rw [reported, reported, RuleFilter.severityOf_ofConfig, RuleFilter.severityOf_ofConfig,
      RulesConfig.severityFor, hqualified.severity, hplain.severity]
    rfl
  unfold ofRuleSet
  rw [contributions_eq, contributions_eq, henabled]
  congr 2
  exact congrArg List.flatten
    (List.map_congr_left fun rule hmem => hreported rule ((mem_enabled ..).mp hmem).1)

/-- An id that is qualified with another language names no rule of a set. -/
theorem RuleSet.not_names_qualifiedId {rules : RuleSet} (hids : ∀ rule ∈ rules.rules, ProperId rule.id)
    {other : Language} (h : other ≠ rules.language) (s : String) :
    ¬ rules.Names (qualifiedId other s) := by
  rintro ⟨rule, hrule, heq | heq⟩
  · exact (hids rule hrule).ne_qualifiedId other s heq.symm
  · exact qualifiedId_ne_qualifiedId h s rule.id heq

namespace Linter

/-- A report of a built-in language is the run of its rules. -/
theorem lintAs_builtin {rules : RuleSet} (h : rules ∈ Registry.builtinRuleSets) (config : Config)
    (t : Text) :
    lintAs ⟨.builtin, config⟩ rules.language t =
      ⟨rules.language, (RuleRun.ofRuleSet rules (.ofConfig config.rules) t).diagnostics, true, []⟩ := by
  unfold lintAs
  rw [Registry.resolve?_builtin rules h]
  exact congrArg _ (faulted_builtin h _ t)

/-- **Settings of rules edit a report and do nothing else.**  A report under any settings is the one
that the default settings give, edited.  Settings that agree on the ids of a language's rules give
the same report of that language, and none of those ids is qualified with another language. -/
theorem lintAs_configured (config : Config) {rules : RuleSet}
    (h : rules ∈ Registry.builtinRuleSets) (t : Text) :
    lintAs ⟨.builtin, config⟩ rules.language t =
        (lintAs default rules.language t).configured config.rules rules.cleanMessage ∧
      (∀ config' : Config, (∀ id, rules.Names id → config.rules.AgreeOn id config'.rules) →
        lintAs ⟨.builtin, config'⟩ rules.language t = lintAs ⟨.builtin, config⟩ rules.language t) ∧
      ∀ other id, other ≠ rules.language → ¬ rules.Names (qualifiedId other id) := by
  have hids := Registry.builtinRuleSets_properId rules h
  refine ⟨?_, fun config' hagree => ?_, fun other id hother =>
    RuleSet.not_names_qualifiedId hids hother id⟩
  · have hdefault : lintAs default rules.language t =
        ⟨rules.language, (RuleRun.ofRuleSet rules .empty t).diagnostics, true, []⟩ :=
      lintAs_builtin h {} t
    have hfindings : (lintAs default rules.language t).findings =
        RuleRun.found rules.language .empty t rules.rules := by
      rw [hdefault]
      exact RuleRun.filter_isFinding hids
    rw [lintAs_builtin h, Report.configured, hfindings, hdefault, RuleRun.diagnostics_eq_found,
      RuleRun.found_ofConfig]
  · rw [lintAs_builtin h, lintAs_builtin h, RuleRun.ofRuleSet_congr hagree]

theorem lintAs_configured_php :
    let t := "$x;".toList
    let rules : RulesConfig :=
      { disabled := ["echo-output", "go/open-tag"]
        severity := .ofList [("open-tag", .info), ("php/open-tag", .warning)] }
    Php.ruleSet ∈ Registry.builtinRuleSets ∧
      (lintAs default .php t).diagnostics =
        [⟨"open-tag", .error, "PHP scripts should start with \"<?php\".", none⟩,
          ⟨"echo-output", .info, "Consider using \"echo\" for output in PHP.", none⟩] ∧
      lintAs ⟨.builtin, { rules := rules }⟩ .php t =
        ⟨.php, [⟨"open-tag", .warning, "PHP scripts should start with \"<?php\".", none⟩], true,
          []⟩ := by
  intro t rules
  have hmem : Php.ruleSet ∈ Registry.builtinRuleSets := by simp [Registry.builtinRuleSets]
  refine ⟨hmem, by decide +kernel, ?_⟩
  exact (lintAs_configured { rules := rules } hmem t).1.trans (by decide +kernel)

end Linter

end SnippetLint
