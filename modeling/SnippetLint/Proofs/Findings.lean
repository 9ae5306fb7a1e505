/-
Findings and the two diagnostics that are none.

A diagnostic is told from a finding by its rule id alone, so everything rests on the ids of the
rules: none of them is one of the two that are reserved, and none holds the slash that separates a
language from a rule.  Given that, a run is determined by its findings.  They are what the enabled
rules report, and if there are none the clean diagnostic stands in their place.
-/
import SnippetLint.Proofs.Lint

namespace SnippetLint

/-! ### Ids -/

/-- An id that is mistaken neither for a reserved one nor for a qualified one. -/
structure ProperId (id : String) : Prop where
  ne_clean : id ≠ Diagnostic.cleanId
  ne_unsupported : id ≠ Diagnostic.unsupportedId
  slash_notMem : '/' ∉ id.toList

theorem Language.slash_notMem_id (language : Language) : '/' ∉ language.id.toList := by
  cases language <;> exact notMem_toList_of_eq _ rfl (by decide)

theorem Language.id_injective {a b : Language} (h : a.id = b.id) : a = b := by
  have hb := ofId?_id b
  rw [← h, ofId?_id] at hb
  exact Option.some.inj hb

/-- What stands before the first slash of a qualified id is the language. -/
theorem takeWhile_qualifiedId (language : Language) (id : String) :
    (qualifiedId language id).toList.takeWhile (· != '/') = language.id.toList := by
  have hslash : ∀ c ∈ language.id.toList, (c != '/') = true := by
    intro c hc
    refine bne_iff_ne.mpr fun heq => language.slash_notMem_id ?_
    rwa [← heq]
  rw [qualifiedId, String.toList_append, String.toList_append, List.append_assoc,
    List.takeWhile_append_of_pos hslash]
  simp

/-- Ids that are qualified with different languages are different. -/
theorem qualifiedId_ne_qualifiedId {a b : Language} (h : a ≠ b) (s t : String) :
    qualifiedId a s ≠ qualifiedId b t := by
  intro heq
  have hid := takeWhile_qualifiedId a s
  rw [heq, takeWhile_qualifiedId] at hid
  exact h (Language.id_injective (String.toList_inj.mp hid.symm))

theorem ProperId.ne_qualifiedId {id : String} (h : ProperId id) (language : Language) (s : String) :
    id ≠ qualifiedId language s := by
  rintro rfl
  exact h.slash_notMem (by simp [qualifiedId])

theorem Diagnostic.isFinding_iff {d : Diagnostic} :
    d.isFinding = true ↔ d.isClean = false ∧ d.isUnsupported = false := by
  rw [isFinding, Bool.not_eq_true', Bool.or_eq_false_iff]

/-! ### Registries -/

namespace Registry

/-- Every rule of this library has an id of its own. -/
theorem builtinRuleSets_properId :
    ∀ rules ∈ builtinRuleSets, ∀ rule ∈ rules.rules, ProperId rule.id := by
  simp only [builtinRuleSets, Cpp.ruleSet, Java.ruleSet, CSharp.ruleSet, Go.ruleSet, Php.ruleSet,
    TypeScript.ruleSet, JavaScript.ruleSet, Python.ruleSet, Html.ruleSet, List.forall_mem_cons,
    List.not_mem_nil, false_imp_iff, implies_true, and_true]
  and_intros
  all_goals exact ⟨by decide, by decide, notMem_toList_of_eq _ rfl (by decide)⟩

theorem resolve?_builtin : ∀ rules ∈ builtinRuleSets,
    builtin.resolve? rules.language = some rules := by
  simp only [builtinRuleSets, List.forall_mem_cons]
  exact ⟨rfl, rfl, rfl, rfl, rfl, rfl, rfl, rfl, rfl, by simp⟩

end Registry

/-! ### Runs -/

namespace RuleRun

section

variable {language : Language} {filter : RuleFilter} {text : Text} {rules : RuleSet}

theorem ruleId_of_mem_reported {rule : Rule} {d : Diagnostic}
    (h : d ∈ reported language filter text rule) : d.ruleId = rule.id := by
  obtain ⟨finding, -, rfl⟩ := List.mem_map.mp h
  rfl

theorem isFinding_of_mem_reported {rule : Rule} (hid : ProperId rule.id) {d : Diagnostic}
    (h : d ∈ reported language filter text rule) : d.isFinding = true := by
  have hclean : d.isClean = false := by
    rw [Diagnostic.isClean, ruleId_of_mem_reported h]
    exact beq_false_of_ne hid.ne_clean
  have hunsupported : d.isUnsupported = false := by
    rw [Diagnostic.isUnsupported, ruleId_of_mem_reported h]
    exact beq_false_of_ne hid.ne_unsupported
  exact Diagnostic.isFinding_iff.mpr ⟨hclean, hunsupported⟩

variable (language filter text) in
/-- What the enabled ones of several rules report, in order. -/
def found (rules : List Rule) : List Diagnostic :=
  (enabled language filter rules).flatMap (reported language filter text)

theorem mem_found {d : Diagnostic} {rules : List Rule} :
    d ∈ found language filter text rules ↔
      ∃ rule ∈ rules, filter.isEnabled language rule.id = true ∧
        d ∈ reported language filter text rule := by
  simp only [found, List.mem_flatMap, mem_enabled, and_assoc]

/-- A run is what was found, or says that nothing was. -/
theorem diagnostics_eq_found :
    (ofRuleSet rules filter text).diagnostics =
      if found rules.language filter text rules.rules = [] then [.clean rules.cleanMessage]
      else found rules.language filter text rules.rules := by
  unfold ofRuleSet finish
  rw [contributions_eq]
  show RuleRun.diagnostics (if (found rules.language filter text rules.rules).isEmpty then _ else _)
    = _
  by_cases h : found rules.language filter text rules.rules = []
  · rw [if_pos h, if_pos (List.isEmpty_iff.mpr h)]
    show found rules.language filter text rules.rules ++ _ = _
    rw [h, List.nil_append]
  · rw [if_neg h, if_neg fun hempty => h (List.isEmpty_iff.mp hempty)]
    rfl

theorem isFinding_of_mem_found (hids : ∀ rule ∈ rules.rules, ProperId rule.id) {d : Diagnostic}
    (h : d ∈ found language filter text rules.rules) : d.isFinding = true := by
  obtain ⟨rule, hrule, -, hd⟩ := mem_found.mp h
  exact isFinding_of_mem_reported (hids rule hrule) hd

/-- What was found can be told from what a run shows. -/
theorem filter_isFinding (hids : ∀ rule ∈ rules.rules, ProperId rule.id) :
    (ofRuleSet rules filter text).diagnostics.filter (·.isFinding) =
      found rules.language filter text rules.rules := by
  rw [diagnostics_eq_found]
  by_cases h : found rules.language filter text rules.rules = []
  · rw [if_pos h, h]
    rfl
  · rw [if_neg h]
    exact List.filter_eq_self.mpr fun d hd => isFinding_of_mem_found hids hd

end

end RuleRun

end SnippetLint
