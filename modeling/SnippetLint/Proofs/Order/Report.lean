/-
Findings in order.

A run puts together what the rules report, in the order of the rules.  No two rules of a language
share an id, so the findings that go by one id are those of one rule, and they are in the order of
lines if the rule reports in that order.  Every rule of this library does, but for the one about
unused imports of Python, whose findings come in two rows.
-/
import SnippetLint.Proofs.Order.Imports
import SnippetLint.Proofs.Settings

namespace SnippetLint

namespace Diagnostic

/-- The lines that diagnostics point at, where they do, never decrease. -/
def InOrder (ds : List Diagnostic) : Prop := (ds.filterMap (·.line?)).Pairwise (· ≤ ·)

/-- Whether a diagnostic points at a line that begins with a keyword. -/
def isOfStatement (keyword : String) (d : Diagnostic) : Bool :=
  d.location.any fun location => Text.firstWord location.snippet.toList == keyword.toList

/-- Diagnostics in one row for each of several keywords, the rows one after the other. -/
structure InRows (keywords : List String) (ds : List Diagnostic) : Prop where
  rows : ds = keywords.flatMap fun keyword => ds.filter (·.isOfStatement keyword)
  inOrder : ∀ keyword ∈ keywords, InOrder (ds.filter (·.isOfStatement keyword))

theorem InRows.nil (keywords : List String) : InRows keywords [] :=
  ⟨(List.flatMap_eq_nil_iff.mpr fun _ _ => rfl).symm, fun _ _ => .nil⟩

end Diagnostic

/-! ### The rules of this library -/

namespace Registry

theorem builtinRuleSets_ordered : ∀ rules ∈ builtinRuleSets, ∀ rule ∈ rules.rules,
    (rules.language = .python ∧ rule.id = "unused-import") ∨ Check.Ordered rule.check := by
  simp only [builtinRuleSets, List.forall_mem_cons]
  exact ⟨fun rule h => .inr (Cpp.ruleSet_ordered rule h),
    fun rule h => .inr (Java.ruleSet_ordered rule h),
    fun rule h => .inr (CSharp.ruleSet_ordered rule h),
    fun rule h => .inr (Go.ruleSet_ordered rule h), fun rule h => .inr (Php.ruleSet_ordered rule h),
    fun rule h => .inr (TypeScript.ruleSet_ordered rule h),
    fun rule h => .inr (JavaScript.ruleSet_ordered rule h),
    fun rule h => (Python.ruleSet_ordered rule h).imp_left fun hid => ⟨rfl, hid⟩,
    fun rule h => .inr (Html.ruleSet_ordered rule h), by simp⟩

theorem builtinRuleSets_nodup :
    ∀ rules ∈ builtinRuleSets, (rules.rules.map (·.id)).Nodup := by
  simp only [builtinRuleSets, List.forall_mem_cons]
  exact ⟨by decide, by decide, by decide, by decide, by decide, by decide, by decide, by decide,
    by decide, by simp⟩

theorem eq_python {rules : RuleSet} (h : rules ∈ builtinRuleSets)
    (hlanguage : rules.language = .python) : rules = Python.ruleSet := by
  have hresolve := resolve?_builtin rules h
  rw [hlanguage] at hresolve
  exact Option.some.inj (hresolve.symm.trans rfl)

end Registry

/-! ### Findings of one rule -/

namespace Rule

/-- What holds of everything that a check gives, and of nothing, holds of what a rule finds. -/
theorem findings_of_gives {rule : Rule} {t : Text} {P : List Finding → Prop}
    (h : Gives (rule.check t) P) (hnil : P []) : P (rule.findings t) := by
  unfold findings
  split
  · rename_i found hfound
    exact h found hfound
  · exact hnil

end Rule

namespace RuleRun

section

variable {language : Language} {filter : RuleFilter} {t : Text} {rules : List Rule}

theorem inOrder_map_diagnose {id : String} {severity : Severity} {fs : List Finding}
    (h : Finding.InOrder fs) : Diagnostic.InOrder (fs.map (diagnose id severity)) := by
  have hlines : (fs.map (diagnose id severity)).filterMap (·.line?) = fs.filterMap (·.line) := by
    rw [List.filterMap_map]
    congr 1
    funext f
    cases hline : f.line <;> simp [diagnose, Diagnostic.line?, hline]
  rw [Diagnostic.InOrder, hlines]
  exact h

theorem found_cons (rule : Rule) (rest : List Rule) :
    found language filter t (rule :: rest) =
      (if filter.isEnabled language rule.id then reported language filter t rule else []) ++
        found language filter t rest := by
  unfold found
  rw [enabled_cons]
  split
  · exact List.flatMap_cons
  · rfl

theorem filter_reported_self (rule : Rule) :
    (reported language filter t rule).filter (·.ruleId = rule.id) =
      reported language filter t rule :=
  List.filter_eq_self.mpr fun _ hd => decide_eq_true (ruleId_of_mem_reported hd)

/-- The findings that go by one id are those of one rule, or there are none. -/
theorem filter_found_cases (hnodup : (rules.map (·.id)).Nodup) (id : String) :
    (found language filter t rules).filter (·.ruleId = id) = [] ∨
      ∃ rule ∈ rules, rule.id = id ∧
        (found language filter t rules).filter (·.ruleId = id) = reported language filter t rule := by
  induction rules with
  | nil => exact .inl rfl
  | cons rule rest ih =>
      rw [List.map_cons, List.nodup_cons] at hnodup
      rw [found_cons, List.filter_append]
      by_cases hid : rule.id = id
      · have hrest : (found language filter t rest).filter (·.ruleId = id) = [] := by
          refine List.filter_eq_nil_iff.mpr fun d hd heq => hnodup.1 ?_
          obtain ⟨other, hother, -, hd⟩ := mem_found.mp hd
          rw [hid, ← of_decide_eq_true heq, ruleId_of_mem_reported hd]
          exact List.mem_map_of_mem hother
        rw [hrest, List.append_nil, ← hid]
        split
        · exact .inr ⟨rule, List.mem_cons_self, rfl, filter_reported_self rule⟩
        · exact .inl rfl
      · have hown : (if filter.isEnabled language rule.id then reported language filter t rule
            else []).filter (·.ruleId = id) = [] := by
          refine List.filter_eq_nil_iff.mpr fun d hd heq => hid ?_
          split at hd
          · rw [← ruleId_of_mem_reported hd]
            exact of_decide_eq_true heq
          · simp at hd
        rw [hown, List.nil_append]
        rcases ih hnodup.2 with hnone | ⟨other, hother, hall⟩
        · exact .inl hnone
        · exact .inr ⟨other, List.mem_cons_of_mem rule hother, hall⟩

/-- Rules report in the order in which they stand. -/
theorem pairwise_position (hnodup : (rules.map (·.id)).Nodup) :
    ((found language filter t rules).map fun d => (rules.map (·.id)).idxOf d.ruleId).Pairwise
      (· ≤ ·) := by
  have hids : (rules.map (·.id)).Pairwise fun a b =>
      (rules.map (·.id)).idxOf a ≤ (rules.map (·.id)).idxOf b := by
    refine List.pairwise_iff_getElem.mpr fun i j hi hj hlt => ?_
    rw [hnodup.idxOf_getElem, hnodup.idxOf_getElem]
    exact Nat.le_of_lt hlt
  have hrules := List.pairwise_map.mp hids
  refine List.pairwise_map.mpr (List.pairwise_flatMap.mpr ⟨fun rule _ => ?_,
    (hrules.filter _).imp fun {rule rule'} hle d hd d' hd' => ?_⟩)
  · refine List.pairwise_of_forall_mem_list fun d hd d' hd' => ?_
    rw [ruleId_of_mem_reported hd, ruleId_of_mem_reported hd']
  · rw [ruleId_of_mem_reported hd, ruleId_of_mem_reported hd']
    exact hle

end

end RuleRun

/-! ### Reports -/

namespace Python

theorem unusedImport_check : ∀ rule ∈ ruleSet.rules,
    rule.id = "unused-import" → rule.check = unusedImport := by
  simp [ruleSet]

section

variable {keyword other id : String} {severity : Severity} {fs : List Finding}

theorem isOfStatement_of_row (h : Row keyword fs) {d : Diagnostic}
    (hd : d ∈ fs.map (RuleRun.diagnose id severity)) :
    d.isOfStatement other = (keyword.toList == other.toList) := by
  obtain ⟨f, hf, rfl⟩ := List.mem_map.mp hd
  obtain ⟨n, line, hn, hline, hword⟩ := h.ofStatement f hf
  rw [← hword]
  simp [RuleRun.diagnose, Diagnostic.isOfStatement, hn, hline]

/-- A row is told from the other by its keyword. -/
theorem filter_row (h : Row keyword fs) :
    (fs.map (RuleRun.diagnose id severity)).filter (·.isOfStatement other) =
      if keyword.toList = other.toList then fs.map (RuleRun.diagnose id severity) else [] := by
  split
  · rename_i heq
    refine List.filter_eq_self.mpr fun d hd => ?_
    rw [isOfStatement_of_row h hd, beq_iff_eq.mpr heq]
  · rename_i hne
    refine List.filter_eq_nil_iff.mpr fun d hd => ?_
    rw [isOfStatement_of_row h hd, beq_false_of_ne hne]
    exact Bool.false_ne_true

theorem inRows_of_rows {plain named : List Finding} (hplain : Row "import" plain)
    (hnamed : Row "from" named) :
    Diagnostic.InRows ["import", "from"] ((plain ++ named).map (RuleRun.diagnose id severity)) := by
  have hrow : ∀ keyword : String,
      ((plain ++ named).map (RuleRun.diagnose id severity)).filter (·.isOfStatement keyword) =
        (if "import".toList = keyword.toList then plain.map (RuleRun.diagnose id severity) else []) ++
          if "from".toList = keyword.toList then named.map (RuleRun.diagnose id severity) else [] := by
    intro keyword
    rw [List.map_append, List.filter_append, filter_row hplain, filter_row hnamed]
  have himport := hrow "import"
  rw [if_pos rfl, if_neg (by decide), List.append_nil] at himport
  have hfrom := hrow "from"
  rw [if_neg (by decide), if_pos rfl, List.nil_append] at hfrom
  constructor
  · rw [List.flatMap_cons, List.flatMap_singleton, himport, hfrom, List.map_append]
  · simp only [List.forall_mem_cons, himport, hfrom]
    exact ⟨RuleRun.inOrder_map_diagnose hplain.inOrder,
      RuleRun.inOrder_map_diagnose hnamed.inOrder, by simp⟩

end

theorem inRows_reported {rule : Rule} (h : rule.check = unusedImport) (language : Language)
    (filter : RuleFilter) (t : Text) :
    Diagnostic.InRows ["import", "from"] (RuleRun.reported language filter t rule) := by
  obtain ⟨plain, named, hfindings, hplain, hnamed⟩ :=
    Rule.findings_of_gives (h ▸ unusedImport_rows t) ⟨[], [], rfl, .nil _, .nil _⟩
  rw [RuleRun.reported, hfindings]
  exact inRows_of_rows hplain hnamed

end Python

namespace Linter

/-- **Findings come in order.**  They are sorted by the position of their rule among the rules of the
language, which have different ids.  The findings of one rule are sorted by line, where they point at
one.  Only those of Python's rule about unused imports come in two rows that are: first the findings
on lines that begin with `import`, then those on lines that begin with `from`. -/
theorem findings_ordered (config : Config) {rules : RuleSet} (h : rules ∈ Registry.builtinRuleSets)
    (t : Text) :
    let findings := (lintAs ⟨.builtin, config⟩ rules.language t).findings
    let ids := rules.rules.map (·.id)
    let ofRule := fun id => findings.filter (·.ruleId = id)
    ids.Nodup ∧ (∀ d ∈ findings, d.ruleId ∈ ids) ∧
      (findings.map fun d => ids.idxOf d.ruleId).Pairwise (· ≤ ·) ∧
      (∀ id, ¬ (rules.language = .python ∧ id = "unused-import") → Diagnostic.InOrder (ofRule id)) ∧
      (rules.language = .python → Diagnostic.InRows ["import", "from"] (ofRule "unused-import")) := by
  intro findings ids ofRule
  have hnodup := Registry.builtinRuleSets_nodup rules h
  have hfound : findings = RuleRun.found rules.language (.ofConfig config.rules) t rules.rules := by
    show Report.findings _ = _
    rw [lintAs_builtin h]
    exact RuleRun.filter_isFinding (Registry.builtinRuleSets_properId rules h)
  refine ⟨hnodup, fun d hd => ?_, ?_, fun id hid => ?_, fun hlanguage => ?_⟩
  · rw [hfound] at hd
    obtain ⟨rule, hrule, -, hd⟩ := RuleRun.mem_found.mp hd
    rw [RuleRun.ruleId_of_mem_reported hd]
    exact List.mem_map_of_mem hrule
  · rw [hfound]
    exact RuleRun.pairwise_position hnodup
  · show Diagnostic.InOrder (findings.filter _)
    rw [hfound]
    rcases RuleRun.filter_found_cases hnodup id with hnone | ⟨rule, hrule, rfl, hall⟩
    · rw [hnone]
      exact .nil
    · rw [hall]
      rcases Registry.builtinRuleSets_ordered rules h rule hrule with himport | hordered
      · exact absurd himport hid
      · exact RuleRun.inOrder_map_diagnose (Rule.findings_of_gives (hordered t) .nil)
  · show Diagnostic.InRows _ (findings.filter _)
    rw [hfound]
    rcases RuleRun.filter_found_cases hnodup "unused-import" with hnone | ⟨rule, hrule, hid, hall⟩
    · rw [hnone]
      exact .nil _
    · rw [hall]
      obtain rfl := Registry.eq_python h hlanguage
      exact Python.inRows_reported (Python.unusedImport_check rule hrule hid) ..

theorem findings_ordered_imports :
    let t := "from os import path\nimport sys\nprint(1)\n".toList
    let findings := (lintAs default .python t).findings
    Python.ruleSet ∈ Registry.builtinRuleSets ∧
      (findings.map fun d => (d.ruleId, d.line?)) =
        [("no-print", none), ("unused-import", some 2), ("unused-import", some 1)] ∧
      Diagnostic.InRows ["import", "from"] (findings.filter (·.ruleId = "unused-import")) := by
  intro t findings
  have hmem : Python.ruleSet ∈ Registry.builtinRuleSets := by simp [Registry.builtinRuleSets]
  obtain ⟨-, -, -, -, himports⟩ := findings_ordered {} hmem t
  exact ⟨hmem, by decide +kernel, himports rfl⟩

end Linter

end SnippetLint
