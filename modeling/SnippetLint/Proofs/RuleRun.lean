/-
What a run of rules yields.

The loop over the rules only ever adds to its run, so it can be cut at any rule: what a list of
rules contributes does not depend on what was there before.  From that follows a closed form
without a loop, and the closed form is what later results use: the diagnostics are the findings of
the rules that are enabled, the faults are the ids of those that are enabled and fault, and neither
list says anything about the other.
-/
import SnippetLint.RuleRun

namespace SnippetLint

namespace Rule

/-- What a rule finds in a text, which is nothing where its check faults. -/
def findings (rule : Rule) (text : Text) : List Finding :=
  match rule.check text with
  | .ok found => found
  | .error _ => []

/-- Whether the check of a rule faults on a text. -/
def faults (rule : Rule) (text : Text) : Bool :=
  match rule.check text with
  | .ok _ => false
  | .error _ => true

/-- A rule as it is, or, where its check faults on a text, with a check that finds nothing. -/
def quieted (rule : Rule) (text : Text) : Rule :=
  if rule.faults text then { rule with check := fun _ => .ok [] } else rule

theorem quieted_id (rule : Rule) (text : Text) : (rule.quieted text).id = rule.id := by
  unfold quieted
  split <;> rfl

theorem quieted_severity (rule : Rule) (text : Text) :
    (rule.quieted text).severity = rule.severity := by
  unfold quieted
  split <;> rfl

theorem findings_eq_nil_of_faults {rule : Rule} {text : Text} (h : rule.faults text = true) :
    rule.findings text = [] := by
  unfold faults at h
  unfold findings
  split at h
  · simp at h
  · rfl

theorem quieted_findings (rule : Rule) (text : Text) :
    (rule.quieted text).findings text = rule.findings text := by
  unfold quieted
  split
  · rename_i h
    exact (findings_eq_nil_of_faults h).symm
  · rfl

end Rule

namespace RuleRun

theorem append_assoc (a b c : RuleRun) : a ++ b ++ c = a ++ (b ++ c) := by
  show RuleRun.mk (a.diagnostics ++ b.diagnostics ++ c.diagnostics)
    (a.faulted ++ b.faulted ++ c.faulted) = _
  rw [List.append_assoc, List.append_assoc]
  rfl

theorem append_empty (a : RuleRun) : a ++ empty = a := by
  show RuleRun.mk (a.diagnostics ++ []) (a.faulted ++ []) = a
  rw [List.append_nil, List.append_nil]

section

variable (language : Language) (filter : RuleFilter) (text : Text)

/-- What the findings of a rule are reported as. -/
def reported (rule : Rule) : List Diagnostic :=
  (rule.findings text).map (diagnose rule.id (filter.severityOf language rule))

/-- The rules that are to run. -/
def enabled (rules : List Rule) : List Rule :=
  rules.filter fun rule => filter.isEnabled language rule.id

theorem enabled_cons (rule : Rule) (rest : List Rule) :
    enabled language filter (rule :: rest) =
      if filter.isEnabled language rule.id then rule :: enabled language filter rest
      else enabled language filter rest := List.filter_cons

theorem enabled_append (a b : List Rule) :
    enabled language filter (a ++ b) = enabled language filter a ++ enabled language filter b :=
  List.filter_append ..

theorem mem_enabled {rule : Rule} {rules : List Rule} :
    rule ∈ enabled language filter rules ↔
      rule ∈ rules ∧ filter.isEnabled language rule.id = true := List.mem_filter

/-! ### One rule, and several -/

/-- One rule adds to a run, and what it adds does not depend on the run. -/
theorem step_eq_append (run : RuleRun) (rule : Rule) :
    step language filter text run rule = run ++ step language filter text empty rule := by
  unfold step
  split
  · split
    · show _ = RuleRun.mk _ (run.faulted ++ [])
      rw [List.append_nil]
      rfl
    · show _ = RuleRun.mk (run.diagnostics ++ []) _
      rw [List.append_nil]
      rfl
  · exact (append_empty run).symm

theorem foldl_step (run : RuleRun) (rules : List Rule) :
    rules.foldl (step language filter text) run =
      run ++ contributions language filter text rules := by
  induction rules generalizing run with
  | nil => exact (append_empty run).symm
  | cons rule rest ih =>
      unfold contributions
      rw [List.foldl_cons, List.foldl_cons, ih, ih (step language filter text empty rule),
        step_eq_append, append_assoc]

theorem contributions_cons (rule : Rule) (rest : List Rule) :
    contributions language filter text (rule :: rest) =
      step language filter text empty rule ++ contributions language filter text rest := by
  rw [contributions, List.foldl_cons, foldl_step]

theorem contributions_append (a b : List Rule) :
    contributions language filter text (a ++ b) =
      contributions language filter text a ++ contributions language filter text b := by
  rw [contributions, List.foldl_append, foldl_step]
  rfl

/-! ### The closed form -/

theorem step_empty_eq (rule : Rule) :
    step language filter text empty rule =
      if filter.isEnabled language rule.id then
        ⟨reported language filter text rule, if rule.faults text then [rule.id] else []⟩
      else empty := by
  unfold step reported Rule.findings Rule.faults
  split
  · cases rule.check text with
    | ok found => rfl
    | error fault => rfl
  · rfl

/-- The run of the loop, without the loop. -/
theorem contributions_eq (rules : List Rule) :
    contributions language filter text rules =
      ⟨(enabled language filter rules).flatMap (reported language filter text),
        ((enabled language filter rules).filter (·.faults text)).map (·.id)⟩ := by
  induction rules with
  | nil => rfl
  | cons rule rest ih =>
      rw [contributions_cons, step_empty_eq, enabled_cons, ih]
      by_cases henabled : filter.isEnabled language rule.id = true
      · rw [if_pos henabled, if_pos henabled, List.filter_cons, List.flatMap_cons]
        by_cases hfaults : rule.faults text = true
        · rw [if_pos hfaults, if_pos hfaults]
          rfl
        · rw [if_neg hfaults, if_neg hfaults]
          rfl
      · rw [if_neg henabled, if_neg henabled]
        rfl

theorem faulted_ofRuleSet (rules : RuleSet) :
    (ofRuleSet rules filter text).faulted =
      ((enabled rules.language filter rules.rules).filter (·.faults text)).map (·.id) := by
  unfold ofRuleSet finish
  rw [contributions_eq]
  split <;> rfl

theorem reported_eq_nil_iff (rule : Rule) :
    reported language filter text rule = [] ↔ rule.findings text = [] := List.map_eq_nil_iff

/-- The diagnostic about a clean text is added where no enabled rule found anything. -/
theorem diagnostics_ofRuleSet (rules : RuleSet) :
    (ofRuleSet rules filter text).diagnostics =
      (enabled rules.language filter rules.rules).flatMap (reported rules.language filter text) ++
        if ∀ rule ∈ enabled rules.language filter rules.rules, rule.findings text = [] then
          [.clean rules.cleanMessage]
        else [] := by
  have hnil : ((enabled rules.language filter rules.rules).flatMap
      (reported rules.language filter text)).isEmpty = true ↔
      ∀ rule ∈ enabled rules.language filter rules.rules, rule.findings text = [] := by
    rw [List.isEmpty_iff, List.flatMap_eq_nil_iff]
    exact forall₂_congr fun rule _ => reported_eq_nil_iff ..
  unfold ofRuleSet finish
  rw [contributions_eq]
  by_cases h : ∀ rule ∈ enabled rules.language filter rules.rules, rule.findings text = []
  · rw [if_pos h, if_pos (hnil.mpr h)]
  · rw [if_neg h, if_neg fun hempty => h (hnil.mp hempty), List.append_nil]

/-- A diagnostic of a run is the one about a clean text or tells of a finding. -/
theorem mem_diagnostics_ofRuleSet {rules : RuleSet} {d : Diagnostic}
    (h : d ∈ (ofRuleSet rules filter text).diagnostics) :
    d = .clean rules.cleanMessage ∨
      ∃ rule ∈ enabled rules.language filter rules.rules,
        d ∈ reported rules.language filter text rule := by
  rw [diagnostics_ofRuleSet] at h
  rcases List.mem_append.mp h with h | h
  · exact .inr (List.mem_flatMap.mp h)
  · split at h
    · exact .inl (List.mem_singleton.mp h)
    · simp at h

/-! ### Faults -/

theorem enabled_quieted (rules : List Rule) :
    enabled language filter (rules.map (·.quieted text)) =
      (enabled language filter rules).map (·.quieted text) := by
  unfold enabled
  rw [List.filter_map]
  congr 2
  funext rule
  simp only [Function.comp, Rule.quieted_id]

theorem reported_quieted (rule : Rule) :
    reported language filter text (rule.quieted text) = reported language filter text rule := by
  unfold reported RuleFilter.severityOf
  rw [Rule.quieted_findings, Rule.quieted_id, Rule.quieted_severity]

theorem diagnostics_quieted (rules : RuleSet) :
    (ofRuleSet { rules with rules := rules.rules.map (·.quieted text) } filter text).diagnostics =
      (ofRuleSet rules filter text).diagnostics := by
  rw [diagnostics_ofRuleSet, diagnostics_ofRuleSet]
  simp only [enabled_quieted, List.forall_mem_map, List.flatMap_map, Rule.quieted_findings,
    reported_quieted]

/-- **A run is put together from the runs of its rules, and a fault stays with its rule.**  Two lists
of rules contribute what each of them does, in order.  A text is called clean exactly where no
enabled rule finds anything.  The rules that fault are listed in order, and all other diagnostics
are as if those rules had found nothing. -/
theorem run_homomorphic (cleanMessage : String) (a b : List Rule) :
    let contributed := contributions language filter text
    let run := fun rules => ofRuleSet ⟨language, rules, cleanMessage⟩ filter text
    (contributed (a ++ b)).diagnostics = (contributed a).diagnostics ++ (contributed b).diagnostics ∧
      (run (a ++ b)).faulted = (run a).faulted ++ (run b).faulted ∧
      (run a).diagnostics = (contributed a).diagnostics ++
        (if ∀ rule ∈ enabled language filter a, rule.findings text = [] then
          [.clean cleanMessage] else []) ∧
      (run (a.map (·.quieted text))).diagnostics = (run a).diagnostics ∧
      (run a).faulted = ((enabled language filter a).filter (·.faults text)).map (·.id) := by
  intro contributed run
  refine ⟨?_, ?_, ?_, diagnostics_quieted filter text ⟨language, a, cleanMessage⟩,
    faulted_ofRuleSet ..⟩
  · have happend : contributed (a ++ b) = contributed a ++ contributed b :=
      contributions_append ..
    rw [happend]
    rfl
  · simp only [run, faulted_ofRuleSet, enabled_append, List.filter_append, List.map_append]
  · rw [diagnostics_ofRuleSet]
    simp only [contributed, contributions_eq]

end

end RuleRun

end SnippetLint
