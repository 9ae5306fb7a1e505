/-
Every rule for TypeScript finishes, points at the right line, whatever the line endings, and begins
its messages with words of its own; the one about unused variables is exact.  Each reports from the
first line to the last.
-/
import SnippetLint.Proofs.LineEndings.Checks
import SnippetLint.Proofs.Names
import SnippetLint.Proofs.Order.Checks
import SnippetLint.Proofs.Wording
import SnippetLint.Rules.TypeScript

namespace SnippetLint.TypeScript

open Finding Pattern

theorem memberAccess_sound : Check.Sound memberAccess :=
  fun t => groups_sound (by decide) t fun _ hs => mem_findGroups_of_filter hs

/-- Unused variables are those whose name is a word of the text only once. -/
theorem noUnusedVars_exact :
    Check.ReportsUnused noUnusedVars (blockDeclaration.findGroups 1) Span.text fun t s =>
      Finding.atOffset t s.start ("Variable \"" ++ s.string ++ "\" is declared but not used.") :=
  reportsUnused_groups (by decide) fun _ _ hs => stands_of_last hs

theorem ruleSet_sound : ∀ rule ∈ ruleSet.rules, Check.Sound rule.check := by
  simp only [ruleSet, List.forall_mem_cons]
  exact ⟨fun t => ifMissing_sound t _ _, findSpans_sound (by decide),
    fun t => ifMissing_sound t _ _, filterGroups_sound (by decide) _, findSpans_sound (by decide),
    findSpans_sound (by decide), fun t => ifMissing_sound t _ _, memberAccess_sound, by simp⟩

/-! ### Messages -/

/-- What the rules say is told from what is shown where nothing was found. -/
theorem ruleSet_telling : ∀ rule ∈ ruleSet.rules, Check.Says Telling rule.check := by
  simp only [ruleSet, List.forall_mem_cons]
  refine ⟨fun _ => ifMissing_wording ?_,
    fun _ => atSpans_wording fun _ _ => ?_,
    fun _ => ifMissing_wording ?_,
    fun _ => atSpans_wording fun _ _ => ?_,
    fun _ => atSpans_wording fun _ _ => ?_,
    fun _ => atSpans_wording fun _ _ => ?_,
    fun _ => ifMissing_wording ?_,
    fun _ => atSpans_wording fun _ _ => ?_,
    by simp⟩
  all_goals
    repeat with_reducible apply Telling.append
    exact .of_eq rfl (by decide)

/-- What the rules say stays on one line. -/
theorem ruleSet_oneLine : ∀ rule ∈ ruleSet.rules, Check.Says OneLine rule.check := by
  simp only [ruleSet, List.forall_mem_cons]
  refine ⟨fun _ => ifMissing_wording ?_,
    fun _ => atSpans_wording fun _ _ => ?_,
    fun _ => ifMissing_wording ?_,
    fun _ => groups_wording (by decide) (fun _ hs => (List.mem_filter.mp hs).1) fun _ _ => ?_,
    fun _ => atSpans_wording fun _ _ => ?_,
    fun _ => atSpans_wording fun _ _ => ?_,
    fun _ => ifMissing_wording ?_,
    fun _ => groups_wording (by decide) (fun _ hs => mem_findGroups_of_filter hs) fun _ _ => ?_,
    by simp⟩
  all_goals
    repeat' with_reducible apply OneLine.append
    all_goals with_reducible first | assumption | exact OneLine.toString _ | exact .of_eq rfl (by decide)

/-! ### Line endings -/

theorem hasMethods_crlf (body : Text) : hasMethods (Text.crlf body) = hasMethods body := by
  have hp : methodHeader.ignoresReturns = true := by decide
  have havoids : methodHeader.groupAvoids '\n' 1 = true := by decide
  rw [hasMethods, findGroups_crlf hp (by decide), List.any_map, hasMethods]
  refine any_eq_of_mem fun s hs => ?_
  rw [Function.comp, Span.string, Becomes.text_of_group havoids ⟨hs, rfl⟩, Span.string]

theorem memberAccess_steady : Check.Steady memberAccess := by
  refine Check.steady_filterMatches_group (by decide) (by decide) fun t _ m _ => ?_
  rw [Found.textOf_crlf, hasMethods_crlf, occursIn_crlf (by decide)]

/-- The rules point to the same lines whatever the line endings. -/
theorem ruleSet_steady : ∀ rule ∈ ruleSet.rules, Check.Steady rule.check := by
  simp only [ruleSet, List.forall_mem_cons]
  exact ⟨Check.steady_unlessHas _ (by decide) (by decide),
    Check.steady_spans (by decide) (by decide),
    Check.steady_unlessHas _ (by decide) (by decide),
    Check.steady_unused (by decide) (by decide) (by decide) (by decide),
    Check.steady_spans (by decide) (by decide),
    Check.steady_spans (by decide) (by decide),
    Check.steady_unlessHas _ (by decide) (by decide),
    memberAccess_steady, by simp⟩

/-! ### Order -/

/-- The rules report from the first line to the last. -/
theorem ruleSet_ordered : ∀ rule ∈ ruleSet.rules, Check.Ordered rule.check := by
  simp only [ruleSet, List.forall_mem_cons]
  exact ⟨fun _ => ifMissing_inOrder _ _, findSpans_ordered, fun _ => ifMissing_inOrder _ _,
    filterGroups_ordered _, findSpans_ordered, findSpans_ordered, fun _ => ifMissing_inOrder _ _,
    filterMatches_ordered _, by simp⟩

end SnippetLint.TypeScript
