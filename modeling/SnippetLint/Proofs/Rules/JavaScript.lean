/-
Every rule for JavaScript finishes, points at the right line and begins its messages with words of its
own; the one about unused variables is exact.  All but one point to the same lines whatever the line
endings, and all report from the first line to the last.
-/
import SnippetLint.Proofs.Indentation
import SnippetLint.Proofs.LineEndings.Comparison
import SnippetLint.Proofs.Names
import SnippetLint.Proofs.Order.Checks
import SnippetLint.Proofs.Repeats
import SnippetLint.Proofs.Returns
import SnippetLint.Proofs.Wording
import SnippetLint.Rules.JavaScript

namespace SnippetLint.JavaScript

open Finding Pattern

theorem maxParams_sound : Check.Sound maxParams := by
  refine fun t => spans_sound (p := callOrSignature) (by decide) t fun s hs => ?_
  obtain ⟨m, hm, rfl⟩ := List.mem_map.mp hs
  exact List.mem_map_of_mem (List.mem_filter.mp hm).1

theorem noDuplicateImports_sound : Check.Sound noDuplicateImports :=
  fun t => groups_sound (by decide) t fun _ hs => mem_of_mem_repeats hs

/-- Unused variables are those whose name is a word of the text only once. -/
theorem noUnusedVars_exact :
    Check.ReportsUnused noUnusedVars (declaration.findGroups 1) Span.text fun t s =>
      Finding.atOffset t s.start ("Unused variable detected: " ++ s.string) :=
  reportsUnused_groups (by decide) fun _ _ hs => stands_of_last hs

theorem ruleSet_sound : ∀ rule ∈ ruleSet.rules, Check.Sound rule.check := by
  simp only [ruleSet, List.forall_mem_cons]
  exact ⟨fun t => ifPresent_sound t _ _, fun t => ifMissing_sound t _ _,
    fun t => ifMissing_sound t _ _, findSpans_sound (by decide), filterGroups_sound (by decide) _,
    Indentation.inconsistent_sound, LooseOperator.findAll_sound _, Returns.reportUnreachable_sound _,
    maxParams_sound, noDuplicateImports_sound, fun t => ifPresent_sound t _ _,
    findSpans_sound (by decide), fun t => ifPresent_sound t _ _, by simp⟩

/-! ### Messages -/

theorem strictMessage_telling (op : LooseOperator) : Telling (strictMessage op) := by
  cases op <;> exact .of_eq rfl (by decide)

/-- What the rules say is told from what is shown where nothing was found. -/
theorem ruleSet_telling : ∀ rule ∈ ruleSet.rules, Check.Says Telling rule.check := by
  simp only [ruleSet, List.forall_mem_cons]
  refine ⟨fun _ => ifPresent_wording ?_,
    fun _ => ifMissing_wording ?_,
    fun _ => ifMissing_wording ?_,
    fun _ => atSpans_wording fun _ _ => ?_,
    fun _ => atSpans_wording fun _ _ => ?_,
    Indentation.inconsistent_wording fun _ _ _ _ => ?_,
    fun _ => gives_bind fun _ => gives_mapM fun _ _ => atOffset_wording (strictMessage_telling _),
    fun _ => gives_bind fun _ => atOffsets_wording fun _ _ => ?_,
    fun _ => atSpans_wording fun _ _ => ?_,
    fun _ => atSpans_wording fun _ _ => ?_,
    fun _ => ifPresent_wording ?_,
    fun _ => atSpans_wording fun _ _ => ?_,
    fun _ => ifPresent_wording ?_,
    by simp⟩
  all_goals
    repeat with_reducible apply Telling.append
    exact .of_eq rfl (by decide)

theorem strictMessage_oneLine (op : LooseOperator) : OneLine (strictMessage op) := by
  cases op <;> exact .of_eq rfl (by decide)

/-- What the rules say stays on one line, but for those that quote more than a line holds. -/
theorem ruleSet_oneLine :
    ∀ rule ∈ ruleSet.rules, rule.id ∉ Rule.quotingIds → Check.Says OneLine rule.check := by
  simp only [ruleSet, List.forall_mem_cons]
  refine ⟨fun _ _ => ifPresent_wording ?_,
    fun _ _ => ifMissing_wording ?_,
    fun _ _ => ifMissing_wording ?_,
    fun _ _ => atSpans_wording fun _ _ => ?_,
    fun _ _ => groups_wording (by decide) (fun _ hs => (List.mem_filter.mp hs).1) fun _ _ => ?_,
    fun _ => Indentation.inconsistent_wording fun _ _ _ _ => ?_,
    fun _ _ => gives_bind fun _ => gives_mapM fun _ _ => atOffset_wording (strictMessage_oneLine _),
    fun _ _ => gives_bind fun _ => atOffsets_wording fun _ _ => ?_,
    fun hid => absurd (by decide) hid,
    fun hid => absurd (by decide) hid,
    fun _ _ => ifPresent_wording ?_,
    fun _ _ => atSpans_wording fun _ _ => ?_,
    fun _ _ => ifPresent_wording ?_,
    by simp⟩
  all_goals
    repeat' with_reducible apply OneLine.append
    all_goals with_reducible first | assumption | exact OneLine.toString _ | exact .of_eq rfl (by decide)

/-! ### Line endings -/

theorem endsWell_crlf (t : Text) : endsWell (Text.crlf t) = endsWell t := by
  rw [endsWell, Text.isEmpty_crlf, Text.startsWith_crlf _ (by decide) (by decide),
    Text.startsWith_crlf _ (by decide) (by decide), Text.endsWith_crlf _ (by decide) (by decide),
    Text.endsWith_crlf _ (by decide) (by decide), endsWell]

theorem semicolon_steady : Check.Steady semicolon := by
  refine Check.steady_ifMissing fun t _ => ?_
  rw [Text.trim_crlf, endsWell_crlf]

theorem parameterCount_crlf (list : Text) :
    parameterCount (Text.crlf list) = parameterCount list := by
  have hblank : (fun p => !Text.isBlank p) ∘ Text.crlf = fun p => !Text.isBlank p :=
    funext fun p => congrArg not (Text.isBlank_crlf p)
  rw [parameterCount, Text.pieces_crlf (by decide) (by decide), List.filter_map, List.length_map,
    hblank, parameterCount]

theorem maxParams_steady : Check.Steady maxParams := by
  refine Check.steady_filterMatches (by decide) (by decide) fun t _ m _ => ?_
  rw [Found.textOf_crlf, parameterCount_crlf]

theorem consistentReturn_steady : Check.Steady consistentReturn := by
  refine Check.steady_ifPresent fun t _ => ?_
  rw [occursIn_crlf (by decide), occursIn_crlf (by decide)]

/-- All rules but one point to the same lines whatever the line endings. -/
theorem ruleSet_steady : ∀ rule ∈ ruleSet.rules,
    rule.id ∈ Rule.endingIds .javascript ∨ Check.Steady rule.check := by
  simp only [ruleSet, List.forall_mem_cons]
  refine ⟨.inr (Check.steady_ifOccurs (by decide)), .inr semicolon_steady,
    .inr (Check.steady_unlessOccurs (by decide)), .inr (Check.steady_spans (by decide) (by decide)),
    .inr (Check.steady_unused (by decide) (by decide) (by decide) (by decide)),
    .inr Indentation.inconsistent_steady, .inr (LooseOperator.report_steady _),
    .inr (Returns.reportUnreachable_steady _), .inr maxParams_steady, .inl (by decide),
    .inr (Check.steady_ifPresent fun t _ => ?_), .inr (Check.steady_spans (by decide) (by decide)),
    .inr consistentReturn_steady, by simp⟩
  rw [Braces.peak_crlf]

/-! ### Order -/

theorem maxParams_ordered : Check.Ordered maxParams :=
  fun _ => atSpans_successive (pairwise_wholes List.filter_sublist)

/-- The rules report from the first line to the last. -/
theorem ruleSet_ordered : ∀ rule ∈ ruleSet.rules, Check.Ordered rule.check := by
  simp only [ruleSet, List.forall_mem_cons]
  exact ⟨fun _ => ifPresent_inOrder _ _, fun _ => ifMissing_inOrder _ _,
    fun _ => ifMissing_inOrder _ _, findSpans_ordered, filterGroups_ordered _,
    Indentation.inconsistent_ordered, LooseOperator.findAll_ordered _,
    Returns.reportUnreachable_ordered _, maxParams_ordered, repeatedGroups_ordered,
    fun _ => ifPresent_inOrder _ _, findSpans_ordered, fun _ => ifPresent_inOrder _ _, by simp⟩

end SnippetLint.JavaScript
