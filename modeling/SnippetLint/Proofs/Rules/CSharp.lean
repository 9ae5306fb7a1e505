/-
Every rule for C# finishes, points at the right line and begins its messages with words of its own;
the one about unused variables is exact.  All but one point to the same lines whatever the line
endings, and all report from the first line to the last.
-/
import SnippetLint.Proofs.LineEndings.Checks
import SnippetLint.Proofs.Names
import SnippetLint.Proofs.Order.Checks
import SnippetLint.Proofs.Repeats
import SnippetLint.Proofs.Wording
import SnippetLint.Rules.CSharp

namespace SnippetLint.CSharp

open Finding Pattern

theorem asyncWithoutAwait_sound : Check.Sound asyncWithoutAwait :=
  fun t => groups_sound (by decide) t fun _ hs => mem_findGroups_of_filter hs

theorem allPlaced_bracelessFrom {t : Text} {number : Nat} {lines : List Text}
    (hlines : ∀ x ∈ lines.zipIdx number, x ∈ Text.numberedLines t) :
    AllPlaced t (bracelessFrom number lines) := by
  induction lines generalizing number with
  | nil => simp [bracelessFrom, AllPlaced]
  | cons line rest ih =>
      rw [List.zipIdx_cons, List.forall_mem_cons] at hlines
      intro f hf
      rcases List.mem_append.mp hf with hf | hf
      · split at hf
        · rw [List.mem_singleton.mp hf]
          exact placed_onLine hlines.1 _
        · simp at hf
      · exact ih hlines.2 f hf

theorem controlBraces_sound : Check.Sound controlBraces :=
  fun _ => yields_pure (allPlaced_bracelessFrom fun _ hx => hx)

theorem methodAccess_sound : Check.Sound methodAccess :=
  fun t => groups_sound (by decide) t fun _ hs => mem_findGroups_of_filter hs

theorem unusedException_sound : Check.Sound unusedException := by
  intro t
  unfold unusedException
  refine Yields.bind (P := fun unused => ∀ m ∈ unused, m ∈ catchBlock.findAll t) ?_
    fun unused hunused => groups_sound (p := catchBlock) (i := 0) (by decide) t fun s hs => ?_
  · refine yields_filterM fun m hm => ?_
    obtain ⟨variable_, -, hvariable⟩ :=
      (finds_of_mem_findAll hm).exists_group (i := 0) (by decide)
    rw [hvariable]
    exact yields_pure trivial
  · obtain ⟨m, hm, hgroup⟩ := List.mem_filterMap.mp hs
    exact List.mem_filterMap.mpr ⟨m, hunused m hm, hgroup⟩

/-- Unused variables are those whose name is a word of the text only once. -/
theorem unusedVariable_exact :
    Check.ReportsUnused unusedVariable (variableDeclaration.findGroups 1) Span.text fun t s =>
      Finding.atOffset t s.start ("Unused variable detected: " ++ s.string) :=
  reportsUnused_groups (by decide) fun _ _ hs => stands_of_closed (freeAhead_of_oneOf (by decide)) hs

theorem ruleSet_sound : ∀ rule ∈ ruleSet.rules, Check.Sound rule.check := by
  simp only [ruleSet, List.forall_mem_cons]
  exact ⟨fun t => ifMissing_sound t _ _, fun t => ifMissing_sound t _ _,
    fun t => ifMissing_sound t _ _, filterGroups_sound (by decide) _, asyncWithoutAwait_sound,
    fun t => ifPresent_sound t _ _, findGroups_sound (by decide), controlBraces_sound,
    methodAccess_sound, findGroups_sound (by decide), unusedException_sound, by simp⟩

/-! ### Messages -/

theorem allSay_bracelessFrom {P : String → Prop}
    (h : ∀ number, OneLine number →
      P ("Missing curly braces for control structure at line " ++ number ++ "."))
    (number : Nat) (lines : List Text) : AllSay P (bracelessFrom number lines) := by
  induction lines generalizing number with
  | nil => exact allSay_nil
  | cons line rest ih =>
      refine AllSay.append ?_ (ih _)
      split
      · refine allSay_singleton ?_
        exact h _ (.toString number)
      · exact allSay_nil

/-- What the rules say is told from what is shown where nothing was found. -/
theorem ruleSet_telling : ∀ rule ∈ ruleSet.rules, Check.Says Telling rule.check := by
  simp only [ruleSet, List.forall_mem_cons]
  refine ⟨fun _ => ifMissing_wording ?_,
    fun _ => ifMissing_wording ?_,
    fun _ => ifMissing_wording ?_,
    fun _ => atSpans_wording fun _ _ => ?_,
    fun _ => atSpans_wording fun _ _ => ?_,
    fun _ => ifPresent_wording ?_,
    fun _ => atSpans_wording fun _ _ => ?_,
    fun _ => gives_pure (allSay_bracelessFrom (fun _ _ => ?_) _ _),
    fun _ => atSpans_wording fun _ _ => ?_,
    fun _ => atSpans_wording fun _ _ => ?_,
    fun _ => gives_bind fun _ => atSpans_wording fun _ _ => ?_,
    by simp⟩
  all_goals
    repeat with_reducible apply Telling.append
    exact .of_eq rfl (by decide)

theorem unusedException_wording {P : String → Prop}
    (h : ∀ s : Span, OneLine s.string → P ("Unused exception variable in catch block: " ++ s.string)) :
    Check.Says P unusedException := by
  refine fun t => gives_filterM.bind fun unused hunused => ?_
  refine groups_wording (p := catchBlock) (i := 0) (by decide) (fun s hs => ?_) h
  obtain ⟨m, hm, hgroup⟩ := List.mem_filterMap.mp hs
  exact List.mem_filterMap.mpr ⟨m, hunused m hm, hgroup⟩

theorem magicNumber_wording {P : String → Prop}
    (h : ∀ literals, OneLine literals →
      P ("Avoid using magic numbers (" ++ literals ++ "). Use named constants instead.")) :
    Check.Says P magicNumber := by
  refine fun t => ifPresent_wording (h _ (.join (.of_eq rfl (by decide)) fun part hpart => ?_))
  obtain ⟨literal, hliteral, rfl⟩ := List.mem_map.mp hpart
  have hmem : literal ∈ Words.numerals t := mem_of_mem_firsts hliteral
  exact .ofList (notMem_of_mem_findSpans (p := Words.numeral) (by decide) hmem)

/-- What the rules say stays on one line. -/
theorem ruleSet_oneLine : ∀ rule ∈ ruleSet.rules, Check.Says OneLine rule.check := by
  simp only [ruleSet, List.forall_mem_cons]
  refine ⟨fun _ => ifMissing_wording ?_,
    fun _ => ifMissing_wording ?_,
    fun _ => ifMissing_wording ?_,
    fun _ => groups_wording (by decide) (fun _ hs => (List.mem_filter.mp hs).1) fun _ _ => ?_,
    fun _ => groups_wording (by decide) (fun _ hs => mem_findGroups_of_filter hs) fun _ _ => ?_,
    magicNumber_wording fun _ _ => ?_,
    fun _ => groups_wording (by decide) (fun _ hs => hs) fun _ _ => ?_,
    fun _ => gives_pure (allSay_bracelessFrom (fun _ _ => ?_) _ _),
    fun _ => groups_wording (by decide) (fun _ hs => mem_findGroups_of_filter hs) fun _ _ => ?_,
    fun _ => groups_wording (by decide) (fun _ hs => hs) fun _ _ => ?_,
    unusedException_wording fun _ _ => ?_,
    by simp⟩
  all_goals
    repeat' with_reducible apply OneLine.append
    all_goals with_reducible first | assumption | exact OneLine.toString _ | exact .of_eq rfl (by decide)

/-! ### Line endings -/

theorem asyncWithoutAwait_steady : Check.Steady asyncWithoutAwait := by
  refine Check.steady_filterMatches_group (by decide) (by decide) fun t _ m _ => ?_
  rw [Found.textOf_crlf, occursIn_crlf (by decide)]

theorem magicNumber_steady : Check.Steady magicNumber := by
  refine Check.steady_ifPresent fun t _ => ?_
  have hnumerals : List.Forall₂ _ (Words.numerals t) (Words.numerals (Text.crlf t)) :=
    becomes_findSpans (p := Words.numeral) (by decide) (by decide) t
  have hfirsts := forall₂_firsts (fun _ _ h => congrArg Span.text h.2) hnumerals
  have hlength := hfirsts.length_eq
  rw [Bool.eq_iff_iff]
  simp only [List.isEmpty_map, Bool.not_eq_true', List.isEmpty_eq_false_iff, ← List.length_pos_iff,
    hlength]

theorem unusedException_steady : Check.Steady unusedException := by
  intro t _
  have hunused : Alike (List.Forall₂ (Becomes (catchBlock.findAll t) (Found.crlf t)))
      ((catchBlock.findAll t).filterM fun m => do
        let variable_ ← m.group 1
        return !Words.usedOutside (m.textOf 2) variable_.text 0 0)
      ((catchBlock.findAll (Text.crlf t)).filterM fun m => do
        let variable_ ← m.group 1
        return !Words.usedOutside (m.textOf 2) variable_.text 0 0) := by
    refine alike_filterM (becomes_findAll (by decide) (by decide) t) ?_
    rintro m m' ⟨hm, rfl⟩
    have hfinds := finds_of_mem_findAll hm
    obtain ⟨variable_, hsome, hvariable⟩ := hfinds.exists_group (i := 0) (by decide)
    have hne := (hfinds.group?_partOf hsome).2 (by decide)
    have hfeed : '\n' ∉ variable_.text := hfinds.notMem_group (by decide) hsome
    have hreturn : '\r' ∉ variable_.text := hfinds.notMem_group (by decide) hsome
    have hname : (variable_.crlf t).text = variable_.text := Text.crlf_eq_self hfeed
    have hstart : SamePlace (m.textOf 2) 0 0 := ⟨[], m.textOf 2, rfl, rfl, rfl⟩
    rw [Found.group_crlf, Found.textOf_crlf, hvariable]
    refine alike_pure ?_
    rw [hname, Words.usedOutside_crlf hne hfeed hreturn hstart hstart]
  refine hunused.bind fun unused unused' h => atSpans_alike ?_ _ _
  exact List.rel_filterMap (fun _ _ hm => hm.samePlace_group? 0) h

/-- All rules but one point to the same lines whatever the line endings. -/
theorem ruleSet_steady : ∀ rule ∈ ruleSet.rules,
    rule.id ∈ Rule.endingIds .csharp ∨ Check.Steady rule.check := by
  simp only [ruleSet, List.forall_mem_cons]
  refine ⟨.inr (Check.steady_unlessOccurs (by decide)), .inr (Check.steady_unlessOccurs (by decide)),
    .inr (Check.steady_unlessOccurs (by decide)),
    .inr (Check.steady_unused (by decide) (by decide) (by decide) (by decide)),
    .inr asyncWithoutAwait_steady, .inr magicNumber_steady,
    .inr (Check.steady_groups (by decide) (by decide)),
    .inr (Check.steady_of_eq fun t ht => ?_), .inl (by decide),
    .inr (Check.steady_groups (by decide) (by decide)), .inr unusedException_steady, by simp⟩
  rw [controlBraces, Text.lines_crlf ht]
  rfl

/-! ### Order -/

theorem bracelessFrom_sublist (number : Nat) (lines : List Text) :
    ((bracelessFrom number lines).filterMap (·.line)).Sublist
      ((lines.zipIdx number).map Prod.snd) := by
  induction lines generalizing number with
  | nil => exact .slnil
  | cons line rest ih =>
      unfold bracelessFrom
      dsimp only
      split
      · exact (ih _).cons_cons number
      · exact (ih _).cons number

theorem unusedException_ordered : Check.Ordered unusedException :=
  fun _ => gives_filterM_sublist.bind fun _ hunused => atSpans_successive (pairwise_groups hunused 1)

/-- The rules report from the first line to the last. -/
theorem ruleSet_ordered : ∀ rule ∈ ruleSet.rules, Check.Ordered rule.check := by
  simp only [ruleSet, List.forall_mem_cons]
  exact ⟨fun _ => ifMissing_inOrder _ _, fun _ => ifMissing_inOrder _ _,
    fun _ => ifMissing_inOrder _ _, filterGroups_ordered _, filterMatches_ordered _,
    fun _ => ifPresent_inOrder _ _, findGroups_ordered,
    fun _ => gives_pure
      (inOrder_of_sublist (Text.growing_zipIdx _ 1) (bracelessFrom_sublist _ _)),
    filterMatches_ordered _, findGroups_ordered, unusedException_ordered, by simp⟩

end SnippetLint.CSharp
