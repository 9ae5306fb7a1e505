/-
Every rule for C++ finishes, points at the right line, whatever the line endings, and begins its
messages with words of its own; the one about unused variables is exact.  Each reports from the first
line to the last.
-/
import SnippetLint.Proofs.Braces
import SnippetLint.Proofs.Indentation
import SnippetLint.Proofs.LineEndings.Checks
import SnippetLint.Proofs.Names
import SnippetLint.Proofs.Order.Checks
import SnippetLint.Proofs.Repeats
import SnippetLint.Proofs.Returns
import SnippetLint.Proofs.Wording
import SnippetLint.Rules.Cpp

namespace SnippetLint.Cpp

open Finding Pattern

theorem missingReturn_sound : Check.Sound missingReturn := by
  intro t
  unfold missingReturn
  refine Yields.bind (P := fun names => ∀ s ∈ names, s ∈ valueFunction.findGroups 1 t) ?_
    fun names hnames => groups_sound (by decide) t hnames
  refine yields_filterMapM fun m hm => ?_
  have hfinds := finds_of_mem_findAll hm
  obtain ⟨function, hsome, hfunction⟩ := hfinds.exists_group (i := 0) (by decide)
  obtain ⟨body, -, hbody⟩ := hfinds.exists_group (i := 1) (by decide)
  rw [hfunction, hbody]
  refine yields_pure fun s hs => ?_
  split at hs
  · obtain rfl := Option.some.inj hs
    exact List.mem_filterMap.mpr ⟨m, hm, hsome⟩
  · simp at hs

theorem missingSemicolon_sound : Check.Sound missingSemicolon :=
  fun t => yields_pure (allPlaced_filter t fun _ _ => ⟨_, rfl⟩)

theorem globalVariable_sound : Check.Sound globalVariable := by
  intro t
  unfold globalVariable
  refine yields_filterMapM fun ⟨⟨line, number⟩, depth⟩ hmem => ?_
  have hline : (line, number) ∈ Text.numberedLines t :=
    (List.of_mem_zip (List.mem_filter.mp hmem).1).1
  dsimp only
  split
  · exact yields_pure (by simp)
  · rename_i m hm
    obtain ⟨variable_, -, hvariable⟩ :=
      (finds_of_find? hm).exists_group (i := 0) (by decide)
    rw [hvariable]
    refine yields_pure fun f hf => ?_
    obtain rfl := Option.some.inj hf
    exact placed_onLine hline _

/-- The induction is on the lines that are left; `pre` is the text of those before them. -/
theorem partOf_of_mem_numeralsFrom {t pre : Text} {lines : List Text} {s : Span}
    (ht : t = pre ++ lines.flatten) (h : s ∈ numeralsFrom (Text.size pre) lines) :
    s.PartOf t ∧ s.text ≠ [] := by
  induction lines generalizing pre with
  | nil => simp [numeralsFrom] at h
  | cons line rest ih =>
      rcases List.mem_append.mp h with h | h
      · split at h
        · simp at h
        · obtain ⟨literal, hliteral, rfl⟩ := List.mem_map.mp h
          have hpart := partOf_of_mem_findSpans hliteral
          have hne := ne_nil_of_mem_findSpans (by decide) hliteral
          have hline : t = pre ++ line ++ rest.flatten := by
            rw [ht, List.flatten_cons, List.append_assoc]
          exact ⟨Span.partOf_of_pieces hline hpart, hne⟩
      · rw [← Text.size_append] at h
        exact ih (by rw [ht, List.flatten_cons, List.append_assoc]) h

theorem magicNumber_sound : Check.Sound magicNumber := by
  intro t
  refine atSpans_sound (fun s hs => ?_) _
  have ht : t = [] ++ (Text.linesWithEnds t).flatten := (Text.flatten_linesWithEnds t).symm
  obtain ⟨hpart, hne⟩ := partOf_of_mem_numeralsFrom ht (mem_of_mem_firsts hs)
  exact hpart.isPlace hne

/-- Unused variables are those whose name is a word of the text only once. -/
theorem unusedVariable_exact :
    Check.ReportsUnused unusedVariable (variableDeclaration.findGroups 1) Span.text fun t s =>
      Finding.atOffset t s.start ("Unused variable: " ++ s.string) :=
  reportsUnused_groups (by decide) fun _ _ hs => stands_of_closed (freeAhead_of_oneOf (by decide)) hs

theorem ruleSet_sound : ∀ rule ∈ ruleSet.rules, Check.Sound rule.check := by
  simp only [ruleSet, List.forall_mem_cons]
  refine ⟨findSpans_sound (by decide), missingReturn_sound, missingSemicolon_sound,
    globalVariable_sound, findGroups_sound (by decide), magicNumber_sound,
    fun t => ifMissing_sound t _ _, filterGroups_sound (by decide) _,
    Indentation.inconsistent_sound, findSpans_sound (by decide), fun t => ifPresent_sound t _ _,
    filterGroups_sound (by decide) _, Returns.reportUnreachable_sound _,
    fun t => ifPresent_sound t _ _, findGroups_sound (by decide), by simp⟩

/-! ### Messages -/

theorem globalVariable_wording {P : String → Prop}
    (h : ∀ variable_ number line, OneLine variable_ → OneLine number → OneLine line →
      P ("Avoid using global variables: " ++ variable_ ++ " at line " ++ number ++ ": \"" ++ line
        ++ "\"")) : Check.Says P globalVariable := by
  intro t
  refine gives_filterMapM fun ⟨⟨line, number⟩, depth⟩ hmem => ?_
  have hline : '\n' ∉ line :=
    Text.newline_notMem_of_mem_numberedLines (List.of_mem_zip (List.mem_filter.mp hmem).1).1
  dsimp only
  split
  · exact gives_pure (by simp)
  · rename_i m hm
    refine ((finds_of_find? hm).gives_group (by decide)).bind fun variable_ hname => ?_
    refine gives_pure fun f hf => ?_
    obtain rfl := Option.some.inj hf
    exact h _ _ _ (.ofList hname) (.toString number) (.trim hline)

/-- What the rules say is told from what is shown where nothing was found. -/
theorem ruleSet_telling : ∀ rule ∈ ruleSet.rules, Check.Says Telling rule.check := by
  simp only [ruleSet, List.forall_mem_cons]
  refine ⟨fun _ => atSpans_wording fun _ _ => ?_,
    fun _ => gives_bind fun _ => atSpans_wording fun _ _ => ?_,
    fun _ => gives_pure (onLines_wording fun _ _ _ _ => ⟨_, rfl, ?_⟩),
    globalVariable_wording fun _ _ _ _ _ _ => ?_,
    fun _ => atSpans_wording fun _ _ => ?_,
    fun _ => atSpans_wording fun _ _ => ?_,
    fun _ => ifMissing_wording ?_,
    fun _ => atSpans_wording fun _ _ => ?_,
    Indentation.inconsistent_wording fun _ _ _ _ => ?_,
    fun _ => atSpans_wording fun _ _ => ?_,
    fun _ => ifPresent_wording ?_,
    fun _ => atSpans_wording fun _ _ => ?_,
    fun _ => gives_bind fun _ => atOffsets_wording fun _ _ => ?_,
    fun _ => ifPresent_wording ?_,
    fun _ => atSpans_wording fun _ _ => ?_,
    by simp⟩
  all_goals
    repeat with_reducible apply Telling.append
    exact .of_eq rfl (by decide)

theorem missingReturn_wording {P : String → Prop}
    (h : ∀ s : Span, OneLine s.string →
      P ("Function \"" ++ s.string ++ "\" is missing a return statement.")) :
    Check.Says P missingReturn := by
  intro t
  refine Gives.bind (P := fun names => ∀ s ∈ names, OneLine s.string) ?_
    fun names hnames => atSpans_wording fun s hs => h s (hnames s hs)
  refine gives_filterMapM fun m hm => ?_
  refine ((finds_of_mem_findAll hm).gives_group (by decide)).bind fun function hname => ?_
  refine gives_bind fun body => gives_pure fun s hs => ?_
  obtain ⟨-, hs⟩ := Option.ite_none_right_eq_some.mp hs
  obtain rfl := Option.some.inj hs
  exact .ofList hname

theorem newline_notMem_numeralsFrom {offset : Nat} {lines : List Text} {s : Span}
    (h : s ∈ numeralsFrom offset lines) : '\n' ∉ s.text := by
  induction lines generalizing offset with
  | nil => simp [numeralsFrom] at h
  | cons line rest ih =>
      rcases List.mem_append.mp h with h | h
      · split at h
        · simp at h
        · obtain ⟨literal, hliteral, rfl⟩ := List.mem_map.mp h
          have hfeed : '\n' ∉ literal.text :=
            notMem_of_mem_findSpans (p := Words.numeral) (by decide) hliteral
          exact hfeed
      · exact ih h

theorem magicNumber_wording {P : String → Prop}
    (h : ∀ s : Span, OneLine s.string → P ("Avoid using magic number `" ++ s.string
      ++ "`. Use a named constant instead.")) : Check.Says P magicNumber :=
  fun _ => atSpans_wording fun s hs =>
    h s (.ofList (newline_notMem_numeralsFrom (mem_of_mem_firsts hs)))

/-- What the rules say stays on one line. -/
theorem ruleSet_oneLine : ∀ rule ∈ ruleSet.rules, Check.Says OneLine rule.check := by
  simp only [ruleSet, List.forall_mem_cons]
  refine ⟨fun _ => atSpans_wording fun _ _ => ?_,
    missingReturn_wording fun _ _ => ?_,
    fun _ => gives_pure (onLines_wording fun _ _ _ _ => ⟨_, rfl, ?_⟩),
    globalVariable_wording fun _ _ _ _ _ _ => ?_,
    fun _ => groups_wording (by decide) (fun _ hs => hs) fun _ _ => ?_,
    magicNumber_wording fun _ _ => ?_,
    fun _ => ifMissing_wording ?_,
    fun _ => groups_wording (by decide) (fun _ hs => (List.mem_filter.mp hs).1) fun _ _ => ?_,
    Indentation.inconsistent_wording fun _ _ _ _ => ?_,
    fun _ => atSpans_wording fun _ _ => ?_,
    fun _ => ifPresent_wording ?_,
    fun _ => groups_wording (by decide) (fun _ hs => (List.mem_filter.mp hs).1) fun _ _ => ?_,
    fun _ => gives_bind fun _ => atOffsets_wording fun _ _ => ?_,
    fun _ => ifPresent_wording ?_,
    fun _ => groups_wording (by decide) (fun _ hs => hs) fun _ _ => ?_,
    by simp⟩
  all_goals
    repeat' with_reducible apply OneLine.append
    all_goals with_reducible first | assumption | exact OneLine.toString _ | exact .of_eq rfl (by decide)

/-! ### Line endings -/

theorem missingReturn_steady : Check.Steady missingReturn := by
  intro t _
  have hnames : Alike (List.Forall₂ (Becomes (valueFunction.findGroups 1 t) (Span.crlf t)))
      ((valueFunction.findAll t).filterMapM fun m => do
        let function ← m.group 1
        let body ← m.group 2
        return if function.string != "main" && !returnWord.occursIn body.text then some function
          else none)
      ((valueFunction.findAll (Text.crlf t)).filterMapM fun m => do
        let function ← m.group 1
        let body ← m.group 2
        return if function.string != "main" && !returnWord.occursIn body.text then some function
          else none) := by
    refine alike_filterMapM (becomes_findAll (by decide) (by decide) t) ?_
    rintro m m' ⟨hm, rfl⟩
    have hfinds := finds_of_mem_findAll hm
    obtain ⟨function, hsome, hfunction⟩ := hfinds.exists_group (i := 0) (by decide)
    obtain ⟨body, -, hbody⟩ := hfinds.exists_group (i := 1) (by decide)
    have hmem : function ∈ valueFunction.findGroups 1 t := List.mem_filterMap.mpr ⟨m, hm, hsome⟩
    have hname : (function.crlf t).string = function.string :=
      congrArg String.ofList (Becomes.text_of_group (p := valueFunction) (by decide) ⟨hmem, rfl⟩)
    have hreturn : returnWord.occursIn (body.crlf t).text = returnWord.occursIn body.text :=
      occursIn_crlf (by decide) _
    rw [Found.group_crlf, Found.group_crlf, hfunction, hbody]
    refine alike_pure ?_
    rw [hname, hreturn]
    split
    · exact .some ⟨hmem, rfl⟩
    · exact .none
  exact hnames.bind fun names names' h =>
    atSpans_alike (h.imp fun _ _ hspan => hspan.samePlace_of_group) _ _

theorem isPreprocessor_crlf (line : Text) :
    isPreprocessor (Text.crlf line) = isPreprocessor line := by
  have htrim : Text.trimStart (Text.crlf line) = Text.crlf (Text.trimStart line) :=
    Text.trimStart_crlf line
  rw [isPreprocessor, htrim, Text.startsWith_crlf _ (by decide) (by decide), isPreprocessor]

/-- The induction is on the lines that are left; `pre` is the text of those before them. -/
theorem forall₂_numeralsFrom {t pre : Text} {lines : List Text} (ht : t = pre ++ lines.flatten) :
    List.Forall₂ (SameSpan t)
      (numeralsFrom (Text.size pre) lines)
      (numeralsFrom (Text.size (Text.crlf pre)) (lines.map Text.crlf)) := by
  induction lines generalizing pre with
  | nil => exact .nil
  | cons line rest ih =>
      have hrest := @ih (pre ++ line) (by rw [ht, List.flatten_cons, List.append_assoc])
      rw [Text.crlf_append, Text.size_append, Text.size_append] at hrest
      rw [List.map_cons, numeralsFrom, numeralsFrom, isPreprocessor_crlf]
      refine List.rel_append ?_ hrest
      split
      · exact .nil
      · refine List.rel_map ?_ (becomes_findSpans (p := Words.numeral) (by decide) (by decide) line)
        rintro s s' ⟨hs, rfl⟩
        have hline : t = pre ++ line ++ rest.flatten := by
          rw [ht, List.flatten_cons, List.append_assoc]
        exact ⟨(partOf_of_mem_findSpans hs).samePlace.shift hline, rfl⟩

theorem magicNumber_steady : Check.Steady magicNumber := by
  refine Check.steady_atSpans fun t _ => ?_
  have ht : t = [] ++ (Text.linesWithEnds t).flatten := (Text.flatten_linesWithEnds t).symm
  have hnumerals := forall₂_numeralsFrom ht
  rw [← Text.linesWithEnds_crlf] at hnumerals
  have hfirsts := forall₂_firsts (fun _ _ h => h.2) hnumerals
  exact hfirsts.imp fun _ _ h => h.1

theorem memoryLeak_steady : Check.Steady memoryLeak := by
  refine Check.steady_ifPresent fun t _ => ?_
  rw [findAll_crlf (by decide) (by decide), findAll_crlf (by decide) (by decide), List.length_map,
    List.length_map]

theorem braceBalance_steady : Check.Steady braceBalance := by
  refine Check.steady_of_eq fun t _ => ?_
  rw [braceBalance, Braces.counts_crlf]
  rfl

/-- The rules point to the same lines whatever the line endings. -/
theorem ruleSet_steady : ∀ rule ∈ ruleSet.rules, Check.Steady rule.check := by
  simp only [ruleSet, List.forall_mem_cons]
  refine ⟨Check.steady_spans (by decide) (by decide), missingReturn_steady,
    Check.steady_of_eq fun t ht => ?_, Check.steady_of_eq fun t ht => ?_,
    Check.steady_groups (by decide) (by decide), magicNumber_steady,
    Check.steady_unlessOccurs (by decide),
    Check.steady_unused (by decide) (by decide) (by decide) (by decide),
    Indentation.inconsistent_steady, Check.steady_spans (by decide) (by decide),
    memoryLeak_steady, Check.steady_filterGroups_text (by decide) (by decide) (by decide) ?_,
    Returns.reportUnreachable_steady _, braceBalance_steady,
    Check.steady_groups (by decide) (by decide), by simp⟩
  · rw [missingSemicolon, Text.numberedLines_crlf ht]
    rfl
  · rw [globalVariable, Text.numberedLines_crlf ht, Braces.lineDepths, Text.lines_crlf ht]
    rfl
  · intro s s' htext
    rw [Span.string, htext]
    rfl

/-! ### Order -/

theorem missingReturn_ordered : Check.Ordered missingReturn := by
  intro t
  refine Gives.bind (P := List.Pairwise Span.Before) ?_ fun _ h => atSpans_successive h
  refine gives_filterMapM_pairwise (T := fun m s => m.group? 1 = some s)
    (fun m => (gives_self (m.group 1)).bind fun function hfunction => gives_bind fun body => ?_)
    (fun hbefore hs hs' => hbefore hs hs') (pairwise_findAll valueFunction t)
  refine gives_pure fun s hs => ?_
  obtain ⟨-, hs⟩ := Option.ite_none_right_eq_some.mp hs
  rw [← Option.some.inj hs]
  exact Found.group_eq_ok_iff.mp hfunction

theorem globalVariable_ordered : Check.Ordered globalVariable := by
  intro t
  have hlength : (Text.numberedLines t).length ≤ (Braces.lineDepths t).length := by
    rw [Text.numberedLines, List.length_zipIdx, Braces.length_lineDepths]
  have hgrowing := Text.growing_numberedLines t
  rw [← List.map_fst_zip hlength, Text.Growing, List.pairwise_map] at hgrowing
  suffices h : Gives (globalVariable t) (List.Pairwise NotAfter) from
    fun fs hfs => inOrder_iff.mpr (h fs hfs)
  refine gives_filterMapM_pairwise (T := fun x f => f.line = some x.1.2) (fun x => ?_)
    (fun hlt hf hf' => notAfter_of_le (Nat.le_of_lt hlt) hf hf') (hgrowing.filter _)
  obtain ⟨⟨line, number⟩, depth⟩ := x
  dsimp only
  split
  · exact gives_pure (by simp)
  · refine gives_bind fun variable_ => gives_pure fun f hf => ?_
    rw [← Option.some.inj hf]
    rfl

/-- Numerals are listed line by line, and those of each line as they stand on it. -/
theorem numeralsFrom_inOrder (offset : Nat) (lines : List Text) :
    (∀ s ∈ numeralsFrom offset lines, offset ≤ s.start) ∧
      (numeralsFrom offset lines).Pairwise Span.Before := by
  induction lines generalizing offset with
  | nil => exact ⟨by simp [numeralsFrom], .nil⟩
  | cons line rest ih =>
      obtain ⟨hlater, hrest⟩ := ih (offset + Text.size line)
      unfold numeralsFrom
      dsimp only
      split
      · exact ⟨fun s hs => Nat.le_trans (Nat.le_add_right _ _) (hlater s hs), hrest⟩
      · have hwithin : ∀ s ∈ (Words.numerals line).map fun s => (⟨offset + s.start, s.text⟩ : Span),
            s.Within ⟨offset, line⟩ :=
          fun _ => Span.within_of_mem_shift ⟨offset, line⟩ fun _ hs => partOf_of_mem_findSpans hs
        refine ⟨fun s hs => ?_, List.pairwise_append.mpr ⟨?_, hrest, fun s hs s' hs' => ?_⟩⟩
        · rcases List.mem_append.mp hs with hs | hs
          · exact (hwithin s hs).start
          · exact Nat.le_trans (Nat.le_add_right _ _) (hlater s hs)
        · exact Span.pairwise_shift (pairwise_findSpans _ _) offset
        · exact Nat.le_trans (hwithin s hs).stop (hlater s' hs')

theorem magicNumber_ordered : Check.Ordered magicNumber :=
  fun _ => atSpans_successive ((numeralsFrom_inOrder _ _).2.sublist (firsts_sublist _))

/-- The rules report from the first line to the last. -/
theorem ruleSet_ordered : ∀ rule ∈ ruleSet.rules, Check.Ordered rule.check := by
  simp only [ruleSet, List.forall_mem_cons]
  exact ⟨findSpans_ordered, missingReturn_ordered, filterLines_ordered fun _ => rfl,
    globalVariable_ordered, findGroups_ordered, magicNumber_ordered, fun _ => ifMissing_inOrder _ _,
    filterGroups_ordered _, Indentation.inconsistent_ordered, findSpans_ordered,
    fun _ => ifPresent_inOrder _ _, filterGroups_ordered _, Returns.reportUnreachable_ordered _,
    fun _ => ifPresent_inOrder _ _, findGroups_ordered, by simp⟩

end SnippetLint.Cpp
