/-
Every rule for Java finishes, points at the right line and begins its messages with words of its own;
the one about unused imports is exact.  All but two point to the same lines whatever the line endings,
and all report from the first line to the last.
-/
import SnippetLint.Proofs.LineEndings.Checks
import SnippetLint.Proofs.Names
import SnippetLint.Proofs.Order.Checks
import SnippetLint.Proofs.Repeats
import SnippetLint.Proofs.Wording
import SnippetLint.Rules.Java

namespace SnippetLint.Java

open Finding Pattern

theorem name_mem_of_mem_methods {t : Text} {m : Method} (h : m ∈ methods t) :
    m.name ∈ methodDeclaration.findGroups 3 t := by
  obtain ⟨found, hfound, hm⟩ := List.mem_filterMap.mp h
  simp only [bind, Option.bind_eq_some_iff] at hm
  obtain ⟨type, -, name, hname, hm⟩ := hm
  split at hm
  · simp at hm
  · obtain rfl := Option.some.inj hm
    exact List.mem_filterMap.mpr ⟨found, hfound, hname⟩

/-- Reporting the names of some of the methods. -/
theorem methods_sound (test : Method → Bool) (message : Span → String) :
    Check.Sound fun t => atSpans t (((methods t).filter test).map (·.name)) message := by
  refine fun t => groups_sound (p := methodDeclaration) (i := 2) (by decide) t fun s hs => ?_
  obtain ⟨m, hm, rfl⟩ := List.mem_map.mp hs
  exact name_mem_of_mem_methods (List.mem_filter.mp hm).1

theorem classAccess_sound : Check.Sound classAccess :=
  fun t => groups_sound (by decide) t fun _ hs => mem_findGroups_of_filter hs

/-! ### Imports -/

/-- The last part of a path is what stands behind its last dot. -/
theorem exists_simpleName (path : Text) :
    ∃ lead, path = lead ++ simpleName path ∧ '.' ∉ simpleName path ∧
      ∀ c, lead.getLast? = some c → c = '.' := by
  refine ⟨(path.reverse.dropWhile (· != '.')).reverse, ?_, ?_, ?_⟩
  · rw [simpleName, ← List.reverse_append, List.takeWhile_append_dropWhile, List.reverse_reverse]
  · intro hdot
    have hall := List.all_eq_true.mp List.all_takeWhile _ (List.mem_reverse.mp hdot)
    simp at hall
  · intro c hc
    rw [List.getLast?_reverse] at hc
    have hhead := List.head?_dropWhile_not (· != '.') path.reverse
    simpa [hc] using hhead

/-- Where the last part of an import begins is counted from the import's end, and is found. -/
theorem isImportUsed_eq (t : Text) {path : Span} {lead : Text}
    (h : path.text = lead ++ simpleName path.text) :
    isImportUsed t path = .ok ((simpleName path.text).isEmpty
      || Words.isUsed t ⟨path.start + Text.size lead, simpleName path.text⟩) := by
  have hsize : Text.size path.text = Text.size lead + Text.size (simpleName path.text) := by
    rw [← Text.size_append, ← h]
  have hstop : path.stop = path.start + Text.size lead + Text.size (simpleName path.text) := by
    rw [Span.stop, hsize, Nat.add_assoc]
  rw [isImportUsed, hstop, difference, if_pos (Nat.le_add_left _ _), Nat.add_sub_cancel]
  rfl

theorem unusedImport_sound : Check.Sound unusedImport := by
  intro t
  unfold unusedImport
  refine Yields.bind (P := fun unused => ∀ s ∈ unused, s ∈ importLine.findGroups 1 t) ?_
    fun unused hunused => groups_sound (by decide) t hunused
  refine yields_filterM fun path _ => ?_
  obtain ⟨lead, hlead, -⟩ := exists_simpleName path.text
  rw [isImportUsed_eq t hlead]
  exact yields_pure trivial

/-- An import is made of word characters and dots, and stands between other characters. -/
theorem apart_of_mem_importLine {t : Text} {path : Span} (h : path ∈ importLine.findGroups 1 t) :
    Words.Apart t path ∧ ∀ c ∈ path.text, Unicode.isWord c = true ∨ c = '.' := by
  obtain ⟨pre, here, stop, _, hpre, ⟨d, _, _, ⟨b, _, _, ⟨a, _, _, ⟨y, _, _, ⟨x, _, _, hfront, hgap, rfl⟩,
    hstatic, rfl⟩, ⟨inner, hpath, rfl⟩, rfl⟩, hblanks, rfl⟩, hend, rfl⟩, hs⟩ :=
    exists_matches_of_mem_findGroups h
  have hmark : Matches (oneOf [";"]) d stop _ := hend
  obtain ⟨hfree, rfl⟩ := freeAhead_of_oneOf (by decide) hmark
  have hahead := hblanks.freeAhead_of_blanks hfree
  have hbefore : a.FreeBefore := by
    rcases hstatic with ⟨_, _, _, _, hgap, _⟩ | ⟨rfl, _⟩
    · exact freeBefore_of_gap hgap
    · exact freeBefore_of_gap hgap
  obtain ⟨w, hw, hne, hall, rfl⟩ := hpath.exists_several
  obtain ⟨_, _, _, rfl⟩ := hblanks
  obtain rfl : Span.between a b = path := Option.some.inj hs
  obtain ⟨u₁, hu₁⟩ := hfront.passes
  obtain ⟨u₂, hu₂⟩ := hgap.passes
  obtain ⟨u₃, hu₃⟩ := hstatic.passes
  refine ⟨(((hpre.trans hu₁).trans hu₂).trans hu₃).apart hw hbefore hahead, ?_⟩
  rw [Span.between_eq hw]
  intro c hc
  simpa [union, word, among] using hall c hc

theorem stands_simpleName {t lead : Text} {path : Span} (h : path ∈ importLine.findGroups 1 t)
    (hlead : path.text = lead ++ simpleName path.text) (hdot : '.' ∉ simpleName path.text)
    (hlast : ∀ c, lead.getLast? = some c → c = '.') (hne : simpleName path.text ≠ []) :
    Words.Stands t ⟨path.start + Text.size lead, simpleName path.text⟩ := by
  obtain ⟨hapart, hall⟩ := apart_of_mem_importLine h
  refine ⟨hne, fun c hc => ?_, ?_⟩
  · have hmem : c ∈ path.text := by
      rw [hlead]
      exact List.mem_append_right _ hc
    rcases hall c hmem with hword | rfl
    · exact hword
    · exact absurd hc hdot
  · have hparts : path.text = lead ++ simpleName path.text ++ [] := by rw [List.append_nil, ← hlead]
    refine hapart.shift hparts (Words.any_isWord_eq_false fun c hc => ?_) rfl
    rw [hlast c hc]
    rfl

/-- Unused imports are those whose last part is a word of the text only once. -/
theorem unusedImport_exact :
    Check.ReportsUnused unusedImport (importLine.findGroups 1) (fun path => simpleName path.text)
      fun t path => Finding.atOffset t path.start ("Unused import: " ++ path.string) := by
  refine reportsUnused_of_eq unusedImport_sound fun t => ?_
  have hfilter : (importLine.findGroups 1 t).filterM (fun path =>
      return !(← isImportUsed t path)) =
        .ok ((importLine.findGroups 1 t).filter fun path =>
          Words.occursOnce t (simpleName path.text)) := by
    refine filterM_eq_ok fun path hpath => ?_
    obtain ⟨lead, hlead, hdot, hlast⟩ := exists_simpleName path.text
    rw [isImportUsed_eq t hlead]
    show Except.ok _ = _
    by_cases hname : simpleName path.text = []
    · rw [hname, Words.occursOnce_nil]
      rfl
    · rw [Words.isUsed_eq (stands_simpleName hpath hlead hdot hlast hname)]
      simp [hname]
  unfold unusedImport
  rw [hfilter]
  rfl

theorem duplicateImport_sound : Check.Sound duplicateImport :=
  fun t => groups_sound (by decide) t fun _ hs => mem_of_mem_repeats hs

theorem tryWithoutCatch_sound : Check.Sound tryWithoutCatch := by
  refine fun t => atSpans_sound (fun s hs => ?_) _
  obtain ⟨m, hm, rfl⟩ := Option.map_eq_some_iff.mp (Option.mem_toList.mp hs)
  split at hm
  · simp at hm
  · have hfinds := finds_of_find? hm
    exact hfinds.whole_partOf.isPlace (hfinds.whole_ne_nil (by decide))

theorem magicNumber_sound : Check.Sound magicNumber :=
  fun t => spans_sound (p := Words.numeral) (by decide) t fun _ hs => (List.mem_filter.mp hs).1

theorem resourceLeak_sound : Check.Sound resourceLeak := by
  refine fun t => groups_sound (p := resource) (i := 0) (by decide) t fun s hs => ?_
  split at hs
  · simp at hs
  · exact hs

theorem ruleSet_sound : ∀ rule ∈ ruleSet.rules, Check.Sound rule.check := by
  simp only [ruleSet, List.forall_mem_cons]
  exact ⟨fun t => ifMissing_sound t _ _, fun t => ifMissing_sound t _ _,
    fun t => ifMissing_sound t _ _, filterGroups_sound (by decide) _, methods_sound _ _,
    classAccess_sound, methods_sound _ _, unusedImport_sound, duplicateImport_sound,
    tryWithoutCatch_sound, magicNumber_sound, resourceLeak_sound, by simp⟩

/-! ### Messages -/

/-- What the rules say is told from what is shown where nothing was found. -/
theorem ruleSet_telling : ∀ rule ∈ ruleSet.rules, Check.Says Telling rule.check := by
  simp only [ruleSet, List.forall_mem_cons]
  refine ⟨fun _ => ifMissing_wording ?_,
    fun _ => ifMissing_wording ?_,
    fun _ => ifMissing_wording ?_,
    fun _ => atSpans_wording fun _ _ => ?_,
    fun _ => atSpans_wording fun _ _ => ?_,
    fun _ => atSpans_wording fun _ _ => ?_,
    fun _ => atSpans_wording fun _ _ => ?_,
    fun _ => gives_bind fun _ => atSpans_wording fun _ _ => ?_,
    fun _ => atSpans_wording fun _ _ => ?_,
    fun _ => atSpans_wording fun _ _ => ?_,
    fun _ => atSpans_wording fun _ _ => ?_,
    fun _ => atSpans_wording fun _ _ => ?_,
    by simp⟩
  all_goals
    repeat with_reducible apply Telling.append
    exact .of_eq rfl (by decide)

theorem methods_wording {P : String → Prop} (test : Method → Bool) {message : Span → String}
    (h : ∀ s : Span, OneLine s.string → P (message s)) :
    Check.Says P fun t => atSpans t (((methods t).filter test).map (·.name)) message := by
  refine fun t => groups_wording (p := methodDeclaration) (i := 2) (by decide) (fun s hs => ?_) h
  obtain ⟨m, hm, rfl⟩ := List.mem_map.mp hs
  exact name_mem_of_mem_methods (List.mem_filter.mp hm).1

theorem resourceLeak_wording {P : String → Prop}
    (h : ∀ s : Span, OneLine s.string → P ("Ensure the " ++ s.string ++ " is closed after use.")) :
    Check.Says P resourceLeak := by
  refine fun t => groups_wording (p := resource) (i := 0) (by decide) (fun s hs => ?_) h
  split at hs
  · simp at hs
  · exact hs

/-- What the rules say stays on one line. -/
theorem ruleSet_oneLine : ∀ rule ∈ ruleSet.rules, Check.Says OneLine rule.check := by
  simp only [ruleSet, List.forall_mem_cons]
  refine ⟨fun _ => ifMissing_wording ?_,
    fun _ => ifMissing_wording ?_,
    fun _ => ifMissing_wording ?_,
    fun _ => groups_wording (by decide) (fun _ hs => (List.mem_filter.mp hs).1) fun _ _ => ?_,
    methods_wording _ fun _ _ => ?_,
    fun _ => groups_wording (by decide) (fun _ hs => mem_findGroups_of_filter hs) fun _ _ => ?_,
    methods_wording _ fun _ _ => ?_,
    fun _ => gives_filterM.bind fun _ hunused => groups_wording (by decide) hunused fun _ _ => ?_,
    fun _ => groups_wording (by decide) (fun _ hs => mem_of_mem_repeats hs) fun _ _ => ?_,
    fun _ => atSpans_wording fun _ _ => ?_,
    fun _ => spans_wording (p := Words.numeral) (by decide) (fun _ hs => (List.mem_filter.mp hs).1)
      fun _ _ => ?_,
    resourceLeak_wording fun _ _ => ?_,
    by simp⟩
  all_goals
    repeat' with_reducible apply OneLine.append
    all_goals with_reducible first | assumption | exact OneLine.toString _ | exact .of_eq rfl (by decide)

/-! ### Line endings -/

theorem classAccess_steady : Check.Steady classAccess := by
  refine Check.steady_filterMatches_group (by decide) (by decide) fun t _ m _ => ?_
  rw [Found.textOf_crlf, occursIn_crlf (by decide)]

theorem isImportUsed_crlf {t : Text} (h : '\r' ∉ t) {path : Span}
    (hpath : path ∈ importLine.findGroups 1 t) :
    isImportUsed (Text.crlf t) (path.crlf t) = isImportUsed t path := by
  obtain ⟨lead, hlead, -⟩ := exists_simpleName path.text
  have hfeed : '\n' ∉ path.text := notMem_of_mem_findGroups (by decide) hpath
  have htext : (path.crlf t).text = path.text := Text.crlf_eq_self hfeed
  have hfront : '\n' ∉ lead := fun hmem => hfeed (hlead ▸ List.mem_append_left _ hmem)
  have hname : '\n' ∉ simpleName path.text :=
    fun hmem => hfeed (hlead ▸ List.mem_append_right _ hmem)
  obtain ⟨pre, post, ht, hstart⟩ := partOf_of_mem_findGroups hpath
  have hpart : t = (pre ++ lead) ++ simpleName path.text ++ post := by
    rw [ht, List.append_assoc pre lead, ← hlead]
  have hoffset : path.start + Text.size lead = Text.size (pre ++ lead) := by
    rw [hstart, Text.size_append]
  have hoffset' : t.crlfOffset path.start + Text.size lead =
      t.crlfOffset (path.start + Text.size lead) := by
    rw [hoffset, hpart, List.append_assoc, Text.crlfOffset_size, hstart, List.append_assoc,
      Text.crlfOffset_size, Text.crlf_append, Text.size_append, Text.crlf_eq_self hfront]
  have hlead' : (path.crlf t).text = lead ++ simpleName (path.crlf t).text := by
    rw [htext]
    exact hlead
  have hspan : (⟨(path.crlf t).start + Text.size lead, simpleName path.text⟩ : Span) =
      Span.crlf t ⟨path.start + Text.size lead, simpleName path.text⟩ := by
    show Span.mk (t.crlfOffset path.start + Text.size lead) _ = Span.mk _ (Text.crlf _)
    rw [hoffset', Text.crlf_eq_self hname]
  rw [isImportUsed_eq t hlead, isImportUsed_eq _ hlead', htext,
    hspan]
  by_cases hne : simpleName path.text = []
  · rw [hne]
    rfl
  · rw [Words.isUsed_crlf ⟨pre ++ lead, post, hpart, hoffset⟩ hne hname h]

theorem unusedImport_steady : Check.Steady unusedImport := by
  intro t ht
  have hunused : Alike (List.Forall₂ (Becomes (importLine.findGroups 1 t) (Span.crlf t)))
      ((importLine.findGroups 1 t).filterM fun path => return !(← isImportUsed t path))
      ((importLine.findGroups 1 (Text.crlf t)).filterM fun path =>
        return !(← isImportUsed (Text.crlf t) path)) := by
    refine alike_filterM (becomes_findGroups (by decide) (by decide) 1 t) ?_
    rintro path path' ⟨hpath, rfl⟩
    refine alike_of_eq ?_
    rw [isImportUsed_crlf ht hpath]
  exact hunused.bind fun unused unused' h =>
    atSpans_alike (h.imp fun _ _ hspan => hspan.samePlace_of_group) _ _

theorem duplicateImport_steady : Check.Steady duplicateImport := by
  refine Check.steady_atSpans fun t _ => ?_
  have himports := becomes_findGroups (p := importLine) (by decide) (by decide) 1 t
  have hrepeats := forall₂_repeats (fun _ _ h => congrArg Span.text h.2) himports
  exact hrepeats.imp fun _ _ hspan => hspan.samePlace_of_group

theorem tryWithoutCatch_steady : Check.Steady tryWithoutCatch := by
  refine Check.steady_atSpans fun t _ => ?_
  rw [occursIn_crlf (by decide), find?_crlf (by decide)]
  split
  · exact .nil
  · cases hm : tryBlock.find? t with
    | none => exact .nil
    | some m => exact .cons (finds_of_find? hm).whole_partOf.samePlace .nil

theorem magicNumber_steady : Check.Steady magicNumber := by
  refine Check.steady_atSpans fun t _ => ?_
  have hnumerals := becomes_findSpans (p := Words.numeral) (by decide) (by decide) t
  refine (forall₂_filter hnumerals ?_).imp fun _ _ h => h.samePlace_of_span
  rintro s s' ⟨hs, rfl⟩
  have hfeed : '\n' ∉ s.text := notMem_of_mem_findSpans (p := Words.numeral) (by decide) hs
  rw [Span.crlf, Text.crlf_eq_self hfeed]

theorem resourceLeak_steady : Check.Steady resourceLeak := by
  refine Check.steady_atSpans fun t _ => ?_
  rw [occursIn_crlf (by decide), occursIn_crlf (by decide)]
  split
  · exact .nil
  · exact (becomes_findGroups (by decide) (by decide) 1 t).imp fun _ _ h => h.samePlace_of_group

/-- All rules but two point to the same lines whatever the line endings. -/
theorem ruleSet_steady : ∀ rule ∈ ruleSet.rules,
    rule.id ∈ Rule.endingIds .java ∨ Check.Steady rule.check := by
  simp only [ruleSet, List.forall_mem_cons]
  refine ⟨.inr (Check.steady_unlessOccurs (by decide)), .inr (Check.steady_unlessOccurs (by decide)),
    .inr (Check.steady_unlessHas _ (by decide) (by decide)),
    .inr (Check.steady_filterGroups_text (by decide) (by decide) (by decide) ?_),
    .inl (by decide), .inr classAccess_steady, .inl (by decide), .inr unusedImport_steady,
    .inr duplicateImport_steady, .inr tryWithoutCatch_steady, .inr magicNumber_steady,
    .inr resourceLeak_steady, by simp⟩
  intro s s' htext
  rw [htext]

/-! ### Order -/

theorem methods_inOrder (t : Text) : (methods t).Pairwise fun m m' => m.name.Before m'.name := by
  refine List.pairwise_filterMap.mpr ((pairwise_findAll methodDeclaration t).imp ?_)
  intro m m' hbefore method hmethod method' hmethod'
  simp only [bind, Option.bind_eq_some_iff] at hmethod hmethod'
  obtain ⟨type, -, name, hname, hmethod⟩ := hmethod
  obtain ⟨type', -, name', hname', hmethod'⟩ := hmethod'
  obtain rfl := Option.some.inj (Option.ite_none_left_eq_some.mp hmethod).2
  obtain rfl := Option.some.inj (Option.ite_none_left_eq_some.mp hmethod').2
  exact hbefore hname hname'

theorem methods_ordered (test : Method → Bool) (message : Span → String) :
    Check.Ordered fun t => atSpans t (((methods t).filter test).map (·.name)) message :=
  fun t => atSpans_successive (List.pairwise_map.mpr ((methods_inOrder t).filter _))

theorem unusedImport_ordered : Check.Ordered unusedImport :=
  fun t => gives_filterM_sublist.bind fun _ hunused =>
    atSpans_successive ((pairwise_findGroups importLine 1 t).sublist hunused)

theorem resourceLeak_ordered : Check.Ordered resourceLeak := by
  refine fun t => atSpans_successive ?_
  split
  · exact .nil
  · exact pairwise_findGroups resource 1 t

/-- The rules report from the first line to the last. -/
theorem ruleSet_ordered : ∀ rule ∈ ruleSet.rules, Check.Ordered rule.check := by
  simp only [ruleSet, List.forall_mem_cons]
  exact ⟨fun _ => ifMissing_inOrder _ _, fun _ => ifMissing_inOrder _ _,
    fun _ => ifMissing_inOrder _ _, filterGroups_ordered _, methods_ordered _ _,
    filterMatches_ordered _, methods_ordered _ _, unusedImport_ordered, repeatedGroups_ordered,
    fun _ => atSpans_toList_inOrder _, filterSpans_ordered _, resourceLeak_ordered, by simp⟩

end SnippetLint.Java
