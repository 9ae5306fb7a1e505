/-
Every rule for Go finishes, points at the right line, whatever the line endings, and begins its
messages with words of its own.  Each reports from the first line to the last; the imports, which are
found in two ways, have been sorted for that.
-/
import SnippetLint.Proofs.LineEndings.Inside
import SnippetLint.Proofs.Order.Checks
import SnippetLint.Proofs.Placement
import SnippetLint.Proofs.Repeats
import SnippetLint.Proofs.Wording
import SnippetLint.Rules.Go

namespace SnippetLint.Go

open Finding Pattern

theorem noSemicolons_sound : Check.Sound noSemicolons :=
  fun t => yields_pure (allPlaced_filter t fun _ _ => ⟨_, rfl⟩)

theorem uncheckedError_sound : Check.Sound uncheckedError := by
  refine fun t => atSpans_sound (fun s hs => ?_) _
  obtain ⟨m, hm, rfl⟩ := Option.map_eq_some_iff.mp (Option.mem_toList.mp hs)
  split at hm
  · simp at hm
  · have hfinds := finds_of_find? hm
    exact hfinds.whole_partOf.isPlace (hfinds.whole_ne_nil (by decide))

theorem allPlaced_mixedFrom {t : Text} {style : Option Char} {lines : List (Text × Nat)}
    (hlines : ∀ x ∈ lines, x ∈ Text.numberedLines t) : AllPlaced t (mixedFrom style lines) := by
  induction lines generalizing style with
  | nil => simp [mixedFrom, AllPlaced]
  | cons x rest ih =>
      obtain ⟨line, number⟩ := x
      rw [List.forall_mem_cons] at hlines
      intro f hf
      unfold mixedFrom at hf
      dsimp only at hf
      generalize (if Text.isBlank line then [] else line.takeWhile spaceOrTab) = indent at hf
      split at hf
      · exact ih hlines.2 f hf
      · rcases List.mem_append.mp hf with hf | hf
        · split at hf
          · simp at hf
          · rw [List.mem_singleton.mp hf]
            exact placed_onLine hlines.1 _
        · exact ih hlines.2 f hf

/-! ### Imports -/

/-- Where a part is looked for in a line that is not empty, there is a place. -/
theorem isPlace_find? {part line : Text} (hpart : part ≠ []) (hline : line ≠ []) :
    line.IsPlace ((Text.find? part line).getD 0) := by
  cases h : Text.find? part line with
  | none =>
      obtain ⟨c, rest, rfl⟩ := List.exists_cons_of_ne_nil hline
      exact ⟨[], c, rest, rfl, rfl⟩
  | some offset =>
      obtain ⟨pre, post, rfl, rfl⟩ := Text.find?_some h
      obtain ⟨c, rest, rfl⟩ := List.exists_cons_of_ne_nil hpart
      exact ⟨pre, c, rest ++ post, by simp, rfl⟩

/-- The induction is on the lines that are left; `pre` is the text of those before them. -/
theorem isPlace_of_mem_importsOnLines {t pre post : Text} {lines : List Text} {s : Import}
    (ht : t = pre ++ lines.flatten ++ post) (h : s ∈ importsOnLines (Text.size pre) lines) :
    t.IsPlace s.start := by
  induction lines generalizing pre with
  | nil => simp [importsOnLines] at h
  | cons line rest ih =>
      rcases List.mem_append.mp h with h | h
      · split at h
        · simp at h
        · rename_i hspec
          have hpart : Text.trim line ≠ [] := by
            intro hnil
            simp [hnil] at hspec
          have hline : line ≠ [] := by
            rintro rfl
            exact hpart rfl
          rw [List.mem_singleton.mp h]
          have hpieces : t = pre ++ line ++ (rest.flatten ++ post) := by simp [ht]
          exact Text.IsPlace.shift hpieces (isPlace_find? hpart hline)
      · rw [← Text.size_append] at h
        exact ih (by simp [ht]) h

/-- What stands from the front of a match to the end of its path. -/
theorem slice_of_append {t pre lead path post : Text} (ht : t = pre ++ lead ++ path ++ post) :
    Text.slice t (Text.size pre) (Text.size (pre ++ lead) + Text.size path) = .ok (lead ++ path) := by
  have hstop : Text.size (pre ++ lead) + Text.size path =
      Text.size pre + Text.size (lead ++ path) := by
    rw [Text.size_append, Text.size_append, Nat.add_assoc]
  rw [ht, hstop, List.append_assoc pre]
  exact Text.slice_size pre _ post

/-- Cutting out a single import runs into no fault: its path stands behind the match's front. -/
theorem singleImport?_sound {t : Text} {m : Found} (hm : m ∈ importLine.findAll t) :
    Yields (singleImport? t m) fun found => ∀ s, found = some s → t.IsPlace s.start := by
  unfold singleImport?
  split
  · exact yields_pure (by simp)
  · rename_i path hpath
    obtain ⟨pre, lead, post, ht, hwhole, hstart, hne⟩ :=
      (finds_of_mem_findAll hm).group?_behind hpath
    have hslice : Text.slice t m.whole.start path.stop = .ok (lead ++ path.text) := by
      rw [hwhole, Span.stop, hstart, slice_of_append ht]
    rw [hslice]
    refine yields_pure fun s hs => ?_
    obtain rfl := Option.some.inj hs
    exact Span.PartOf.isPlace (s := path) ⟨pre ++ lead, post, ht, hstart⟩ (hne (by decide))

theorem imports_sound (t : Text) :
    Yields (imports t) fun found => ∀ s ∈ found, t.IsPlace s.start := by
  unfold imports
  refine (yields_filterMapM fun m hm => singleImport?_sound hm).bind fun single hsingle => ?_
  refine yields_pure fun s hs => ?_
  rcases List.mem_append.mp ((List.mem_mergeSort).mp hs) with hs | hs
  · obtain ⟨block, hblock, hs⟩ := List.mem_flatMap.mp hs
    obtain ⟨pre, post, ht, hstart⟩ := partOf_of_mem_findGroups hblock
    rw [hstart] at hs
    exact isPlace_of_mem_importsOnLines (by rw [Text.flatten_linesWithEnds, ht]) hs
  · exact hsingle s hs

theorem redundantImport_sound : Check.Sound redundantImport :=
  fun t => (imports_sound t).bind fun _ hfound =>
    atSpans_sound (fun s hs => hfound s (mem_of_mem_repeats hs)) _

/-! ### Conditions -/

theorem allPlaced_tooDeepFrom {t : Text} {frames : List Bool} {lines : List (Text × Nat)}
    (hlines : ∀ x ∈ lines, x ∈ Text.numberedLines t) : AllPlaced t (tooDeepFrom frames lines) := by
  induction lines generalizing frames with
  | nil => simp [tooDeepFrom, AllPlaced]
  | cons x rest ih =>
      obtain ⟨line, number⟩ := x
      rw [List.forall_mem_cons] at hlines
      intro f hf
      unfold tooDeepFrom at hf
      dsimp only at hf
      split at hf
      · rw [List.mem_singleton.mp hf]
        exact placed_onLine hlines.1 _
      · exact ih hlines.2 f hf

theorem deferClose_sound : Check.Sound deferClose := by
  refine fun t => spans_sound (p := resource) (by decide) t fun s hs => ?_
  split at hs
  · simp at hs
  · exact hs

theorem ruleSet_sound : ∀ rule ∈ ruleSet.rules, Check.Sound rule.check := by
  simp only [ruleSet, List.forall_mem_cons]
  exact ⟨fun t => ifMissing_sound t _ _, fun t => ifMissing_sound t _ _, noSemicolons_sound,
    uncheckedError_sound, findSpans_sound (by decide),
    fun _ => yields_pure (allPlaced_mixedFrom fun _ hx => hx), redundantImport_sound,
    findSpans_sound (by decide), filterGroups_sound (by decide) _,
    fun _ => yields_pure (allPlaced_tooDeepFrom fun _ hx => hx), deferClose_sound, by simp⟩

/-! ### Messages -/

theorem allSay_mixedFrom {P : String → Prop}
    (h : ∀ number line, OneLine number → OneLine line →
      P ("Mixed tabs and spaces in indentation at line " ++ number ++ ": \"" ++ line ++ "\""))
    (style : Option Char) {lines : List (Text × Nat)} (hlines : ∀ x ∈ lines, '\n' ∉ x.1) :
    AllSay P (mixedFrom style lines) := by
  induction lines generalizing style with
  | nil => exact allSay_nil
  | cons x rest ih =>
      obtain ⟨line, number⟩ := x
      rw [List.forall_mem_cons] at hlines
      unfold mixedFrom
      dsimp only
      generalize (if Text.isBlank line then [] else line.takeWhile spaceOrTab) = indent
      split
      · exact ih _ hlines.2
      · refine AllSay.append ?_ (ih _ hlines.2)
        split
        · exact allSay_nil
        · refine allSay_singleton ?_
          exact h _ _ (.toString number) (.trim hlines.1)

theorem allSay_tooDeepFrom {P : String → Prop}
    (h : ∀ depth, OneLine depth → P ("Too many nested `if` statements (depth " ++ depth
      ++ "). Consider refactoring.")) (frames : List Bool) (lines : List (Text × Nat)) :
    AllSay P (tooDeepFrom frames lines) := by
  induction lines generalizing frames with
  | nil => exact allSay_nil
  | cons x rest ih =>
      unfold tooDeepFrom
      dsimp only
      split
      · refine allSay_singleton ?_
        exact h _ (.toString _)
      · exact ih _

/-- What the rules say is told from what is shown where nothing was found. -/
theorem ruleSet_telling : ∀ rule ∈ ruleSet.rules, Check.Says Telling rule.check := by
  simp only [ruleSet, List.forall_mem_cons]
  refine ⟨fun _ => ifMissing_wording ?_,
    fun _ => ifMissing_wording ?_,
    fun _ => gives_pure (onLines_wording fun _ _ _ _ => ⟨_, rfl, ?_⟩),
    fun _ => atSpans_wording fun _ _ => ?_,
    fun _ => atSpans_wording fun _ _ => ?_,
    fun _ => gives_pure (allSay_mixedFrom (fun _ _ _ _ => ?_) _ fun _ => Text.newline_notMem_of_mem_numberedLines),
    fun _ => gives_bind fun _ => atSpans_wording fun _ _ => ?_,
    fun _ => atSpans_wording fun _ _ => ?_,
    fun _ => atSpans_wording fun _ _ => ?_,
    fun _ => gives_pure (allSay_tooDeepFrom (fun _ _ => ?_) _ _),
    fun _ => atSpans_wording fun _ _ => ?_,
    by simp⟩
  all_goals
    repeat with_reducible apply Telling.append
    exact .of_eq rfl (by decide)

/-- What the rules say stays on one line, but for those that quote more than a line holds. -/
theorem ruleSet_oneLine :
    ∀ rule ∈ ruleSet.rules, rule.id ∉ Rule.quotingIds → Check.Says OneLine rule.check := by
  simp only [ruleSet, List.forall_mem_cons]
  refine ⟨fun _ _ => ifMissing_wording ?_,
    fun _ _ => ifMissing_wording ?_,
    fun _ _ => gives_pure (onLines_wording fun _ _ _ _ => ⟨_, rfl, ?_⟩),
    fun _ _ => atSpans_wording fun _ _ => ?_,
    fun _ _ => atSpans_wording fun _ _ => ?_,
    fun _ _ => gives_pure
      (allSay_mixedFrom (fun _ _ _ _ => ?_) _ fun _ => Text.newline_notMem_of_mem_numberedLines),
    fun hid => absurd (by decide) hid,
    fun _ _ => atSpans_wording fun _ _ => ?_,
    fun _ _ => groups_wording (by decide) (fun _ hs => (List.mem_filter.mp hs).1) fun _ _ => ?_,
    fun _ _ => gives_pure (allSay_tooDeepFrom (fun _ _ => ?_) _ _),
    fun _ _ => atSpans_wording fun _ _ => ?_,
    by simp⟩
  all_goals
    repeat' with_reducible apply OneLine.append
    all_goals with_reducible first | assumption | exact OneLine.toString _ | exact .of_eq rfl (by decide)

/-! ### Line endings -/

/-- The assignment ends with any character that is no sign of equality, which may be the first of a
line ending; where it begins does not depend on that. -/
theorem uncheckedError_steady : Check.Steady uncheckedError := by
  refine Check.steady_atSpans fun t _ => ?_
  have hfirst := find?_samePlace (p := errorAssignment) (by decide) (by decide) t
  rw [occursIn_crlf (by decide)]
  split
  · exact .nil
  · generalize errorAssignment.find? t = first at hfirst
    generalize errorAssignment.find? (Text.crlf t) = first' at hfirst
    cases hfirst with
    | none => exact .nil
    | some hplace => exact .cons hplace .nil

/-! The imports of the other text are the counterparts of those of the first. -/

/-- What stands between the white space of a line is found at the same place of it. -/
theorem samePlace_find?_trim {line : Text} (h : Text.trim line ≠ []) :
    SamePlace line ((Text.find? (Text.trim line) line).getD 0)
      ((Text.find? (Text.crlf (Text.trim line)) (Text.crlf line)).getD 0) := by
  obtain ⟨lead, c, more, trail, hline, htrim, hlead, hc⟩ := Text.exists_trim h
  have hfeed : c ≠ '\n' := by
    rintro rfl
    exact absurd hc (by decide)
  have hreturn : c ≠ '\r' := by
    rintro rfl
    exact absurd hc (by decide)
  have hfront : c ∉ lead := fun hmem => by
    rw [hlead c hmem] at hc
    exact absurd hc (by decide)
  have hfront' : c ∉ Text.crlf lead := fun hmem => hfront ((Text.mem_crlf hreturn).mp hmem)
  have hfound : Text.find? (Text.trim line) line = some (Text.size lead) := by
    rw [htrim, hline, Text.find?_append hfront]
  have hfound' : Text.find? (Text.crlf (Text.trim line)) (Text.crlf line) =
      some (Text.size (Text.crlf lead)) := by
    rw [htrim, hline, Text.crlf_append, Text.crlf_cons hfeed, Text.crlf_cons hfeed,
      Text.crlf_append, Text.find?_append hfront']
  rw [hfound, hfound']
  exact ⟨lead, c :: (more ++ trail), hline, rfl, rfl⟩

/-- The induction is on the lines that are left; `pre` is the text of those before them. -/
theorem forall₂_importsOnLines {t pre post : Text} {lines : List Text}
    (ht : t = pre ++ lines.flatten ++ post) :
    List.Forall₂ (SameSpan t) (importsOnLines (Text.size pre) lines)
      (importsOnLines (Text.size (Text.crlf pre)) (lines.map Text.crlf)) := by
  induction lines generalizing pre with
  | nil => exact .nil
  | cons line rest ih =>
      have hrest := @ih (pre ++ line) (by simp [ht])
      rw [Text.crlf_append, Text.size_append, Text.size_append] at hrest
      rw [List.map_cons, importsOnLines, importsOnLines, Text.trim_crlf, Text.isEmpty_crlf,
        Text.startsWith_crlf _ (by decide) (by decide)]
      refine List.rel_append ?_ hrest
      split
      · exact .nil
      · rename_i hspec
        have hpart : Text.trim line ≠ [] := by
          intro hnil
          simp [hnil] at hspec
        have hpieces : t = pre ++ line ++ (rest.flatten ++ post) := by simp [ht]
        exact .cons ⟨(samePlace_find?_trim hpart).shift hpieces, rfl⟩ .nil

theorem dropImportWords_crlf (t : Text) :
    dropImportWords (Text.crlf t) = Text.crlf (dropImportWords t) := by
  fun_induction dropImportWords t with
  | case1 rest ih => exact ih
  | case2 t h =>
      have hbegins : ∀ rest, Text.crlf t = "import".toList ++ rest → False := by
        intro rest hrest
        have hprefix : "import".toList.isPrefixOf (Text.crlf t) = true :=
          List.isPrefixOf_iff_prefix.mpr ⟨rest, hrest.symm⟩
        rw [Text.isPrefixOf_crlf (by decide) (by decide)] at hprefix
        obtain ⟨more, hmore⟩ := List.isPrefixOf_iff_prefix.mp hprefix
        exact h more hmore.symm
      rw [dropImportWords]
      exact hbegins

theorem singleImport?_alike {t : Text} {m : Found} (hm : m ∈ importLine.findAll t) :
    Alike (Option.Rel (SameSpan t)) (singleImport? t m) (singleImport? (Text.crlf t) (m.crlf t)) := by
  unfold singleImport?
  rw [Found.group?_crlf]
  cases hpath : m.group? 2 with
  | none => exact alike_pure .none
  | some path =>
      obtain ⟨pre, lead, post, ht, hwhole, hstart, -⟩ :=
        (finds_of_mem_findAll hm).group?_behind hpath
      have hslice : Text.slice t m.whole.start path.stop = .ok (lead ++ path.text) := by
        rw [hwhole, Span.stop, hstart, slice_of_append ht]
      have hslice' : Text.slice (Text.crlf t) (m.crlf t).whole.start (path.crlf t).stop =
          .ok (Text.crlf (lead ++ path.text)) := by
        have hfront : (m.crlf t).whole.start = Text.size (Text.crlf pre) := by
          show t.crlfOffset m.whole.start = _
          rw [hwhole, ht, List.append_assoc, List.append_assoc, Text.crlfOffset_size]
        have hpath' : (path.crlf t).start = Text.size (Text.crlf pre ++ Text.crlf lead) := by
          show t.crlfOffset path.start = _
          rw [hstart, ht, List.append_assoc (pre ++ lead), Text.crlfOffset_size, Text.crlf_append]
        have ht' : Text.crlf t =
            Text.crlf pre ++ Text.crlf lead ++ Text.crlf path.text ++ Text.crlf post := by
          rw [ht, Text.crlf_append, Text.crlf_append, Text.crlf_append]
        rw [hfront, Span.stop, hpath', Text.crlf_append]
        exact slice_of_append ht'
      have hplace : SamePlace t path.start (path.crlf t).start :=
        Span.PartOf.samePlace ⟨pre ++ lead, post, ht, hstart⟩
      dsimp only [Option.map_some]
      rw [hslice, hslice']
      refine alike_pure (.some ⟨hplace, ?_⟩)
      rw [Text.trimStart_crlf, dropImportWords_crlf, Text.trim_crlf]

theorem imports_alike (t : Text) :
    Alike (List.Forall₂ (SameSpan t)) (imports t) (imports (Text.crlf t)) := by
  have hblocks : List.Forall₂ (SameSpan t)
      ((importBlock.findGroups 1 t).flatMap fun block =>
        importsOnLines block.start (Text.linesWithEnds block.text))
      ((importBlock.findGroups 1 (Text.crlf t)).flatMap fun block =>
        importsOnLines block.start (Text.linesWithEnds block.text)) := by
    refine List.rel_flatMap (becomes_findGroups (by decide) (by decide) 1 t) ?_
    rintro block block' ⟨hblock, rfl⟩
    obtain ⟨pre, post, ht, hstart⟩ := partOf_of_mem_findGroups hblock
    have hstart' : (block.crlf t).start = Text.size (Text.crlf pre) := by
      rw [Span.crlf, hstart, ht, List.append_assoc, Text.crlfOffset_size]
    have hlines : Text.linesWithEnds (block.crlf t).text =
        (Text.linesWithEnds block.text).map Text.crlf := Text.linesWithEnds_crlf block.text
    dsimp only
    rw [hstart, hstart', hlines]
    exact forall₂_importsOnLines (by rw [Text.flatten_linesWithEnds, ht])
  have hsingle : Alike (List.Forall₂ (SameSpan t))
      ((importLine.findAll t).filterMapM (singleImport? t))
      ((importLine.findAll (Text.crlf t)).filterMapM (singleImport? (Text.crlf t))) := by
    refine alike_filterMapM (becomes_findAll (by decide) (by decide) t) ?_
    rintro m m' ⟨hm, rfl⟩
    exact singleImport?_alike hm
  refine hsingle.bind fun single single' h => alike_pure ?_
  refine forall₂_mergeSort (List.rel_append hblocks h) (fun _ _ h => h.eq_crlf) ?_
  exact fun a a' b b' h h' => decide_eq_decide.mpr (h.1.le_iff h'.1)

theorem redundantImport_steady : Check.Steady redundantImport := by
  refine fun t _ => (imports_alike t).bind fun found found' h => ?_
  have hrepeats := forall₂_repeats (fun _ _ h => h.2) h
  exact atSpans_alike (hrepeats.imp fun _ _ h => h.1) _ _

theorem deferClose_steady : Check.Steady deferClose := by
  refine Check.steady_atSpans fun t _ => ?_
  rw [occursIn_crlf (by decide)]
  split
  · exact .nil
  · exact (becomes_findSpans (by decide) (by decide) t).imp fun _ _ h => h.samePlace_of_span

/-- The rules point to the same lines whatever the line endings. -/
theorem ruleSet_steady : ∀ rule ∈ ruleSet.rules, Check.Steady rule.check := by
  simp only [ruleSet, List.forall_mem_cons]
  refine ⟨Check.steady_unlessOccurs (by decide), Check.steady_unlessOccurs (by decide),
    Check.steady_of_eq fun t ht => ?_, uncheckedError_steady,
    Check.steady_spans (by decide) (by decide), Check.steady_of_eq fun t ht => ?_,
    redundantImport_steady, Check.steady_spans (by decide) (by decide),
    Check.steady_filterGroups_text (by decide) (by decide) (by decide) ?_,
    Check.steady_of_eq fun t ht => ?_, deferClose_steady, by simp⟩
  · rw [noSemicolons, Text.numberedLines_crlf ht]
    rfl
  · rw [mixedIndentation, Text.numberedLines_crlf ht]
    rfl
  · intro s s' htext
    rw [htext]
  · rw [nestedIf, Text.numberedLines_crlf ht]
    rfl

/-! ### Order -/

theorem mixedFrom_sublist (style : Option Char) (lines : List (Text × Nat)) :
    ((mixedFrom style lines).filterMap (·.line)).Sublist (lines.map Prod.snd) := by
  induction lines generalizing style with
  | nil => exact .slnil
  | cons x rest ih =>
      obtain ⟨line, number⟩ := x
      unfold mixedFrom
      dsimp only
      generalize (if Text.isBlank line then [] else line.takeWhile spaceOrTab) = indent
      split
      · exact (ih _).cons number
      · split
        · exact (ih _).cons number
        · exact (ih _).cons_cons number

theorem imports_inOrder (t : Text) :
    Gives (imports t) (List.Pairwise fun a b => a.start ≤ b.start) := by
  refine gives_bind fun single => gives_pure ?_
  refine (List.pairwise_mergeSort ?_ ?_ _).imp of_decide_eq_true
  · simp only [decide_eq_true_eq]
    exact fun a b c => Nat.le_trans
  · simp only [Bool.or_eq_true, decide_eq_true_eq]
    exact fun a b => Nat.le_total a.start b.start

theorem redundantImport_ordered : Check.Ordered redundantImport :=
  fun t => (imports_inOrder t).bind fun _ h => atSpans_inOrder (h.sublist (repeats_sublist _))

theorem tooDeepFrom_sublist (frames : List Bool) (lines : List (Text × Nat)) :
    ((tooDeepFrom frames lines).filterMap (·.line)).Sublist (lines.map Prod.snd) := by
  induction lines generalizing frames with
  | nil => exact .slnil
  | cons x rest ih =>
      obtain ⟨line, number⟩ := x
      unfold tooDeepFrom
      dsimp only
      split
      · exact (List.nil_sublist _).cons_cons number
      · exact (ih _).cons number

theorem deferClose_ordered : Check.Ordered deferClose := by
  refine fun t => atSpans_successive ?_
  split
  · exact .nil
  · exact pairwise_findSpans resource t

/-- The rules report from the first line to the last. -/
theorem ruleSet_ordered : ∀ rule ∈ ruleSet.rules, Check.Ordered rule.check := by
  simp only [ruleSet, List.forall_mem_cons]
  exact ⟨fun _ => ifMissing_inOrder _ _, fun _ => ifMissing_inOrder _ _,
    filterLines_ordered fun _ => rfl, fun _ => atSpans_toList_inOrder _, findSpans_ordered,
    fun t => gives_pure (inOrder_of_sublist (Text.growing_numberedLines t) (mixedFrom_sublist _ _)),
    redundantImport_ordered, findSpans_ordered, filterGroups_ordered _,
    fun t => gives_pure (inOrder_of_sublist (Text.growing_numberedLines t) (tooDeepFrom_sublist _ _)),
    deferClose_ordered, by simp⟩

end SnippetLint.Go
