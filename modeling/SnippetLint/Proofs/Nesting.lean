/-
Rules that look at how deep a line lies.

A rule for C++ looks only at lines outside of all braces, and one for Go counts the conditions among
the braces that are open.  Both agree with the depth of the text before or behind the line: the first
because it reads that depth off, the second because it keeps one entry for each open brace, so that it
never counts more conditions than there are braces.
-/
import SnippetLint.Proofs.Braces
import SnippetLint.Proofs.Checked
import SnippetLint.Proofs.Pattern.Extent
import SnippetLint.Rules.Cpp
import SnippetLint.Rules.Go

namespace SnippetLint

/-! ### Global variables -/

namespace Cpp

/-- What is reported of a line that lies outside of all braces. -/
def globalOn (line : Text) (number : Nat) : Option Finding :=
  (globalDeclaration.find? line).bind fun m => (m.group? 1).map fun variable_ =>
    .onLine number line ("Avoid using global variables: " ++ variable_.string ++ " at line "
      ++ toString number ++ ": \"" ++ String.ofList (Text.trim line) ++ "\"")

/-- The lines at depth zero are those behind a settled text. -/
theorem filter_outside (t : Text) :
    (((Text.numberedLines t).zip (Braces.lineDepths t)).filter fun (_, depth) => depth == 0).map
        Prod.fst =
      (Text.numberedLines t).filter fun (_, number) =>
        Braces.Settled (Text.firstLines t (number - 1)) := by
  have hlength : (Text.numberedLines t).length ≤ (Braces.lineDepths t).length := by
    rw [Text.numberedLines, List.length_zipIdx, Braces.length_lineDepths]
  have hpairs : ∀ x ∈ (Text.numberedLines t).zip (Braces.lineDepths t),
      (x.2 == 0) = decide (Braces.Settled (Text.firstLines t (x.1.2 - 1))) := by
    rintro ⟨⟨line, number⟩, depth⟩ hmem
    obtain ⟨i, hi⟩ := List.mem_iff_getElem?.mp hmem
    rw [List.getElem?_zip_eq_some] at hi
    obtain ⟨hline, hdepth⟩ := hi
    obtain ⟨-, rfl⟩ : (Text.lines t)[i]? = some line ∧ 1 + i = number := by
      simpa [Text.numberedLines, List.getElem?_zipIdx] using hline
    rw [Bool.eq_iff_iff, beq_iff_eq, decide_eq_true_iff, Nat.add_sub_cancel_left,
      Braces.getElem?_lineDepths hdepth, Braces.depthOver_eq_zero_iff]
  calc (((Text.numberedLines t).zip (Braces.lineDepths t)).filter fun x => x.2 == 0).map Prod.fst
      = (((Text.numberedLines t).zip (Braces.lineDepths t)).filter fun x =>
          decide (Braces.Settled (Text.firstLines t (x.1.2 - 1)))).map Prod.fst := by
        rw [List.filter_congr hpairs]
    _ = (((Text.numberedLines t).zip (Braces.lineDepths t)).map Prod.fst).filter fun x =>
          Braces.Settled (Text.firstLines t (x.2 - 1)) := by rw [List.filter_map]; rfl
    _ = _ := by rw [List.map_fst_zip hlength]

/-- The rule about global variables looks at a line if and only if the text before it is settled. -/
theorem globalVariable_eq (t : Text) :
    globalVariable t = .ok (((Text.numberedLines t).filter fun (_, number) =>
      Braces.Settled (Text.firstLines t (number - 1))).filterMap fun (line, number) =>
        globalOn line number) := by
  rw [← filter_outside, List.filterMap_map]
  refine filterMapM_eq_ok fun x _ => ?_
  obtain ⟨⟨line, number⟩, depth⟩ := x
  show _ = Except.ok (globalOn line number)
  unfold globalOn
  cases hfind : globalDeclaration.find? line with
  | none => simp [hfind]; rfl
  | some m =>
      obtain ⟨variable_, hsome, hok⟩ := (Pattern.finds_of_find? hfind).exists_group (i := 0)
        (by decide)
      simp only [hfind, hok, Option.bind_some, hsome, Option.map_some]
      rfl

end Cpp

/-! ### Nested conditions -/

namespace Go

/-- There is one entry for each open brace. -/
theorem length_foldl_frameAfter (isIf : Bool) (frames : List Bool) (line : Text) :
    (line.foldl (frameAfter isIf) frames).length = Braces.depthOver frames.length line := by
  induction line generalizing frames with
  | nil => rfl
  | cons c rest ih =>
      have hstep : (frameAfter isIf frames c).length = Braces.depthAfter frames.length c := by
        unfold frameAfter Braces.depthAfter
        split
        · rfl
        · split
          · exact List.length_tail
          · rfl
      rw [List.foldl_cons, ih, hstep]
      rfl

/-- What is reported of a condition that is nested too deeply. -/
def nestedOn (line : Text) (number depth : Nat) : Finding :=
  .onLine number line
    ("Too many nested `if` statements (depth " ++ toString depth ++ "). Consider refactoring.")

/-- The induction is on the lines that are left; the entries of `frames` are the braces open before
them. -/
theorem exists_of_mem_tooDeepFrom {frames : List Bool} {lines : List Text} {number : Nat} {f : Finding}
    (h : f ∈ tooDeepFrom frames (lines.zipIdx number)) :
    ∃ i line depth, lines[i]? = some line ∧ f = nestedOn line (number + i) depth ∧
      maxIfDepth < depth ∧
        depth ≤ Braces.depthOver frames.length (lines.take (i + 1)).flatten := by
  induction lines generalizing frames number with
  | nil => simp [tooDeepFrom] at h
  | cons line rest ih =>
      rw [List.zipIdx_cons, tooDeepFrom] at h
      split at h
      · rename_i htooDeep
        obtain ⟨-, hdeep⟩ := Bool.and_eq_true_iff.mp htooDeep
        refine ⟨0, line, _, rfl, List.mem_singleton.mp h, of_decide_eq_true hdeep, ?_⟩
        refine Nat.le_trans List.count_le_length ?_
        rw [length_foldl_frameAfter]
        simp
      · obtain ⟨i, line', depth, hline, hf, hdeep, hle⟩ := ih h
        refine ⟨i + 1, line', depth, hline, ?_, hdeep, ?_⟩
        · rw [hf, Nat.add_assoc, Nat.add_comm 1 i]
        · rw [List.take_succ_cons, List.flatten_cons, Braces.depthOver_append,
            ← length_foldl_frameAfter (ifHeader.occursIn line)]
          exact hle

/-- The rule about nested conditions reports no depth beyond that of the braces. -/
theorem nestedIf_yields (t : Text) :
    Yields (nestedIf t) fun findings => ∀ f ∈ findings, ∃ line number depth,
      (line, number) ∈ Text.numberedLines t ∧ f = nestedOn line number depth ∧ maxIfDepth < depth ∧
        depth ≤ Braces.depthOver 0 (Text.firstLines t number) := by
  refine yields_pure fun f hf => ?_
  obtain ⟨i, line, depth, hline, hnested, hdeep, hle⟩ := exists_of_mem_tooDeepFrom hf
  refine ⟨line, 1 + i, depth, List.mk_add_mem_zipIdx_iff_getElem?.mpr hline, hnested, hdeep, ?_⟩
  rwa [Nat.add_comm 1 i, ← Braces.depthOver_take_lines]

end Go

/-- **Depths are exact, and agree.**  The peak of a text is the greatest excess of opening over closing
braces that any part of it has.  Each line has a depth, which is the greatest excess of any suffix of
the text before the line; so the rule about global variables looks at exactly those lines before which
no suffix has more opening than closing braces.  The rule about nested conditions reports a depth
greater than three and no greater than that of the braces behind the line, let alone the peak. -/
theorem Braces.depths_exact (t : Text) :
    IsGreatest (excess '' {s | s <:+: t}) (peak t) ∧
      (lineDepths t).length = (Text.lines t).length ∧
      (∀ i depth : Nat, (lineDepths t)[i]? = some depth →
        IsGreatest (excess '' {s | s <:+ Text.firstLines t i}) depth) ∧
      Cpp.globalVariable t = .ok (((Text.numberedLines t).filter fun (_, number) =>
        Settled (Text.firstLines t (number - 1))).filterMap fun (line, number) =>
          Cpp.globalOn line number) ∧
      ∃ findings, Go.nestedIf t = .ok findings ∧ ∀ f ∈ findings, ∃ line number depth,
        (line, number) ∈ Text.numberedLines t ∧ f = Go.nestedOn line number depth ∧ 3 < depth ∧
          depth ≤ depthOver 0 (Text.firstLines t number) ∧
          depthOver 0 (Text.firstLines t number) ≤ peak t := by
  refine ⟨isGreatest_peak t, length_lineDepths t, fun i depth h => ?_, Cpp.globalVariable_eq t, ?_⟩
  · rw [getElem?_lineDepths h]
    exact isGreatest_depthOver _
  · obtain ⟨findings, hok, hfindings⟩ := Go.nestedIf_yields t
    refine ⟨findings, hok, fun f hf => ?_⟩
    obtain ⟨line, number, depth, hline, hnested, hdeep, hle⟩ := hfindings f hf
    exact ⟨line, number, depth, hline, hnested, hdeep, hle,
      depthOver_le_peakFrom 0 (Text.firstLines_prefix t number)⟩

end SnippetLint
