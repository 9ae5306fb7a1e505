/-
Indentation is relative.

What is reported for its indentation is chosen from the lines that are not blank, by comparing widths
with the width of the first of them.  So two changes to a text can be judged without looking at what
stands on its lines: moving all lines to the right by the same width changes no comparison, and blank
lines in front of the first line that counts only make the numbers of later lines greater.

`Indentation.uneven` is that choice, made from any numbered lines.  `uneven_map` says what it does not
see: lines may be moved and numbered in other ways, as long as their widths compare as before.
-/
import SnippetLint.Proofs.Indentation
import SnippetLint.Proofs.Text.Joined

namespace SnippetLint

namespace Text

/-! ### Moving lines to the right -/

/-- Some spaces. -/
def spaces (k : Nat) : Text := List.replicate k ' '

/-- A text whose lines have each been moved to the right by some spaces. -/
def indented (k : Nat) (t : Text) : Text := ((linesWithEnds t).map (spaces k ++ ·)).flatten

theorem isBlank_of_mem_spaces {k : Nat} {c : Char} (h : c ∈ spaces k) : Unicode.isBlank c = true := by
  rw [List.eq_of_mem_replicate h]
  rfl

theorem newline_notMem_spaces_append {k : Nat} {line : Text} (h : '\n' ∉ line) :
    '\n' ∉ spaces k ++ line := by
  rw [List.mem_append, not_or]
  exact ⟨fun hmem => absurd (List.eq_of_mem_replicate hmem) (by decide), h⟩

theorem linesWithEnds_indented (k : Nat) (t : Text) :
    linesWithEnds (indented k t) = (linesWithEnds t).map (spaces k ++ ·) := by
  induction t using induction_lines with
  | last line hline =>
      -- nothing behind the last line feed is no line, and gets no spaces
      by_cases hne : line = []
      · rw [hne]
        rfl
      · rw [indented, linesWithEnds_eq_singleton hline hne, List.map_singleton,
          List.flatten_singleton]
        exact linesWithEnds_eq_singleton (newline_notMem_spaces_append hline)
          (List.append_ne_nil_of_right_ne_nil _ hne)
  | more line rest hline ih =>
      have hmoved : indented k (line ++ '\n' :: rest) =
          (spaces k ++ line) ++ '\n' :: indented k rest := by
        rw [indented, linesWithEnds_append hline, List.map_cons, List.flatten_cons, indented]
        simp
      rw [hmoved, linesWithEnds_append (newline_notMem_spaces_append hline), ih,
        linesWithEnds_append hline, List.map_cons, List.append_assoc]

theorem dropLineEnd_spaces_append (k : Nat) (line : Text) :
    dropLineEnd (spaces k ++ line) = spaces k ++ dropLineEnd line := by
  induction k with
  | zero => rfl
  | succ k ih =>
      have hcons : ∀ u : Text, dropLineEnd (' ' :: u) = ' ' :: dropLineEnd u := fun u => by
        rw [dropLineEnd] <;> simp
      rw [spaces, List.replicate_succ, List.cons_append, hcons, ← spaces, ih]
      rfl

/-- A numbered line behind some spaces. -/
def lineRight (k : Nat) (x : Text × Nat) : Text × Nat := (spaces k ++ x.1, x.2)

/-- The lines keep their endings and numbers. -/
theorem numberedLines_indented (k : Nat) (t : Text) :
    numberedLines (indented k t) = (numberedLines t).map (lineRight k) := by
  have hlines : lines (indented k t) = (lines t).map (spaces k ++ ·) := by
    rw [lines, linesWithEnds_indented, List.map_map, lines, List.map_map]
    exact List.map_congr_left fun line _ => dropLineEnd_spaces_append k line
  rw [numberedLines, hlines, List.zipIdx_map]
  rfl

theorem isBlank_spaces_append (k : Nat) (line : Text) : isBlank (spaces k ++ line) = isBlank line := by
  have hspaces : (spaces k).all Unicode.isBlank = true :=
    List.all_eq_true.mpr fun _ hc => isBlank_of_mem_spaces hc
  rw [isBlank, List.all_append, hspaces, Bool.true_and, isBlank]

theorem trim_spaces_append (k : Nat) (line : Text) : trim (spaces k ++ line) = trim line := by
  rw [trim, trimStart, List.dropWhile_append_of_pos fun _ hc => isBlank_of_mem_spaces hc]
  rfl

/-! ### Blank lines -/

theorem isBlank_of_mem_lines {t line : Text} (ht : isBlank t = true) (h : line ∈ lines t) :
    isBlank line = true := by
  obtain ⟨raw, hraw, rfl⟩ := List.mem_map.mp h
  obtain ⟨ending, hsplit, -⟩ := exists_dropLineEnd raw
  refine List.all_eq_true.mpr fun c hc => List.all_eq_true.mp ht c ?_
  rw [← flatten_linesWithEnds t]
  refine List.mem_flatten.mpr ⟨raw, hraw, ?_⟩
  rw [hsplit]
  exact List.mem_append_left _ hc

/-- The lines that are not blank. -/
def filledLines (t : Text) : List (Text × Nat) :=
  (numberedLines t).filter fun (line, _) => !isBlank line

theorem map_fst_filledLines (t : Text) :
    (filledLines t).map Prod.fst = (lines t).filter fun line => !isBlank line := by
  have hlines : lines t = (numberedLines t).map Prod.fst := (List.zipIdx_map_fst 1 (lines t)).symm
  rw [hlines, List.filter_map]
  rfl

theorem filledLines_indented (k : Nat) (t : Text) :
    filledLines (indented k t) = (filledLines t).map (lineRight k) := by
  rw [filledLines, numberedLines_indented, List.filter_map, filledLines]
  congr 1
  refine List.filter_congr fun x _ => ?_
  exact congrArg (!·) (isBlank_spaces_append k x.1)

/-- Blank lines put first only make the numbers of the lines behind them greater. -/
theorem filledLines_behind_blank {pre : Text} (hpre : EndsLine pre) (hblank : isBlank pre = true)
    (post : Text) : filledLines (pre ++ post) =
      (filledLines post).map (lineBelow (lines pre).length) := by
  have hnone : (numberedLines pre).filter (fun (line, _) => !isBlank line) = [] := by
    refine List.filter_eq_nil_iff.mpr fun ⟨line, number⟩ hmem => ?_
    have hline := isBlank_of_mem_lines hblank (List.fst_mem_of_mem_zipIdx hmem)
    simp [hline]
  rw [filledLines, numberedLines_join hpre, List.filter_append, hnone, List.nil_append,
    List.filter_map]
  rfl

end Text

/-! ### The lines that are reported -/

namespace Indentation

/-- Of several lines, those that are not indented as far as the first. -/
def uneven : List (Text × Nat) → List (Text × Nat)
  | [] => []
  | first :: rest => rest.filter fun x => width x.1 != width first.1

/-- What is said about a line that shows a snippet. -/
def report (number : Nat) (snippet : String) : Finding :=
  ⟨"Inconsistent indentation at line " ++ toString number ++ ": \"" ++ snippet ++ "\"",
    some number, some snippet⟩

/-- The lines that are reported: their numbers, and what they show. -/
def places (t : Text) : List (Nat × String) :=
  (uneven (Text.filledLines t)).map fun (line, number) => (number, String.ofList (Text.trim line))

theorem inconsistent_eq (t : Text) :
    inconsistent t = .ok ((places t).map fun (number, snippet) => report number snippet) := by
  unfold inconsistent places Text.filledLines
  rw [List.map_map]
  cases (Text.numberedLines t).filter fun (line, _) => !Text.isBlank line with
  | nil => rfl
  | cons first rest => rfl

theorem uneven_sublist (lines : List (Text × Nat)) : (uneven lines).Sublist lines := by
  cases lines with
  | nil => exact .refl _
  | cons first rest => exact List.filter_sublist.trans (List.sublist_cons_self first rest)

/-- Nothing is reported of lines that are indented alike, and of no others. -/
theorem uneven_eq_nil_iff (lines : List (Text × Nat)) : uneven lines = [] ↔
    ∀ line ∈ lines.map Prod.fst, ∀ other ∈ lines.map Prod.fst, width line = width other := by
  cases lines with
  | nil => simp [uneven]
  | cons first rest =>
      have hrest : uneven (first :: rest) = [] ↔
          ∀ line ∈ rest.map Prod.fst, width line = width first.1 := by
        simp [uneven, List.filter_eq_nil_iff]
      rw [hrest, List.map_cons]
      constructor
      · intro h
        have hall : ∀ line ∈ first.1 :: rest.map Prod.fst, width line = width first.1 :=
          List.forall_mem_cons.mpr ⟨rfl, h⟩
        exact fun line hline other hother => (hall line hline).trans (hall other hother).symm
      · exact fun h line hline => h line (List.mem_cons_of_mem _ hline) first.1 List.mem_cons_self

/-- Only whether widths are equal counts. -/
theorem uneven_map (move : Text × Nat → Text × Nat)
    (h : ∀ x y, width (move x).1 = width (move y).1 ↔ width x.1 = width y.1)
    (lines : List (Text × Nat)) : uneven (lines.map move) = (uneven lines).map move := by
  cases lines with
  | nil => rfl
  | cons first rest =>
      rw [List.map_cons, uneven, List.filter_map, uneven]
      congr 1
      refine List.filter_congr fun x _ => congrArg (!·) (Bool.eq_iff_iff.mpr ?_)
      rw [beq_iff_eq, beq_iff_eq]
      exact h x first

theorem width_spaces_append (k : Nat) (line : Text) : width (Text.spaces k ++ line) = k + width line := by
  rw [width, indent, List.takeWhile_append_of_pos fun _ hc => Text.isBlank_of_mem_spaces hc,
    List.length_append, Text.spaces, List.length_replicate]
  rfl

theorem places_eq_nil_iff (t : Text) : places t = [] ↔
    ∀ line ∈ t.lines, line.isBlank = false → ∀ other ∈ t.lines, other.isBlank = false →
      width line = width other := by
  rw [places, List.map_eq_nil_iff, uneven_eq_nil_iff, Text.map_fst_filledLines]
  simp only [List.mem_filter, Bool.not_eq_true', and_imp]

theorem places_growing (t : Text) : ((places t).map Prod.fst).Pairwise (· < ·) := by
  have hfilled : Text.Growing (Text.filledLines t) := (Text.growing_numberedLines t).filter _
  have hkept : Text.Growing (uneven (Text.filledLines t)) := hfilled.sublist (uneven_sublist _)
  rw [places, List.map_map]
  exact List.pairwise_map.mpr hkept

/-! ### What a change to the text changes -/

theorem places_indented (k : Nat) (t : Text) : places (Text.indented k t) = places t := by
  have hwidth : ∀ x y, width (Text.lineRight k x).1 = width (Text.lineRight k y).1 ↔
      width x.1 = width y.1 := fun x y => by
    rw [Text.lineRight, Text.lineRight, width_spaces_append, width_spaces_append,
      Nat.add_left_cancel_iff]
  rw [places, Text.filledLines_indented, uneven_map _ hwidth, List.map_map]
  refine List.map_congr_left fun x _ => ?_
  exact congrArg (fun shown => (x.2, String.ofList shown)) (Text.trim_spaces_append k x.1)

/-- A place that has come to stand some lines below. -/
def placeBelow (n : Nat) (place : Nat × String) : Nat × String := (place.1 + n, place.2)

theorem places_behind_blank {pre : Text} (hpre : pre.EndsLine) (hblank : pre.isBlank = true)
    (post : Text) : places (pre ++ post) = (places post).map (placeBelow (pre.count '\n')) := by
  have hbelow := uneven_map (Text.lineBelow pre.lines.length) (fun _ _ => Iff.rfl)
    (Text.filledLines post)
  rw [places, Text.filledLines_behind_blank hpre hblank, hbelow, List.map_map,
    Text.length_lines hpre, places, List.map_map]
  rfl

/-- A blank line among the blank lines at the front. -/
theorem places_insert_blank {pre blank : Text} (hpre : pre.EndsLine) (hpreblank : pre.isBlank = true)
    (hline : '\n' ∉ blank) (hblank : blank.isBlank = true) (post : Text) :
    places (pre ++ (blank ++ '\n' :: post)) = (places (pre ++ post)).map (placeBelow 1) := by
  have hends : (pre ++ (blank ++ ['\n'])).EndsLine := .inr (by simp)
  have hall : (pre ++ (blank ++ ['\n'])).isBlank = true := by
    rw [Text.isBlank, List.all_append, List.all_append, ← Text.isBlank, ← Text.isBlank, hpreblank,
      hblank]
    rfl
  have hcount : (pre ++ (blank ++ ['\n'])).count '\n' = pre.count '\n' + 1 := by
    rw [List.count_append, List.count_append, List.count_eq_zero.mpr hline]
    rfl
  -- both texts are `post` behind blank lines, which differ by one line feed
  have hsplit : pre ++ (blank ++ '\n' :: post) = pre ++ (blank ++ ['\n']) ++ post := by simp
  rw [hsplit, places_behind_blank hends hall, hcount, places_behind_blank hpre hpreblank,
    List.map_map]
  rfl

/-- **Indentation is relative.**  Moving all lines to the right changes nothing; nothing is reported
exactly if all lines that are not blank are indented alike; what is reported comes line by line; and a
blank line more, anywhere before the first line that is not blank, only makes each number that is
reported greater by one, in the finding and in its message. -/
theorem inconsistent_relative (t : Text) :
    (∀ k, inconsistent (Text.indented k t) = inconsistent t) ∧
    (inconsistent t = .ok [] ↔
      ∀ line ∈ t.lines, line.isBlank = false → ∀ other ∈ t.lines, other.isBlank = false →
        width line = width other) ∧
    ∃ places : List (Nat × String),
      inconsistent t = .ok (places.map fun (number, snippet) => report number snippet) ∧
      (places.map Prod.fst).Pairwise (· < ·) ∧
      ∀ pre blank post, t = pre ++ post → pre.EndsLine → pre.isBlank = true → '\n' ∉ blank →
        blank.isBlank = true → inconsistent (pre ++ (blank ++ '\n' :: post)) =
          .ok (places.map fun (number, snippet) => report (number + 1) snippet) := by
  refine ⟨fun k => ?_, ?_, places t, inconsistent_eq t, places_growing t, ?_⟩
  · rw [inconsistent_eq, places_indented, inconsistent_eq]
  · rw [inconsistent_eq, Except.ok.injEq, List.map_eq_nil_iff, places_eq_nil_iff]
  · rintro pre blank post rfl hpre hpreblank hline hblank
    rw [inconsistent_eq, places_insert_blank hpre hpreblank hline hblank, List.map_map]
    rfl

theorem inconsistent_relative_below_blank :
    let pre : Text := "\r\n".toList
    let post : Text := "  a\n\n \t  b\n  c".toList
    let blank : Text := "\t".toList
    pre.EndsLine ∧ pre.isBlank = true ∧ '\n' ∉ blank ∧ blank.isBlank = true ∧
      inconsistent (pre ++ post) = .ok [report 4 "b"] ∧
      inconsistent (Text.indented 3 (pre ++ post)) = .ok [report 4 "b"] ∧
      inconsistent (pre ++ (blank ++ '\n' :: post)) = .ok [report 5 "b"] := by
  intro pre post blank
  have hpre : pre.EndsLine ∧ pre.isBlank = true := by decide
  have hblank : '\n' ∉ blank ∧ blank.isBlank = true := by decide
  have hfound : inconsistent (pre ++ post) = .ok [report 4 "b"] := by decide +kernel
  obtain ⟨hright, -, places, hplaces, -, hbelow⟩ := inconsistent_relative (pre ++ post)
  obtain ⟨⟨number, snippet⟩, rfl, hplace⟩ :=
    List.map_eq_singleton_iff.mp (Except.ok.inj (hplaces.symm.trans hfound))
  obtain ⟨-, hnumber, hsnippet⟩ := Finding.mk.inj hplace
  obtain rfl : number = 4 := Option.some.inj hnumber
  obtain rfl : snippet = "b" := Option.some.inj hsnippet
  exact ⟨hpre.1, hpre.2, hblank.1, hblank.2, hfound, (hright 3).trans hfound,
    hbelow pre blank post rfl hpre.1 hpre.2 hblank.1 hblank.2⟩

end Indentation

end SnippetLint
