/-
A text behind whole lines.

Where a text ends with the ending of a line, whatever is put behind it begins a line.  Then the lines
of the two texts are those of one and those of the other, with their numbers counted on, and the line
around a place of either is what it was.
-/
import SnippetLint.Proofs.Placement

namespace SnippetLint.Text

/-- Nothing, or lines each of which is ended. -/
def EndsLine (t : Text) : Prop := t = [] ∨ t.getLast? = some '\n'

/-- A line with its number, once some lines have been put before it. -/
def lineBelow (n : Nat) (x : Text × Nat) : Text × Nat := (x.1, x.2 + n)

instance (t : Text) : Decidable t.EndsLine := inferInstanceAs (Decidable (_ ∨ _))

section

variable {a b pre post : Text}

theorem EndsLine.eq_newline (h : EndsLine a) : ∀ c, a.getLast? = some c → c = '\n' := by
  intro c hc
  rcases h with rfl | hlast
  · cases hc
  · exact Option.some.inj (hc.symm.trans hlast)

/-- What stands at the end of such a text is such a text. -/
theorem EndsLine.of_append (h : EndsLine (pre ++ post)) : EndsLine post := by
  by_cases hne : post = []
  · exact .inl hne
  · have hlast := h.resolve_left fun hnil => hne (List.append_eq_nil_iff.mp hnil).2
    rw [List.getLast?_append_of_ne_nil pre hne] at hlast
    exact .inr hlast

/-- Without the line feed that ends it. -/
theorem EndsLine.exists_concat (h : EndsLine a) (hne : a ≠ []) : ∃ front, a = front ++ ['\n'] := by
  obtain ⟨front, c, rfl⟩ := (List.eq_nil_or_concat' a).resolve_left hne
  exact ⟨front, by rw [h.eq_newline c List.getLast?_concat]⟩

theorem EndsLine.eq_nil (h : EndsLine a) (hline : '\n' ∉ a) : a = [] :=
  h.resolve_right fun hlast => hline (List.mem_of_getLast? hlast)

/-- What stands behind the first line. -/
theorem EndsLine.tail {line rest : Text} (h : EndsLine (line ++ '\n' :: rest)) : EndsLine rest := by
  rw [List.append_cons] at h
  exact h.of_append

/-! ### Lines -/

theorem linesWithEnds_join (ha : EndsLine a) (b : Text) :
    linesWithEnds (a ++ b) = linesWithEnds a ++ linesWithEnds b := by
  induction a using induction_lines with
  | last line hline =>
      rw [ha.eq_nil hline]
      rfl
  | more line rest hline ih =>
      rw [List.append_assoc, List.cons_append, linesWithEnds_append hline, ih ha.tail,
        linesWithEnds_append hline]
      rfl

theorem lines_join (ha : EndsLine a) (b : Text) : lines (a ++ b) = lines a ++ lines b := by
  rw [lines, linesWithEnds_join ha, List.map_append]
  rfl

theorem length_lines (ha : EndsLine a) : (lines a).length = a.count '\n' := by
  rw [lines, List.length_map]
  induction a using induction_lines with
  | last line hline =>
      rw [ha.eq_nil hline]
      rfl
  | more line rest hline ih =>
      rw [linesWithEnds_append hline, List.length_cons, ih ha.tail, List.count_append,
        List.count_eq_zero.mpr hline, List.count_cons_self, Nat.zero_add]

/-- The numbers of later lines count on. -/
theorem numberedLines_join (ha : EndsLine a) (b : Text) :
    numberedLines (a ++ b) =
      numberedLines a ++ (numberedLines b).map (lineBelow (lines a).length) := by
  rw [numberedLines, lines_join ha, List.zipIdx_append, Nat.add_comm 1, numberedLines,
    numberedLines, ← List.map_snd_add_zipIdx_eq_zipIdx]
  rfl

/-! ### The line around a place -/

theorem lineTail_join (ha : EndsLine a) (pre : Text) : lineTail (a ++ pre) = lineTail pre := by
  by_cases h : '\n' ∈ pre
  · obtain ⟨front, tail, rfl, htail⟩ := exists_last_newline h
    rw [← List.append_assoc, lineTail_append _ htail, lineTail_append _ htail]
  · rw [lineTail_of_start ha.eq_newline h, lineTail_eq_self h]

/-- Before its last line a text is nothing, or lines. -/
theorem exists_endsLine (t : Text) : ∃ front, t = front ++ lineTail t ∧ EndsLine front := by
  by_cases h : '\n' ∈ t
  · obtain ⟨front, tail, rfl, htail⟩ := exists_last_newline h
    refine ⟨front ++ ['\n'], ?_, .inr List.getLast?_concat⟩
    rw [lineTail_append front htail, List.append_assoc, List.singleton_append]
  · exact ⟨[], (lineTail_eq_self h).symm, .inl rfl⟩

theorem lineHead_join (hne : post ≠ []) (hpost : EndsLine post) (b : Text) :
    lineHead (post ++ b) = lineHead post := by
  obtain ⟨front, rfl⟩ := hpost.exists_concat hne
  have hmem : '\n' ∈ front ++ ['\n'] := by simp
  obtain ⟨head, rest, hsplit, hhead⟩ := List.eq_append_cons_of_mem hmem
  rw [hsplit, List.append_assoc, List.cons_append, lineHead_append hhead, lineHead_append hhead]

theorem lineAt_of_place_left {offset : Nat} (ha : EndsLine a) (h : a.IsPlace offset) (b : Text) :
    lineAt (a ++ b) offset = lineAt a offset := by
  obtain ⟨pre, c, post, rfl, rfl⟩ := h
  rw [List.append_assoc, lineAt_append, lineAt_append,
    lineHead_join (List.cons_ne_nil c post) ha.of_append]

theorem lineAt_of_place_right {offset : Nat} (ha : EndsLine a) (h : b.IsPlace offset) :
    lineAt (a ++ b) (size a + offset) =
      (lineAt b offset).map (Prod.map (· + (lines a).length) id) := by
  obtain ⟨pre, c, post, rfl, rfl⟩ := h
  rw [← size_append, ← List.append_assoc, lineAt_append, lineAt_append, lineTail_join ha,
    length_lines ha, List.count_append, Nat.add_comm (a.count '\n'), Nat.add_right_comm]
  rfl

end

end SnippetLint.Text
