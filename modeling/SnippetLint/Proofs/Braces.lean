/-
What the depth of braces measures.

A counter that stops at zero forgets closing braces that nothing has opened, so it is not the number of
opening braces less the number of closing ones.  It is the greatest such difference that a suffix of
the text read so far has (`isGreatest_depthOver`), since the last time it stood at zero is where that
suffix begins.  The peak is then the greatest difference of all parts of the text
(`isGreatest_peak`), and what is carried from line to line is the depth of the text before the line:
line endings hold no brace.
-/
import Mathlib.Data.List.Induction
import Mathlib.Data.List.Infix
import Mathlib.Order.Bounds.Basic
import Mathlib.Order.MinMax
import SnippetLint.Braces
import SnippetLint.Proofs.Text.Lines

namespace SnippetLint

/-- The first lines of a text, with their endings. -/
def Text.firstLines (t : Text) (n : Nat) : Text := ((linesWithEnds t).take n).flatten

theorem Text.firstLines_prefix (t : Text) (n : Nat) : firstLines t n <+: t := by
  have hprefix := List.IsPrefix.flatten (List.take_prefix n (linesWithEnds t))
  rwa [flatten_linesWithEnds] at hprefix

namespace Braces

/-! ### More opening than closing braces -/

/-- By how many the opening braces of a text outnumber the closing ones. -/
def excess (t : Text) : Int := t.count '\x7b' - t.count '\x7d'

/-- No end of a text has more opening than closing braces. -/
def Settled (t : Text) : Prop := ∀ s, s <:+ t → s.count '\x7b' ≤ s.count '\x7d'

@[simp] theorem excess_nil : excess [] = 0 := rfl

theorem excess_append (s t : Text) : excess (s ++ t) = excess s + excess t := by
  simp only [excess, List.count_append]
  omega

theorem excess_le_zero_iff {t : Text} : excess t ≤ 0 ↔ t.count '\x7b' ≤ t.count '\x7d' := by
  rw [excess]
  omega

/-! ### Depth -/

theorem depthAfter_eq (depth : Nat) (c : Char) :
    (depthAfter depth c : Int) = max 0 (depth + excess [c]) := by
  unfold depthAfter excess
  by_cases hopen : c = '\x7b'
  · subst hopen
    simp
    omega
  · by_cases hclose : c = '\x7d'
    · subst hclose
      simp
      omega
    · simp [hopen, hclose]

theorem depthOver_append (depth : Nat) (s t : Text) :
    depthOver depth (s ++ t) = depthOver (depthOver depth s) t := List.foldl_append

theorem depthOver_concat (depth : Nat) (t : Text) (c : Char) :
    depthOver depth (t ++ [c]) = depthAfter (depthOver depth t) c := depthOver_append depth t [c]

/-- **The depth is the greatest excess of any suffix.**  One more character is put at the end of every
suffix but the empty one, which is new. -/
theorem isGreatest_depthOver (t : Text) :
    IsGreatest (excess '' {s | s <:+ t}) (depthOver 0 t) := by
  induction t using List.reverseRecOn with
  | nil =>
      refine ⟨⟨[], List.nil_suffix, rfl⟩, ?_⟩
      rintro _ ⟨s, hs, rfl⟩
      rw [List.suffix_nil.mp hs, excess_nil]
      exact Int.le_refl 0
  | append_singleton t c ih =>
      obtain ⟨⟨s, hs, hgreatest⟩, hbound⟩ := ih
      rw [depthOver_concat, depthAfter_eq]
      constructor
      · rcases max_choice 0 ((depthOver 0 t : Int) + excess [c]) with hzero | hmore
        · exact ⟨[], List.nil_suffix, by rw [hzero, excess_nil]⟩
        · refine ⟨s ++ [c], List.suffix_concat_iff.mpr (.inr ⟨s, rfl, hs⟩), ?_⟩
          rw [hmore, excess_append, hgreatest]
      · rintro _ ⟨s, hs, rfl⟩
        rcases List.suffix_concat_iff.mp hs with rfl | ⟨s', rfl, hs'⟩
        · exact le_max_left _ _
        · rw [excess_append]
          have hle := hbound ⟨s', hs', rfl⟩
          exact le_trans (Int.add_le_add_right hle _) (le_max_right _ _)

/-- At depth zero every brace that was opened has been closed. -/
theorem depthOver_eq_zero_iff {t : Text} : depthOver 0 t = 0 ↔ Settled t := by
  obtain ⟨⟨s, hs, hgreatest⟩, hbound⟩ := isGreatest_depthOver t
  constructor
  · intro hzero s' hs'
    have hle := hbound ⟨s', hs', rfl⟩
    rw [hzero] at hle
    exact excess_le_zero_iff.mp hle
  · intro hsettled
    have hle := excess_le_zero_iff.mpr (hsettled s hs)
    omega

instance (t : Text) : Decidable (Settled t) := decidable_of_iff _ depthOver_eq_zero_iff

/-! ### Peak -/

theorem depthOver_le_peakFrom {s t : Text} (depth : Nat) (h : s <+: t) :
    depthOver depth s ≤ peakFrom depth t := by
  induction t generalizing depth s with
  | nil =>
      rw [List.prefix_nil.mp h]
      exact Nat.le_refl depth
  | cons c rest ih =>
      cases s with
      | nil => exact Nat.le_max_left _ _
      | cons d more =>
          obtain ⟨rfl, hmore⟩ := List.cons_prefix_cons.mp h
          exact Nat.le_trans (ih (depthAfter depth d) hmore) (Nat.le_max_right _ _)

theorem exists_depthOver_eq_peakFrom (depth : Nat) (t : Text) :
    ∃ s, s <+: t ∧ depthOver depth s = peakFrom depth t := by
  induction t generalizing depth with
  | nil => exact ⟨[], List.nil_prefix, rfl⟩
  | cons c rest ih =>
      obtain ⟨s, hs, hpeak⟩ := ih (depthAfter depth c)
      rw [peakFrom]
      rcases max_choice depth (peakFrom (depthAfter depth c) rest) with hnow | hlater
      · exact ⟨[], List.nil_prefix, hnow.symm⟩
      · refine ⟨c :: s, List.cons_prefix_cons.mpr ⟨rfl, hs⟩, ?_⟩
        rw [hlater, ← hpeak]
        rfl

/-- **The peak is the greatest excess of any part of a text,** since a part is a suffix of a prefix. -/
theorem isGreatest_peak (t : Text) : IsGreatest (excess '' {s | s <:+: t}) (peak t) := by
  constructor
  · obtain ⟨p, hp, hpeak⟩ := exists_depthOver_eq_peakFrom 0 t
    obtain ⟨s, hs, hgreatest⟩ := (isGreatest_depthOver p).1
    refine ⟨s, List.infix_iff_suffix_prefix.mpr ⟨p, hs, hp⟩, ?_⟩
    rw [hgreatest, hpeak, peak]
  · rintro _ ⟨s, hs, rfl⟩
    obtain ⟨p, hsuffix, hprefix⟩ := List.infix_iff_suffix_prefix.mp hs
    have hle := (isGreatest_depthOver p).2 ⟨s, hsuffix, rfl⟩
    exact le_trans hle (Int.ofNat_le.mpr (depthOver_le_peakFrom 0 hprefix))

/-! ### Lines -/

theorem depthOver_blanks (depth : Nat) {s : Text} (h : ∀ c ∈ s, Unicode.isBlank c = true) :
    depthOver depth s = depth := by
  induction s with
  | nil => rfl
  | cons c rest ih =>
      rw [List.forall_mem_cons] at h
      have hkeeps : depthAfter depth c = depth := by
        have hopen : c ≠ '\x7b' := fun heq => absurd h.1 (heq ▸ by decide)
        have hclose : c ≠ '\x7d' := fun heq => absurd h.1 (heq ▸ by decide)
        rw [depthAfter, if_neg hopen, if_neg hclose]
      show depthOver (depthAfter depth c) rest = depth
      rw [hkeeps, ih h.2]

theorem depthOver_dropLineEnd (depth : Nat) (line : Text) :
    depthOver depth (Text.dropLineEnd line) = depthOver depth line := by
  obtain ⟨s, hs, hblank⟩ := Text.exists_dropLineEnd line
  rw [congrArg (depthOver depth) hs, depthOver_append, depthOver_blanks _ hblank]

/-- Without the line endings the depth is the same. -/
theorem depthOver_flatten_map (depth : Nat) (lines : List Text) :
    depthOver depth (lines.map Text.dropLineEnd).flatten = depthOver depth lines.flatten := by
  induction lines generalizing depth with
  | nil => rfl
  | cons line rest ih =>
      rw [List.map_cons, List.flatten_cons, List.flatten_cons, depthOver_append, depthOver_append,
        depthOver_dropLineEnd, ih]

theorem depthOver_take_lines (t : Text) (n : Nat) :
    depthOver 0 ((Text.lines t).take n).flatten = depthOver 0 (Text.firstLines t n) := by
  rw [Text.lines, ← List.map_take, depthOver_flatten_map, Text.firstLines]

theorem length_depthsFrom (depth : Nat) (lines : List Text) :
    (depthsFrom depth lines).length = lines.length := by
  induction lines generalizing depth with
  | nil => rfl
  | cons line rest ih => exact congrArg Nat.succ (ih _)

theorem getElem?_depthsFrom {depth depth' : Nat} {lines : List Text} {i : Nat}
    (h : (depthsFrom depth lines)[i]? = some depth') :
    depth' = depthOver depth (lines.take i).flatten := by
  induction lines generalizing depth i with
  | nil => simp [depthsFrom] at h
  | cons line rest ih =>
      cases i with
      | zero => exact (Option.some.inj h).symm
      | succ i =>
          rw [ih h, List.take_succ_cons, List.flatten_cons, depthOver_append]

theorem length_lineDepths (t : Text) : (lineDepths t).length = (Text.lines t).length :=
  length_depthsFrom 0 _

/-- The depth at the start of a line is that of the text before it. -/
theorem getElem?_lineDepths {t : Text} {i depth : Nat} (h : (lineDepths t)[i]? = some depth) :
    depth = depthOver 0 (Text.firstLines t i) := by
  rw [getElem?_depthsFrom h, depthOver_take_lines]

example : lineDepths "\x7d x \x7b\n y\n\x7d \x7d\r\nz".toList = [0, 1, 1, 0] := by decide

end Braces

end SnippetLint
