/-
A text with the other kind of line endings.

`crlf` puts a carriage return before every line feed.  The carriage return is a blank and belongs to
the ending of its line, so whatever cuts a text at line feeds and drops the white space around the
parts does not see it.  The lemmas here say so for each of the ways in which rules look at a text
without a pattern.  Only `Text.lines` needs that there was no carriage return before: it drops one
before a line feed, and not two.
-/
import Mathlib.Data.List.Induction
import SnippetLint.Braces
import SnippetLint.Proofs.Text.Lines
import SnippetLint.Proofs.Text.Pieces

namespace SnippetLint.Text

/-- A carriage return before every line feed. -/
def crlf : Text → Text
  | [] => []
  | c :: rest => if c = '\n' then '\r' :: '\n' :: crlf rest else c :: crlf rest

@[simp] theorem crlf_nil : crlf [] = [] := rfl

theorem crlf_newline (rest : Text) : crlf ('\n' :: rest) = '\r' :: '\n' :: crlf rest := rfl

theorem crlf_cons {c : Char} (hc : c ≠ '\n') (rest : Text) : crlf (c :: rest) = c :: crlf rest :=
  if_neg hc

@[simp] theorem crlf_append (s t : Text) : crlf (s ++ t) = crlf s ++ crlf t := by
  induction s with
  | nil => rfl
  | cons c rest ih =>
      by_cases hc : c = '\n'
      · rw [hc, List.cons_append, crlf_newline, crlf_newline, ih]
        rfl
      · rw [List.cons_append, crlf_cons hc, crlf_cons hc, ih]
        rfl

theorem crlf_eq_self {t : Text} (h : '\n' ∉ t) : crlf t = t := by
  induction t with
  | nil => rfl
  | cons c rest ih =>
      rw [List.mem_cons, not_or] at h
      rw [crlf_cons (Ne.symm h.1), ih h.2]

@[simp] theorem crlf_eq_nil_iff {t : Text} : crlf t = [] ↔ t = [] := by
  cases t with
  | nil => simp
  | cons c rest =>
      unfold crlf
      split <;> simp

theorem isEmpty_crlf (t : Text) : (crlf t).isEmpty = t.isEmpty := by
  rw [Bool.eq_iff_iff, List.isEmpty_iff, List.isEmpty_iff, crlf_eq_nil_iff]

/-- No text with these line endings begins with a line feed. -/
theorem crlf_ne_newline_cons (t rest : Text) : crlf t ≠ '\n' :: rest := by
  cases t with
  | nil => simp
  | cons c more =>
      unfold crlf
      split
      · simp
      · rename_i hc
        exact fun heq => hc (List.cons.inj heq).1

/-- What was a line feed can be told from what was not. -/
theorem crlf_injective {s t : Text} (h : crlf s = crlf t) : s = t := by
  induction s generalizing t with
  | nil => exact (crlf_eq_nil_iff.mp h.symm).symm
  | cons c rest ih =>
      cases t with
      | nil => exact absurd (crlf_eq_nil_iff.mp h) (List.cons_ne_nil c rest)
      | cons d more =>
          by_cases hc : c = '\n' <;> by_cases hd : d = '\n'
          · rw [hc, hd, crlf_newline, crlf_newline] at h
            rw [hc, hd, ih (List.cons.inj (List.cons.inj h).2).2]
          · rw [hc, crlf_newline, crlf_cons hd] at h
            exact absurd (List.cons.inj h).2.symm (crlf_ne_newline_cons more _)
          · rw [hd, crlf_newline, crlf_cons hc] at h
            exact absurd (List.cons.inj h).2 (crlf_ne_newline_cons rest _)
          · rw [crlf_cons hc, crlf_cons hd] at h
            rw [(List.cons.inj h).1, ih (List.cons.inj h).2]

theorem count_crlf {c : Char} (hc : c ≠ '\r') (t : Text) : (crlf t).count c = t.count c := by
  induction t with
  | nil => rfl
  | cons d rest ih =>
      by_cases hd : d = '\n'
      · rw [hd, crlf_newline, List.count_cons_of_ne (Ne.symm hc), List.count_cons, ih, List.count_cons]
      · rw [crlf_cons hd, List.count_cons, ih, List.count_cons]

theorem mem_crlf {c : Char} (hc : c ≠ '\r') {t : Text} : c ∈ crlf t ↔ c ∈ t := by
  rw [← List.count_pos_iff, count_crlf hc, List.count_pos_iff]

@[simp] theorem getLast?_crlf (t : Text) : (crlf t).getLast? = t.getLast? := by
  induction t with
  | nil => rfl
  | cons c rest ih =>
      by_cases hc : c = '\n'
      · rw [hc, crlf_newline, List.getLast?_cons, List.getLast?_cons, ih, List.getLast?_cons]
        rfl
      · rw [crlf_cons hc, List.getLast?_cons, ih, List.getLast?_cons]

/-! ### Lines -/

theorem lineTail_crlf (t : Text) : lineTail (crlf t) = lineTail t := by
  by_cases h : '\n' ∈ t
  · obtain ⟨front, tail, rfl, htail⟩ := exists_last_newline h
    have hcrlf : crlf (front ++ '\n' :: tail) = (crlf front ++ ['\r']) ++ '\n' :: tail := by
      rw [crlf_append, crlf_newline, crlf_eq_self htail, List.append_assoc]
      rfl
    rw [hcrlf, lineTail_append _ htail, lineTail_append _ htail]
  · rw [crlf_eq_self h]

/-- The carriage return of its ending stays on a line that is cut off at the line feed. -/
theorem lineHead_crlf (t : Text) :
    lineHead (crlf t) = lineHead t ++ if '\n' ∈ t then ['\r'] else [] := by
  induction t with
  | nil => rfl
  | cons c rest ih =>
      by_cases hc : c = '\n'
      · rw [hc, crlf_newline, lineHead_cons, lineHead_cons, lineHead_cons]
        simp
      · rw [crlf_cons hc, lineHead_cons, if_neg hc, lineHead_cons, if_neg hc, ih]
        simp [Ne.symm hc]

/-- **The line around a place is the same,** as seen without its outer white space. -/
theorem lineAt_crlf (pre post : Text) :
    lineAt (crlf (pre ++ post)) (size (crlf pre)) = lineAt (pre ++ post) (size pre) := by
  have hblank : ∀ c ∈ if '\n' ∈ post then ['\r'] else [], Unicode.isBlank c = true := by
    split <;> simp [isBlank_carriageReturn]
  rw [crlf_append, lineAt_append, lineAt_append, count_crlf (by decide), lineTail_crlf,
    lineHead_crlf, ← List.append_assoc, trim_append_blanks _ hblank]

theorem linesWithEnds_crlf (t : Text) : linesWithEnds (crlf t) = (linesWithEnds t).map crlf := by
  fun_induction linesWithEnds t with
  | case1 => rfl
  | case2 rest ih =>
      rw [crlf_newline, List.map_cons, ← ih]
      have hreturn : '\n' ∉ ['\r'] := by decide
      exact linesWithEnds_append hreturn (crlf rest)
  | case3 c rest hc hrest ih =>
      rw [crlf_cons hc, linesWithEnds, if_neg hc, ih, hrest]
      simp [crlf_cons hc]
  | case4 c rest hc line more hrest ih =>
      rw [crlf_cons hc, linesWithEnds, if_neg hc, ih, hrest]
      simp [crlf_cons hc]

/-- A line ending is dropped with the carriage return that was put before it. -/
theorem dropLineEnd_crlf {body : Text} (hfeed : '\n' ∉ body) (hreturn : '\r' ∉ body) :
    dropLineEnd (crlf (body ++ ['\n'])) = dropLineEnd (body ++ ['\n']) := by
  have hdrop : ∀ ending : Text, (ending = ['\n'] ∨ ending = ['\r', '\n']) →
      dropLineEnd (body ++ ending) = body := by
    intro ending hending
    induction body with
    | nil => rcases hending with rfl | rfl <;> rfl
    | cons c rest ih =>
        rw [List.mem_cons, not_or] at hfeed hreturn
        have hrest := ih hfeed.2 hreturn.2
        rw [List.cons_append, dropLineEnd, hrest]
        · rintro rfl -
          exact hfeed.1 rfl
        · rintro rfl -
          exact hreturn.1 rfl
  rw [crlf_append, crlf_eq_self hfeed, hdrop ['\n'] (.inl rfl)]
  exact hdrop _ (.inr rfl)

/-- **Lines do not tell how they are ended.** -/
theorem lines_crlf {t : Text} (h : '\r' ∉ t) : lines (crlf t) = lines t := by
  rw [lines, lines, linesWithEnds_crlf, List.map_map]
  refine List.map_congr_left fun line hline => ?_
  have hreturn : '\r' ∉ line := by
    intro hmem
    have hflat : '\r' ∈ (linesWithEnds t).flatten := List.mem_flatten.mpr ⟨line, hline, hmem⟩
    rw [flatten_linesWithEnds] at hflat
    exact h hflat
  obtain ⟨body, hbody, rfl | rfl⟩ := exists_of_mem_linesWithEnds hline
  · show dropLineEnd (crlf line) = dropLineEnd line
    rw [crlf_eq_self hbody]
  · exact dropLineEnd_crlf hbody fun hmem => hreturn (List.mem_append_left _ hmem)

theorem numberedLines_crlf {t : Text} (h : '\r' ∉ t) : numberedLines (crlf t) = numberedLines t := by
  rw [numberedLines, lines_crlf h]
  rfl

/-! ### White space -/

theorem isBlank_crlf (t : Text) : isBlank (crlf t) = isBlank t := by
  induction t with
  | nil => rfl
  | cons c rest ih =>
      by_cases hc : c = '\n'
      · rw [hc, crlf_newline]
        exact ih
      · rw [crlf_cons hc]
        exact congrArg (Unicode.isBlank c && ·) ih

theorem trimStart_crlf (t : Text) : trimStart (crlf t) = crlf (trimStart t) := by
  induction t with
  | nil => rfl
  | cons c rest ih =>
      by_cases hc : c = '\n'
      · rw [hc, crlf_newline]
        exact ih
      · rw [crlf_cons hc]
        by_cases hblank : Unicode.isBlank c = true
        · simpa [trimStart, hblank] using ih
        · simp [trimStart, hblank, crlf_cons hc]

theorem trimEnd_crlf (t : Text) : trimEnd (crlf t) = crlf (trimEnd t) := by
  induction t using List.reverseRecOn with
  | nil => rfl
  | append_singleton front c ih =>
      by_cases hblank : Unicode.isBlank c = true
      · have hall : ∀ d ∈ crlf [c], Unicode.isBlank d = true := by
          unfold crlf
          split <;> simp [isBlank_carriageReturn, isBlank_lineFeed, hblank]
        rw [crlf_append, trimEnd_append_blanks _ hall, ih,
          trimEnd_append_blanks _ (by simpa using hblank)]
      · have hc : c ≠ '\n' := by
          rintro rfl
          exact hblank isBlank_lineFeed
        have hkeep : ∀ s : Text, trimEnd (s ++ [c]) = s ++ [c] := by
          intro s
          simp [trimEnd, hblank]
        rw [crlf_append, crlf_cons hc, crlf_nil, hkeep, hkeep, crlf_append, crlf_cons hc, crlf_nil]

theorem trim_crlf (t : Text) : trim (crlf t) = crlf (trim t) := by
  rw [trim, trimStart_crlf, trimEnd_crlf]
  rfl

/-! ### Words in a text -/

theorem concat_suffix_concat {s t : Text} {c d : Char} :
    s ++ [c] <:+ t ++ [d] ↔ c = d ∧ s <:+ t := by
  rw [List.suffix_concat_iff]
  constructor
  · rintro (h | ⟨u, h, hsuffix⟩)
    · simp at h
    · obtain ⟨rfl, hlast⟩ := List.append_inj' h rfl
      exact ⟨(List.cons.inj hlast).1, hsuffix⟩
  · rintro ⟨rfl, hsuffix⟩
    exact .inr ⟨s, rfl, hsuffix⟩

section

variable {w : Text} (hfeed : '\n' ∉ w) (hreturn : '\r' ∉ w)

include hfeed hreturn

theorem isPrefixOf_crlf (t : Text) : w.isPrefixOf (crlf t) = w.isPrefixOf t := by
  induction w generalizing t with
  | nil => simp
  | cons c rest ih =>
      rw [List.mem_cons, not_or] at hfeed hreturn
      cases t with
      | nil => rfl
      | cons d more =>
          by_cases hd : d = '\n'
          · rw [hd, crlf_newline, List.isPrefixOf, List.isPrefixOf, beq_false_of_ne (Ne.symm hfeed.1),
              beq_false_of_ne (Ne.symm hreturn.1)]
            rfl
          · rw [crlf_cons hd, List.isPrefixOf, List.isPrefixOf, ih hfeed.2 hreturn.2]

theorem isSuffixOf_crlf (t : Text) : w.isSuffixOf (crlf t) = w.isSuffixOf t := by
  induction w using List.reverseRecOn generalizing t with
  | nil => simp
  | append_singleton front c ih =>
      rw [List.mem_append, not_or] at hfeed hreturn
      rw [Bool.eq_iff_iff, List.isSuffixOf_iff_suffix, List.isSuffixOf_iff_suffix]
      cases t using List.reverseRecOn with
      | nil => rfl
      | append_singleton more d =>
          have hc : c ≠ '\n' := by simpa [eq_comm] using hfeed.2
          by_cases hd : d = '\n'
          · have hcrlf : crlf (more ++ [d]) = (crlf more ++ ['\r']) ++ ['\n'] := by
              rw [hd, crlf_append, crlf_newline, List.append_assoc]
              rfl
            rw [hcrlf, concat_suffix_concat, concat_suffix_concat]
            exact iff_of_false (fun h => hc h.1) (fun h => hc (h.1.trans hd))
          · have ih := ih hfeed.1 hreturn.1 more
            rw [Bool.eq_iff_iff, List.isSuffixOf_iff_suffix, List.isSuffixOf_iff_suffix] at ih
            rw [crlf_append, crlf_cons hd, crlf_nil, concat_suffix_concat, concat_suffix_concat, ih]

theorem isSome_find?_crlf (t : Text) : (find? w (crlf t)).isSome = (find? w t).isSome := by
  induction t with
  | nil => rfl
  | cons c rest ih =>
      by_cases hw : w = []
      · rw [hw]
        cases crlf (c :: rest) <;> simp [find?]
      · have hprefix := isPrefixOf_crlf hfeed hreturn (c :: rest)
        by_cases hc : c = '\n'
        · have hmid : w.isPrefixOf ('\n' :: crlf rest) = false := by
            cases w with
            | nil => exact absurd rfl hw
            | cons d more =>
                rw [List.mem_cons, not_or] at hfeed
                simp [List.isPrefixOf, Ne.symm hfeed.1]
          rw [hc, crlf_newline] at hprefix ⊢
          rw [find?, find?, find?, hprefix, hmid]
          split
          · rfl
          · simpa using ih
        · rw [crlf_cons hc] at hprefix ⊢
          rw [find?, find?, hprefix]
          split
          · rfl
          · simpa using ih

end

section

variable (word : String) (hfeed : '\n' ∉ word.toList) (hreturn : '\r' ∉ word.toList) (t : Text)

include hfeed hreturn

theorem startsWith_crlf : startsWith (crlf t) word = startsWith t word :=
  isPrefixOf_crlf hfeed hreturn t

theorem endsWith_crlf : endsWith (crlf t) word = endsWith t word :=
  isSuffixOf_crlf hfeed hreturn t

theorem has_crlf : has (crlf t) word = has t word := isSome_find?_crlf hfeed hreturn t

end

/-! ### Pieces -/

theorem pieces_crlf {isSeparator : Char → Bool} (hfeed : isSeparator '\n' = false)
    (hreturn : isSeparator '\r' = false) (t : Text) :
    pieces isSeparator (crlf t) = (pieces isSeparator t).map crlf := by
  have hcons : ∀ {c : Char} {u : Text}, isSeparator c = false → pieces isSeparator (c :: u) =
      (c :: (pieces isSeparator u).headD []) :: (pieces isSeparator u).tail := by
    intro c u hc
    rw [pieces, pieces_eq_cons isSeparator u]
    simp [hc]
  induction t with
  | nil => rfl
  | cons c rest ih =>
      by_cases hc : c = '\n'
      · rw [hc, crlf_newline, hcons hreturn, hcons hfeed, ih, hcons hfeed, pieces_eq_cons]
        simp [crlf_newline]
      · rw [crlf_cons hc]
        by_cases hs : isSeparator c = true
        · simp [pieces, hs, ih]
        · have hs : isSeparator c = false := by simpa using hs
          rw [hcons hs, ih, hcons hs, pieces_eq_cons]
          simp [crlf_cons hc]

end SnippetLint.Text

/-! ### Braces -/

namespace SnippetLint.Braces

theorem counts_crlf (t : Text) : counts (Text.crlf t) = counts t := by
  rw [counts, Text.count_crlf (by decide), Text.count_crlf (by decide)]
  rfl

theorem peakFrom_crlf (depth : Nat) (t : Text) :
    peakFrom depth (Text.crlf t) = peakFrom depth t := by
  have hpass : ∀ {c : Char} (rest : Text) (depth : Nat), depthAfter depth c = depth →
      peakFrom depth (c :: rest) = peakFrom depth rest := by
    intro c rest depth hc
    have hle : depth ≤ peakFrom depth rest := by
      cases rest with
      | nil => exact Nat.le_refl _
      | cons d more => exact Nat.le_max_left ..
    rw [peakFrom, hc, Nat.max_eq_right hle]
  induction t generalizing depth with
  | nil => rfl
  | cons c rest ih =>
      by_cases hc : c = '\n'
      · rw [hc, Text.crlf_newline, hpass _ _ rfl, hpass _ _ rfl, hpass _ _ rfl, ih]
      · rw [Text.crlf_cons hc, peakFrom, peakFrom, ih]

theorem peak_crlf (t : Text) : peak (Text.crlf t) = peak t := peakFrom_crlf 0 t

end SnippetLint.Braces
