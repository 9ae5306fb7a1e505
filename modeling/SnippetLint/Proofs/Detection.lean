/-
Adding lines to a snippet.

Signatures are tried in a fixed order, so a snippet goes to the earliest language that has one in it.
No signature asks for the edges of the text, hence every signature that occurs in a snippet still
occurs after lines have been added, and more may.  More occurring signatures can only make an earlier
one decide.
-/
import SnippetLint.Detection
import SnippetLint.Proofs.Pattern.Search

namespace SnippetLint

namespace Signature

theorem ignoresTextEdges : ∀ s ∈ all, s.pattern.ignoresTextEdges = true := by decide

/-- A signature of a snippet is one of the snippet with lines put before and behind. -/
theorem occursIn_lines {s : Signature} (hs : s ∈ all) {t : Text} (h : s.occursIn t = true)
    (a b : Text) :
    s.occursIn (t ++ '\n' :: b) = true ∧ s.occursIn (a ++ '\n' :: t) = true := by
  have hedges := ignoresTextEdges s hs
  refine ⟨?_, ?_⟩
  · exact Pattern.occursIn_within [] ('\n' :: b) (by simp) (by simp) hedges h
  · have hbefore := Pattern.occursIn_within (a ++ ['\n']) [] (by simp) (by simp) hedges h
    simpa [occursIn] using hbefore

end Signature

namespace Detection

/-- The languages in the order in which their signatures are tried. -/
def order : List Language := [.javascript, .python, .cpp, .java, .csharp, .go, .php, .typescript]

/-- The place of a language in that order. Languages without signatures stand behind it. -/
def priority (language : Language) : Nat := order.idxOf language

theorem priority_le_unknown (language : Language) : priority language ≤ priority .unknown := by
  cases language <;> decide

theorem priority_lt_unknown : ∀ s ∈ Signature.all, priority s.language < priority .unknown := by
  decide

/-- Signatures are tried language by language. -/
theorem pairwise_priority :
    Signature.all.Pairwise fun s s' => priority s.language ≤ priority s'.language := by decide

/-- The language that the first of some signatures tells. -/
def toldBy (s : Option Signature) : Language := (s.map (·.language)).getD .unknown

theorem language_ofText (t : Text) :
    (ofText t).language = toldBy (Signature.all.find? (·.occursIn t)) := by
  unfold ofText
  cases Signature.all.find? (·.occursIn t) <;> rfl

/-- Where more signatures occur, the first of them is no later. -/
theorem priority_toldBy_le {l : List Signature}
    (hl : l.Pairwise fun s s' => priority s.language ≤ priority s'.language)
    {p q : Signature → Bool} (hpq : ∀ s ∈ l, p s = true → q s = true) :
    priority (toldBy (l.find? q)) ≤ priority (toldBy (l.find? p)) := by
  induction l with
  | nil => exact Nat.le_refl _
  | cons s rest ih =>
      obtain ⟨hfirst, hrest⟩ := List.pairwise_cons.mp hl
      have hlater := ih hrest fun s' hs' => hpq s' (List.mem_cons_of_mem s hs')
      by_cases hq : q s = true
      · rw [List.find?_cons_of_pos hq]
        cases hfind : (s :: rest).find? p with
        | none => exact priority_le_unknown _
        | some found =>
            rcases List.mem_cons.mp (List.mem_of_find?_eq_some hfind) with rfl | hmem
            · exact Nat.le_refl _
            · exact hfirst found hmem
      · have hp : ¬ p s = true := fun hp => hq (hpq s List.mem_cons_self hp)
        rw [List.find?_cons_of_neg hq, List.find?_cons_of_neg hp]
        exact hlater

/-- A text with more signatures is told to be of the same or an earlier language. -/
theorem priority_ofText_le {t u : Text}
    (h : ∀ s ∈ Signature.all, s.occursIn t = true → s.occursIn u = true) :
    priority (ofText u).language ≤ priority (ofText t).language := by
  rw [language_ofText, language_ofText]
  exact priority_toldBy_le pairwise_priority h

/-- Only a text without signatures is told to be of no language. -/
theorem priority_ofText_lt_iff {t : Text} :
    priority (ofText t).language < priority .unknown ↔ (ofText t).language ≠ .unknown := by
  constructor
  · intro hlt heq
    rw [heq] at hlt
    exact Nat.lt_irrefl _ hlt
  · intro hne
    rw [language_ofText] at hne ⊢
    cases hfind : Signature.all.find? (·.occursIn t) with
    | none =>
        rw [hfind] at hne
        exact absurd rfl hne
    | some s => exact priority_lt_unknown s (List.mem_of_find?_eq_some hfind)

/-- **Adding lines makes no language later.**  Two snippets, one on the lines before and one on the
lines behind, are together told to be of a language that is at least as early as that of each; so a
snippet whose language could be told does not lose it when lines are added. -/
theorem priority_ofText_lines (a b : Text) :
    priority (ofText (a ++ '\n' :: b)).language ≤
        min (priority (ofText a).language) (priority (ofText b).language) ∧
      ((ofText a).language ≠ .unknown ∨ (ofText b).language ≠ .unknown →
        (ofText (a ++ '\n' :: b)).language ≠ .unknown) := by
  have ha : priority (ofText (a ++ '\n' :: b)).language ≤ priority (ofText a).language :=
    priority_ofText_le fun s hs h => (Signature.occursIn_lines hs h a b).1
  have hb : priority (ofText (a ++ '\n' :: b)).language ≤ priority (ofText b).language :=
    priority_ofText_le fun s hs h => (Signature.occursIn_lines hs h a b).2
  refine ⟨Nat.le_min.mpr ⟨ha, hb⟩, fun h => priority_ofText_lt_iff.mp ?_⟩
  rcases h with hknown | hknown
  · exact Nat.lt_of_le_of_lt ha (priority_ofText_lt_iff.mpr hknown)
  · exact Nat.lt_of_le_of_lt hb (priority_ofText_lt_iff.mpr hknown)

end Detection

end SnippetLint
