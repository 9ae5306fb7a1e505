/-
One pattern inside another.

Two patterns for the same thing are seldom the same pattern: one asks for more of what follows, or
for fewer characters in a place.  `Narrows` compares two patterns between the same two places, part by
part.  `Encloses` is what searches need: wherever the first pattern matches, the second matches at that
place or behind it, whatever is left of the match.  The two differ at word edges, which are not part of
what is passed: whether there is one is settled by the blanks on the other side.
-/
import SnippetLint.Proofs.Names
import SnippetLint.Proofs.Pattern.Search

namespace SnippetLint.Pattern

open Unicode

/-- Whatever the first pattern passes, the second can pass too. -/
def Narrows (p q : Pattern) : Prop :=
  ∀ ⦃a b : Cursor⦄ ⦃new : Groups⦄, Matches p a b new → ∃ new', Matches q a b new'

/-- In every match of the first pattern the second has a match that begins there or behind. -/
def Encloses (p q : Pattern) : Prop :=
  ∀ ⦃a b : Cursor⦄ ⦃new : Groups⦄, Matches p a b new →
    ∃ s here next new', a.Passes s here ∧ Matches q here next new'

section

variable {p p' q q' : Pattern} {f g : Char → Bool}

/-! ### Between the same places -/

theorem Narrows.refl (p : Pattern) : Narrows p p := fun _ _ new h => ⟨new, h⟩

theorem Narrows.one (h : ∀ c, f c = true → g c = true) : Narrows (one f) (one g) := by
  rintro a b new ⟨c, rest, hahead, hc, rfl, rfl⟩
  exact ⟨[], c, rest, hahead, h c hc, rfl, rfl⟩

theorem Narrows.many (h : ∀ c, f c = true → g c = true) : Narrows (many f) (many g) := by
  rintro a b new ⟨s, hs, hall, rfl⟩
  exact ⟨[], s, hs, fun c hc => h c (hall c hc), rfl⟩

theorem Narrows.followed (hp : Narrows p p') (hq : Narrows q q') : Narrows (p ++ q) (p' ++ q') := by
  rintro a b new ⟨m, first, later, hfirst, hlater, rfl⟩
  obtain ⟨first', hfirst'⟩ := hp hfirst
  obtain ⟨later', hlater'⟩ := hq hlater
  exact ⟨later' ++ first', hfirst'.followed hlater'⟩

theorem Narrows.several (h : ∀ c, f c = true → g c = true) : Narrows (several f) (several g) :=
  (Narrows.one h).followed (.many h)

/-! ### Within a match -/

theorem Narrows.encloses (h : Narrows p q) : Encloses p q := by
  intro a b new hmatch
  obtain ⟨new', hmatch'⟩ := h hmatch
  exact ⟨[], a, b, new', .refl a, hmatch'⟩

/-- What stands in the front of a match stands in the match. -/
theorem Encloses.front (h : Encloses p q) (r : Pattern) : Encloses (p ++ r) q := by
  rintro a b new ⟨m, first, later, hfirst, -, -⟩
  exact h hfirst

/-- **What stands in every match occurs wherever there is a match.** -/
theorem Encloses.occursIn (h : Encloses p q) {t : Text} (hp : p.occursIn t = true) :
    q.occursIn t = true := by
  obtain ⟨pre, a, b, new, hpre, hmatch⟩ := occursIn_iff.mp hp
  obtain ⟨s, here, next, new', hs, hmatch'⟩ := h hmatch
  exact occursIn_iff.mpr ⟨pre ++ s, here, next, new', hpre.trans hs, hmatch'⟩

end

/-! ### Words beside blanks -/

section

variable {w : String} {a b : Cursor} {new : Groups}

/-- There is a word edge before a word that nothing stands directly before. -/
theorem Matches.wordEdge_before (h : Matches (text w) a b new) (hfree : a.FreeBefore)
    (hw : w.toList.head?.any isWord = true) : Matches wordEdge a a [] := by
  have hpass := h.passes_exactly.1
  have hahead : a.ahead.head?.any isWord = true := by
    rw [hpass.ahead, List.head?_append]
    cases hhead : w.toList.head? with
    | none => simp [hhead] at hw
    | some c => simpa [hhead] using hw
  refine ⟨?_, rfl, rfl⟩
  rw [Cursor.atWordEdge, hfree, hahead]
  rfl

/-- There is a word edge behind a word that nothing stands directly behind. -/
theorem Matches.wordEdge_behind (h : Matches (text w) a b new) (hfree : b.FreeAhead)
    (hw : w.toList.getLast?.any isWord = true) : Matches wordEdge b b [] := by
  have hpass := h.passes_exactly.1
  have hbefore : b.before.any isWord = true := by
    rw [hpass.before]
    cases hlast : w.toList.getLast? with
    | none => simp [hlast] at hw
    | some c => simpa [hlast] using hw
  refine ⟨?_, rfl, rfl⟩
  rw [Cursor.atWordEdge, hbefore, hfree]
  rfl

/-- A word that blanks follow stands alone. -/
theorem encloses_wholeWord (hw : w.toList.getLast?.any isWord = true) :
    Encloses (keyword w ++ gap) (wholeWord w) := by
  rintro a b new ⟨m, _, _, ⟨x, _, _, ⟨hedge, rfl, rfl⟩, hword, -⟩, hgap, -⟩
  -- the gap is dropped: all it has to say about the word is that an edge is behind it
  have hend : Matches wordEdge m m [] :=
    hword.wordEdge_behind (hgap.freeAhead_of_several fun _ => isWord_eq_false_of_isBlank) hw
  exact ⟨[], x, m, _, .refl x, x, [], _, ⟨hedge, rfl, rfl⟩, hword.followed hend, rfl⟩

end

end SnippetLint.Pattern
