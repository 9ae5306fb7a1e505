/-
Characters that a match cannot hold.

Where no class of a pattern has a character, no match of the pattern passes it, and the same can be
asked of a single group.  Both are read off the form of a pattern, like the properties in
`Proofs/Pattern/Extent.lean`: the groups that rules quote are checked by evaluation to stay on one
line.
-/
import SnippetLint.Proofs.Pattern.Extent

namespace SnippetLint.Pattern

/-- No match passes this character. -/
def avoids (c : Char) : Pattern → Bool
  | one f | many f | few f => !f c
  | both p q | either p q => avoids c p && avoids c q
  | repeated p | group _ p => avoids c p
  | _ => true

/-- No group of this number holds this character. -/
def groupAvoids (c : Char) (index : Nat) : Pattern → Bool
  | both p q | either p q => groupAvoids c index p && groupAvoids c index q
  | repeated p => groupAvoids c index p
  | group j p => (j != index || avoids c p) && groupAvoids c index p
  | _ => true

section

variable {c : Char}

theorem notMem_of_class {f : Char → Bool} {s : Text} (hf : (!f c) = true)
    (hs : ∀ d ∈ s, f d = true) : c ∉ s := by
  intro hmem
  rw [hs c hmem] at hf
  exact absurd hf (by decide)

theorem Rounds.avoids {round : Cursor → Cursor → Groups → Prop}
    (hround : ∀ {a b new}, round a b new → ∃ s, a.Passes s b ∧ c ∉ s) {a b : Cursor}
    {new : Groups} (h : Rounds round a b new) : ∃ s, a.Passes s b ∧ c ∉ s := by
  induction h with
  | done a => exact ⟨[], .refl a, List.not_mem_nil⟩
  | more hfirst _ _ ih =>
      obtain ⟨s, hs, hc⟩ := hround hfirst
      obtain ⟨t, ht, hc'⟩ := ih
      exact ⟨s ++ t, hs.trans ht, by simp [hc, hc']⟩

theorem Matches.avoids {p : Pattern} (hp : p.avoids c = true) {a b : Cursor} {new : Groups}
    (h : Matches p a b new) : ∃ s, a.Passes s b ∧ c ∉ s := by
  induction p generalizing a b new with
  | one f =>
      obtain ⟨d, rest, hahead, hd, rfl, -⟩ := h
      exact ⟨[d], Cursor.passes_step hahead, notMem_of_class hp (by simpa using hd)⟩
  | many f | few f =>
      obtain ⟨s, hpass, hs, -⟩ := h
      exact ⟨s, hpass, notMem_of_class hp hs⟩
  | nothing =>
      obtain ⟨rfl, -⟩ := h
      exact ⟨[], .refl _, List.not_mem_nil⟩
  | wordEdge | textStart | textEnd | lineStart | lineEnd =>
      obtain ⟨-, rfl, -⟩ := h
      exact ⟨[], .refl _, List.not_mem_nil⟩
  | both p q ihp ihq =>
      obtain ⟨hp, hq⟩ := Bool.and_eq_true_iff.mp hp
      obtain ⟨m, first, later, hfirst, hlater, -⟩ := h
      obtain ⟨s, hs, hc⟩ := ihp hp hfirst
      obtain ⟨t, ht, hc'⟩ := ihq hq hlater
      exact ⟨s ++ t, hs.trans ht, by simp [hc, hc']⟩
  | either p q ihp ihq =>
      obtain ⟨hp, hq⟩ := Bool.and_eq_true_iff.mp hp
      exact h.elim (ihp hp) (ihq hq)
  | repeated p ih => exact Rounds.avoids (fun h => ih hp h) h
  | group index p ih =>
      obtain ⟨inner, hinner, -⟩ := h
      exact ih hp hinner

theorem Rounds.group_avoids {round : Cursor → Cursor → Groups → Prop} {index : Nat}
    {x y : Cursor}
    (hround : ∀ {a b new}, round a b new → (index, x, y) ∈ new → ∃ s, x.Passes s y ∧ c ∉ s)
    {a b : Cursor} {new : Groups} (h : Rounds round a b new) (hmem : (index, x, y) ∈ new) :
    ∃ s, x.Passes s y ∧ c ∉ s := by
  induction h with
  | done a => simp at hmem
  | more hfirst _ _ ih =>
      rcases List.mem_append.mp hmem with hmem | hmem
      · exact ih hmem
      · exact hround hfirst hmem

theorem Matches.group_avoids {p : Pattern} {index : Nat} (hp : p.groupAvoids c index = true)
    {a b x y : Cursor} {new : Groups} (h : Matches p a b new) (hmem : (index, x, y) ∈ new) :
    ∃ s, x.Passes s y ∧ c ∉ s := by
  induction p generalizing a b new with
  | nothing =>
      obtain ⟨-, rfl⟩ := h
      simp at hmem
  | one f =>
      obtain ⟨_, _, _, _, _, rfl⟩ := h
      simp at hmem
  | many f | few f =>
      obtain ⟨_, _, _, rfl⟩ := h
      simp at hmem
  | wordEdge | textStart | textEnd | lineStart | lineEnd =>
      obtain ⟨_, _, rfl⟩ := h
      simp at hmem
  | both p q ihp ihq =>
      obtain ⟨hp, hq⟩ := Bool.and_eq_true_iff.mp hp
      obtain ⟨m, first, later, hfirst, hlater, rfl⟩ := h
      rcases List.mem_append.mp hmem with hmem | hmem
      · exact ihq hq hlater hmem
      · exact ihp hp hfirst hmem
  | either p q ihp ihq =>
      obtain ⟨hp, hq⟩ := Bool.and_eq_true_iff.mp hp
      rcases h with h | h
      · exact ihp hp h hmem
      · exact ihq hq h hmem
  | repeated p ih => exact Rounds.group_avoids (fun h hm => ih hp h hm) h hmem
  | group j p ih =>
      obtain ⟨hj, hp⟩ := Bool.and_eq_true_iff.mp hp
      obtain ⟨inner, hinner, rfl⟩ := h
      rcases List.mem_cons.mp hmem with heq | hmem
      · obtain ⟨rfl, rfl, rfl⟩ := by simpa only [Prod.mk.injEq] using heq
        exact hinner.avoids (by simpa using hj)
      · exact ih hp hinner hmem

/-! ### Matches of a text -/

variable {p : Pattern} {t : Text} {found : Found} {i : Nat} {s : Span}

theorem Finds.notMem_group (h : Finds p t found) (hp : p.groupAvoids c (i + 1) = true)
    (hs : found.group? (i + 1) = some s) : c ∉ s.text := by
  obtain ⟨pre, here, stop, new, hpre, hmatch, rfl⟩ := h.exists_matches
  obtain ⟨x, y, hnew, rfl⟩ := exists_ends_of_group? hs
  obtain ⟨inside, hinside, hc⟩ := hmatch.group_avoids hp hnew
  rw [Span.between_eq hinside]
  exact hc

theorem notMem_of_mem_findGroups (hp : p.groupAvoids c (i + 1) = true)
    (h : s ∈ p.findGroups (i + 1) t) : c ∉ s.text := by
  obtain ⟨found, hfound, hs⟩ := List.mem_filterMap.mp h
  exact (finds_of_mem_findAll hfound).notMem_group hp hs

theorem notMem_of_mem_findSpans (hp : p.avoids c = true) (h : s ∈ p.findSpans t) :
    c ∉ s.text := by
  obtain ⟨found, hfound, rfl⟩ := List.mem_map.mp h
  obtain ⟨pre, here, stop, new, hpre, hmatch, rfl⟩ := (finds_of_mem_findAll hfound).exists_matches
  obtain ⟨u, hu, hc⟩ := hmatch.avoids hp
  show c ∉ (Span.between here stop).text
  rw [Span.between_eq hu]
  exact hc

end

end SnippetLint.Pattern
