/-
Matches follow each other.

A match counts only if it does not begin before the last one that counted has ended, so the matches of
a text are found from left to right and do not overlap.  Neither do parts of different matches: a group
lies within its match.  A list of such parts stays in order when some of them are left out.
-/
import SnippetLint.Proofs.Pattern.Extent

namespace SnippetLint

/-! ### Spans side by side -/

namespace Span

/-- The first span has ended where the second begins. -/
def Before (a b : Span) : Prop := a.stop ≤ b.start

/-- A span reaches no further than another, on either side. -/
structure Within (s outer : Span) : Prop where
  start : outer.start ≤ s.start
  stop : s.stop ≤ outer.stop

theorem start_le_stop (s : Span) : s.start ≤ s.stop := Nat.le_add_right _ _

theorem Within.refl (s : Span) : s.Within s := ⟨Nat.le_refl _, Nat.le_refl _⟩

theorem Before.within {a b s s' : Span} (h : a.Before b) (hs : s.Within a) (hs' : s'.Within b) :
    s.Before s' := Nat.le_trans hs.stop (Nat.le_trans h hs'.start)

theorem Before.start_le {a b : Span} (h : a.Before b) : a.start ≤ b.start :=
  Nat.le_trans a.start_le_stop h

/-- What is found in the text of a span lies within the span. -/
theorem within_of_mem_shift (outer : Span) {s : Span} {spans : List Span}
    (h : ∀ s ∈ spans, s.PartOf outer.text)
    (hs : s ∈ spans.map fun s => ⟨outer.start + s.start, s.text⟩) : s.Within outer := by
  obtain ⟨inner, hinner, rfl⟩ := List.mem_map.mp hs
  obtain ⟨pre, post, htext, hstart⟩ := h inner hinner
  refine ⟨Nat.le_add_right _ _, ?_⟩
  show outer.start + inner.start + Text.size inner.text ≤ outer.start + Text.size outer.text
  rw [htext, hstart, Text.size_append, Text.size_append]
  omega

/-- Spans that are all moved by the same number of bytes stay in order. -/
theorem pairwise_shift {spans : List Span} (h : spans.Pairwise Before) (offset : Nat) :
    (spans.map fun s => ⟨offset + s.start, s.text⟩).Pairwise Before := by
  rw [List.pairwise_map]
  refine h.imp fun {s s'} hbefore => ?_
  have hle : s.start + Text.size s.text ≤ s'.start := hbefore
  show offset + s.start + Text.size s.text ≤ offset + s'.start
  omega

/-- A list of all spans with a property, from left to right. -/
structure Lists (P : Span → Prop) (l : List Span) : Prop where
  inOrder : l.Pairwise Before
  mem_iff : ∀ s, s ∈ l ↔ P s

theorem Lists.filter {P Q : Span → Prop} {l : List Span} (h : Lists P l) {test : Span → Bool}
    (htest : ∀ s, test s = true ↔ Q s) : Lists (fun s => P s ∧ Q s) (l.filter test) :=
  ⟨h.inOrder.filter _, fun s => by rw [List.mem_filter, h.mem_iff, htest]⟩

end Span

namespace Found

theorem group_eq_ok_iff {m : Found} {i : Nat} {s : Span} :
    m.group i = .ok s ↔ m.group? i = some s := by
  unfold group
  cases m.group? i <;> simp

/-- Every part of the first match has ended where any part of the second begins. -/
def Before (m m' : Found) : Prop :=
  ∀ {i j : Nat} {s s' : Span}, m.group? i = some s → m'.group? j = some s' → s.Before s'

end Found

namespace Pattern

/-! ### Groups within their matches -/

theorem Rounds.ahead {round : Cursor → Cursor → Groups → Prop} {index : Nat} {x y : Cursor}
    (hpass : ∀ {a b new}, round a b new → ∃ s, a.Passes s b)
    (hround : ∀ {a b new}, round a b new → (index, x, y) ∈ new → ∃ s, y.Passes s b)
    {a b : Cursor} {new : Groups} (h : Rounds round a b new) (hmem : (index, x, y) ∈ new) :
    ∃ s, y.Passes s b := by
  induction h with
  | done a => simp at hmem
  | more hfirst _ hmore ih =>
      rcases List.mem_append.mp hmem with hmem | hmem
      · exact ih hmem
      · obtain ⟨s, hs⟩ := hround hfirst hmem
        obtain ⟨u, hu⟩ := hmore.passes hpass
        exact ⟨s ++ u, hs.trans hu⟩

/-- From the end of a group a match goes on to its own end. -/
theorem Matches.ahead {p : Pattern} {index : Nat} {a b x y : Cursor} {new : Groups}
    (h : Matches p a b new) (hmem : (index, x, y) ∈ new) : ∃ s, y.Passes s b := by
  induction p generalizing a b new with
  | nothing =>
      obtain ⟨-, rfl⟩ := h
      simp at hmem
  | one f =>
      obtain ⟨_, _, _, _, _, rfl⟩ := h
      simp at hmem
  | many f | few f =>
      obtain ⟨_, _, _, rfl⟩ := h
      simp at hmem
  | wordEdge | textStart | textEnd | lineStart | lineEnd =>
      obtain ⟨_, _, rfl⟩ := h
      simp at hmem
  | both p q ihp ihq =>
      obtain ⟨m, first, later, hfirst, hlater, rfl⟩ := h
      rcases List.mem_append.mp hmem with hmem | hmem
      · exact ihq hlater hmem
      · obtain ⟨s, hs⟩ := ihp hfirst hmem
        obtain ⟨u, hu⟩ := hlater.passes
        exact ⟨s ++ u, hs.trans hu⟩
  | either p q ihp ihq => exact h.elim (ihp · hmem) (ihq · hmem)
  | repeated p ih => exact Rounds.ahead Matches.passes (fun h hm => ih h hm) h hmem
  | group j p ih =>
      obtain ⟨inner, hinner, rfl⟩ := h
      rcases List.mem_cons.mp hmem with heq | hmem
      · obtain ⟨rfl, rfl, rfl⟩ := by simpa only [Prod.mk.injEq] using heq
        exact ⟨[], .refl _⟩
      · exact ih hinner hmem

theorem Finds.group?_within {p : Pattern} {t : Text} {m : Found} {i : Nat} {s : Span}
    (h : Finds p t m) (hs : m.group? i = some s) : s.Within m.whole := by
  cases i with
  | zero =>
      obtain rfl : m.whole = s := Option.some.inj hs
      exact .refl _
  | succ i =>
      obtain ⟨pre, here, stop, new, hpre, hmatch, rfl⟩ := h.exists_matches
      obtain ⟨x, y, hnew, rfl⟩ := exists_ends_of_group? hs
      obtain ⟨lead, hlead⟩ := (hmatch.behind hnew).before
      obtain ⟨inside, hinside, -⟩ := (hmatch.behind hnew).inside
      obtain ⟨trail, htrail⟩ := hmatch.ahead hnew
      have hwhole : (Found.between here stop new).whole = ⟨here.offset, lead ++ inside ++ trail⟩ :=
        Span.between_eq ((hlead.trans hinside).trans htrail)
      rw [hwhole, Span.between_eq hinside, hlead.offset]
      constructor
      · exact Nat.le_add_right _ _
      · show here.offset + Text.size lead + Text.size inside ≤
          here.offset + Text.size (lead ++ inside ++ trail)
        rw [Text.size_append, Text.size_append]
        omega

/-! ### Successive matches -/

theorem stop_le_of_counts {last : Option Nat} {found : Found} (h : counts last found = true) :
    ∀ stop ∈ last, stop ≤ found.whole.start := by
  rintro stop rfl
  simp only [counts, Bool.or_eq_true, decide_eq_true_eq, Bool.and_eq_true] at h
  omega

section

variable {p : Pattern} {before : Option Char} {offset : Nat} {ahead : Text} {last : Option Nat}

theorem stop_le_of_mem_scan {found : Found} (h : found ∈ scan p before offset ahead last) :
    ∀ stop ∈ last, stop ≤ found.whole.start := by
  fun_induction scan p before offset ahead last with
  | case1 | case3 | case4 => simp at h
  | case2 before offset last _ m _ hcounts =>
      rw [List.mem_singleton.mp h]
      exact stop_le_of_counts hcounts
  | case5 before offset c rest last _ ih => exact ih h
  | case6 before offset c rest last _ m _ hcounts ih =>
      rcases List.mem_cons.mp h with rfl | h
      · exact stop_le_of_counts hcounts
      · intro stop hstop
        have hm := stop_le_of_counts hcounts stop hstop
        exact Nat.le_trans hm (Nat.le_trans m.whole.start_le_stop (ih h _ rfl))
  | case7 before offset c rest last _ m _ _ ih => exact ih h
  | case8 before offset c rest last _ _ ih => exact ih h

theorem pairwise_scan :
    (scan p before offset ahead last).Pairwise fun m m' => m.whole.Before m'.whole := by
  fun_induction scan p before offset ahead last with
  | case1 | case3 | case4 => exact .nil
  | case2 => exact List.pairwise_singleton _ _
  | case5 before offset c rest last _ ih => exact ih
  | case6 before offset c rest last _ m _ _ ih =>
      exact .cons (fun m' hm' => stop_le_of_mem_scan hm' _ rfl) ih
  | case7 before offset c rest last _ m _ _ ih => exact ih
  | case8 before offset c rest last _ _ ih => exact ih

end

section

variable {p : Pattern} {t : Text} {matches_ : List Found}

/-- The matches of a text come one after the other, and so do their parts. -/
theorem pairwise_findAll (p : Pattern) (t : Text) : (p.findAll t).Pairwise Found.Before := by
  have hwholes : (p.findAll t).Pairwise fun m m' => m.whole.Before m'.whole := pairwise_scan
  refine hwholes.imp_of_mem fun {m m'} hm hm' hbefore {i j s s'} hs hs' => ?_
  exact hbefore.within ((finds_of_mem_findAll hm).group?_within hs)
    ((finds_of_mem_findAll hm').group?_within hs')

theorem pairwise_groups (h : matches_.Sublist (p.findAll t)) (i : Nat) :
    (matches_.filterMap (·.group? i)).Pairwise Span.Before := by
  rw [List.pairwise_filterMap]
  refine ((pairwise_findAll p t).sublist h).imp fun hbefore s hs s' hs' => ?_
  exact hbefore hs hs'

theorem pairwise_wholes (h : matches_.Sublist (p.findAll t)) :
    (matches_.map (·.whole)).Pairwise Span.Before := by
  rw [List.pairwise_map]
  exact ((pairwise_findAll p t).sublist h).imp fun hbefore => hbefore (i := 0) (j := 0) rfl rfl

theorem pairwise_findGroups (p : Pattern) (i : Nat) (t : Text) :
    (p.findGroups i t).Pairwise Span.Before := pairwise_groups (List.Sublist.refl _) i

theorem pairwise_findSpans (p : Pattern) (t : Text) : (p.findSpans t).Pairwise Span.Before :=
  pairwise_wholes (List.Sublist.refl _)

end

end Pattern

end SnippetLint
