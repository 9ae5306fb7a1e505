/-
Where matches and their groups lie.

Every match that is found, and every group of it, is a part of the text: its offset is the size of
what stands before it, so no rule that reports at such an offset can miss a character boundary.

Three properties of a pattern can be read off its form alone, and rules rely on them: that a match
takes up text (`consumes`), that a group takes part in every match (`binds`), and that a group takes
up text where it does (`groupConsumes`).  They are computed, so that a rule's own pattern is checked
by evaluation.
-/
import SnippetLint.Proofs.Pattern.Matches

namespace SnippetLint

/-! ### Parts of a text -/

/-- A span is what stands in the text at its offset. -/
def Span.PartOf (s : Span) (t : Text) : Prop :=
  ∃ pre post, t = pre ++ s.text ++ post ∧ s.start = Text.size pre

namespace Span

theorem take_size (s rest : Text) : take (Text.size s) (s ++ rest) = s := by
  induction s with
  | nil => cases rest <;> rfl
  | cons c more ih =>
      have hpos := Char.utf8Size_pos c
      have hne : c.utf8Size + Text.size more ≠ 0 := by omega
      rw [List.cons_append, Text.size_cons, take, if_neg hne, Nat.add_sub_cancel_left, ih]

theorem between_eq {a b : Cursor} {s : Text} (h : a.Passes s b) : between a b = ⟨a.offset, s⟩ := by
  rw [between, h.offset, Nat.add_sub_cancel_left, h.ahead, take_size]

theorem stop_between {a b : Cursor} {s : Text} (h : a.Passes s b) : (between a b).stop = b.offset := by
  rw [between_eq h, stop, h.offset]

theorem partOf_between {t pre s : Text} {a b : Cursor} (ha : (Cursor.start t).Passes pre a)
    (hb : a.Passes s b) : (between a b).PartOf t := by
  rw [between_eq hb]
  refine ⟨pre, b.ahead, ?_, ha.offset_start⟩
  rw [ha.eq_append, hb.ahead, List.append_assoc]

end Span

namespace Pattern

/-! ### What the form of a pattern tells -/

/-- Every match takes up text. -/
def consumes : Pattern → Bool
  | one _ => true
  | both p q => consumes p || consumes q
  | either p q => consumes p && consumes q
  | group _ p => consumes p
  | _ => false

/-- Every match remembers a group of this number. -/
def binds (index : Nat) : Pattern → Bool
  | both p q => binds index p || binds index q
  | either p q => binds index p && binds index q
  | group j p => j == index || binds index p
  | _ => false

/-- Groups of this number take up text. -/
def groupConsumes (index : Nat) : Pattern → Bool
  | both p q | either p q => groupConsumes index p && groupConsumes index q
  | repeated p => groupConsumes index p
  | group j p => (j != index || consumes p) && groupConsumes index p
  | _ => true

/-- Nothing is remembered. -/
def groupless : Pattern → Bool
  | both p q | either p q => groupless p && groupless q
  | repeated p => groupless p
  | group _ _ => false
  | _ => true

theorem Matches.ne_nil {p : Pattern} (hp : consumes p = true) {a b : Cursor} {new : Groups}
    (h : Matches p a b new) : ∃ s, a.Passes s b ∧ s ≠ [] := by
  induction p generalizing a b new with
  | one f =>
      obtain ⟨c, rest, hahead, -, rfl, -⟩ := h
      exact ⟨[c], Cursor.passes_step hahead, List.cons_ne_nil c []⟩
  | both p q ihp ihq =>
      obtain ⟨m, first, later, hfirst, hlater, -⟩ := h
      obtain ⟨s, hs⟩ := hfirst.passes
      obtain ⟨t, ht⟩ := hlater.passes
      rcases Bool.or_eq_true_iff.mp hp with hp | hq
      · obtain ⟨s, hs, hne⟩ := ihp hp hfirst
        exact ⟨s ++ t, hs.trans ht, by simp [hne]⟩
      · obtain ⟨t, ht, hne⟩ := ihq hq hlater
        exact ⟨s ++ t, hs.trans ht, by simp [hne]⟩
  | either p q ihp ihq =>
      obtain ⟨hp, hq⟩ := Bool.and_eq_true_iff.mp hp
      exact h.elim (ihp hp) (ihq hq)
  | group index p ih =>
      obtain ⟨inner, hinner, -⟩ := h
      exact ih hp hinner
  | _ => simp [consumes] at hp

theorem Matches.exists_group {p : Pattern} {index : Nat} (hp : binds index p = true) {a b : Cursor}
    {new : Groups} (h : Matches p a b new) : ∃ ends, (index, ends) ∈ new := by
  induction p generalizing a b new with
  | both p q ihp ihq =>
      obtain ⟨m, first, later, hfirst, hlater, rfl⟩ := h
      rcases Bool.or_eq_true_iff.mp hp with hp | hq
      · obtain ⟨ends, hends⟩ := ihp hp hfirst
        exact ⟨ends, List.mem_append_right _ hends⟩
      · obtain ⟨ends, hends⟩ := ihq hq hlater
        exact ⟨ends, List.mem_append_left _ hends⟩
  | either p q ihp ihq =>
      obtain ⟨hp, hq⟩ := Bool.and_eq_true_iff.mp hp
      exact h.elim (ihp hp) (ihq hq)
  | group j p ih =>
      obtain ⟨inner, hinner, rfl⟩ := h
      rcases Bool.or_eq_true_iff.mp hp with hj | hp
      · exact ⟨(a, b), by simp [beq_iff_eq.mp hj]⟩
      · obtain ⟨ends, hends⟩ := ih hp hinner
        exact ⟨ends, List.mem_cons_of_mem _ hends⟩
  | _ => simp [binds] at hp

theorem Matches.eq_nil_of_groupless {p : Pattern} (hp : groupless p = true) {a b : Cursor}
    {new : Groups} (h : Matches p a b new) : new = [] := by
  induction p generalizing a b new with
  | nothing => exact h.2
  | one f =>
      obtain ⟨_, _, _, _, _, rfl⟩ := h
      rfl
  | many f | few f =>
      obtain ⟨_, _, _, rfl⟩ := h
      rfl
  | wordEdge | textStart | textEnd | lineStart | lineEnd => exact h.2.2
  | both p q ihp ihq =>
      obtain ⟨hp, hq⟩ := Bool.and_eq_true_iff.mp hp
      obtain ⟨m, first, later, hfirst, hlater, rfl⟩ := h
      rw [ihp hp hfirst, ihq hq hlater]
      rfl
  | either p q ihp ihq =>
      obtain ⟨hp, hq⟩ := Bool.and_eq_true_iff.mp hp
      exact h.elim (ihp hp) (ihq hq)
  | repeated p ih =>
      have hrounds : Rounds (Matches p) a b new := h
      clear h
      induction hrounds with
      | done a => rfl
      | more hfirst _ _ ihmore => rw [ih hp hfirst, ihmore]; rfl
  | group index p ih => simp [groupless] at hp

/-- A group of a match that begins at a place lies behind that place. -/
structure Behind (a x y : Cursor) (takesUp : Bool) : Prop where
  before : ∃ s, a.Passes s x
  inside : ∃ s, x.Passes s y ∧ (takesUp = true → s ≠ [])

theorem Behind.widen {a a' x y : Cursor} {s : Text} {takesUp takesUp' : Bool}
    (h : Behind a x y takesUp) (ha : a'.Passes s a) (himp : takesUp' = true → takesUp = true) :
    Behind a' x y takesUp' := by
  obtain ⟨u, hu⟩ := h.before
  obtain ⟨v, hv, hne⟩ := h.inside
  exact ⟨⟨_, ha.trans hu⟩, ⟨v, hv, fun ht => hne (himp ht)⟩⟩

theorem Rounds.behind {round : Cursor → Cursor → Groups → Prop} {index : Nat} {x y : Cursor}
    {takesUp : Bool} (hpass : ∀ {a b new}, round a b new → ∃ s, a.Passes s b)
    (hround : ∀ {a b new}, round a b new → (index, x, y) ∈ new → Behind a x y takesUp)
    {a b : Cursor} {new : Groups} (h : Rounds round a b new) (hmem : (index, x, y) ∈ new) :
    Behind a x y takesUp := by
  induction h with
  | done a => simp at hmem
  | more hfirst _ _ ih =>
      rcases List.mem_append.mp hmem with hmem | hmem
      · obtain ⟨s, hs⟩ := hpass hfirst
        exact (ih hmem).widen hs id
      · exact hround hfirst hmem

theorem Matches.behind {p : Pattern} {index : Nat} {a b x y : Cursor} {new : Groups}
    (h : Matches p a b new) (hmem : (index, x, y) ∈ new) :
    Behind a x y (groupConsumes index p) := by
  induction p generalizing a b new with
  | nothing =>
      obtain ⟨-, rfl⟩ := h
      simp at hmem
  | one f =>
      obtain ⟨_, _, _, _, _, rfl⟩ := h
      simp at hmem
  | many f | few f =>
      obtain ⟨_, _, _, rfl⟩ := h
      simp at hmem
  | wordEdge | textStart | textEnd | lineStart | lineEnd =>
      obtain ⟨_, _, rfl⟩ := h
      simp at hmem
  | both p q ihp ihq =>
      obtain ⟨m, first, later, hfirst, hlater, rfl⟩ := h
      rcases List.mem_append.mp hmem with hmem | hmem
      · obtain ⟨s, hs⟩ := hfirst.passes
        exact (ihq hlater hmem).widen hs fun ht => (Bool.and_eq_true_iff.mp ht).2
      · exact (ihp hfirst hmem).widen (.refl _) fun ht => (Bool.and_eq_true_iff.mp ht).1
  | either p q ihp ihq =>
      rcases h with h | h
      · exact (ihp h hmem).widen (.refl _) fun ht => (Bool.and_eq_true_iff.mp ht).1
      · exact (ihq h hmem).widen (.refl _) fun ht => (Bool.and_eq_true_iff.mp ht).2
  | repeated p ih => exact Rounds.behind Matches.passes (fun h hm => ih h hm) h hmem
  | group j p ih =>
      obtain ⟨inner, hinner, rfl⟩ := h
      rcases List.mem_cons.mp hmem with heq | hmem
      · obtain ⟨rfl, rfl, rfl⟩ := by simpa only [Prod.mk.injEq] using heq
        refine ⟨⟨[], .refl _⟩, ?_⟩
        by_cases hp : consumes p = true
        · obtain ⟨s, hs, hne⟩ := hinner.ne_nil hp
          exact ⟨s, hs, fun _ => hne⟩
        · obtain ⟨s, hs⟩ := hinner.passes
          exact ⟨s, hs, fun ht => absurd ht (by simp [groupConsumes, hp])⟩
      · exact (ih hinner hmem).widen (.refl _) fun ht => (Bool.and_eq_true_iff.mp ht).2

/-! ### Matches of a text -/

/-- A match of a text at one of its places. -/
def Finds (p : Pattern) (t : Text) (found : Found) : Prop :=
  ∃ pre here, (Cursor.start t).Passes pre here ∧ matchAt p here = some found

theorem exists_of_mem_scan {p : Pattern} {found : Found} {before : Option Char} {offset : Nat}
    {ahead : Text} {last : Option Nat} (h : found ∈ scan p before offset ahead last) :
    ∃ s here, Cursor.Passes ⟨before, offset, ahead⟩ s here ∧ matchAt p here = some found := by
  induction ahead generalizing before offset last with
  | nil =>
      unfold scan at h
      split at h
      · simp at h
      · split at h
        · rename_i m hm
          split at h
          · rw [List.mem_singleton.mp h]
            exact ⟨[], _, .refl _, hm⟩
          · simp at h
        · simp at h
  | cons c rest ih =>
      have hlater : ∀ {last}, found ∈ scan p (some c) (offset + c.utf8Size) rest last →
          ∃ s here, Cursor.Passes ⟨before, offset, c :: rest⟩ s here
            ∧ matchAt p here = some found := by
        intro last h
        obtain ⟨s, here, hpass, hm⟩ := ih h
        exact ⟨c :: s, here, hpass.cons, hm⟩
      unfold scan at h
      split at h
      · exact hlater h
      · split at h
        · rename_i m hm
          split at h
          · rcases List.mem_cons.mp h with rfl | h
            · exact ⟨[], _, .refl _, hm⟩
            · exact hlater h
          · exact hlater h
        · exact hlater h

theorem finds_of_mem_findAll {p : Pattern} {t : Text} {found : Found} (h : found ∈ p.findAll t) :
    Finds p t found := exists_of_mem_scan h

theorem exists_of_search {p : Pattern} {found : Found} {before : Option Char} {offset : Nat}
    {ahead : Text} (h : search p before offset ahead = some found) :
    ∃ s here, Cursor.Passes ⟨before, offset, ahead⟩ s here ∧ matchAt p here = some found := by
  induction ahead generalizing before offset with
  | nil => exact ⟨[], _, .refl _, h⟩
  | cons c rest ih =>
      unfold search at h
      split at h
      · rename_i m hm
        exact ⟨[], _, .refl _, hm.trans h⟩
      · obtain ⟨s, here, hpass, hm⟩ := ih h
        exact ⟨c :: s, here, hpass.cons, hm⟩

theorem finds_of_find? {p : Pattern} {t : Text} {found : Found} (h : p.find? t = some found) :
    Finds p t found := exists_of_search h

/-- A found match is a match of the relation, and its spans are those between places. -/
theorem exists_matches_of_matchAt {p : Pattern} {here : Cursor} {found : Found}
    (h : matchAt p here = some found) :
    ∃ stop new, Matches p here stop new ∧ found = Found.between here stop new := by
  obtain ⟨stop, new, hm, hk⟩ := exists_matches_of_run h
  refine ⟨stop, new, hm, ?_⟩
  rw [List.append_nil] at hk
  exact (Option.some.inj hk).symm

theorem matchAt_eq_none {p : Pattern} {here : Cursor}
    (h : ∀ stop new, ¬ Matches p here stop new) : matchAt p here = none := by
  cases hm : matchAt p here with
  | none => rfl
  | some m =>
      obtain ⟨stop, new, hmatch, -⟩ := exists_matches_of_matchAt hm
      exact absurd hmatch (h stop new)

section

variable {p : Pattern} {t : Text} {found : Found} {i : Nat} {s : Span}

theorem Finds.exists_matches (h : Finds p t found) :
    ∃ pre here stop new, (Cursor.start t).Passes pre here ∧ Matches p here stop new ∧
      found = Found.between here stop new := by
  obtain ⟨pre, here, hpre, hm⟩ := h
  obtain ⟨stop, new, hmatch, hfound⟩ := exists_matches_of_matchAt hm
  exact ⟨pre, here, stop, new, hpre, hmatch, hfound⟩

theorem Finds.whole_partOf (h : Finds p t found) : found.whole.PartOf t := by
  obtain ⟨pre, here, stop, new, hpre, hmatch, rfl⟩ := h.exists_matches
  obtain ⟨s, hs⟩ := hmatch.passes
  exact Span.partOf_between hpre hs

theorem Finds.whole_ne_nil (h : Finds p t found) (hp : consumes p = true) :
    found.whole.text ≠ [] := by
  obtain ⟨pre, here, stop, new, hpre, hmatch, rfl⟩ := h.exists_matches
  obtain ⟨s, hs, hne⟩ := hmatch.ne_nil hp
  show (Span.between here stop).text ≠ []
  rw [Span.between_eq hs]
  exact hne

/-- A group is what lies between the two places that were remembered for it. -/
theorem exists_ends_of_group? {here stop : Cursor} {new : Groups}
    (hs : (Found.between here stop new).group? (i + 1) = some s) :
    ∃ x y, (i + 1, x, y) ∈ new ∧ s = Span.between x y := by
  simp only [Found.group?, Nat.add_one_ne_zero, if_false] at hs
  obtain ⟨l₁, l₂, hl, -⟩ := List.lookup_eq_some_iff.mp hs
  have hmem : (i + 1, s) ∈ (Found.between here stop new).groups := by
    rw [hl]
    simp
  obtain ⟨⟨j, x, y⟩, hnew, heq⟩ := List.mem_map.mp hmem
  obtain ⟨rfl, rfl⟩ := by simpa only [Prod.mk.injEq] using heq
  exact ⟨x, y, hnew, rfl⟩

/-- A group stands behind the beginning of its match. -/
theorem Finds.group?_behind (h : Finds p t found) (hs : found.group? (i + 1) = some s) :
    ∃ pre lead post, t = pre ++ lead ++ s.text ++ post ∧ found.whole.start = Text.size pre
      ∧ s.start = Text.size (pre ++ lead) ∧ (groupConsumes (i + 1) p = true → s.text ≠ []) := by
  obtain ⟨pre, here, stop, new, hpre, hmatch, rfl⟩ := h.exists_matches
  obtain ⟨x, y, hnew, rfl⟩ := exists_ends_of_group? hs
  have hbehind := hmatch.behind hnew
  obtain ⟨lead, hlead⟩ := hbehind.before
  obtain ⟨inside, hinside, hne⟩ := hbehind.inside
  rw [Span.between_eq hinside]
  refine ⟨pre, lead, y.ahead, ?_, hpre.offset_start, (hpre.trans hlead).offset_start, hne⟩
  rw [hpre.eq_append, hlead.ahead, hinside.ahead]
  simp

theorem Finds.group?_partOf (h : Finds p t found) (hs : found.group? (i + 1) = some s) :
    s.PartOf t ∧ (groupConsumes (i + 1) p = true → s.text ≠ []) := by
  obtain ⟨pre, lead, post, ht, -, hstart, hne⟩ := h.group?_behind hs
  exact ⟨⟨pre ++ lead, post, ht, hstart⟩, hne⟩

/-- A group that a pattern binds is there, so relying on it runs into no fault. -/
theorem Finds.exists_group (h : Finds p t found) (hp : binds (i + 1) p = true) :
    ∃ s, found.group? (i + 1) = some s ∧ found.group (i + 1) = .ok s := by
  obtain ⟨pre, here, stop, new, hpre, hmatch, rfl⟩ := h.exists_matches
  obtain ⟨ends, hends⟩ := hmatch.exists_group hp
  have hmem : (i + 1, Span.between ends.1 ends.2)
      ∈ (Found.between here stop new).groups := List.mem_map_of_mem hends
  cases hlookup : (Found.between here stop new).groups.lookup (i + 1) with
  | none =>
      have := List.lookup_eq_none_iff.mp hlookup _ hmem
      simp at this
  | some s =>
      refine ⟨s, by simp [Found.group?, hlookup], ?_⟩
      simp [Found.group, Found.group?, hlookup]

end

section

variable {p : Pattern} {t : Text} {i : Nat} {s : Span}

/-- What a group captures lies between two places of a match. -/
theorem exists_matches_of_mem_findGroups (h : s ∈ p.findGroups (i + 1) t) :
    ∃ pre here stop new, (Cursor.start t).Passes pre here ∧ Matches p here stop new ∧
      (Found.between here stop new).group? (i + 1) = some s := by
  obtain ⟨found, hfound, hs⟩ := List.mem_filterMap.mp h
  obtain ⟨pre, here, stop, new, hpre, hmatch, rfl⟩ := (finds_of_mem_findAll hfound).exists_matches
  exact ⟨pre, here, stop, new, hpre, hmatch, hs⟩

theorem partOf_of_mem_findSpans (h : s ∈ p.findSpans t) : s.PartOf t := by
  obtain ⟨found, hfound, rfl⟩ := List.mem_map.mp h
  exact (finds_of_mem_findAll hfound).whole_partOf

theorem ne_nil_of_mem_findSpans (hp : consumes p = true) (h : s ∈ p.findSpans t) :
    s.text ≠ [] := by
  obtain ⟨found, hfound, rfl⟩ := List.mem_map.mp h
  exact (finds_of_mem_findAll hfound).whole_ne_nil hp

theorem partOf_of_mem_findGroups (h : s ∈ p.findGroups (i + 1) t) : s.PartOf t := by
  obtain ⟨found, hfound, hs⟩ := List.mem_filterMap.mp h
  exact ((finds_of_mem_findAll hfound).group?_partOf hs).1

theorem ne_nil_of_mem_findGroups (hp : groupConsumes (i + 1) p = true)
    (h : s ∈ p.findGroups (i + 1) t) : s.text ≠ [] := by
  obtain ⟨found, hfound, hs⟩ := List.mem_filterMap.mp h
  exact ((finds_of_mem_findAll hfound).group?_partOf hs).2 hp

end

end Pattern

end SnippetLint
