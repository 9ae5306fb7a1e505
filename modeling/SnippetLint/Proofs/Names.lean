/-
Names that patterns capture.

A rule that asks whether a declared name is used elsewhere is exact if the name that its pattern
captures is a whole word of the text.  On the left that is so because blanks, or other characters
that are no word characters, stand before the name.  On the right there are two reasons: either the
name ends the pattern, and then it is as long as possible, or what follows in the pattern begins
with no word character.
-/
import SnippetLint.Proofs.Placement
import SnippetLint.Proofs.Words

namespace SnippetLint

open Pattern Unicode Words

/-! ### Word characters beside a place -/

/-- No word character stands before a place. -/
def Cursor.FreeBefore (here : Cursor) : Prop := here.before.any isWord = false

/-- No word character stands behind a place. -/
def Cursor.FreeAhead (here : Cursor) : Prop := here.ahead.head?.any isWord = false

namespace Cursor

variable {a b : Cursor} {s t pre : Text} {f : Char → Bool}

theorem Passes.freeBefore (h : a.Passes s b) (hne : s ≠ []) (hs : ∀ c ∈ s, isWord c = false) :
    b.FreeBefore := by
  rw [FreeBefore, h.before, List.getLast?_eq_some_getLast hne]
  exact hs _ (List.getLast_mem hne)

theorem Passes.freeAhead (h : a.Passes s b) (hs : ∀ c ∈ s, isWord c = false) (hb : b.FreeAhead) :
    a.FreeAhead := by
  rw [FreeAhead, h.ahead]
  cases s with
  | nil => exact hb
  | cons c rest => exact hs c List.mem_cons_self

theorem Passes.apart (ha : (start t).Passes pre a) (hb : a.Passes s b) (hbefore : a.FreeBefore)
    (hahead : b.FreeAhead) : Apart t (Span.between a b) := by
  rw [Span.between_eq hb]
  refine ⟨pre, b.ahead, ?_, ha.offset_start, ?_, hahead⟩
  · rw [ha.eq_append, hb.ahead, List.append_assoc]
  · rw [FreeBefore, ha.before] at hbefore
    simpa [start] using hbefore

theorem Passes.stands (ha : (start t).Passes pre a) (hb : a.Passes s b) (hne : s ≠ [])
    (hs : ∀ c ∈ s, isWord c = true) (hbefore : a.FreeBefore) (hahead : b.FreeAhead) :
    Stands t (Span.between a b) := by
  have hapart := ha.apart hb hbefore hahead
  rw [Span.between_eq hb] at hapart ⊢
  exact ⟨hne, hs, hapart⟩

end Cursor

theorem Words.Stands.isPlace {t : Text} {s : Span} (h : Stands t s) : t.IsPlace s.start := by
  obtain ⟨pre, post, ht, hstart, -⟩ := h.apart
  exact Span.PartOf.isPlace ⟨pre, post, ht, hstart⟩ h.ne_nil

namespace Pattern

variable {a b : Cursor} {new : Groups}

/-! ### Blanks and names -/

theorem Matches.exists_one_many {f g h : Char → Bool} (hf : ∀ c, f c = true → h c = true)
    (hg : ∀ c, g c = true → h c = true) (hm : Matches (both (one f) (many g)) a b new) :
    ∃ s, a.Passes s b ∧ s ≠ [] ∧ (∀ c ∈ s, h c = true) ∧ new = [] := by
  obtain ⟨m, first, later, ⟨c, rest, hahead, hc, rfl, rfl⟩, ⟨s, hs, hall, rfl⟩, rfl⟩ := hm
  refine ⟨[c] ++ s, (Cursor.passes_step hahead).trans hs, by simp, ?_, rfl⟩
  intro d hd
  rcases List.mem_append.mp hd with hd | hd
  · rw [List.mem_singleton.mp hd]
    exact hf c hc
  · exact hg d (hall d hd)

theorem Matches.exists_several {f : Char → Bool} (h : Matches (several f) a b new) :
    ∃ s, a.Passes s b ∧ s ≠ [] ∧ (∀ c ∈ s, f c = true) ∧ new = [] :=
  Matches.exists_one_many (fun _ hc => hc) (fun _ hc => hc) h

theorem matches_several {f : Char → Bool} {s : Text} (hs : a.Passes s b) (hne : s ≠ [])
    (hall : ∀ c ∈ s, f c = true) : Matches (several f) a b [] := by
  obtain ⟨c, rest, rfl⟩ := List.exists_cons_of_ne_nil hne
  exact ⟨_, [], [], ⟨c, _, hs.ahead, hall c List.mem_cons_self, rfl, rfl⟩,
    ⟨rest, hs.step hs.ahead, fun d hd => hall d (List.mem_cons_of_mem c hd), rfl⟩, rfl⟩

theorem matches_one {f : Char → Bool} {c : Char} (h : a.Passes [c] b) (hc : f c = true) :
    Matches (one f) a b [] :=
  ⟨c, b.ahead, h.ahead, hc, ((h.step h.ahead).eq_of_nil), rfl⟩

theorem matches_exactly {s : Text} (h : a.Passes s b) : Matches (exactly s) a b [] := by
  induction s generalizing a with
  | nil => exact ⟨h.eq_of_nil, rfl⟩
  | cons c rest ih =>
      have hone : Matches (one (· == c)) a (a.step c (rest ++ b.ahead)) [] :=
        matches_one (Cursor.passes_step h.ahead) (beq_self_eq_true c)
      have hrest := ih (h.step h.ahead)
      cases rest with
      | nil => exact (h.step h.ahead).eq_of_nil ▸ hone
      | cons d more => exact ⟨_, [], [], hone, hrest, rfl⟩

theorem Matches.followed {p q : Pattern} {m : Cursor} {first later : Groups}
    (hp : Matches p a m first) (hq : Matches q m b later) : Matches (p ++ q) a b (later ++ first) :=
  ⟨m, first, later, hp, hq, rfl⟩

theorem Matches.grouped {p : Pattern} (index : Nat) (h : Matches p a b new) :
    Matches (group index p) a b ((index, a, b) :: new) := ⟨new, h, rfl⟩

theorem Matches.freeBefore_of_several {f : Char → Bool} (hf : ∀ c, f c = true → isWord c = false)
    (h : Matches (several f) a b new) : b.FreeBefore := by
  obtain ⟨s, hs, hne, hall, -⟩ := h.exists_several
  exact hs.freeBefore hne fun c hc => hf c (hall c hc)

theorem Matches.freeAhead_of_several {f : Char → Bool} (hf : ∀ c, f c = true → isWord c = false)
    (h : Matches (several f) a b new) : a.FreeAhead := by
  obtain ⟨s, hs, hne, hall, -⟩ := h.exists_several
  obtain ⟨c, rest, rfl⟩ := List.exists_cons_of_ne_nil hne
  rw [Cursor.FreeAhead, hs.ahead]
  exact hf c (hall c List.mem_cons_self)

theorem freeBefore_of_gap (h : Matches gap a b new) : b.FreeBefore :=
  h.freeBefore_of_several fun _ hc => isWord_eq_false_of_isBlank hc

theorem Matches.freeAhead_of_blanks (h : Matches blanks a b new) (hb : b.FreeAhead) :
    a.FreeAhead := by
  obtain ⟨s, hs, hall, -⟩ := h
  exact hs.freeAhead (fun c hc => isWord_eq_false_of_isBlank (hall c hc)) hb

theorem isWord_eq_false_of_spaceOrTab {c : Char} (h : spaceOrTab c = true) : isWord c = false := by
  rcases Bool.or_eq_true_iff.mp h with h | h <;> rw [beq_iff_eq.mp h] <;> rfl

theorem Matches.freeAhead_of_lineEnd (h : Matches lineEnd a b new) : a.FreeAhead := by
  obtain ⟨hend, -⟩ := h
  refine any_isWord_eq_false fun c hc => ?_
  rw [hend c hc]
  rfl

/-- Marks none of which begins with a word character. -/
theorem freeAhead_of_oneOf {marks : List String}
    (hmarks : ∀ mark ∈ marks, mark.toList.head?.any (fun c => !isWord c) = true)
    (h : Matches (oneOf marks) a b new) : a.FreeAhead ∧ new = [] := by
  obtain ⟨mark, hmem, hpass, rfl⟩ := h.exists_oneOf
  have hmark := hmarks mark hmem
  refine ⟨?_, rfl⟩
  rw [Cursor.FreeAhead, hpass.ahead]
  cases hchars : mark.toList with
  | nil => simp [hchars] at hmark
  | cons c rest => simpa [hchars] using hmark

theorem isWord_of_nameStart {c : Char} (h : (latin c || c == '_') = true) : isWord c = true := by
  rcases Bool.or_eq_true_iff.mp h with h | h
  · exact isWord_of_latin h
  · rw [beq_iff_eq.mp h]
    rfl

theorem Matches.exists_name (h : Matches name a b new) :
    ∃ s, a.Passes s b ∧ s ≠ [] ∧ (∀ c ∈ s, isWord c = true) ∧ new = [] :=
  Matches.exists_one_many (fun _ hc => isWord_of_nameStart hc) (fun _ hc => hc) h

/-! ### Captured names -/

theorem freeAhead_of_takeWhile {ahead : Text} {here next : Cursor}
    (hpass : here.Passes (ahead.takeWhile isWord) next) (hahead : here.ahead = ahead) :
    next.FreeAhead := by
  have hrest : next.ahead = ahead.dropWhile isWord := by
    have hsplit : ahead.takeWhile isWord ++ next.ahead =
        ahead.takeWhile isWord ++ ahead.dropWhile isWord := by
      rw [← hpass.ahead, hahead, List.takeWhile_append_dropWhile]
    exact List.append_cancel_left hsplit
  rw [Cursor.FreeAhead, hrest]
  exact head?_dropWhile_isWord ahead

/-- A name that is followed by nothing that could fail is as long as possible. -/
theorem exists_of_run_name {α : Type} {r : α} {here : Cursor} {groups : Groups}
    {k : Cursor → Groups → Option α} (hk : ∀ next groups, (k next groups).isSome = true)
    (h : run name here groups k = some r) :
    ∃ s next, here.Passes s next ∧ s ≠ [] ∧ (∀ c ∈ s, isWord c = true) ∧ next.FreeAhead ∧
      k next groups = some r := by
  rw [name, run, run] at h
  split at h
  · simp at h
  · rename_i c rest hahead
    split at h
    · rename_i hc
      obtain ⟨next, hpass, heq⟩ := passMany_of_total (f := word) (hk · groups) (some c)
        (here.offset + c.utf8Size) rest
      refine ⟨c :: rest.takeWhile word, next, ?_, List.cons_ne_nil _ _, ?_, ?_, ?_⟩
      · exact (Cursor.passes_step hahead).trans hpass
      · intro d hd
        rcases List.mem_cons.mp hd with rfl | hd
        · exact isWord_of_nameStart hc
        · exact List.all_eq_true.mp List.all_takeWhile d hd
      · exact freeAhead_of_takeWhile hpass rfl
      · rw [← heq]
        exact h
    · simp at h

section

variable {q r : Pattern} {t : Text} {s : Span}

/-- A name behind blanks, at the end of a pattern. -/
theorem stands_of_last (h : s ∈ (q ++ gap ++ group 1 name).findGroups 1 t) : Stands t s := by
  obtain ⟨found, hfound, hs⟩ := List.mem_filterMap.mp h
  obtain ⟨pre, here, hpre, hm⟩ := finds_of_mem_findAll hfound
  have hrun : run (q ++ gap) here [] (fun next groups =>
      run name next groups fun stop groups =>
        some (Found.between here stop ((1, next, stop) :: groups))) = some found := hm
  obtain ⟨a, lead, ⟨y, _, _, hq, hgap, rfl⟩, hrun⟩ := exists_matches_of_run hrun
  obtain ⟨w, b, hw, hne, hall, hfree, hfound⟩ := exists_of_run_name (fun _ _ => rfl) hrun
  obtain rfl := Option.some.inj hfound
  obtain rfl : Span.between a b = s := Option.some.inj hs
  obtain ⟨u, hu⟩ := hq.passes
  obtain ⟨v, hv⟩ := hgap.passes
  exact ((hpre.trans hu).trans hv).stands hw hne hall (freeBefore_of_gap hgap) hfree

/-- A name behind blanks, before blanks and what begins with no word character. -/
theorem stands_of_closed
    (hr : ∀ {a b new}, Matches r a b new → a.FreeAhead ∧ new = [])
    (h : s ∈ (q ++ gap ++ group 1 name ++ blanks ++ r).findGroups 1 t) : Stands t s := by
  obtain ⟨pre, here, stop, _, hpre, ⟨d, _, _, ⟨b, _, _, ⟨a, _, _, ⟨y, _, _, hq, hgap, rfl⟩,
    ⟨inner, hname, rfl⟩, rfl⟩, hblanks, rfl⟩, hclose, rfl⟩, hs⟩ := exists_matches_of_mem_findGroups h
  obtain ⟨w, hw, hne, hall, rfl⟩ := hname.exists_name
  obtain ⟨hfree, rfl⟩ := hr hclose
  have hahead := hblanks.freeAhead_of_blanks hfree
  obtain ⟨_, _, _, rfl⟩ := hblanks
  obtain rfl : Span.between a b = s := Option.some.inj hs
  obtain ⟨u, hu⟩ := hq.passes
  obtain ⟨v, hv⟩ := hgap.passes
  exact ((hpre.trans hu).trans hv).stands hw hne hall (freeBefore_of_gap hgap) hahead

end

end Pattern

/-! ### Rules about unused names -/

/-- A check finishes, and what it reports are the declarations whose name occurs in the text as a
word only once: these declarations, in order, and no others. -/
def Check.ReportsUnused {α : Type} (check : Check) (declared : Text → List α) (name : α → Text)
    (report : Text → α → Checked Finding) : Prop :=
  ∀ t, ∃ findings, check t = .ok findings ∧
    ((declared t).filter fun d => occursOnce t (name d)).mapM (report t) = .ok findings

theorem reportsUnused_of_eq {α : Type} {check : Check} {declared : Text → List α}
    {name : α → Text} {report : Text → α → Checked Finding} (hsound : Check.Sound check)
    (h : ∀ t, check t = ((declared t).filter fun d => occursOnce t (name d)).mapM (report t)) :
    Check.ReportsUnused check declared name report := by
  intro t
  obtain ⟨findings, hok, -⟩ := hsound t
  exact ⟨findings, hok, (h t).symm.trans hok⟩

/-- Where captured names are words of the text, reporting those that are used nowhere else is
exact. -/
theorem reportsUnused_groups {p : Pattern} {message : Span → String}
    (hp : groupConsumes 1 p = true) (hstands : ∀ t, ∀ s ∈ p.findGroups 1 t, Stands t s) :
    Check.ReportsUnused
      (fun t => Finding.atSpans t ((p.findGroups 1 t).filter fun s => !isUsed t s) message)
      (p.findGroups 1) Span.text fun t s => Finding.atOffset t s.start (message s) := by
  refine reportsUnused_of_eq (filterGroups_sound hp fun t s => !isUsed t s) fun t => ?_
  have hfilter : (p.findGroups 1 t).filter (fun s => !isUsed t s) =
      (p.findGroups 1 t).filter fun s => occursOnce t s.text :=
    List.filter_congr fun s hs => by rw [isUsed_eq (hstands t s hs), Bool.not_not]
  rw [hfilter]
  rfl

end SnippetLint
