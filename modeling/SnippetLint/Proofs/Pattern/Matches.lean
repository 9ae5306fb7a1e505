/-
What a match is, apart from the order in which matches are tried.

`Pattern.run` hands each way to match to a continuation and stops at the first that it accepts.
`Matches p a b new` says only that `p` can lead from the place `a` to the place `b`, remembering the
groups `new` on the way.  `exists_matches_of_run` is the link: whatever a run accepts, some match led
there, and the continuation was what accepted it.  Keeping the continuation in the statement is what
lets a proof stop in the middle of a pattern and look at how the rest was matched.

Two places of one text are related by the characters between them, `Cursor.Passes`; every match
passes some (`Matches.passes`).
-/
import SnippetLint.Pattern.Match
import SnippetLint.Proofs.Text.Offset

namespace SnippetLint

/-! ### From one place to another -/

/-- The second place is reached from the first by passing some characters. -/
structure Cursor.Passes (a : Cursor) (passed : Text) (b : Cursor) : Prop where
  ahead : a.ahead = passed ++ b.ahead
  offset : b.offset = a.offset + Text.size passed
  before : b.before = passed.getLast?.or a.before

namespace Cursor

theorem Passes.refl (a : Cursor) : a.Passes [] a := ⟨rfl, rfl, rfl⟩

theorem Passes.trans {a b c : Cursor} {s t : Text} (h : a.Passes s b) (h' : b.Passes t c) :
    a.Passes (s ++ t) c where
  ahead := by rw [h.ahead, h'.ahead, List.append_assoc]
  offset := by rw [h'.offset, h.offset, Text.size_append, Nat.add_assoc]
  before := by rw [h'.before, h.before, List.getLast?_append, Option.or_assoc]

theorem passes_step {a : Cursor} {c : Char} {rest : Text} (h : a.ahead = c :: rest) :
    a.Passes [c] (a.step c rest) :=
  ⟨h, by simp [step], rfl⟩

theorem Passes.cons {before : Option Char} {offset : Nat} {c : Char} {rest s : Text} {b : Cursor}
    (h : Passes ⟨some c, offset + c.utf8Size, rest⟩ s b) :
    Passes ⟨before, offset, c :: rest⟩ (c :: s) b :=
  (passes_step (a := ⟨before, offset, c :: rest⟩) rfl).trans h

theorem Passes.eq_append {t pre : Text} {a : Cursor} (h : (start t).Passes pre a) :
    t = pre ++ a.ahead := h.ahead

theorem Passes.offset_start {t pre : Text} {a : Cursor} (h : (start t).Passes pre a) :
    a.offset = Text.size pre := by
  rw [h.offset]
  exact Nat.zero_add _

end Cursor

namespace Pattern

/-! ### The relation -/

/-- Rounds of a match, each of which takes up text. -/
inductive Rounds (round : Cursor → Cursor → Groups → Prop) : Cursor → Cursor → Groups → Prop
  | done (a : Cursor) : Rounds round a a []
  | more {a m b : Cursor} {first later : Groups} (hround : round a m first)
      (hlt : a.offset < m.offset) (hmore : Rounds round m b later) :
      Rounds round a b (later ++ first)

/-- A pattern can lead from one place to another, remembering some groups, the latest first. -/
def Matches : Pattern → Cursor → Cursor → Groups → Prop
  | nothing, a, b, new => b = a ∧ new = []
  | one f, a, b, new => ∃ c rest, a.ahead = c :: rest ∧ f c = true ∧ b = a.step c rest ∧ new = []
  | many f, a, b, new => ∃ s, a.Passes s b ∧ (∀ c ∈ s, f c = true) ∧ new = []
  | few f, a, b, new => ∃ s, a.Passes s b ∧ (∀ c ∈ s, f c = true) ∧ new = []
  | wordEdge, a, b, new => a.atWordEdge = true ∧ b = a ∧ new = []
  | textStart, a, b, new => a.before = none ∧ b = a ∧ new = []
  | textEnd, a, b, new => a.ahead = [] ∧ b = a ∧ new = []
  | lineStart, a, b, new => (∀ c, a.before = some c → c = '\n') ∧ b = a ∧ new = []
  | lineEnd, a, b, new => (∀ c, a.ahead.head? = some c → c = '\n') ∧ b = a ∧ new = []
  | both p q, a, b, new =>
    ∃ m first later, Matches p a m first ∧ Matches q m b later ∧ new = later ++ first
  | either p q, a, b, new => Matches p a b new ∨ Matches q a b new
  | repeated p, a, b, new => Rounds (Matches p) a b new
  | group index p, a, b, new => ∃ inner, Matches p a b inner ∧ new = (index, a, b) :: inner

/-! ### Runs find matches -/

section

variable {α : Type} {r : α}

theorem exists_passes_of_passMany {f : Char → Bool} {k : Cursor → Option α} {before : Option Char}
    {offset : Nat} {ahead : Text} (h : passMany f k before offset ahead = some r) :
    ∃ s b, Cursor.Passes ⟨before, offset, ahead⟩ s b ∧ (∀ c ∈ s, f c = true) ∧ k b = some r := by
  induction ahead generalizing before offset with
  | nil => exact ⟨[], _, .refl _, by simp, h⟩
  | cons c rest ih =>
      unfold passMany at h
      by_cases hc : f c = true
      · rw [if_pos hc] at h
        split at h
        · rename_i found hfound
          obtain ⟨s, b, hpass, hall, hk⟩ := ih (hfound.trans h)
          exact ⟨c :: s, b, hpass.cons, by simpa [hc] using hall, hk⟩
        · exact ⟨[], _, .refl _, by simp, h⟩
      · rw [if_neg hc] at h
        exact ⟨[], _, .refl _, by simp, h⟩

theorem exists_passes_of_passFew {f : Char → Bool} {k : Cursor → Option α} {before : Option Char}
    {offset : Nat} {ahead : Text} (h : passFew f k before offset ahead = some r) :
    ∃ s b, Cursor.Passes ⟨before, offset, ahead⟩ s b ∧ (∀ c ∈ s, f c = true) ∧ k b = some r := by
  induction ahead generalizing before offset with
  | nil => exact ⟨[], _, .refl _, by simp, h⟩
  | cons c rest ih =>
      unfold passFew at h
      split at h
      · rename_i found hfound
        exact ⟨[], _, .refl _, by simp, hfound.trans h⟩
      · split at h
        · rename_i hc
          obtain ⟨s, b, hpass, hall, hk⟩ := ih h
          exact ⟨c :: s, b, hpass.cons, by simpa [hc] using hall, hk⟩
        · simp at h

theorem exists_rounds_of_rounds {step : Cursor → Groups → (Cursor → Groups → Option α) → Option α}
    {round : Cursor → Cursor → Groups → Prop}
    (hstep : ∀ {here groups k r}, step here groups k = some r →
      ∃ next new, round here next new ∧ k next (new ++ groups) = some r)
    {k : Cursor → Groups → Option α} {limit : Nat} {here : Cursor} {groups : Groups}
    (h : rounds step k limit here groups = some r) :
    ∃ next new, Rounds round here next new ∧ k next (new ++ groups) = some r := by
  induction limit generalizing here groups with
  | zero => exact ⟨here, [], .done here, h⟩
  | succ limit ih =>
      unfold rounds at h
      split at h
      · rename_i found hfound
        obtain ⟨m, first, hround, hk⟩ := hstep (hfound.trans h)
        split at hk
        · rename_i hlt
          obtain ⟨next, later, hmore, hk⟩ := ih hk
          exact ⟨next, later ++ first, .more hround hlt hmore,
            by rw [List.append_assoc, hk]⟩
        · simp at hk
      · exact ⟨here, [], .done here, h⟩

/-- **Whatever a run accepts, a match led there.** -/
theorem exists_matches_of_run {p : Pattern} {here : Cursor} {groups : Groups}
    {k : Cursor → Groups → Option α} (h : run p here groups k = some r) :
    ∃ next new, Matches p here next new ∧ k next (new ++ groups) = some r := by
  induction p generalizing here groups k r with
  | nothing => exact ⟨here, [], ⟨rfl, rfl⟩, h⟩
  | one f =>
      unfold run at h
      split at h
      · simp at h
      · rename_i c rest hahead
        split at h
        · rename_i hc
          exact ⟨_, [], ⟨c, rest, hahead, hc, rfl, rfl⟩, h⟩
        · simp at h
  | many f =>
      obtain ⟨s, b, hpass, hall, hk⟩ := exists_passes_of_passMany h
      exact ⟨b, [], ⟨s, hpass, hall, rfl⟩, hk⟩
  | few f =>
      obtain ⟨s, b, hpass, hall, hk⟩ := exists_passes_of_passFew h
      exact ⟨b, [], ⟨s, hpass, hall, rfl⟩, hk⟩
  | wordEdge =>
      obtain ⟨hedge, hk⟩ := Option.ite_none_right_eq_some.mp h
      exact ⟨here, [], ⟨hedge, rfl, rfl⟩, hk⟩
  | textStart =>
      obtain ⟨hnone, hk⟩ := Option.ite_none_right_eq_some.mp h
      exact ⟨here, [], ⟨by simpa using hnone, rfl, rfl⟩, hk⟩
  | textEnd =>
      obtain ⟨hempty, hk⟩ := Option.ite_none_right_eq_some.mp h
      exact ⟨here, [], ⟨by simpa using hempty, rfl, rfl⟩, hk⟩
  | lineStart =>
      obtain ⟨hstart, hk⟩ := Option.ite_none_right_eq_some.mp h
      refine ⟨here, [], ⟨fun c hc => ?_, rfl, rfl⟩, hk⟩
      simpa [hc] using hstart
  | lineEnd =>
      obtain ⟨hend, hk⟩ := Option.ite_none_right_eq_some.mp h
      refine ⟨here, [], ⟨fun c hc => ?_, rfl, rfl⟩, hk⟩
      simpa [hc] using hend
  | both p q ihp ihq =>
      obtain ⟨m, first, hp, hrest⟩ := ihp h
      obtain ⟨next, later, hq, hk⟩ := ihq hrest
      exact ⟨next, later ++ first, ⟨m, first, later, hp, hq, rfl⟩,
        by rw [List.append_assoc, hk]⟩
  | either p q ihp ihq =>
      unfold run at h
      split at h
      · rename_i found hfound
        obtain ⟨next, new, hp, hk⟩ := ihp (hfound.trans h)
        exact ⟨next, new, .inl hp, hk⟩
      · obtain ⟨next, new, hq, hk⟩ := ihq h
        exact ⟨next, new, .inr hq, hk⟩
  | repeated p ih => exact exists_rounds_of_rounds (fun h => ih h) h
  | group index p ih =>
      obtain ⟨next, inner, hp, hk⟩ := ih h
      exact ⟨next, (index, here, next) :: inner, ⟨inner, hp, rfl⟩, hk⟩

end

/-! ### Every match passes some characters -/

theorem Rounds.passes {round : Cursor → Cursor → Groups → Prop}
    (hround : ∀ {a b new}, round a b new → ∃ s, a.Passes s b) {a b : Cursor} {new : Groups}
    (h : Rounds round a b new) : ∃ s, a.Passes s b := by
  induction h with
  | done a => exact ⟨[], .refl a⟩
  | more hfirst _ _ ih =>
      obtain ⟨s, hs⟩ := hround hfirst
      obtain ⟨t, ht⟩ := ih
      exact ⟨s ++ t, hs.trans ht⟩

theorem Matches.passes {p : Pattern} {a b : Cursor} {new : Groups} (h : Matches p a b new) :
    ∃ s, a.Passes s b := by
  induction p generalizing a b new with
  | one f =>
      obtain ⟨c, rest, hahead, -, rfl, -⟩ := h
      exact ⟨[c], Cursor.passes_step hahead⟩
  | many f | few f =>
      obtain ⟨s, hpass, -⟩ := h
      exact ⟨s, hpass⟩
  | nothing =>
      obtain ⟨rfl, -⟩ := h
      exact ⟨[], .refl _⟩
  | wordEdge | textStart | textEnd | lineStart | lineEnd =>
      obtain ⟨-, rfl, -⟩ := h
      exact ⟨[], .refl _⟩
  | both p q ihp ihq =>
      obtain ⟨m, first, later, hp, hq, -⟩ := h
      obtain ⟨s, hs⟩ := ihp hp
      obtain ⟨t, ht⟩ := ihq hq
      exact ⟨s ++ t, hs.trans ht⟩
  | either p q ihp ihq => exact h.elim ihp ihq
  | repeated p ih => exact Rounds.passes (fun h => ih h) h
  | group index p ih =>
      obtain ⟨inner, hp, -⟩ := h
      exact ih hp

/-! ### Fixed texts -/

theorem Matches.passes_exactly {s : Text} {a b : Cursor} {new : Groups}
    (h : Matches (exactly s) a b new) : a.Passes s b ∧ new = [] := by
  induction s generalizing a new with
  | nil =>
      obtain ⟨rfl, rfl⟩ := h
      exact ⟨.refl _, rfl⟩
  | cons c rest ih =>
      have hfirst : ∀ {m new}, Matches (one (· == c)) a m new → a.Passes [c] m ∧ new = [] := by
        rintro m new ⟨d, more, hahead, hd, rfl, rfl⟩
        rw [← beq_iff_eq.mp hd]
        exact ⟨Cursor.passes_step hahead, rfl⟩
      cases rest with
      | nil => exact hfirst h
      | cons d more =>
          obtain ⟨m, first, later, hone, hrest, rfl⟩ := h
          obtain ⟨hpass, rfl⟩ := hfirst hone
          obtain ⟨hpass', rfl⟩ := ih hrest
          exact ⟨hpass.trans hpass', rfl⟩

theorem Matches.exists_oneOf {marks : List String} {a b : Cursor} {new : Groups}
    (h : Matches (oneOf marks) a b new) :
    ∃ mark ∈ marks, a.Passes mark.toList b ∧ new = [] := by
  induction marks with
  | nil =>
      obtain ⟨c, rest, -, hc, -⟩ := h
      simp at hc
  | cons mark more ih =>
      cases more with
      | nil => exact ⟨mark, List.mem_cons_self, h.passes_exactly⟩
      | cons next rest =>
          rcases h with h | h
          · exact ⟨mark, List.mem_cons_self, h.passes_exactly⟩
          · obtain ⟨other, hmem, hpass⟩ := ih h
            exact ⟨other, List.mem_cons_of_mem _ hmem, hpass⟩

end Pattern

end SnippetLint
