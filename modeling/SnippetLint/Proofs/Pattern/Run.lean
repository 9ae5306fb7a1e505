/-
What a run computes, for patterns that leave it no choice.

The relation `Matches` forgets which of several matches is preferred and cannot say that there is
none.  Both are needed where a pattern is to find exactly what it looks for: a fixed text matches in
one way or not at all, and characters of a class are all passed where what follows accepts any
place.
-/
import SnippetLint.Proofs.Pattern.Extent

namespace SnippetLint

namespace Cursor

theorem Passes.eq_of_nil {a b : Cursor} (h : a.Passes [] b) : b = a := by
  obtain ⟨hahead, hoffset, hbefore⟩ := h
  cases a
  cases b
  simp_all

theorem exists_passes {a : Cursor} {s rest : Text} (h : a.ahead = s ++ rest) :
    ∃ b, a.Passes s b ∧ b.ahead = rest :=
  ⟨⟨s.getLast?.or a.before, a.offset + Text.size s, rest⟩, ⟨h, rfl, rfl⟩, rfl⟩

theorem Passes.unique {a b b' : Cursor} {s : Text} (h : a.Passes s b) (h' : a.Passes s b') :
    b = b' := by
  have hahead : b.ahead = b'.ahead := List.append_cancel_left (h.ahead.symm.trans h'.ahead)
  have hoffset : b.offset = b'.offset := h.offset.trans h'.offset.symm
  have hbefore : b.before = b'.before := h.before.trans h'.before.symm
  cases b
  cases b'
  simp_all

/-- There is a place between the parts of what is passed. -/
theorem Passes.exists_between {a b : Cursor} {s t : Text} (h : a.Passes (s ++ t) b) :
    ∃ c, a.Passes s c ∧ c.Passes t b := by
  obtain ⟨c, hc, hahead⟩ := exists_passes (h.ahead.trans (List.append_assoc s t b.ahead))
  obtain ⟨d, hd, -⟩ := exists_passes hahead
  obtain rfl := h.unique (hc.trans hd)
  exact ⟨c, hc, hd⟩

/-- What does not reach beyond a place does not reach beyond a later one. -/
theorem Passes.any_lt {a b : Cursor} {s : Text} {last : Option Nat} (h : a.Passes s b)
    (hlast : last.any (a.offset < ·) = false) : last.any (b.offset < ·) = false := by
  cases last with
  | none => rfl
  | some stop =>
      have hle : stop ≤ a.offset := by simpa using hlast
      have hge : a.offset ≤ b.offset := h.offset ▸ Nat.le_add_right _ _
      simpa using Nat.le_trans hle hge

theorem Passes.step {a b : Cursor} {c : Char} {rest s : Text} (h : a.Passes (c :: s) b)
    (hahead : a.ahead = c :: rest) : (a.step c rest).Passes s b where
  ahead := by
    rw [h.ahead] at hahead
    exact (List.cons.inj hahead).2.symm
  offset := by rw [h.offset, Cursor.step, Text.size_cons, Nat.add_assoc]
  before := by
    rw [h.before, List.getLast?_cons, Cursor.step]
    cases s.getLast? <;> rfl

end Cursor

namespace Pattern

section

variable {α : Type} {here next : Cursor} {groups : Groups} {k : Cursor → Groups → Option α}

/-! ### Fixed texts -/

theorem run_exactly_cons (c : Char) (s : Text) :
    run (exactly (c :: s)) here groups k =
      run (one (· == c)) here groups fun next groups => run (exactly s) next groups k := by
  cases s <;> rfl

theorem run_exactly {s : Text} (h : here.Passes s next) :
    run (exactly s) here groups k = k next groups := by
  induction s generalizing here with
  | nil =>
      rw [h.eq_of_nil]
      rfl
  | cons c rest ih =>
      rw [run_exactly_cons, run, h.ahead]
      simp only [List.cons_append, beq_self_eq_true, if_true]
      exact ih (h.step h.ahead)

theorem run_exactly_eq_none {s : Text} (h : ¬ s <+: here.ahead) :
    run (exactly s) here groups k = none := by
  induction s generalizing here with
  | nil => exact absurd List.nil_prefix h
  | cons c rest ih =>
      rw [run_exactly_cons, run]
      split
      · rfl
      · rename_i d more hahead
        split
        · rename_i hd
          refine ih fun hbegins => h ?_
          rw [hahead, beq_iff_eq.mp hd]
          exact List.cons_prefix_cons.mpr ⟨rfl, hbegins⟩
        · rfl

end

/-! ### Characters of a class -/

/-- All characters of the class are passed, if the place behind them is accepted. -/
theorem passMany_of_isSome {α : Type} {f : Char → Bool} {k : Cursor → Option α}
    (before : Option Char) (offset : Nat) (ahead : Text) :
    ∃ next, Cursor.Passes ⟨before, offset, ahead⟩ (ahead.takeWhile f) next ∧
      ((k next).isSome = true → passMany f k before offset ahead = k next) := by
  induction ahead generalizing before offset with
  | nil => exact ⟨_, .refl _, fun _ => rfl⟩
  | cons c rest ih =>
      unfold passMany
      by_cases hc : f c = true
      · obtain ⟨next, hpass, heq⟩ := ih (some c) (offset + c.utf8Size)
        refine ⟨next, ?_, fun hk => ?_⟩
        · rw [List.takeWhile_cons_of_pos hc]
          exact hpass.cons
        · obtain ⟨found, hfound⟩ := Option.isSome_iff_exists.mp hk
          rw [if_pos hc, heq hk, hfound]
      · refine ⟨_, ?_, fun _ => if_neg hc⟩
        rw [List.takeWhile_cons_of_neg hc]
        exact .refl _

/-- Where any place is accepted, all characters of the class are passed. -/
theorem passMany_of_total {α : Type} {f : Char → Bool} {k : Cursor → Option α}
    (hk : ∀ here, (k here).isSome = true) (before : Option Char) (offset : Nat) (ahead : Text) :
    ∃ next, Cursor.Passes ⟨before, offset, ahead⟩ (ahead.takeWhile f) next ∧
      passMany f k before offset ahead = k next := by
  obtain ⟨next, hpass, heq⟩ := passMany_of_isSome before offset ahead
  exact ⟨next, hpass, heq (hk next)⟩

section

variable {α : Type} {f : Char → Bool} {a b : Cursor} {g : Groups} {k : Cursor → Groups → Option α}
  {c : Char} {rest : Text}

theorem run_one (hc : f c = true) (hpass : a.Passes [c] b) : run (one f) a g k = k b g := by
  have hahead : a.ahead = c :: b.ahead := hpass.ahead
  have hnext : b = a.step c b.ahead := (hpass.step hahead).eq_of_nil
  rw [run, hahead]
  exact (if_pos hc).trans (by rw [← hnext])

theorem run_one_eq_none (h : a.ahead.head?.any f = false) : run (one f) a g k = none := by
  rw [run]
  cases hahead : a.ahead with
  | nil => rfl
  | cons c rest =>
      rw [hahead, List.head?_cons, Option.any_some] at h
      exact if_neg (by simp [h])

/-- At least one character of a class is needed. -/
theorem run_several_eq_none (h : a.ahead.head?.any f = false) : run (several f) a g k = none := by
  rw [several, run, run_one_eq_none h]

theorem run_many_nil (h : a.ahead = []) :
    run (many f) a g k = k a g := by
  rw [run, h, passMany, ← h]

theorem run_many_cons (h : a.ahead = c :: rest) : run (many f) a g k =
      if f c then
        match run (many f) (a.step c rest) g k with
        | some result => some result
        | none => k a g
      else k a g := by
  rw [run, h, passMany, ← h]
  rfl

/-- Where their end is accepted, all of several characters of the class are passed. -/
theorem run_many {s : Text} (hs : ∀ c ∈ s, f c = true) (hpass : a.Passes s b)
    (hstop : b.ahead.head?.any f = false) (hk : (k b g).isSome = true) :
    run (many f) a g k = k b g := by
  have htake : a.ahead.takeWhile f = s := by
    rw [hpass.ahead, List.takeWhile_append_of_pos hs]
    cases hahead : b.ahead with
    | nil => simp
    | cons c rest =>
        rw [hahead, List.head?_cons, Option.any_some] at hstop
        simp [hstop]
  obtain ⟨next, hnext, heq⟩ := passMany_of_isSome (k := (k · g)) a.before a.offset a.ahead
  rw [htake] at hnext
  obtain rfl := hpass.unique hnext
  exact heq hk

end

/-! ### Scans -/

section

variable {p : Pattern} {a : Cursor} {c : Char} {rest : Text}

/-- A match of a pattern that takes up text stops behind the place at which it begins. -/
theorem lt_stop_of_matchAt (hp : p.consumes = true) {m : Found} (h : matchAt p a = some m) :
    m.whole.start = a.offset ∧ m.whole.text ≠ [] ∧ a.offset < m.whole.stop := by
  obtain ⟨stop, new, hmatch, rfl⟩ := exists_matches_of_matchAt h
  obtain ⟨s, hs, hne⟩ := hmatch.ne_nil hp
  have hbetween : (Found.between a stop new).whole = ⟨a.offset, s⟩ := Span.between_eq hs
  rw [hbetween]
  exact ⟨rfl, hne, Nat.lt_add_of_pos_right (Text.size_pos_of_ne_nil hne)⟩

theorem scan_nil (hp : p.consumes = true) (h : a.ahead = []) (last : Option Nat) :
    scan p a.before a.offset a.ahead last = [] := by
  have hnone : matchAt p a = none := by
    refine matchAt_eq_none fun stop new hmatch => ?_
    obtain ⟨s, hs, hne⟩ := hmatch.ne_nil hp
    exact absurd (List.append_eq_nil_iff.mp (hs.ahead.symm.trans h)).1 hne
  rw [h, scan, ← h, hnone, ite_self]

theorem scan_skip (h : a.ahead = c :: rest) {last : Option Nat}
    (hlast : last.any (a.offset < ·) = true) : scan p a.before a.offset a.ahead last =
      scan p (a.step c rest).before (a.step c rest).offset (a.step c rest).ahead last := by
  rw [h, scan, if_pos hlast]
  rfl

theorem scan_none (h : a.ahead = c :: rest) (hm : matchAt p a = none) (last : Option Nat) :
    scan p a.before a.offset a.ahead last =
      scan p (a.step c rest).before (a.step c rest).offset (a.step c rest).ahead last := by
  rw [h, scan, ← h, hm, ite_self]
  rfl

theorem scan_some (hp : p.consumes = true) (h : a.ahead = c :: rest) {last : Option Nat}
    (hlast : ¬ last.any (a.offset < ·) = true) {m : Found} (hm : matchAt p a = some m) :
    scan p a.before a.offset a.ahead last = m :: scan p (a.step c rest).before
      (a.step c rest).offset (a.step c rest).ahead (some m.whole.stop) := by
  obtain ⟨hstart, hne, -⟩ := lt_stop_of_matchAt hp hm
  have hcounts : counts last m = true := by
    cases last with
    | none => rfl
    | some stop =>
        have hle : stop ≤ a.offset := by simpa using hlast
        rcases Nat.lt_or_eq_of_le hle with hlt | heq
        · simp [counts, hstart, hlt]
        · simp [counts, hstart, heq, hne]
  rw [h, scan, if_neg hlast, ← h, hm]
  dsimp only
  rw [if_pos hcounts]
  rfl

end

section

variable {p : Pattern} {a b : Cursor} {w : Text} {last : Option Nat}

/-- A scan passes what the last match has taken up. -/
theorem scan_of_last (hpass : a.Passes w b) :
    scan p a.before a.offset a.ahead (some b.offset) =
      scan p b.before b.offset b.ahead (some b.offset) := by
  induction w generalizing a with
  | nil => rw [hpass.eq_of_nil]
  | cons c rest ih =>
      have hlt : a.offset < b.offset := by
        have hpos := Text.size_pos_of_ne_nil (List.cons_ne_nil c rest)
        rw [hpass.offset]
        omega
      rw [scan_skip hpass.ahead (by simpa using hlt)]
      exact ih (hpass.step hpass.ahead)

/-- A scan goes on where a match has stopped. -/
theorem scan_of_some (hp : p.consumes = true) (hpass : a.Passes w b) {m : Found}
    (hm : matchAt p a = some m) (hstop : m.whole.stop = b.offset)
    (hlast : last.any (a.offset < ·) = false) : scan p a.before a.offset a.ahead last =
      m :: scan p b.before b.offset b.ahead (some b.offset) := by
  obtain ⟨-, -, hlt⟩ := lt_stop_of_matchAt hp hm
  cases w with
  | nil =>
      rw [hstop, hpass.eq_of_nil] at hlt
      exact absurd hlt (Nat.lt_irrefl _)
  | cons c rest =>
      rw [scan_some hp hpass.ahead (Bool.eq_false_iff.mp hlast) hm, hstop,
        scan_of_last (hpass.step hpass.ahead)]

/-- A scan passes a part of a text where nothing begins. -/
theorem scan_of_none (hpass : a.Passes w b)
    (h : ∀ {u v here}, w = u ++ v → v ≠ [] → a.Passes u here → here.Passes v b →
      matchAt p here = none) :
    scan p a.before a.offset a.ahead last = scan p b.before b.offset b.ahead last := by
  induction w generalizing a with
  | nil => rw [hpass.eq_of_nil]
  | cons c rest ih =>
      have hstep := Cursor.passes_step hpass.ahead
      rw [scan_none hpass.ahead (h (List.nil_append _).symm (List.cons_ne_nil c rest) (.refl a) hpass)]
      refine ih (hpass.step hpass.ahead) fun hw hv hu => h (congrArg (c :: ·) hw) hv (hstep.trans hu)

end

/-- Where nothing begins in a part of a text, whatever stands before it, a scan goes on behind it. -/
theorem scan_append_of_none {p : Pattern} {w rest : Text} {before : Option Char} {offset : Nat}
    (h : ∀ v, v <:+ w → v ≠ [] → ∀ here : Cursor, here.ahead = v ++ rest → matchAt p here = none)
    (last : Option Nat) : scan p before offset (w ++ rest) last =
      scan p (w.getLast?.or before) (offset + Text.size w) rest last := by
  let a : Cursor := ⟨before, offset, w ++ rest⟩
  let b : Cursor := ⟨w.getLast?.or before, offset + Text.size w, rest⟩
  have hpass : a.Passes w b := ⟨rfl, rfl, rfl⟩
  exact scan_of_none hpass fun hw hne _ hv => h _ ⟨_, hw.symm⟩ hne _ hv.ahead

/-- Where a pattern can match at some place of a text, it is found in that text. -/
theorem scan_ne_nil {p : Pattern} {s ahead : Text} {before : Option Char} {offset : Nat}
    {next : Cursor} (hpass : Cursor.Passes ⟨before, offset, ahead⟩ s next)
    (hmatch : (matchAt p next).isSome = true) : scan p before offset ahead none ≠ [] := by
  induction s generalizing before offset ahead with
  | nil =>
      have hnext := hpass.eq_of_nil
      obtain ⟨found, hfound⟩ := Option.isSome_iff_exists.mp hmatch
      rw [hnext] at hfound
      cases ahead <;> simp [scan, hfound, counts]
  | cons c rest ih =>
      obtain ⟨more, rfl⟩ : ∃ more, ahead = c :: more := ⟨_, hpass.ahead⟩
      unfold scan
      simp only [Option.any_none, Bool.false_eq_true, if_false]
      have hlater := ih (hpass.step rfl)
      split
      · simp [counts]
      · exact hlater

/-- A match is found if no match that begins before it reaches beyond the place where it begins. -/
theorem mem_scan_of_matchAt {p : Pattern} (hp : p.consumes = true) {w : Text} {here next : Cursor}
    {last : Option Nat} {m : Found} (hpass : here.Passes w next)
    (hlast : last.any (next.offset < ·) = false)
    (hw : ∀ {v a m'}, v <:+ w → v ≠ [] → a.Passes v next → matchAt p a = some m' →
      m'.whole.stop ≤ next.offset)
    (hm : matchAt p next = some m) : m ∈ scan p here.before here.offset here.ahead last := by
  induction w generalizing here last with
  | nil =>
      obtain rfl := hpass.eq_of_nil
      obtain ⟨stop, new, hmatch, -⟩ := exists_matches_of_matchAt hm
      obtain ⟨s, hs, hne⟩ := hmatch.ne_nil hp
      obtain ⟨c, rest, rfl⟩ := List.exists_cons_of_ne_nil hne
      rw [scan_some hp hs.ahead (by rw [hlast]; exact Bool.false_ne_true) hm]
      exact List.mem_cons_self
  | cons c more ih =>
      have hahead : here.ahead = c :: (more ++ next.ahead) := hpass.ahead
      have hrest := hpass.step hahead
      have hlater : ∀ {last}, last.any (next.offset < ·) = false →
          m ∈ scan p (here.step c _).before (here.step c _).offset (here.step c _).ahead last :=
        fun hlast => ih hrest hlast fun hv => hw (hv.trans (List.suffix_cons c more))
      by_cases hskip : last.any (here.offset < ·) = true
      · rw [scan_skip hahead hskip]
        exact hlater hlast
      · cases hfirst : matchAt p here with
        | none =>
            rw [scan_none hahead hfirst]
            exact hlater hlast
        | some m' =>
            have hstop := hw (List.suffix_refl _) (List.cons_ne_nil c more) hpass hfirst
            rw [scan_some hp hahead hskip hfirst]
            exact List.mem_cons_of_mem m' (hlater (by simpa using hstop))

end Pattern

end SnippetLint
