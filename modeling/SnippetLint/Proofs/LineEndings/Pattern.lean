/-
Patterns that do not tell line endings apart.

A place of a text has its counterpart in the text with the other line endings, and in addition there
is a place inside each line ending, between the carriage return and the line feed.  A run of a
pattern takes the same course on both texts as long as nothing comes of these places: what follows
fails there (`failing`), or does the same as behind the line ending (`skipping`), or at least succeeds
only if it does so behind the line ending as well (`dominated`).  What a continuation does inside a
line ending is its `Level`.  `Pattern.atSplit` computes the level of a pattern from that of what
follows it, and `Pattern.steady` whether that is enough for each class of the pattern that has a
carriage return or a line feed in it.

`Follows.run` is the result: if the continuation does the same at a place and at its counterpart, so
does the run.
-/
import SnippetLint.Proofs.LineEndings.Text
import SnippetLint.Proofs.Pattern.Run
import SnippetLint.Proofs.Pattern.Search

namespace SnippetLint

/-! ### Places and their counterparts -/

namespace Text

/-- Where an offset of a text goes. -/
def crlfOffset (t : Text) (offset : Nat) : Nat := size (crlf (Span.take offset t))

theorem crlfOffset_size (pre post : Text) :
    crlfOffset (pre ++ post) (size pre) = size (crlf pre) := by
  rw [crlfOffset, Span.take_size]

/-- What stands before a place is longer the further behind the place is, in both texts. -/
theorem size_crlf_lt_iff {pre pre' post post' : Text} (h : pre ++ post = pre' ++ post') :
    size (crlf pre) < size (crlf pre') ↔ size pre < size pre' := by
  have hlonger : ∀ u v : Text, size u < size (u ++ v) ↔ v ≠ [] := by
    intro u v
    rw [size_append]
    constructor
    · rintro hlt rfl
      exact Nat.lt_irrefl _ hlt
    · intro hne
      have := size_pos_of_ne_nil hne
      omega
  rcases List.append_eq_append_iff.mp h with ⟨s, rfl, -⟩ | ⟨s, rfl, -⟩
  · rw [crlf_append, hlonger, hlonger, ne_eq, crlf_eq_nil_iff]
  · simp only [crlf_append, size_append]
    omega

end Text

namespace Cursor

/-- A place of a text. -/
def PlaceOf (a : Cursor) (t : Text) : Prop := ∃ pre, (start t).Passes pre a

/-- The counterpart of a place. -/
def crlf (a : Cursor) (t : Text) : Cursor := ⟨a.before, t.crlfOffset a.offset, Text.crlf a.ahead⟩

/-- A place inside a line ending, and the one behind it. -/
structure Splits (mid next : Cursor) : Prop where
  before : mid.before = some '\r'
  ahead : mid.ahead = '\n' :: next.ahead
  step : mid.step '\n' next.ahead = next

theorem Splits.offset_lt {mid next : Cursor} (h : Splits mid next) : mid.offset < next.offset := by
  rw [← h.step]
  exact Nat.lt_add_of_pos_right (Char.utf8Size_pos '\n')

theorem Splits.atWordEdge {mid next : Cursor} (h : Splits mid next) : mid.atWordEdge = false := by
  rw [Cursor.atWordEdge, h.before, h.ahead]
  simp [Unicode.isWord_carriageReturn, Unicode.isWord_lineFeed]

section

variable {t : Text} {a b : Cursor} {c : Char} {rest pre : Text}

theorem Passes.offset_crlf (h : (start t).Passes pre a) :
    (a.crlf t).offset = Text.size (Text.crlf pre) := by
  show t.crlfOffset a.offset = _
  rw [h.offset_start, h.eq_append, Text.crlfOffset_size]

theorem Passes.crlf (h : (start t).Passes pre a) :
    (start (Text.crlf t)).Passes (Text.crlf pre) (a.crlf t) where
  ahead := by
    show Text.crlf t = _
    rw [h.eq_append, Text.crlf_append]
    rfl
  offset := by
    rw [h.offset_crlf]
    exact (Nat.zero_add _).symm
  before := by
    rw [Text.getLast?_crlf]
    exact h.before

theorem PlaceOf.crlf (h : a.PlaceOf t) : (a.crlf t).PlaceOf (Text.crlf t) := by
  obtain ⟨pre, hpre⟩ := h
  exact ⟨_, hpre.crlf⟩

theorem PlaceOf.offset_lt_iff (ha : a.PlaceOf t) (hb : b.PlaceOf t) :
    (a.crlf t).offset < (b.crlf t).offset ↔ a.offset < b.offset := by
  obtain ⟨pre, hpre⟩ := ha
  obtain ⟨pre', hpre'⟩ := hb
  rw [hpre.offset_crlf, hpre'.offset_crlf, hpre.offset_start, hpre'.offset_start]
  exact Text.size_crlf_lt_iff (hpre.eq_append.symm.trans hpre'.eq_append)

theorem start_placeOf (t : Text) : (start t).PlaceOf t := ⟨[], .refl _⟩

theorem start_crlf (t : Text) : (start t).crlf t = start (Text.crlf t) := by
  have hoffset : t.crlfOffset 0 = 0 := Text.crlfOffset_size [] t
  rw [crlf, start, hoffset]
  rfl

theorem PlaceOf.passes {s : Text} (ha : a.PlaceOf t) (hs : a.Passes s b) : b.PlaceOf t := by
  obtain ⟨pre, hpre⟩ := ha
  exact ⟨_, hpre.trans hs⟩

theorem PlaceOf.step (ha : a.PlaceOf t) (hahead : a.ahead = c :: rest) :
    (a.step c rest).PlaceOf t := ha.passes (passes_step hahead)

theorem PlaceOf.offset_step (ha : a.PlaceOf t) (hahead : a.ahead = c :: rest) :
    ((a.step c rest).crlf t).offset = (a.crlf t).offset + Text.size (Text.crlf [c]) := by
  obtain ⟨pre, hpre⟩ := ha
  rw [(hpre.trans (passes_step hahead)).offset_crlf, hpre.offset_crlf, Text.crlf_append,
    Text.size_append]

theorem PlaceOf.step_crlf (ha : a.PlaceOf t) (hahead : a.ahead = c :: rest) (hc : c ≠ '\n') :
    (a.crlf t).step c (Text.crlf rest) = (a.step c rest).crlf t := by
  have hoffset := ha.offset_step hahead
  rw [Text.crlf_cons hc] at hoffset
  show Cursor.mk _ _ _ = Cursor.mk _ _ _
  congr 1
  exact hoffset.symm

/-- Before a line feed there is a place inside its line ending. -/
theorem PlaceOf.splits (ha : a.PlaceOf t) (hahead : a.ahead = '\n' :: rest) :
    Splits ((a.crlf t).step '\r' ('\n' :: Text.crlf rest)) ((a.step '\n' rest).crlf t) where
  before := rfl
  ahead := rfl
  step := by
    have hoffset := ha.offset_step hahead
    show Cursor.mk _ _ _ = Cursor.mk _ _ _
    congr 1
    show (a.crlf t).offset + 1 + 1 = _
    rw [Nat.add_assoc]
    exact hoffset.symm

/-- Both characters of a line ending are as little word characters as the line feed is. -/
theorem atWordEdge_crlf (a : Cursor) : (a.crlf t).atWordEdge = a.atWordEdge := by
  have hahead : (Text.crlf a.ahead).head?.any Unicode.isWord = a.ahead.head?.any Unicode.isWord := by
    cases a.ahead with
    | nil => rfl
    | cons c rest =>
        by_cases hc : c = '\n'
        · rw [hc, Text.crlf_newline]
          simp [Unicode.isWord_carriageReturn, Unicode.isWord_lineFeed]
        · rw [Text.crlf_cons hc]
          rfl
  rw [Cursor.atWordEdge, Cursor.atWordEdge, ← hahead]
  rfl

theorem ahead_crlf_nil (hahead : a.ahead = []) : (a.crlf t).ahead = [] := congrArg Text.crlf hahead

theorem ahead_crlf_newline (hahead : a.ahead = '\n' :: rest) :
    (a.crlf t).ahead = '\r' :: '\n' :: Text.crlf rest := congrArg Text.crlf hahead

theorem ahead_crlf_cons (hahead : a.ahead = c :: rest) (hc : c ≠ '\n') :
    (a.crlf t).ahead = c :: Text.crlf rest := by
  rw [← Text.crlf_cons hc, ← hahead]
  rfl

/-- What lies between two places, of which one is behind the other. -/
theorem PlaceOf.exists_passes (ha : a.PlaceOf t) (hb : b.PlaceOf t) (hlt : a.offset < b.offset) :
    ∃ s, a.Passes s b := by
  obtain ⟨pre, hpre⟩ := ha
  obtain ⟨pre', hpre'⟩ := hb
  have heq := hpre.eq_append.symm.trans hpre'.eq_append
  rw [hpre.offset_start, hpre'.offset_start] at hlt
  rcases List.append_eq_append_iff.mp heq with ⟨s, rfl, hs⟩ | ⟨s, rfl, hs⟩
  · refine ⟨s, hs, ?_, ?_⟩
    · rw [hpre.offset_start, hpre'.offset_start, Text.size_append]
    · rw [hpre'.before, hpre.before, List.getLast?_append, Option.or_assoc]
  · rw [Text.size_append] at hlt
    omega

end

end Cursor

namespace Pattern

/-! ### Inside a line ending -/

section

variable {α β : Type}

/-- Whether a continuation succeeds does not depend on the groups. -/
def Blind (k : Cursor → Groups → Option β) : Prop :=
  ∀ a g g', (k a g).isSome = true → (k a g').isSome = true

/-- A run succeeds where it does with a continuation that succeeds less often. -/
theorem isSome_run_mono {p : Pattern} {k : Cursor → Groups → Option α}
    {l : Cursor → Groups → Option β}
    (h : ∀ b g g', (k b g).isSome = true → (l b g').isSome = true) {a : Cursor} {g g' : Groups}
    (hrun : (run p a g k).isSome = true) : (run p a g' l).isSome = true := by
  obtain ⟨r, hr⟩ := Option.isSome_iff_exists.mp hrun
  obtain ⟨next, new, hmatch, hk⟩ := exists_matches_of_run hr
  exact isSome_run_of_matches hmatch (h next _ _ (Option.isSome_of_mem hk))

theorem Blind.run {k : Cursor → Groups → Option β} (hk : Blind k) (p : Pattern) :
    Blind fun a g => run p a g k :=
  fun _ _ _ h => isSome_run_mono hk h

/-- Rounds succeed at once where their continuation does. -/
theorem isSome_rounds_of_isSome
    {step : Cursor → Groups → (Cursor → Groups → Option β) → Option β}
    {k : Cursor → Groups → Option β} {a : Cursor} {g : Groups} (h : (k a g).isSome = true)
    (limit : Nat) : (rounds step k limit a g).isSome = true := by
  cases limit with
  | zero => exact h
  | succ limit =>
      unfold rounds
      split
      · rfl
      · exact h

/-- What is tried only behind an offset. -/
def guarded (offset : Nat) (k : Cursor → Groups → Option β) (next : Cursor) (groups : Groups) :
    Option β := if offset < next.offset then k next groups else none

theorem Blind.guarded {k : Cursor → Groups → Option β} (hk : Blind k) (offset : Nat) :
    Blind (guarded offset k) := by
  intro a g g' h
  unfold Pattern.guarded at h ⊢
  split at h
  · rename_i hlt
    rw [if_pos hlt]
    exact hk a g g' h
  · simp at h

theorem rounds_succ {p : Pattern} {k : Cursor → Groups → Option β} {limit : Nat} {a : Cursor}
    {g : Groups} : rounds (run p) k (limit + 1) a g =
      match run p a g (guarded a.offset (rounds (run p) k limit)) with
      | some result => some result
      | none => k a g := rfl

theorem Blind.rounds {k : Cursor → Groups → Option β} (hk : Blind k) (p : Pattern) (limit : Nat) :
    Blind (Pattern.rounds (Pattern.run p) k limit) := by
  induction limit with
  | zero => exact hk
  | succ limit ih =>
      intro a g g' h
      rw [rounds_succ] at h
      split at h
      · rename_i found hfound
        have hagain : (Pattern.run p a g'
            (Pattern.guarded a.offset (Pattern.rounds (Pattern.run p) k limit))).isSome = true :=
          ((ih.guarded a.offset).run p) a g g' (Option.isSome_of_mem hfound)
        obtain ⟨found', hfound'⟩ := Option.isSome_iff_exists.mp hagain
        rw [rounds_succ, hfound']
        rfl
      · exact isSome_rounds_of_isSome (hk a g g' h) _

/-- What a continuation does inside line endings. -/
inductive Level where
  /-- Nothing is known. -/
  | anything
  /-- It succeeds only if it does so behind the line ending. -/
  | dominated
  /-- It does what it does behind the line ending. -/
  | skipping
  /-- It fails. -/
  | failing
  deriving DecidableEq, Repr

namespace Level

/-- What is left of a level once the place itself is looked at. -/
def capped : Level → Level
  | skipping => dominated
  | other => other

/-- The level of what does one thing or, if that fails, another. -/
def meet : Level → Level → Level
  | failing, failing => failing
  | skipping, skipping => skipping
  | anything, _ | _, anything => anything
  | _, _ => dominated

/-- That a continuation has a level. -/
def Holds (k : Cursor → Groups → Option β) : Level → Prop
  | anything => True
  | dominated => ∀ mid next g, Cursor.Splits mid next → (k mid g).isSome = true →
      (k next g).isSome = true
  | skipping => ∀ mid next g, Cursor.Splits mid next → k mid g = k next g
  | failing => ∀ mid next g, Cursor.Splits mid next → k mid g = none

section

variable {level : Level} {k l : Cursor → Groups → Option β}

theorem Holds.dominated (h : level.Holds k) (hne : level ≠ anything) :
    Level.dominated.Holds k := by
  intro mid next g hsplits hsome
  cases level with
  | anything => exact absurd rfl hne
  | dominated => exact h mid next g hsplits hsome
  | skipping =>
      rw [← h mid next g hsplits]
      exact hsome
  | failing =>
      rw [h mid next g hsplits] at hsome
      simp at hsome

/-- What does inside a line ending what `k` does, and elsewhere more than `k`. -/
theorem Holds.capped_of (h : level.Holds k)
    (hmid : ∀ mid next g, Cursor.Splits mid next → l mid g = k mid g)
    (hmore : ∀ a g, (k a g).isSome = true → (l a g).isSome = true) : level.capped.Holds l := by
  have hdominated : level ≠ anything → Level.dominated.Holds l := by
    intro hne mid next g hsplits hsome
    rw [hmid mid next g hsplits] at hsome
    exact hmore next g (h.dominated hne mid next g hsplits hsome)
  cases level with
  | anything => exact trivial
  | dominated => exact hdominated (by simp)
  | skipping => exact hdominated (by simp)
  | failing =>
      intro mid next g hsplits
      rw [hmid mid next g hsplits]
      exact h mid next g hsplits

theorem Holds.guarded (h : level.Holds k) (offset : Nat) :
    level.capped.Holds (Pattern.guarded offset k) := by
  have hdominated : level ≠ anything → Level.dominated.Holds (Pattern.guarded offset k) := by
    intro hne mid next g hsplits hsome
    unfold Pattern.guarded at hsome ⊢
    split at hsome
    · rename_i hlt
      rw [if_pos (Nat.lt_trans hlt hsplits.offset_lt)]
      exact h.dominated hne mid next g hsplits hsome
    · simp at hsome
  cases level with
  | anything => exact trivial
  | dominated | skipping => exact hdominated (by simp)
  | failing =>
      intro mid next g hsplits
      rw [Pattern.guarded, h mid next g hsplits, ite_self]

theorem Holds.meet {first second : Level} (hk : first.Holds k) (hl : second.Holds l) :
    (first.meet second).Holds fun a g => match k a g with
      | some result => some result
      | none => l a g := by
  have hdominated : first ≠ anything → second ≠ anything → Level.dominated.Holds fun a g =>
      match k a g with
      | some result => some result
      | none => l a g := by
    intro hfirst hsecond mid next g hsplits hsome
    dsimp only at hsome ⊢
    split at hsome
    · rename_i result hresult
      have hnext := hk.dominated hfirst mid next g hsplits (Option.isSome_of_mem hresult)
      obtain ⟨result', hresult'⟩ := Option.isSome_iff_exists.mp hnext
      rw [hresult']
      rfl
    · split
      · rfl
      · exact hl.dominated hsecond mid next g hsplits hsome
  cases first <;> cases second
  case failing.failing =>
    intro mid next g hsplits
    dsimp only
    rw [hk mid next g hsplits]
    exact hl mid next g hsplits
  case skipping.skipping =>
    intro mid next g hsplits
    dsimp only
    rw [hk mid next g hsplits, hl mid next g hsplits]
  case anything.anything | anything.dominated | anything.skipping | anything.failing
      | dominated.anything | skipping.anything | failing.anything => exact trivial
  all_goals exact hdominated (by simp) (by simp)

end

end Level

/-- The level of a pattern followed by something with a level. -/
def atSplit : Pattern → Level → Level
  | nothing, level => level
  | one f, _ => if f '\n' then .anything else .failing
  | many f, level =>
    if f '\n' then if level = .anything then .anything else .skipping else level.capped
  | few f, level =>
    if f '\n' then if level = .anything then .anything else .dominated else level.capped
  | wordEdge, _ | textStart, _ | textEnd, _ | lineStart, _ => .failing
  | lineEnd, level => if level = .failing then .failing else .anything
  | both p q, level => atSplit p (atSplit q level)
  | either p q, level => (atSplit p level).meet (atSplit q level)
  | repeated p, level => if atSplit p .anything = .failing then level.capped else .anything
  | group _ p, level => (atSplit p level.capped).capped

section

variable {k : Cursor → Groups → Option β} {level : Level}

theorem run_few_nil {f : Char → Bool} {a : Cursor} {g : Groups} (h : a.ahead = []) :
    run (few f) a g k = k a g := by
  rw [run, h, passFew, ← h]

theorem run_few_cons {f : Char → Bool} {a : Cursor} {g : Groups} {c : Char} {rest : Text}
    (h : a.ahead = c :: rest) : run (few f) a g k =
      match k a g with
      | some result => some result
      | none => if f c then run (few f) (a.step c rest) g k else none := by
  rw [run, h, passFew, ← h]
  rfl

theorem run_many_next {f : Char → Bool} (hf : f '\n' = true) {mid next : Cursor} {g : Groups}
    (h : Cursor.Splits mid next) : run (many f) mid g k =
      match run (many f) next g k with
      | some result => some result
      | none => k mid g := by
  rw [run_many_cons h.ahead, h.step]
  exact if_pos hf

theorem run_few_next {f : Char → Bool} (hf : f '\n' = true) {mid next : Cursor} {g : Groups}
    (h : Cursor.Splits mid next) : run (few f) mid g k =
      match k mid g with
      | some result => some result
      | none => run (few f) next g k := by
  rw [run_few_cons h.ahead, h.step, if_pos hf]

theorem isSome_run_many {f : Char → Bool} {a : Cursor} {g : Groups} (h : (k a g).isSome = true) :
    (run (many f) a g k).isSome = true := by
  have hmatch : Matches (many f) a a [] := ⟨[], .refl a, by simp, rfl⟩
  exact isSome_run_of_matches hmatch h

theorem isSome_run_few {f : Char → Bool} {a : Cursor} {g : Groups} (h : (k a g).isSome = true) :
    (run (few f) a g k).isSome = true := by
  have hmatch : Matches (few f) a a [] := ⟨[], .refl a, by simp, rfl⟩
  exact isSome_run_of_matches hmatch h

theorem holds_many {f : Char → Bool} (hk : level.Holds k) :
    ((many f).atSplit level).Holds fun a g => run (many f) a g k := by
  unfold atSplit
  by_cases hf : f '\n' = true
  · rw [if_pos hf]
    by_cases hlevel : level = .anything
    · rw [if_pos hlevel]
      exact trivial
    · rw [if_neg hlevel]
      intro mid next g hsplits
      dsimp only
      rw [run_many_next hf hsplits]
      split
      · rename_i result hresult
        exact hresult.symm
      · rename_i hnone
        rw [hnone, ← Option.not_isSome_iff_eq_none]
        intro hmid
        have hsome := isSome_run_many (f := f) (hk.dominated hlevel mid next g hsplits hmid)
        rw [hnone] at hsome
        simp at hsome
  · rw [if_neg hf]
    refine hk.capped_of (fun mid next g hsplits => ?_) fun a g => isSome_run_many
    rw [run_many_cons hsplits.ahead, if_neg hf]

theorem holds_few {f : Char → Bool} (hk : level.Holds k) :
    ((few f).atSplit level).Holds fun a g => run (few f) a g k := by
  unfold atSplit
  by_cases hf : f '\n' = true
  · rw [if_pos hf]
    by_cases hlevel : level = .anything
    · rw [if_pos hlevel]
      exact trivial
    · rw [if_neg hlevel]
      intro mid next g hsplits hsome
      dsimp only at hsome ⊢
      rw [run_few_next hf hsplits] at hsome
      split at hsome
      · rename_i result hresult
        have hmid := Option.isSome_of_mem hresult
        exact isSome_run_few (hk.dominated hlevel mid next g hsplits hmid)
      · exact hsome
  · rw [if_neg hf]
    refine hk.capped_of (fun mid next g hsplits => ?_) fun a g => isSome_run_few
    rw [run_few_cons hsplits.ahead, if_neg hf]
    cases k mid g <;> rfl

theorem holds_repeated {p : Pattern}
    (hp : ∀ k : Cursor → Groups → Option β, Blind k →
      (p.atSplit .anything).Holds fun a g => run p a g k)
    (hblind : Blind k) (hk : level.Holds k) (limit : Cursor → Nat) :
    ((repeated p).atSplit level).Holds fun a g =>
      rounds (run p) k (limit a) a g := by
  unfold atSplit
  by_cases hfailing : p.atSplit .anything = .failing
  · rw [if_pos hfailing]
    refine hk.capped_of (fun mid next g hsplits => ?_) fun a g h => isSome_rounds_of_isSome h _
    cases limit mid with
    | zero => rfl
    | succ limit =>
        have hlevel := hp _ ((hblind.rounds p limit).guarded mid.offset)
        rw [hfailing] at hlevel
        have hnone : run p mid g (guarded mid.offset
            (rounds (run p) k limit)) = none := hlevel mid next g hsplits
        rw [rounds_succ, hnone]
  · rw [if_neg hfailing]
    exact trivial

/-- What follows the inner pattern of a group remembers where the group ends. -/
theorem Level.Holds.group (hk : level.Holds k) (hblind : Blind k) (index : Nat) (here : Cursor) :
    level.capped.Holds fun b g => k b ((index, here, b) :: g) := by
  have hdominated : level ≠ .anything →
      Level.dominated.Holds fun b g => k b ((index, here, b) :: g) := by
    intro hne mid next g hsplits hsome
    exact hblind _ _ _ (hk.dominated hne mid next _ hsplits hsome)
  cases level with
  | anything => exact trivial
  | dominated | skipping => exact hdominated (by simp)
  | failing => exact fun mid next g hsplits => hk mid next _ hsplits

theorem holds_group {p : Pattern} {index : Nat}
    (hp : ∀ k : Cursor → Groups → Option β, Blind k → level.capped.Holds k →
      (p.atSplit level.capped).Holds fun a g => run p a g k)
    (hblind : Blind k) (hk : level.Holds k) :
    ((group index p).atSplit level).Holds fun a g => run (group index p) a g k := by
  have hinner : ∀ a, (p.atSplit level.capped).Holds fun b g =>
      run p b g fun next groups => k next ((index, a, next) :: groups) :=
    fun a => hp _ (fun b _ _ h => hblind b _ _ h) (hk.group hblind index a)
  have hdominated : p.atSplit level.capped ≠ .anything →
      Level.dominated.Holds fun a g => run (group index p) a g k := by
    intro hne mid next g hsplits hsome
    have hnext : (run p next g fun b groups => k b ((index, mid, b) :: groups)).isSome = true :=
      (hinner mid).dominated hne mid next g hsplits hsome
    have hagain : (run p next g fun b groups => k b ((index, next, b) :: groups)).isSome = true :=
      isSome_run_mono (fun b _ _ h => hblind b _ _ h) hnext
    exact hagain
  unfold atSplit
  cases hlevel : p.atSplit level.capped with
  | anything => exact trivial
  | dominated | skipping => exact hdominated (by simp [hlevel])
  | failing =>
      intro mid next g hsplits
      have hnone := hinner mid
      rw [hlevel] at hnone
      exact hnone mid next g hsplits

/-- **A pattern has the level that is computed from what follows it.** -/
theorem Level.Holds.run {p : Pattern} (hk : level.Holds k) (hblind : Blind k) :
    (p.atSplit level).Holds fun a g => Pattern.run p a g k := by
  induction p generalizing level k with
  | nothing => exact hk
  | one f =>
      unfold atSplit
      by_cases hf : f '\n' = true
      · rw [if_pos hf]
        exact trivial
      · rw [if_neg hf]
        intro mid next g hsplits
        dsimp only
        rw [Pattern.run, hsplits.ahead]
        exact if_neg hf
  | many f => exact holds_many hk
  | few f => exact holds_few hk
  | wordEdge =>
      intro mid next g hsplits
      dsimp only
      rw [Pattern.run, hsplits.atWordEdge]
      rfl
  | textStart =>
      intro mid next g hsplits
      dsimp only
      rw [Pattern.run, hsplits.before]
      rfl
  | textEnd =>
      intro mid next g hsplits
      dsimp only
      rw [Pattern.run, hsplits.ahead]
      rfl
  | lineStart =>
      intro mid next g hsplits
      dsimp only
      rw [Pattern.run, hsplits.before]
      rfl
  | lineEnd =>
      unfold atSplit
      by_cases hlevel : level = .failing
      · rw [if_pos hlevel]
        rw [hlevel] at hk
        intro mid next g hsplits
        dsimp only
        rw [Pattern.run, hk mid next g hsplits]
        split <;> rfl
      · rw [if_neg hlevel]
        exact trivial
  | both p q ihp ihq => exact ihp (ihq hk hblind) (hblind.run q)
  | either p q ihp ihq => exact (ihp hk hblind).meet (ihq hk hblind)
  | repeated p ih =>
      have hround : ∀ k : Cursor → Groups → Option β, Blind k →
          (p.atSplit .anything).Holds fun a g => Pattern.run p a g k := by
        intro k hk
        have hanything : Level.anything.Holds k := trivial
        exact ih hanything hk
      exact holds_repeated hround hblind hk fun a => a.ahead.length
  | group index p ih => exact holds_group (fun k hk hlevel => ih hlevel hk) hblind hk

end

/-! ### Runs on both texts -/

/-- The counterparts of groups. -/
def crlfGroups (t : Text) (groups : Groups) : Groups :=
  groups.map fun (index, a, b) => (index, a.crlf t, b.crlf t)

/-- Groups between places of a text. -/
def PlacesOf (t : Text) (groups : Groups) : Prop :=
  ∀ g ∈ groups, g.2.1.PlaceOf t ∧ g.2.2.PlaceOf t

/-- At the counterparts of places the second continuation does what the first one does at the places,
up to what is made of a result. -/
def Follows (t : Text) (f : α → β) (k : Cursor → Groups → Option α)
    (k' : Cursor → Groups → Option β) : Prop :=
  ∀ a g, a.PlaceOf t → PlacesOf t g → k' (a.crlf t) (crlfGroups t g) = (k a g).map f

/-- Whether a pattern takes the same course on both texts if what follows it has a level. -/
def steady : Pattern → Level → Bool
  | one f, level =>
    match f '\n', f '\r' with
    | false, false => true
    | false, true => level = .failing
    | true, true => level = .skipping
    | true, false => false
  | many f, level =>
    match f '\n', f '\r' with
    | false, false => true
    | false, true => level = .failing
    | true, true => level ≠ .anything
    | true, false => false
  | few f, level =>
    match f '\n', f '\r' with
    | false, false => true
    | _, true => level = .failing
    | true, false => false
  | lineEnd, _ => false
  | both p q, level => steady p (atSplit q level) && steady q level
  | either p q, level => steady p level && steady q level
  | repeated p, level => steady p (atSplit (repeated p) level)
  | group _ p, level => steady p level.capped
  | _, _ => true

section

variable {t : Text} {m : α → β} {k : Cursor → Groups → Option α} {k' : Cursor → Groups → Option β}
  {level : Level}

theorem Follows.one {f : Char → Bool} (hk : Follows t m k k') (hlevel : level.Holds k')
    (hf : (one f).steady level = true) :
    Follows t m (fun a g => run (one f) a g k) fun a g => run (one f) a g k' := by
  intro a g ha hg
  dsimp only
  cases hahead : a.ahead with
  | nil =>
      rw [run, run, hahead, Cursor.ahead_crlf_nil hahead]
      rfl
  | cons c rest =>
      have hnext := hk _ g (ha.step hahead) hg
      by_cases hc : c = '\n'
      · subst hc
        have hsplits := ha.splits hahead
        rw [run, run, hahead, Cursor.ahead_crlf_newline hahead]
        dsimp only
        cases hfeed : f '\n' <;> cases hreturn : f '\r'
        · rfl
        · have hfailing : level = .failing := by simpa [steady, hfeed, hreturn] using hf
          subst hfailing
          rw [if_pos rfl, hlevel _ _ _ hsplits]
          rfl
        · simp [steady, hfeed, hreturn] at hf
        · have hskipping : level = .skipping := by simpa [steady, hfeed, hreturn] using hf
          subst hskipping
          rw [if_pos rfl, if_pos rfl, hlevel _ _ _ hsplits, hnext]
      · rw [run, run, hahead, Cursor.ahead_crlf_cons hahead hc]
        dsimp only
        rw [ha.step_crlf hahead hc]
        split
        · exact hnext
        · rfl

theorem Follows.many {f : Char → Bool} (hk : Follows t m k k') (hlevel : level.Holds k')
    (hf : (many f).steady level = true) :
    Follows t m (fun a g => run (many f) a g k) fun a g => run (many f) a g k' := by
  intro a g ha hg
  dsimp only
  have hhere := hk a g ha hg
  induction hahead : a.ahead generalizing a with
  | nil =>
      rw [run_many_nil hahead, run_many_nil (Cursor.ahead_crlf_nil hahead), hhere]
  | cons c rest ih =>
      have hplace := ha.step hahead
      have hnext := ih _ hplace (hk _ g hplace hg) rfl
      by_cases hc : c = '\n'
      · subst hc
        have hsplits := ha.splits hahead
        have hmid := holds_many (f := f) hlevel
        rw [run_many_cons hahead, run_many_cons (Cursor.ahead_crlf_newline hahead), hhere]
        cases hfeed : f '\n' <;> cases hreturn : f '\r'
        · rfl
        · have hfailing : level = .failing := by simpa [steady, hfeed, hreturn] using hf
          subst hfailing
          rw [atSplit, hfeed] at hmid
          have hnone : run (Pattern.many f) _ (crlfGroups t g) k' = none := hmid _ _ _ hsplits
          rw [if_pos rfl, hnone]
          rfl
        · simp [steady, hfeed, hreturn] at hf
        · have hne : level ≠ .anything := by simpa [steady, hfeed, hreturn] using hf
          rw [atSplit, hfeed, if_pos rfl, if_neg hne] at hmid
          have hskip : run (Pattern.many f) _ (crlfGroups t g) k' = run (Pattern.many f) _ _ k' :=
            hmid _ _ _ hsplits
          rw [if_pos rfl, if_pos rfl, hskip, hnext]
          cases run (Pattern.many f) (a.step '\n' rest) g k <;> rfl
      · rw [run_many_cons hahead, run_many_cons (Cursor.ahead_crlf_cons hahead hc),
          ha.step_crlf hahead hc, hhere, hnext]
        split
        · cases run (Pattern.many f) (a.step c rest) g k <;> rfl
        · rfl

theorem Follows.few {f : Char → Bool} (hk : Follows t m k k') (hlevel : level.Holds k')
    (hf : (few f).steady level = true) :
    Follows t m (fun a g => run (few f) a g k) fun a g => run (few f) a g k' := by
  intro a g ha hg
  dsimp only
  have hhere := hk a g ha hg
  induction hahead : a.ahead generalizing a with
  | nil =>
      rw [run_few_nil hahead, run_few_nil (Cursor.ahead_crlf_nil hahead), hhere]
  | cons c rest ih =>
      have hplace := ha.step hahead
      have hnext := ih _ hplace (hk _ g hplace hg) rfl
      by_cases hc : c = '\n'
      · subst hc
        have hsplits := ha.splits hahead
        rw [run_few_cons hahead, run_few_cons (Cursor.ahead_crlf_newline hahead), hhere]
        cases hresult : k a g with
        | some result => rfl
        | none =>
            cases hreturn : f '\r' <;> cases hfeed : f '\n'
            · rfl
            · simp [steady, hfeed, hreturn] at hf
            · have hfailing : level = .failing := by simpa [steady, hfeed, hreturn] using hf
              subst hfailing
              have hmid := holds_few (f := f) hlevel
              rw [atSplit, hfeed] at hmid
              exact hmid _ _ _ hsplits
            · have hfailing : level = .failing := by simpa [steady, hfeed, hreturn] using hf
              subst hfailing
              dsimp only [Option.map_none]
              rw [if_pos rfl, if_pos rfl, run_few_next hfeed hsplits, hlevel _ _ _ hsplits, hnext]
      · rw [run_few_cons hahead, run_few_cons (Cursor.ahead_crlf_cons hahead hc),
          ha.step_crlf hahead hc, hhere, hnext]
        cases k a g with
        | some result => rfl
        | none =>
            dsimp only [Option.map_none]
            split <;> rfl

theorem rounds_of_ahead_eq_nil {p : Pattern} {a : Cursor} (hahead : a.ahead = []) (limit : Nat)
    (g : Groups) : rounds (run p) k limit a g = k a g := by
  cases limit with
  | zero => rfl
  | succ limit =>
      rw [rounds_succ]
      split
      · rename_i found hfound
        obtain ⟨next, new, hmatch, hk⟩ := exists_matches_of_run hfound
        obtain ⟨s, hs⟩ := hmatch.passes
        obtain ⟨rfl, -⟩ := List.append_eq_nil_iff.mp (hs.ahead.symm.trans hahead)
        rw [hs.eq_of_nil, guarded, if_neg (Nat.lt_irrefl _)] at hk
        simp at hk
      · rfl

theorem capped_atSplit_repeated (p : Pattern) (level : Level) :
    ((repeated p).atSplit level).capped = (repeated p).atSplit level := by
  unfold atSplit
  split
  · cases level <;> rfl
  · rfl

theorem length_crlf_lt {a b : Cursor} (ha : a.PlaceOf t) (hb : b.PlaceOf t)
    (hlt : a.offset < b.offset) : b.ahead.length < a.ahead.length ∧
      (b.crlf t).ahead.length < (a.crlf t).ahead.length := by
  have hlt' := (ha.offset_lt_iff hb).mpr hlt
  obtain ⟨s, hs⟩ := ha.exists_passes hb hlt
  obtain ⟨s', hs'⟩ := ha.crlf.exists_passes hb.crlf hlt'
  exact ⟨hs.length_lt hlt, hs'.length_lt hlt'⟩

/-- The rounds of a pattern; how many there may be does not matter as long as there may be enough. -/
theorem Follows.rounds {p : Pattern}
    (hp : ∀ (l : Cursor → Groups → Option α) (l' : Cursor → Groups → Option β), Blind l' →
      ((repeated p).atSplit level).Holds l' → Follows t m l l' →
      Follows t m (fun a g => run p a g l) fun a g => run p a g l')
    (hk : Follows t m k k') (hblind : Blind k') (hlevel : level.Holds k') {limit limit' : Nat}
    {a : Cursor} {g : Groups} (ha : a.PlaceOf t) (hg : PlacesOf t g)
    (hlimit : a.ahead.length ≤ limit) (hlimit' : (a.crlf t).ahead.length ≤ limit') :
    rounds (run p) k' limit' (a.crlf t) (crlfGroups t g) =
      (rounds (run p) k limit a g).map m := by
  induction limit generalizing limit' a g with
  | zero =>
      have hahead : a.ahead = [] := List.length_eq_zero_iff.mp (Nat.le_zero.mp hlimit)
      rw [rounds_of_ahead_eq_nil hahead, rounds_of_ahead_eq_nil (Cursor.ahead_crlf_nil hahead)]
      exact hk a g ha hg
  | succ limit ih =>
      cases limit' with
      | zero =>
          have hahead' : Text.crlf a.ahead = [] :=
            List.length_eq_zero_iff.mp (Nat.le_zero.mp hlimit')
          have hahead := Text.crlf_eq_nil_iff.mp hahead'
          rw [rounds_of_ahead_eq_nil hahead, rounds_of_ahead_eq_nil hahead']
          exact hk a g ha hg
      | succ limit' =>
          have hfollows : Follows t m (guarded a.offset (Pattern.rounds (run p) k limit))
              (guarded (a.crlf t).offset (Pattern.rounds (run p) k' limit')) := by
            intro b g hb hg
            unfold guarded
            by_cases hlt : a.offset < b.offset
            · obtain ⟨hshorter, hshorter'⟩ := length_crlf_lt ha hb hlt
              rw [if_pos hlt, if_pos ((ha.offset_lt_iff hb).mpr hlt)]
              exact ih hb hg (by omega) (by omega)
            · rw [if_neg hlt, if_neg fun h => hlt ((ha.offset_lt_iff hb).mp h)]
              rfl
          have hanything : ∀ l : Cursor → Groups → Option β, Blind l →
              (p.atSplit .anything).Holds fun a g => run p a g l := by
            intro l hl
            have hlevel : Level.anything.Holds l := trivial
            exact hlevel.run hl
          have hguarded := (holds_repeated hanything hblind hlevel fun _ => limit').guarded
            (a.crlf t).offset
          rw [capped_atSplit_repeated] at hguarded
          have hround : run p (a.crlf t) (crlfGroups t g)
              (guarded (a.crlf t).offset (Pattern.rounds (run p) k' limit')) =
                (run p a g (guarded a.offset (Pattern.rounds (run p) k limit))).map m :=
            hp _ _ ((hblind.rounds p limit').guarded _) hguarded hfollows a g ha hg
          rw [rounds_succ, rounds_succ, hround, hk a g ha hg]
          cases run p a g (guarded a.offset (Pattern.rounds (run p) k limit)) <;> rfl

/-- What follows a group sees it in both texts. -/
theorem Follows.group (hk : Follows t m k k') {index : Nat} {here : Cursor}
    (hhere : here.PlaceOf t) : Follows t m (fun b g => k b ((index, here, b) :: g))
      fun b g => k' b ((index, here.crlf t, b) :: g) := by
  intro b g hb hg
  exact hk b ((index, here, b) :: g) hb (List.forall_mem_cons.mpr ⟨⟨hhere, hb⟩, hg⟩)

/-- **A steady pattern takes the same course on both texts.** -/
theorem Follows.run {p : Pattern} (hp : p.steady level = true) (hk : Follows t m k k')
    (hblind : Blind k') (hlevel : level.Holds k') :
    Follows t m (fun a g => Pattern.run p a g k) fun a g => Pattern.run p a g k' := by
  induction p generalizing level k k' with
  | nothing => exact hk
  | one f => exact hk.one hlevel hp
  | many f => exact hk.many hlevel hp
  | few f => exact hk.few hlevel hp
  | wordEdge =>
      intro a g ha hg
      dsimp only
      rw [Pattern.run, Pattern.run, Cursor.atWordEdge_crlf, hk a g ha hg]
      split <;> rfl
  | textStart =>
      intro a g ha hg
      have hbefore : (a.crlf t).before = a.before := rfl
      dsimp only
      rw [Pattern.run, Pattern.run, hbefore, hk a g ha hg]
      split <;> rfl
  | textEnd =>
      intro a g ha hg
      have hahead : (a.crlf t).ahead.isEmpty = a.ahead.isEmpty := Text.isEmpty_crlf a.ahead
      dsimp only
      rw [Pattern.run, Pattern.run, hahead, hk a g ha hg]
      split <;> rfl
  | lineStart =>
      intro a g ha hg
      have hbefore : (a.crlf t).before = a.before := rfl
      dsimp only
      rw [Pattern.run, Pattern.run, hbefore, hk a g ha hg]
      split <;> rfl
  | lineEnd => simp [steady] at hp
  | both p q ihp ihq =>
      obtain ⟨hp, hq⟩ := Bool.and_eq_true_iff.mp hp
      exact ihp hp (ihq hq hk hblind hlevel) (hblind.run q) (hlevel.run hblind)
  | either p q ihp ihq =>
      obtain ⟨hp, hq⟩ := Bool.and_eq_true_iff.mp hp
      intro a g ha hg
      have hfirst := ihp hp hk hblind hlevel a g ha hg
      have hsecond := ihq hq hk hblind hlevel a g ha hg
      dsimp only at hfirst hsecond ⊢
      rw [Pattern.run, Pattern.run, hfirst, hsecond]
      cases Pattern.run p a g k <;> rfl
  | repeated p ih =>
      intro a g ha hg
      exact hk.rounds (fun l l' hblind hlevel hl => ih hp hl hblind hlevel) hblind hlevel ha hg
        (Nat.le_refl _) (Nat.le_refl _)
  | group index p ih =>
      intro a g ha hg
      have hinner := hlevel.group hblind index (a.crlf t)
      exact ih hp (hk.group ha) (fun b _ _ h => hblind b _ _ h) hinner a g ha hg

end

end

end Pattern

end SnippetLint
