/-
Searches in both texts.

Successive matches of a text correspond to those of the text with the other line endings as soon as
what matches at a place corresponds to what matches at its counterpart or, where the place is before
a line feed, inside the line ending behind the counterpart (`matchNear`).  Since matches do not
overlap, it also matters where each one stops: the two stops have to leave out the same places, or at
least the same of those at which there is something to be found (`Meets`).

A pattern that ignores carriage returns finds the counterparts of what it finds, and nothing else.
-/
import Mathlib.Data.List.Forall2
import SnippetLint.Proofs.LineEndings.Pattern

namespace SnippetLint

/-- Lists that are related member by member by what is made of them. -/
theorem map_eq_of_forall₂ {α β γ : Type} {R : α → β → Prop} {l : List α} {l' : List β} {f : α → γ}
    {g : β → γ} (hl : List.Forall₂ R l l') (h : ∀ a b, R a b → g b = f a) :
    l'.map g = l.map f := by
  induction hl with
  | nil => rfl
  | cons hab _ ih => rw [List.map_cons, List.map_cons, h _ _ hab, ih]

/-! ### Counterparts of spans and matches -/

/-- The counterpart of a part of a text. -/
def Span.crlf (t : Text) (s : Span) : Span := ⟨t.crlfOffset s.start, Text.crlf s.text⟩

/-- The counterpart of a match. -/
def Found.crlf (t : Text) (m : Found) : Found :=
  ⟨m.whole.crlf t, m.groups.map fun (index, s) => (index, s.crlf t)⟩

theorem Span.take_zero (t : Text) : take 0 t = [] := by cases t <;> rfl

theorem Cursor.PlaceOf.passes_crlf {t s : Text} {a b : Cursor} (ha : a.PlaceOf t)
    (hs : a.Passes s b) : (a.crlf t).Passes (Text.crlf s) (b.crlf t) := by
  obtain ⟨pre, hpre⟩ := ha
  refine ⟨?_, ?_, ?_⟩
  · show Text.crlf a.ahead = _
    rw [hs.ahead, Text.crlf_append]
    rfl
  · rw [(hpre.trans hs).offset_crlf, hpre.offset_crlf, Text.crlf_append, Text.size_append]
  · rw [Text.getLast?_crlf]
    exact hs.before

theorem Span.between_crlf {t : Text} {a b : Cursor} (ha : a.PlaceOf t) (hb : b.PlaceOf t) :
    between (a.crlf t) (b.crlf t) = (between a b).crlf t := by
  by_cases hlt : a.offset < b.offset
  · obtain ⟨s, hs⟩ := ha.exists_passes hb hlt
    rw [between_eq hs, between_eq (ha.passes_crlf hs)]
    rfl
  · have hle : b.offset - a.offset = 0 := by omega
    have hle' : (b.crlf t).offset - (a.crlf t).offset = 0 := by
      have := mt (ha.offset_lt_iff hb).mp hlt
      omega
    rw [between, between, hle, hle', take_zero, take_zero]
    rfl

theorem Found.between_crlf {t : Text} {a b : Cursor} {g : Groups} (ha : a.PlaceOf t)
    (hb : b.PlaceOf t) (hg : Pattern.PlacesOf t g) :
    between (a.crlf t) (b.crlf t) (Pattern.crlfGroups t g) = (between a b g).crlf t := by
  rw [between, between, crlf, Span.between_crlf ha hb, Pattern.crlfGroups, List.map_map, List.map_map]
  congr 1
  refine List.map_congr_left fun ⟨index, x, y⟩ hmem => ?_
  obtain ⟨hx, hy⟩ := hg _ hmem
  show (index, Span.between (x.crlf t) (y.crlf t)) = (index, (Span.between x y).crlf t)
  rw [Span.between_crlf hx hy]

namespace Found

variable (t : Text) (m : Found) (i : Nat)

theorem group?_crlf : (m.crlf t).group? i = (m.group? i).map (Span.crlf t) := by
  unfold group?
  split
  · rfl
  · unfold crlf
    dsimp only
    induction m.groups with
    | nil => rfl
    | cons g rest ih =>
        rw [List.map_cons, List.lookup_cons, List.lookup_cons]
        cases i == g.1 with
        | true => rfl
        | false => exact ih

theorem group_crlf : (m.crlf t).group i = (m.group i).map (Span.crlf t) := by
  rw [group, group, group?_crlf]
  cases m.group? i <;> rfl

theorem textOf_crlf : (m.crlf t).textOf i = Text.crlf (m.textOf i) := by
  rw [textOf, textOf, group?_crlf]
  cases m.group? i <;> rfl

end Found

namespace Pattern

/-! ### What is found near a place -/

/-- What matches at the counterpart of a place or else inside the line ending there. -/
def matchNear (p : Pattern) (t : Text) (a : Cursor) : Option Found :=
  match matchAt p (a.crlf t), a.ahead with
  | some m, _ => some m
  | none, '\n' :: rest => matchAt p ((a.crlf t).step '\r' ('\n' :: Text.crlf rest))
  | none, _ => none

theorem rel_none_iff {rel : Found → Found → Prop} {o : Option Found} :
    Option.Rel rel none o ↔ o = none := by
  constructor
  · intro h
    cases h
    rfl
  · rintro rfl
    exact .none

theorem rel_some_iff {rel : Found → Found → Prop} {m : Found} {o : Option Found} :
    Option.Rel rel (some m) o ↔ ∃ m', o = some m' ∧ rel m m' := by
  constructor
  · intro h
    cases h with
    | some hrel => exact ⟨_, rfl, hrel⟩
  · rintro ⟨m', rfl, hrel⟩
    exact .some hrel

section

variable {p : Pattern} {t : Text} {a : Cursor} {c : Char} {rest : Text}

theorem matchNear_of_ne (h : ∀ rest, a.ahead ≠ '\n' :: rest) :
    p.matchNear t a = matchAt p (a.crlf t) := by
  unfold matchNear
  cases matchAt p (a.crlf t) with
  | some m => rfl
  | none =>
      split
      · simp_all
      · rename_i rest _ hahead
        exact absurd hahead (h rest)
      · rfl

theorem matchNear_cons (h : a.ahead = c :: rest) (hc : c ≠ '\n') :
    p.matchNear t a = matchAt p (a.crlf t) := by
  refine matchNear_of_ne fun more heq => hc ?_
  rw [h] at heq
  exact (List.cons.inj heq).1

theorem matchNear_newline (h : a.ahead = '\n' :: rest) : p.matchNear t a =
    (matchAt p (a.crlf t)).or (matchAt p ((a.crlf t).step '\r' ('\n' :: Text.crlf rest))) := by
  rw [matchNear, h]
  cases matchAt p (a.crlf t) <;> rfl

/-- Patterns that match alike there find the same near a place. -/
theorem matchNear_congr {q : Pattern} (h : ∀ b, (b = a.crlf t ∨ ∃ rest, b.ahead = '\n' :: rest) →
    matchAt p b = matchAt q b) : p.matchNear t a = q.matchNear t a := by
  cases hahead : a.ahead with
  | nil =>
      have hne : ∀ rest, a.ahead ≠ '\n' :: rest := by simp [hahead]
      rw [matchNear_of_ne hne, matchNear_of_ne hne, h _ (.inl rfl)]
  | cons c rest =>
      by_cases hc : c = '\n'
      · subst hc
        rw [matchNear_newline hahead, matchNear_newline hahead, h _ (.inl rfl), h _ (.inr ⟨_, rfl⟩)]
      · rw [matchNear_cons hahead hc, matchNear_cons hahead hc, h _ (.inl rfl)]

/-! ### First matches -/

theorem search_nil (h : a.ahead = []) : search p a.before a.offset a.ahead = matchAt p a := by
  rw [h, search, ← h]

theorem search_cons (h : a.ahead = c :: rest) : search p a.before a.offset a.ahead =
    (matchAt p a).or (search p (a.step c rest).before (a.step c rest).offset
      (a.step c rest).ahead) := by
  rw [h, search, ← h]
  have hhere : matchAt p ⟨a.before, a.offset, a.ahead⟩ = matchAt p a := rfl
  rw [hhere]
  cases matchAt p a <;> rfl

/-- Where something is found near each place that has a match, and nowhere else, a search in one text
finds something if a search in the other does. -/
theorem search_related {rel : Found → Found → Prop}
    (h : ∀ a, a.PlaceOf t → Option.Rel rel (matchAt p a) (p.matchNear t a)) (ha : a.PlaceOf t) :
    Option.Rel rel (search p a.before a.offset a.ahead)
      (search p (a.crlf t).before (a.crlf t).offset (a.crlf t).ahead) := by
  have hhere := h a ha
  induction hahead : a.ahead generalizing a with
  | nil =>
      rw [matchNear_of_ne (by simp [hahead])] at hhere
      rw [← hahead, search_nil hahead, search_nil (Cursor.ahead_crlf_nil hahead)]
      exact hhere
  | cons c rest ih =>
      have hplace := ha.step hahead
      have hlater := ih hplace (h _ hplace) rfl
      have hsearch : search p (a.crlf t).before (a.crlf t).offset (a.crlf t).ahead =
          (p.matchNear t a).or (search p ((a.step c rest).crlf t).before
            ((a.step c rest).crlf t).offset ((a.step c rest).crlf t).ahead) := by
        by_cases hc : c = '\n'
        · subst hc
          have hsplits := ha.splits hahead
          rw [search_cons (Cursor.ahead_crlf_newline hahead), search_cons hsplits.ahead,
            hsplits.step, ← Option.or_assoc, matchNear_newline hahead]
        · rw [search_cons (Cursor.ahead_crlf_cons hahead hc), ha.step_crlf hahead hc,
            matchNear_cons hahead hc]
      rw [← hahead, search_cons hahead, hsearch]
      cases hm : matchAt p a with
      | none =>
          rw [hm, rel_none_iff] at hhere
          rw [hhere]
          exact hlater
      | some m =>
          rw [hm, rel_some_iff] at hhere
          obtain ⟨m', hm', hrel⟩ := hhere
          rw [hm']
          exact .some hrel

theorem find?_related {rel : Found → Found → Prop}
    (h : ∀ a, a.PlaceOf t → Option.Rel rel (matchAt p a) (p.matchNear t a)) :
    Option.Rel rel (p.find? t) (p.find? (Text.crlf t)) := by
  have hsearch := search_related h (Cursor.start_placeOf t)
  rw [Cursor.start_crlf] at hsearch
  exact hsearch

/-! ### Successive matches -/

/-- Two offsets leave out the same of the places at which something matches. -/
def Meets (p : Pattern) (t : Text) (x x' : Nat) : Prop :=
  ∀ a, a.PlaceOf t → (matchAt p a).isSome = true → (a.offset < x ↔ (a.crlf t).offset < x') ∧
    ∀ rest, a.ahead = '\n' :: rest → (a.offset < x ↔ (a.crlf t).offset + 1 < x')

/-- A place and its counterpart leave out the same places. -/
theorem Meets.of_place {b : Cursor} (hb : b.PlaceOf t) : Meets p t b.offset (b.crlf t).offset := by
  intro a ha _
  refine ⟨(ha.offset_lt_iff hb).symm, fun rest hahead => ?_⟩
  have hhere := ha.offset_lt_iff hb
  have hnext := hb.offset_lt_iff (ha.step hahead)
  have hstep : (a.step '\n' rest).offset = a.offset + 1 := rfl
  have hstep' : ((a.step '\n' rest).crlf t).offset = (a.crlf t).offset + 2 :=
    ha.offset_step hahead
  omega

/-! The scan of the second text takes one step or, over a line ending, two. -/

theorem scan_crlf_none (ha : a.PlaceOf t) (hahead : a.ahead = c :: rest)
    (hm : p.matchNear t a = none) (last : Option Nat) :
    scan p (a.crlf t).before (a.crlf t).offset (a.crlf t).ahead last =
      scan p ((a.step c rest).crlf t).before ((a.step c rest).crlf t).offset
        ((a.step c rest).crlf t).ahead last := by
  by_cases hc : c = '\n'
  · subst hc
    have hsplits := ha.splits hahead
    rw [matchNear_newline hahead, Option.or_eq_none_iff] at hm
    rw [scan_none (Cursor.ahead_crlf_newline hahead) hm.1, scan_none hsplits.ahead hm.2,
      hsplits.step]
  · rw [matchNear_cons hahead hc] at hm
    rw [scan_none (Cursor.ahead_crlf_cons hahead hc) hm, ha.step_crlf hahead hc]

section

variable {last last' : Option Nat} (hlast : Option.Rel (Meets p t) last last') (ha : a.PlaceOf t)
  (hsome : (matchAt p a).isSome = true)

include hlast ha hsome

theorem any_lt_eq : last'.any ((a.crlf t).offset < ·) = last.any (a.offset < ·) := by
  cases hlast with
  | none => rfl
  | some hmeets => exact decide_eq_decide.mpr (hmeets a ha hsome).1.symm

theorem any_lt_eq_mid (hahead : a.ahead = '\n' :: rest) :
    last'.any ((a.crlf t).offset + 1 < ·) = last.any (a.offset < ·) := by
  cases hlast with
  | none => rfl
  | some hmeets => exact decide_eq_decide.mpr ((hmeets a ha hsome).2 rest hahead).symm

theorem scan_crlf_skip (hahead : a.ahead = c :: rest) (hlt : last.any (a.offset < ·) = true) :
    scan p (a.crlf t).before (a.crlf t).offset (a.crlf t).ahead last' =
      scan p ((a.step c rest).crlf t).before ((a.step c rest).crlf t).offset
        ((a.step c rest).crlf t).ahead last' := by
  have hskip := (any_lt_eq hlast ha hsome).trans hlt
  by_cases hc : c = '\n'
  · subst hc
    have hsplits := ha.splits hahead
    have hskip' := (any_lt_eq_mid hlast ha hsome hahead).trans hlt
    rw [scan_skip (Cursor.ahead_crlf_newline hahead) hskip, scan_skip hsplits.ahead hskip',
      hsplits.step]
  · rw [scan_skip (Cursor.ahead_crlf_cons hahead hc) hskip, ha.step_crlf hahead hc]

theorem scan_crlf_some (hp : p.consumes = true) (hahead : a.ahead = c :: rest)
    (hlt : ¬ last.any (a.offset < ·) = true) {m' : Found} (hm : p.matchNear t a = some m')
    {stop : Nat} (hstop : Meets p t stop m'.whole.stop) (hstop' : a.offset < stop) :
    scan p (a.crlf t).before (a.crlf t).offset (a.crlf t).ahead last' =
      m' :: scan p ((a.step c rest).crlf t).before ((a.step c rest).crlf t).offset
        ((a.step c rest).crlf t).ahead (some m'.whole.stop) := by
  have hlt' : ¬ last'.any ((a.crlf t).offset < ·) = true := by
    rw [any_lt_eq hlast ha hsome]
    exact hlt
  by_cases hc : c = '\n'
  · subst hc
    have hsplits := ha.splits hahead
    have hcrlf := Cursor.ahead_crlf_newline (t := t) hahead
    rw [matchNear_newline hahead] at hm
    cases hfirst : matchAt p (a.crlf t) with
    | some m =>
        rw [hfirst] at hm
        obtain rfl := Option.some.inj hm
        -- what is found before the line ending reaches beyond it
        have hbeyond : (a.crlf t).offset + 1 < m.whole.stop :=
          ((hstop a ha hsome).2 rest hahead).mp hstop'
        have hskip : (some m.whole.stop).any ((a.crlf t).offset + 1 < ·) = true :=
          decide_eq_true hbeyond
        rw [scan_some hp hcrlf hlt' hfirst, scan_skip hsplits.ahead hskip, hsplits.step]
    | none =>
        rw [hfirst] at hm
        have hmid : ¬ last'.any ((a.crlf t).offset + 1 < ·) = true := by
          rw [any_lt_eq_mid hlast ha hsome hahead]
          exact hlt
        rw [scan_none hcrlf hfirst, scan_some hp hsplits.ahead hmid hm, hsplits.step]
  · rw [matchNear_cons hahead hc] at hm
    rw [scan_some hp (Cursor.ahead_crlf_cons hahead hc) hlt' hm, ha.step_crlf hahead hc]

end

/-- Two scans that have stopped at two places before go on alike. -/
theorem scan_related (hp : p.consumes = true) {rel : Found → Found → Prop}
    (h : ∀ a, a.PlaceOf t → Option.Rel rel (matchAt p a) (p.matchNear t a))
    (hstop : ∀ m m', rel m m' → Meets p t m.whole.stop m'.whole.stop) (ha : a.PlaceOf t)
    {last last' : Option Nat} (hlast : Option.Rel (Meets p t) last last') :
    List.Forall₂ rel (scan p a.before a.offset a.ahead last)
      (scan p (a.crlf t).before (a.crlf t).offset (a.crlf t).ahead last') := by
  have hhere := h a ha
  induction hahead : a.ahead generalizing a last last' with
  | nil =>
      rw [← hahead, scan_nil hp hahead, scan_nil hp (Cursor.ahead_crlf_nil hahead)]
      exact .nil
  | cons c rest ih =>
      have hplace := ha.step hahead
      have hlater : ∀ {last last' : Option Nat}, Option.Rel (Meets p t) last last' →
          List.Forall₂ rel (scan p (a.step c rest).before (a.step c rest).offset
            (a.step c rest).ahead last) (scan p ((a.step c rest).crlf t).before
              ((a.step c rest).crlf t).offset ((a.step c rest).crlf t).ahead last') :=
        fun hlast => ih hplace hlast (h _ hplace) rfl
      rw [← hahead]
      cases hm : matchAt p a with
      | none =>
          rw [hm, rel_none_iff] at hhere
          rw [scan_none hahead hm, scan_crlf_none ha hahead hhere]
          exact hlater hlast
      | some m =>
          have hsome := Option.isSome_of_mem hm
          rw [hm, rel_some_iff] at hhere
          obtain ⟨m', hm', hrel⟩ := hhere
          have hmeets := hstop m m' hrel
          by_cases hlt : last.any (a.offset < ·) = true
          · rw [scan_skip hahead hlt, scan_crlf_skip hlast ha hsome hahead hlt]
            exact hlater hlast
          · have hlt' : a.offset < m.whole.stop := (lt_stop_of_matchAt hp hm).2.2
            rw [scan_some hp hahead hlt hm,
              scan_crlf_some hlast ha hsome hp hahead hlt hm' hmeets hlt']
            exact .cons hrel (hlater (.some hmeets))

theorem findAll_related (hp : p.consumes = true) {rel : Found → Found → Prop}
    (h : ∀ a, a.PlaceOf t → Option.Rel rel (matchAt p a) (p.matchNear t a))
    (hstop : ∀ m m', rel m m' → Meets p t m.whole.stop m'.whole.stop) :
    List.Forall₂ rel (p.findAll t) (p.findAll (Text.crlf t)) := by
  have hscan := scan_related hp h hstop (Cursor.start_placeOf t) .none
  rw [Cursor.start_crlf] at hscan
  exact hscan

/-! ### Patterns that ignore carriage returns -/

/-- Whether a pattern matches at the counterparts of the places where it matches, and not inside a
line ending. -/
def ignoresReturns (p : Pattern) : Bool :=
  p.steady .dominated && p.atSplit .dominated == .failing

/-- What a pattern finds behind a place, if what lies before it is counted in. -/
theorem run_between_crlf {next x : Cursor} {f : Found → Found} (hp : p.steady .dominated = true)
    (hnext : next.PlaceOf t) (hbetween : ∀ b groups, b.PlaceOf t → PlacesOf t groups →
      Found.between x (b.crlf t) (crlfGroups t groups) = f (Found.between a b groups)) :
    run p (next.crlf t) [] (fun b groups => some (Found.between x b groups)) =
      (run p next [] fun b groups => some (Found.between a b groups)).map f := by
  have hfollows : Follows t f (fun b groups => some (Found.between a b groups))
      fun b groups => some (Found.between x b groups) :=
    fun b groups hb hg => congrArg some (hbetween b groups hb hg)
  have hblind : Blind fun b groups => some (Found.between x b groups) := fun _ _ _ _ => rfl
  have hlevel : Level.dominated.Holds fun b groups => some (Found.between x b groups) :=
    fun _ _ _ _ _ => rfl
  exact hfollows.run hp hblind hlevel next [] hnext (List.forall_mem_nil _)

/-- Nothing is found inside a line ending. -/
theorem run_splits {mid next x : Cursor} (hp : p.atSplit .dominated = .failing)
    (h : Cursor.Splits mid next) :
    run p mid [] (fun b groups => some (Found.between x b groups)) = none := by
  have hblind : Blind fun b groups => some (Found.between x b groups) := fun _ _ _ _ => rfl
  have hlevel : Level.dominated.Holds fun b groups => some (Found.between x b groups) :=
    fun _ _ _ _ _ => rfl
  have hrun := hlevel.run (p := p) hblind
  rw [hp] at hrun
  exact hrun mid next [] h

/-- **What a steady pattern matches at the counterpart of a place is the counterpart of what it
matches there.** -/
theorem matchAt_crlf (hp : p.steady .dominated = true) (ha : a.PlaceOf t) :
    matchAt p (a.crlf t) = (matchAt p a).map (Found.crlf t) :=
  run_between_crlf hp ha fun _ _ => Found.between_crlf ha

theorem matchAt_splits (hp : p.atSplit .dominated = .failing) {mid next : Cursor}
    (h : Cursor.Splits mid next) : matchAt p mid = none := run_splits hp h

theorem matchNear_crlf (hp : p.ignoresReturns = true) (ha : a.PlaceOf t) :
    p.matchNear t a = (matchAt p a).map (Found.crlf t) := by
  obtain ⟨hsteady, hfailing⟩ := Bool.and_eq_true_iff.mp hp
  have hhere := matchAt_crlf hsteady ha
  cases hahead : a.ahead with
  | nil => rw [matchNear_of_ne (by simp [hahead]), hhere]
  | cons c rest =>
      by_cases hc : c = '\n'
      · subst hc
        rw [matchNear_newline hahead, hhere, matchAt_splits (beq_iff_eq.mp hfailing) (ha.splits hahead),
          Option.or_none]
      · rw [matchNear_cons hahead hc, hhere]

/-- The matches of a text and their counterparts. -/
def Counterparts (p : Pattern) (t : Text) (m m' : Found) : Prop := Finds p t m ∧ m' = m.crlf t

theorem counterparts_matchNear (hp : p.ignoresReturns = true) (ha : a.PlaceOf t) :
    Option.Rel (Counterparts p t) (matchAt p a) (p.matchNear t a) := by
  rw [matchNear_crlf hp ha]
  cases hm : matchAt p a with
  | none => exact .none
  | some m =>
      obtain ⟨pre, hpre⟩ := ha
      exact .some ⟨⟨pre, a, hpre, hm⟩, rfl⟩

theorem find?_crlf (hp : p.ignoresReturns = true) (t : Text) :
    p.find? (Text.crlf t) = (p.find? t).map (Found.crlf t) := by
  have hrel := find?_related fun a => counterparts_matchNear (a := a) (t := t) hp
  cases hfound : p.find? t with
  | none =>
      rw [hfound, rel_none_iff] at hrel
      exact hrel
  | some m =>
      rw [hfound, rel_some_iff] at hrel
      obtain ⟨m', hm', -, rfl⟩ := hrel
      exact hm'

theorem occursIn_crlf (hp : p.ignoresReturns = true) (t : Text) :
    p.occursIn (Text.crlf t) = p.occursIn t := by
  rw [occursIn, occursIn, find?_crlf hp, Option.isSome_map]

/-- Behind a part of a text there is a place. -/
theorem exists_placeOf_stop {s : Span} (h : s.PartOf t) :
    ∃ b : Cursor, b.PlaceOf t ∧ b.offset = s.stop ∧ (b.crlf t).offset = (s.crlf t).stop := by
  obtain ⟨pre, post, ht, hstart⟩ := h
  have hpass := Cursor.passes_within_start (pre ++ s.text) post []
  rw [List.append_nil, ← ht] at hpass
  refine ⟨_, ⟨_, hpass⟩, ?_, ?_⟩
  · rw [hpass.offset_start, Text.size_append, Span.stop, hstart]
  · have hat : t.crlfOffset s.start = Text.size (Text.crlf pre) := by
      rw [hstart, ht, List.append_assoc, Text.crlfOffset_size]
    rw [hpass.offset_crlf, Text.crlf_append, Text.size_append, ← hat]
    rfl

/-- **The matches of a text are, one by one, those of the text with the other line endings.** -/
theorem findAll_crlf (hp : p.ignoresReturns = true) (hconsumes : p.consumes = true) (t : Text) :
    p.findAll (Text.crlf t) = (p.findAll t).map (Found.crlf t) := by
  have hstop : ∀ m m', Counterparts p t m m' → Meets p t m.whole.stop m'.whole.stop := by
    rintro m m' ⟨hfinds, rfl⟩
    obtain ⟨b, hb, hoffset, hoffset'⟩ := exists_placeOf_stop hfinds.whole_partOf
    have hmeets := Meets.of_place (p := p) hb
    rw [hoffset, hoffset'] at hmeets
    exact hmeets
  have hall := findAll_related hconsumes (fun a => counterparts_matchNear (a := a) hp) hstop
  have hmap := map_eq_of_forall₂ (g := id) hall fun _ _ h => h.2
  rw [List.map_id] at hmap
  exact hmap

theorem findSpans_crlf (hp : p.ignoresReturns = true) (hconsumes : p.consumes = true) (t : Text) :
    p.findSpans (Text.crlf t) = (p.findSpans t).map (Span.crlf t) := by
  rw [findSpans, findAll_crlf hp hconsumes, findSpans, List.map_map, List.map_map]
  rfl

theorem findGroups_crlf (hp : p.ignoresReturns = true) (hconsumes : p.consumes = true) (i : Nat)
    (t : Text) : p.findGroups i (Text.crlf t) = (p.findGroups i t).map (Span.crlf t) := by
  rw [findGroups, findAll_crlf hp hconsumes, findGroups, List.filterMap_map, List.map_filterMap]
  exact List.filterMap_congr fun m _ => Found.group?_crlf t m i

end

end Pattern

end SnippetLint
