/-
Matches that begin or stop inside a line ending.

A pattern need not ignore carriage returns to find the same.  Where a single blank begins it, a match
that began at a line feed begins between the carriage return and the line feed of the other text;
what it remembers, and where it stops, is the same (`SameGroups`).  Where what ends it passes a line
feed and a carriage return alike, it matches at the same places, and only how much it takes up
differs.  And a match may stop at the end of a line with the carriage return or without it, as long
as the pattern begins nowhere with a line feed (`Meets.of_mid`).
-/
import SnippetLint.Proofs.LineEndings.Checks

namespace SnippetLint

/-- What becomes of a match that begins with a line feed if it begins behind the carriage return. -/
def Found.late (t : Text) (m : Found) : Found :=
  ⟨⟨t.crlfOffset m.whole.start + 1, (Text.crlf m.whole.text).tail⟩, (m.crlf t).groups⟩

namespace Pattern

variable {p q : Pattern} {t : Text} {a : Cursor} {c : Char} {rest : Text}

theorem matchAt_either : matchAt (p ||| q) a = (matchAt p a).or (matchAt q a) := by
  show run (either p q) a [] _ = _
  rw [run, ← matchAt, ← matchAt]
  cases matchAt p a <;> rfl

/-! ### Matches at the same places -/

section

variable (hp : p.steady .skipping = true)

include hp

theorem isSome_matchAt_crlf (ha : a.PlaceOf t) :
    (matchAt p (a.crlf t)).isSome = (matchAt p a).isSome := by
  have hfollows : Follows t id (fun _ _ => some ()) fun _ _ => some () := fun _ _ _ _ => rfl
  have hblind : Blind fun _ _ => some () := fun _ _ _ _ => rfl
  have hlevel : Level.skipping.Holds fun _ _ => some () := fun _ _ _ _ => rfl
  have hrun := hfollows.run hp hblind hlevel a [] ha (List.forall_mem_nil _)
  rw [Option.map_id_apply] at hrun
  have hreach : ∀ b, (matchAt p b).isSome = (run p b [] fun _ _ => some ()).isSome := by
    intro b
    rw [Bool.eq_iff_iff]
    exact ⟨isSome_run_mono fun _ _ _ _ => rfl, isSome_run_mono fun _ _ _ _ => rfl⟩
  rw [hreach, hreach]
  exact congrArg Option.isSome hrun

/-- **The first match begins at the same place.** -/
theorem find?_samePlace (hmid : p.atSplit .dominated = .failing) (t : Text) :
    Option.Rel (fun m m' => SamePlace t m.whole.start m'.whole.start) (p.find? t)
      (p.find? (Text.crlf t)) := by
  refine find?_related fun a ha => ?_
  have hsome := isSome_matchAt_crlf hp ha
  have hnear : p.matchNear t a = matchAt p (a.crlf t) := by
    cases hahead : a.ahead with
    | nil => exact matchNear_of_ne (by simp [hahead])
    | cons c rest =>
        by_cases hc : c = '\n'
        · subst hc
          rw [matchNear_newline hahead, matchAt_splits hmid (ha.splits hahead), Option.or_none]
        · exact matchNear_cons hahead hc
  rw [hnear]
  cases hm : matchAt p a with
  | none =>
      rw [hm] at hsome
      exact rel_none_iff.mpr (Option.isSome_eq_false_iff.mp hsome |> Option.isNone_iff_eq_none.mp)
  | some m =>
      rw [hm] at hsome
      obtain ⟨m', hm'⟩ := Option.isSome_iff_exists.mp hsome
      obtain ⟨_, _, _, rfl⟩ := exists_matches_of_matchAt hm
      obtain ⟨_, _, _, rfl⟩ := exists_matches_of_matchAt hm'
      obtain ⟨pre, hpre⟩ := ha
      rw [hm']
      exact .some ⟨pre, a.ahead, hpre.eq_append, hpre.offset_start, hpre.offset_crlf⟩

end

/-! ### Matches that stop at a carriage return -/

/-- Places at the same offset have the same ahead of them. -/
theorem PlaceOf.ahead_eq {b : Cursor} (ha : a.PlaceOf t) (hb : b.PlaceOf t)
    (h : a.offset = b.offset) : a.ahead = b.ahead := by
  obtain ⟨pre, hpre⟩ := ha
  obtain ⟨pre', hpre'⟩ := hb
  rw [hpre.offset_start, hpre'.offset_start] at h
  have hpost : Text.after t (Text.size pre) = .ok a.ahead := by
    rw [hpre.eq_append, Text.after_size]
  have hpost' : Text.after t (Text.size pre) = .ok b.ahead := by
    rw [h, hpre'.eq_append, Text.after_size]
  exact Except.ok.inj (hpost.symm.trans hpost')

/-- A place and the one inside the line ending there leave out the same, if nothing is to be found at
a line feed. -/
theorem Meets.of_mid {b : Cursor} (hb : b.PlaceOf t) (hahead : b.ahead = '\n' :: rest)
    (h : ∀ a, (matchAt p a).isSome = true → ∀ rest, a.ahead ≠ '\n' :: rest) :
    Meets p t b.offset ((b.crlf t).offset + 1) := by
  intro a ha hsome
  refine ⟨?_, fun rest hrest => absurd hrest (h a hsome rest)⟩
  have hne : a.offset ≠ b.offset := fun heq =>
    h a hsome rest ((PlaceOf.ahead_eq ha hb heq).trans hahead)
  have hhere := ha.offset_lt_iff hb
  have hnext := ha.offset_lt_iff (hb.step hahead)
  have hstep : (b.step '\n' rest).offset = b.offset + 1 := rfl
  have hstep' : ((b.step '\n' rest).crlf t).offset = (b.crlf t).offset + 2 :=
    hb.offset_step hahead
  omega

/-! ### A single blank in front -/

/-- Matches that remember the same and stop at the same place. -/
structure SameGroups (p : Pattern) (t : Text) (m m' : Found) : Prop where
  finds : Finds p t m
  groups : m'.groups = (m.crlf t).groups
  stop : m'.whole.stop = (m.crlf t).whole.stop

section

variable {f : Char → Bool}

theorem matchAt_one_append_nil (hahead : a.ahead = []) : matchAt (one f ++ q) a = none := by
  show run (both (one f) q) a [] _ = _
  rw [run, run, hahead]

theorem matchAt_one_append_cons (hahead : a.ahead = c :: rest) : matchAt (one f ++ q) a =
    if f c then run q (a.step c rest) [] fun b g => some (Found.between a b g) else none := by
  show run (both (one f) q) a [] _ = _
  rw [run, run, hahead]

/-- What lies between two places, as seen from inside the line ending at the first. -/
theorem between_splits {b : Cursor} {g : Groups} (ha : a.PlaceOf t) (hahead : a.ahead = '\n' :: rest)
    (hb : b.PlaceOf t) (hg : PlacesOf t g) :
    Found.between ((a.crlf t).step '\r' ('\n' :: Text.crlf rest)) (b.crlf t) (crlfGroups t g) =
      (Found.between a b g).late t := by
  have hgroups := congrArg Found.groups (Found.between_crlf ha hb hg)
  have hsplits := ha.splits hahead
  have hwhole : Span.between ((a.crlf t).step '\r' ('\n' :: Text.crlf rest)) (b.crlf t) =
      ⟨t.crlfOffset a.offset + 1, (Text.crlf (Span.between a b).text).tail⟩ := by
    by_cases hlt : a.offset < b.offset
    · obtain ⟨s, hs⟩ := ha.exists_passes hb hlt
      obtain ⟨d, more, rfl⟩ : ∃ d more, s = d :: more := by
        refine List.exists_cons_of_ne_nil ?_
        rintro rfl
        rw [hs.eq_of_nil] at hlt
        exact Nat.lt_irrefl _ hlt
      have hd : d = '\n' := (List.cons.inj (hs.ahead.symm.trans hahead)).1
      subst hd
      have hnext := (ha.step hahead).passes_crlf (hs.step hahead)
      have hmid := Cursor.passes_step hsplits.ahead
      rw [hsplits.step] at hmid
      rw [Span.between_eq hs, Span.between_eq (hmid.trans hnext)]
      rfl
    · have hle : b.offset - a.offset = 0 := by omega
      have hle' : (b.crlf t).offset - ((a.crlf t).step '\r' ('\n' :: Text.crlf rest)).offset = 0 := by
        have hplaces := mt (ha.offset_lt_iff hb).mp hlt
        have hmid : ((a.crlf t).step '\r' ('\n' :: Text.crlf rest)).offset = (a.crlf t).offset + 1 :=
          rfl
        omega
      rw [Span.between, Span.between, hle, hle', Span.take_zero, Span.take_zero]
      rfl
  show Found.mk _ _ = Found.mk _ _
  rw [hwhole]
  exact congrArg (Found.mk _) hgroups

theorem stop_late {m : Found} (h : matchAt (one f ++ q) a = some m) (hahead : a.ahead = '\n' :: rest) :
    (m.late t).whole.stop = (m.crlf t).whole.stop := by
  obtain ⟨hstart, hne, -⟩ := lt_stop_of_matchAt rfl h
  obtain ⟨b, new, hmatch, rfl⟩ := exists_matches_of_matchAt h
  obtain ⟨s, hs⟩ := hmatch.passes
  have hwhole : (Found.between a b new).whole = ⟨a.offset, s⟩ := Span.between_eq hs
  rw [hwhole] at hne
  obtain ⟨d, more, rfl⟩ := List.exists_cons_of_ne_nil hne
  have hd : d = '\n' := (List.cons.inj (hs.ahead.symm.trans hahead)).1
  rw [Found.late, Found.crlf, hwhole, Span.crlf, hd, Text.crlf_newline]
  show t.crlfOffset a.offset + 1 + Text.size _ = t.crlfOffset a.offset + Text.size _
  rw [List.tail_cons, Text.size_cons, Nat.add_assoc]
  rfl

section

variable (hp : ∀ a, matchAt p a = matchAt (one f ++ q) a)

include hp

/-- At a line ending the blank is its line feed, not its carriage return. -/
theorem matchNear_one_newline (hfeed : f '\n' = true) (hreturn : f '\r' = true)
    (hq : q.ignoresReturns = true) (ha : a.PlaceOf t) (hahead : a.ahead = '\n' :: rest) :
    p.matchNear t a = (matchAt p a).map (Found.late t) := by
  obtain ⟨hsteady, hfailing⟩ := Bool.and_eq_true_iff.mp hq
  have hsplits := ha.splits hahead
  rw [matchNear_newline hahead, hp, matchAt_one_append_cons (Cursor.ahead_crlf_newline hahead),
    if_pos hreturn, run_splits (beq_iff_eq.mp hfailing) hsplits, Option.none_or, hp,
    matchAt_one_append_cons hsplits.ahead, if_pos hfeed, hsplits.step,
    run_between_crlf hsteady (ha.step hahead) fun _ _ => between_splits ha hahead, hp,
    matchAt_one_append_cons hahead, if_pos hfeed]

theorem matchNear_one_cons (hq : q.ignoresReturns = true) (ha : a.PlaceOf t)
    (hahead : a.ahead = c :: rest) (hc : c ≠ '\n') :
    p.matchNear t a = (matchAt p a).map (Found.crlf t) := by
  obtain ⟨hsteady, -⟩ := Bool.and_eq_true_iff.mp hq
  rw [matchNear_cons hahead hc, hp, hp,
    matchAt_one_append_cons (Cursor.ahead_crlf_cons hahead hc), matchAt_one_append_cons hahead,
    ha.step_crlf hahead hc]
  split
  · exact run_between_crlf hsteady (ha.step hahead) fun _ _ => Found.between_crlf ha
  · rfl

/-- **What a single blank begins is found near each place at which it was found before.** -/
theorem sameGroups_matchNear (hfeed : f '\n' = true) (hreturn : f '\r' = true)
    (hq : q.ignoresReturns = true) (ha : a.PlaceOf t) :
    Option.Rel (SameGroups p t) (matchAt p a) (p.matchNear t a) := by
  obtain ⟨pre, hpre⟩ := id ha
  have hrelated : ∀ g : Found → Found, (∀ m, (g m).groups = (m.crlf t).groups) →
      (∀ m, matchAt p a = some m → (g m).whole.stop = (m.crlf t).whole.stop) →
      Option.Rel (SameGroups p t) (matchAt p a) ((matchAt p a).map g) := by
    intro g hgroups hstop
    cases hm : matchAt p a with
    | none => exact .none
    | some m => exact .some ⟨⟨pre, a, hpre, hm⟩, hgroups m, hstop m hm⟩
  cases hahead : a.ahead with
  | nil =>
      have hnone : ∀ b : Cursor, b.ahead = [] → matchAt p b = none := fun b hb =>
        (hp b).trans (matchAt_one_append_nil hb)
      rw [matchNear_of_ne (by simp [hahead]), hnone _ hahead, hnone _ (Cursor.ahead_crlf_nil hahead)]
      exact .none
  | cons c rest =>
      by_cases hc : c = '\n'
      · subst hc
        rw [matchNear_one_newline hp hfeed hreturn hq ha hahead]
        exact hrelated _ (fun _ => rfl) fun m hm => stop_late ((hp a).symm.trans hm) hahead
      · rw [matchNear_one_cons hp hq ha hahead hc]
        exact hrelated _ (fun _ => rfl) fun _ _ => rfl

end

theorem SameGroups.meets {m m' : Found} (h : SameGroups p t m m') :
    Meets p t m.whole.stop m'.whole.stop := by
  obtain ⟨b, hb, hoffset, hoffset'⟩ := exists_placeOf_stop h.finds.whole_partOf
  have hmeets := Meets.of_place (p := p) hb
  have hstop : (m.whole.crlf t).stop = m'.whole.stop := h.stop.symm
  rw [hoffset, hoffset', hstop] at hmeets
  exact hmeets

section

variable (hp : ∀ a, matchAt p a = matchAt (one f ++ q) a) (hfeed : f '\n' = true)
  (hreturn : f '\r' = true) (hq : q.ignoresReturns = true) (t : Text)

include hp hfeed hreturn hq

theorem occursIn_crlf_of_one : p.occursIn (Text.crlf t) = p.occursIn t := by
  have hrel := find?_related fun a => sameGroups_matchNear (a := a) (t := t) hp hfeed hreturn hq
  rw [occursIn, occursIn]
  generalize p.find? t = first at hrel
  generalize p.find? (Text.crlf t) = first' at hrel
  cases hrel <;> rfl

theorem findGroups_crlf_of_one (hconsumes : p.consumes = true) (i : Nat) :
    p.findGroups (i + 1) (Text.crlf t) = (p.findGroups (i + 1) t).map (Span.crlf t) := by
  have hall := findAll_related hconsumes
    (fun a => sameGroups_matchNear (a := a) (t := t) hp hfeed hreturn hq) fun _ _ h => h.meets
  rw [findGroups, findGroups, List.map_filterMap]
  generalize p.findAll t = found at hall
  generalize p.findAll (Text.crlf t) = found' at hall
  induction hall with
  | nil => rfl
  | @cons m m' _ _ h _ ih =>
      have hgroup : m'.group? (i + 1) = (m.group? (i + 1)).map (Span.crlf t) := by
        rw [← Found.group?_crlf]
        exact congrArg (List.lookup (i + 1)) h.groups
      rw [List.filterMap_cons, List.filterMap_cons, hgroup, ih]

end

end

end Pattern

end SnippetLint
