/-
Checks that do not tell line endings apart.

A check is steady if it points to the same lines of a text with either line endings, and shows the
same of them.  What it says may still differ, where it quotes more than one line.  The proof for a
check follows how it is put together: two computations run side by side (`Alike`), and what they
compute is related member by member.  A pattern that ignores carriage returns brings in the
counterparts of what it finds, tests on these have the same outcome, and an offset is reported with
the line around it, which is the same at both places (`SamePlace`).
-/
import SnippetLint.Proofs.LineEndings.Search
import SnippetLint.Proofs.Names
import SnippetLint.Proofs.Pattern.Avoids
import SnippetLint.Proofs.Repeats

namespace SnippetLint

/-! ### Computations side by side -/

/-- If the first computation finishes, so does the second one, and their results are related. -/
def Alike {α β : Type} (R : α → β → Prop) (x : Checked α) (y : Checked β) : Prop :=
  Gives x fun a => Yields y (R a)

section

variable {α β γ δ : Type} {R : α → β → Prop} {S : γ → δ → Prop}

theorem alike_pure {a : α} {b : β} (h : R a b) : Alike R (pure a) (pure b) :=
  gives_pure (yields_pure h)

theorem alike_of_eq {x y : Checked α} (h : y = x) : Alike Eq x y :=
  fun a ha => ⟨a, h.trans ha, rfl⟩

theorem Alike.bind {x : Checked α} {y : Checked β} {f : α → Checked γ} {g : β → Checked δ}
    (hx : Alike R x y) (hf : ∀ a b, R a b → Alike S (f a) (g b)) :
    Alike S (x >>= f) (y >>= g) := by
  refine Gives.bind hx fun a hy => ?_
  obtain ⟨b, rfl, hab⟩ := hy
  exact hf a b hab

variable {l : List α} {l' : List β} (hl : List.Forall₂ R l l')

include hl

theorem alike_mapM {f : α → Checked γ} {g : β → Checked δ}
    (hf : ∀ a b, R a b → Alike S (f a) (g b)) :
    Alike (List.Forall₂ S) (l.mapM f) (l'.mapM g) := by
  induction hl with
  | nil => exact alike_pure .nil
  | cons hab _ ih =>
      rw [List.mapM_cons, List.mapM_cons]
      refine (hf _ _ hab).bind fun c d hcd => ih.bind fun cs ds hcds => ?_
      exact alike_pure (.cons hcd hcds)

theorem alike_filterMapM {f : α → Checked (Option γ)} {g : β → Checked (Option δ)}
    (hf : ∀ a b, R a b → Alike (Option.Rel S) (f a) (g b)) :
    Alike (List.Forall₂ S) (l.filterMapM f) (l'.filterMapM g) := by
  induction hl with
  | nil => exact alike_pure .nil
  | cons hab _ ih =>
      rw [List.filterMapM_cons, List.filterMapM_cons]
      refine (hf _ _ hab).bind fun c d hcd => ?_
      cases hcd with
      | none => exact ih
      | some hcd => exact ih.bind fun cs ds hcds => alike_pure (.cons hcd hcds)

theorem alike_filterM {f : α → Checked Bool} {g : β → Checked Bool}
    (hf : ∀ a b, R a b → Alike Eq (f a) (g b)) :
    Alike (List.Forall₂ R) (l.filterM f) (l'.filterM g) := by
  have hloop : ∀ acc acc', List.Forall₂ R acc acc' →
      Alike (List.Forall₂ R) (List.filterAuxM f l acc) (List.filterAuxM g l' acc') := by
    induction hl with
    | nil => exact fun acc acc' hacc => alike_pure hacc
    | cons hab _ ih =>
        intro acc acc' hacc
        refine (hf _ _ hab).bind fun keep keep' hkeep => ?_
        subst hkeep
        refine ih _ _ ?_
        cases keep with
        | false => exact hacc
        | true => exact .cons hab hacc
  exact (hloop [] [] .nil).bind fun kept kept' h => alike_pure (List.rel_reverse h)

end

/-! ### Counterparts of members -/

section

variable {α β : Type} {R : α → β → Prop} {l : List α} {l' : List β}

/-- The members of a list and what becomes of them. -/
def Becomes (l : List α) (f : α → β) (a : α) (b : β) : Prop := a ∈ l ∧ b = f a

theorem any_eq_of_mem {p q : α → Bool} (h : ∀ a ∈ l, q a = p a) : l.any q = l.any p := by
  rw [Bool.eq_iff_iff, List.any_eq_true, List.any_eq_true]
  exact exists_congr fun a => and_congr_right fun ha => by rw [h a ha]

theorem forall₂_becomes {f : α → β} (h : l' = l.map f) : List.Forall₂ (Becomes l f) l l' := by
  rw [h, List.forall₂_map_right_iff, List.forall₂_same]
  exact fun a ha => ⟨ha, rfl⟩

theorem forall₂_filter (hl : List.Forall₂ R l l') {p : α → Bool} {q : β → Bool}
    (h : ∀ a b, R a b → q b = p a) : List.Forall₂ R (l.filter p) (l'.filter q) :=
  List.rel_filter (fun a b hab => (congrArg (· = true) (h a b hab)).symm.to_iff) hl

theorem forall₂_mergeSort {f : α → β} {le : α → α → Bool} {le' : β → β → Bool}
    (hl : List.Forall₂ R l l') (hf : ∀ a b, R a b → b = f a)
    (hle : ∀ a a' b b', R a b → R a' b' → le' b b' = le a a') :
    List.Forall₂ R (l.mergeSort le) (l'.mergeSort le') := by
  have hmap : l' = l.map f := by
    rw [← map_eq_of_forall₂ (g := id) hl hf, List.map_id]
  subst hmap
  rw [List.forall₂_map_right_iff, List.forall₂_same] at hl
  have hsort := List.map_mergeSort fun a ha b hb => (hle a b _ _ (hl a ha) (hl b hb)).symm
  rw [← hsort, List.forall₂_map_right_iff, List.forall₂_same]
  exact fun a ha => hl a (List.mem_mergeSort.mp ha)

end

section

variable {R : Span → Span → Prop} {l l' : List Span}

theorem contains_map_crlf (seen : List Text) (w : Text) :
    (seen.map Text.crlf).contains (Text.crlf w) = seen.contains w := by
  have hinjective : Function.Injective Text.crlf := fun _ _ h => Text.crlf_injective h
  rw [Bool.eq_iff_iff, List.contains_iff_mem, List.contains_iff_mem,
    List.mem_map_of_injective hinjective]

/-- Texts that are told apart before are told apart afterwards. -/
theorem forall₂_firsts (h : ∀ s s', R s s' → s'.text = Text.crlf s.text) (hl : List.Forall₂ R l l') :
    List.Forall₂ R (firsts Span.text l) (firsts Span.text l') := by
  have hloop : ∀ seen, List.Forall₂ R (firstsAfter Span.text seen l)
      (firstsAfter Span.text (seen.map Text.crlf) l') := by
    induction hl with
    | nil => exact fun _ => .nil
    | @cons s s' _ _ hs _ ih =>
        intro seen
        rw [firstsAfter, firstsAfter, h s s' hs, contains_map_crlf]
        split
        · exact ih seen
        · exact .cons hs (ih (s.text :: seen))
  exact hloop []

theorem forall₂_repeats (h : ∀ s s', R s s' → s'.text = Text.crlf s.text)
    (hl : List.Forall₂ R l l') :
    List.Forall₂ R (repeats Span.text l) (repeats Span.text l') := by
  have hloop : ∀ seen, List.Forall₂ R (repeatsAfter Span.text seen l)
      (repeatsAfter Span.text (seen.map Text.crlf) l') := by
    induction hl with
    | nil => exact fun _ => .nil
    | @cons s s' _ _ hs _ ih =>
        intro seen
        rw [repeatsAfter, repeatsAfter, h s s' hs, contains_map_crlf]
        split
        · exact .cons hs (ih seen)
        · exact ih (s.text :: seen)
  exact hloop []

end

/-! ### Places -/

/-- Offsets of a text and of the text with the other line endings that mark the same place. -/
def SamePlace (t : Text) (offset offset' : Nat) : Prop :=
  ∃ pre post, t = pre ++ post ∧ offset = Text.size pre ∧ offset' = Text.size (Text.crlf pre)

section

variable {t : Text} {x x' y y' : Nat} {s : Span}

theorem SamePlace.lt_iff (hx : SamePlace t x x') (hy : SamePlace t y y') : x' < y' ↔ x < y := by
  obtain ⟨pre, post, ht, rfl, rfl⟩ := hx
  obtain ⟨pre', post', ht', rfl, rfl⟩ := hy
  exact Text.size_crlf_lt_iff (ht.symm.trans ht')

theorem SamePlace.le_iff (hx : SamePlace t x x') (hy : SamePlace t y y') : x' ≤ y' ↔ x ≤ y := by
  have hlt := hy.lt_iff hx
  omega

/-- A place of one of the pieces that a text is made of. -/
theorem SamePlace.shift {pre piece post : Text} (ht : t = pre ++ piece ++ post)
    (h : SamePlace piece x x') :
    SamePlace t (Text.size pre + x) (Text.size (Text.crlf pre) + x') := by
  obtain ⟨before, after, rfl, rfl, rfl⟩ := h
  exact ⟨pre ++ before, after ++ post, by simp [ht], (Text.size_append ..).symm, by simp⟩

theorem SamePlace.eq_crlfOffset (h : SamePlace t x x') : x' = t.crlfOffset x := by
  obtain ⟨pre, post, rfl, rfl, rfl⟩ := h
  exact (Text.crlfOffset_size pre post).symm

/-- Spans that begin at the same place, the second with the text of the first but for the line
endings. -/
def SameSpan (t : Text) (s s' : Span) : Prop :=
  SamePlace t s.start s'.start ∧ s'.text = Text.crlf s.text

theorem SameSpan.eq_crlf {s' : Span} (h : SameSpan t s s') : s' = s.crlf t := by
  show Span.mk s'.start s'.text = _
  rw [h.1.eq_crlfOffset, h.2]
  rfl

theorem Span.PartOf.samePlace (h : s.PartOf t) : SamePlace t s.start (s.crlf t).start := by
  obtain ⟨pre, post, ht, hstart⟩ := h
  rw [List.append_assoc] at ht
  refine ⟨pre, s.text ++ post, ht, hstart, ?_⟩
  rw [Span.crlf, hstart, ht, Text.crlfOffset_size]

theorem Span.PartOf.samePlace_stop (h : s.PartOf t) : SamePlace t s.stop (s.crlf t).stop := by
  have hstart := h.samePlace
  obtain ⟨pre, post, ht, hpre⟩ := h
  obtain ⟨b, hb, hoffset, hoffset'⟩ := Pattern.exists_placeOf_stop ⟨pre, post, ht, hpre⟩
  obtain ⟨front, hfront⟩ := hb
  exact ⟨front, b.ahead, hfront.eq_append, hoffset ▸ hfront.offset_start,
    hoffset' ▸ hfront.offset_crlf⟩

end

namespace Pattern

section

variable {p : Pattern} (hp : p.ignoresReturns = true) (hconsumes : p.consumes = true)

include hp hconsumes

theorem becomes_findAll (t : Text) : List.Forall₂ (Becomes (p.findAll t) (Found.crlf t))
    (p.findAll t) (p.findAll (Text.crlf t)) := forall₂_becomes (findAll_crlf hp hconsumes t)

theorem becomes_findSpans (t : Text) : List.Forall₂ (Becomes (p.findSpans t) (Span.crlf t))
    (p.findSpans t) (p.findSpans (Text.crlf t)) := forall₂_becomes (findSpans_crlf hp hconsumes t)

theorem becomes_findGroups (i : Nat) (t : Text) :
    List.Forall₂ (Becomes (p.findGroups i t) (Span.crlf t)) (p.findGroups i t)
      (p.findGroups i (Text.crlf t)) := forall₂_becomes (findGroups_crlf hp hconsumes i t)

end

end Pattern

namespace Becomes

open Pattern

variable {p : Pattern} {t : Text} {i : Nat} {s s' : Span} {m m' : Found}

theorem samePlace_of_span (h : Becomes (p.findSpans t) (Span.crlf t) s s') :
    SamePlace t s.start s'.start := by
  obtain ⟨hs, rfl⟩ := h
  exact (partOf_of_mem_findSpans hs).samePlace

theorem samePlace_of_group (h : Becomes (p.findGroups (i + 1) t) (Span.crlf t) s s') :
    SamePlace t s.start s'.start := by
  obtain ⟨hs, rfl⟩ := h
  exact (partOf_of_mem_findGroups hs).samePlace

/-- A group on one line has the same text in both. -/
theorem text_of_group (hp : p.groupAvoids '\n' (i + 1) = true)
    (h : Becomes (p.findGroups (i + 1) t) (Span.crlf t) s s') : s'.text = s.text := by
  obtain ⟨hs, rfl⟩ := h
  exact Text.crlf_eq_self (notMem_of_mem_findGroups hp hs)

theorem samePlace_whole (h : Becomes (p.findAll t) (Found.crlf t) m m') :
    SamePlace t m.whole.start m'.whole.start := by
  obtain ⟨hm, rfl⟩ := h
  exact (finds_of_mem_findAll hm).whole_partOf.samePlace

theorem samePlace_group? (h : Becomes (p.findAll t) (Found.crlf t) m m') (i : Nat) :
    Option.Rel (fun s s' : Span => SamePlace t s.start s'.start) (m.group? (i + 1))
      (m'.group? (i + 1)) := by
  obtain ⟨hm, rfl⟩ := h
  rw [Found.group?_crlf]
  cases hs : m.group? (i + 1) with
  | none => exact .none
  | some s => exact .some ((finds_of_mem_findAll hm).group?_partOf hs).1.samePlace

end Becomes

/-! ### Names in both texts -/

namespace Words

open Pattern

section

variable {t name : Text} (hfeed : '\n' ∉ name) (hreturn : '\r' ∉ name)

include hfeed hreturn

theorem steady_exactly (level : Level) : (exactly name).steady level = true := by
  induction name with
  | nil => rfl
  | cons c rest ih =>
      rw [List.mem_cons, not_or] at hfeed hreturn
      have hone : ∀ level, (one (· == c)).steady level = true := by
        intro level
        simp [steady, beq_false_of_ne hfeed.1, beq_false_of_ne hreturn.1]
      cases rest with
      | nil => exact hone level
      | cons d more => exact Bool.and_eq_true_iff.mpr ⟨hone _, ih hfeed.2 hreturn.2⟩

theorem ignoresReturns_standing : (standing name).ignoresReturns = true := by
  have hexactly := steady_exactly hfeed hreturn .failing
  have hsteady : (standing name).steady .dominated =
      ((true && (exactly name).steady .failing) && true) := rfl
  have hfailing : (standing name).atSplit .dominated = .failing := rfl
  rw [ignoresReturns, hsteady, hexactly, hfailing]
  rfl

end

theorem consumes_standing {name : Text} (hne : name ≠ []) : (standing name).consumes = true := by
  have hexactly : (exactly name).consumes = true := by
    cases name with
    | nil => exact absurd rfl hne
    | cons c rest => cases rest <;> rfl
  have hconsumes : (standing name).consumes = ((false || (exactly name).consumes) || false) := rfl
  rw [hconsumes, hexactly]
  rfl

section

variable {t : Text}

/-- A name is used outside the same part of both texts. -/
theorem usedOutside_crlf {name : Text} (hne : name ≠ []) (hfeed : '\n' ∉ name)
    (hreturn : '\r' ∉ name) {x x' y y' : Nat} (hx : SamePlace t x x') (hy : SamePlace t y y') :
    usedOutside (Text.crlf t) name x' y' = usedOutside t name x y := by
  rw [usedOutside, findSpans_crlf (ignoresReturns_standing hfeed hreturn) (consumes_standing hne),
    List.any_map, usedOutside]
  refine any_eq_of_mem fun s hs => ?_
  have hplace := (partOf_of_mem_findSpans hs).samePlace
  rw [Function.comp, decide_eq_decide.mpr (hplace.lt_iff hx), decide_eq_decide.mpr (hy.le_iff hplace)]

theorem isUsed_crlf {s : Span} (hs : s.PartOf t) (hne : s.text ≠ []) (hfeed : '\n' ∉ s.text)
    (hreturn : '\r' ∉ t) : isUsed (Text.crlf t) (s.crlf t) = isUsed t s := by
  have htext : (s.crlf t).text = s.text := Text.crlf_eq_self hfeed
  have hreturn' : '\r' ∉ s.text := by
    obtain ⟨pre, post, ht, -⟩ := hs
    intro hmem
    exact hreturn (by rw [ht]; simp [hmem])
  rw [isUsed, htext, usedOutside_crlf hne hfeed hreturn' hs.samePlace hs.samePlace_stop, isUsed]

end

end Words

/-! ### Findings -/

namespace Finding

/-- Two findings point to the same line and show the same of it. -/
def SameSight (f f' : Finding) : Prop := f'.line = f.line ∧ f'.snippet = f.snippet

theorem forall₂_sameSight_refl (fs : List Finding) : List.Forall₂ SameSight fs fs :=
  List.forall₂_same.mpr fun _ _ => ⟨rfl, rfl⟩

/-- At the same place of both texts there is the same line. -/
theorem atOffset_alike {t : Text} {x x' : Nat} (h : SamePlace t x x') (message message' : String) :
    Alike SameSight (atOffset t x message) (atOffset (Text.crlf t) x' message') := by
  obtain ⟨pre, post, rfl, rfl, rfl⟩ := h
  rw [atOffset, atOffset, Text.lineAt_crlf]
  intro f hf
  rw [Text.lineAt_append] at hf ⊢
  obtain rfl := Except.ok.inj hf
  exact ⟨_, rfl, rfl, rfl⟩

theorem atSpans_alike {t : Text} {spans spans' : List Span}
    (h : List.Forall₂ (fun s s' => SamePlace t s.start s'.start) spans spans')
    (message message' : Span → String) :
    Alike (List.Forall₂ SameSight) (atSpans t spans message)
      (atSpans (Text.crlf t) spans' message') :=
  alike_mapM h fun _ _ hplace => atOffset_alike hplace _ _

theorem ifMissing_alike (present : Bool) (message message' : String) :
    Alike (List.Forall₂ SameSight) (ifMissing present message) (ifMissing present message') := by
  refine alike_pure ?_
  split
  · exact .nil
  · exact .cons ⟨rfl, rfl⟩ .nil

theorem ifPresent_alike (present : Bool) (message message' : String) :
    Alike (List.Forall₂ SameSight) (ifPresent present message) (ifPresent present message') := by
  refine alike_pure ?_
  split
  · exact .cons ⟨rfl, rfl⟩ .nil
  · exact .nil

end Finding

/-! ### Checks -/

open Finding Pattern

/-- The rules of a language whose checks depend on how lines are ended.  A pattern of each asks for a
certain number of blanks, or for the end of a line right behind spaces and tabs. -/
def Rule.endingIds : Language → List String
  | .python => ["unused-import"]
  | .javascript => ["no-duplicate-imports"]
  | .csharp => ["method-access-modifier"]
  | .java => ["method-naming", "method-access-modifier"]
  | _ => []

/-- A check that points to the same lines of a text with either line endings. -/
def Check.Steady (check : Check) : Prop :=
  ∀ t, '\r' ∉ t → Alike (List.Forall₂ SameSight) (check t) (check (Text.crlf t))

namespace Check

/-- A check that finds the same. -/
theorem steady_of_eq {check : Check} (h : ∀ t, '\r' ∉ t → check (Text.crlf t) = check t) :
    Steady check := by
  intro t ht fs hfs
  rw [h t ht]
  exact ⟨fs, hfs, forall₂_sameSight_refl fs⟩

section

variable {present : Text → Bool} {message : Text → String}
  (h : ∀ t, '\r' ∉ t → present (Text.crlf t) = present t)

include h

theorem steady_ifMissing : Steady fun t => ifMissing (present t) (message t) := by
  intro t ht
  dsimp only
  rw [h t ht]
  exact ifMissing_alike _ _ _

theorem steady_ifPresent : Steady fun t => ifPresent (present t) (message t) := by
  intro t ht
  dsimp only
  rw [h t ht]
  exact ifPresent_alike _ _ _

end

theorem steady_unlessHas (word : String) (hfeed : '\n' ∉ word.toList)
    (hreturn : '\r' ∉ word.toList) {message : Text → String} :
    Steady fun t => ifMissing (Text.has t word) (message t) :=
  steady_ifMissing fun t _ => Text.has_crlf word hfeed hreturn t

section

variable {p : Pattern} {i : Nat} {message : Text → Span → String}

theorem steady_ifOccurs (hp : p.ignoresReturns = true) {message : Text → String} :
    Steady fun t => ifPresent (p.occursIn t) (message t) :=
  steady_ifPresent fun t _ => occursIn_crlf hp t

theorem steady_unlessOccurs (hp : p.ignoresReturns = true) {message : Text → String} :
    Steady fun t => ifMissing (p.occursIn t) (message t) :=
  steady_ifMissing fun t _ => occursIn_crlf hp t

/-- Spans that begin at the same places. -/
theorem steady_atSpans {spans : Text → List Span}
    (h : ∀ t, '\r' ∉ t →
      List.Forall₂ (fun s s' => SamePlace t s.start s'.start) (spans t) (spans (Text.crlf t))) :
    Steady fun t => atSpans t (spans t) (message t) :=
  fun t ht => atSpans_alike (h t ht) _ _

variable (hp : p.ignoresReturns = true) (hconsumes : p.consumes = true)

include hp hconsumes

theorem steady_spans : Steady fun t => atSpans t (p.findSpans t) (message t) :=
  steady_atSpans fun t _ => (becomes_findSpans hp hconsumes t).imp fun _ _ h => h.samePlace_of_span

theorem steady_filterGroups {test : Text → Span → Bool}
    (htest : ∀ t, '\r' ∉ t → ∀ s ∈ p.findGroups (i + 1) t,
      test (Text.crlf t) (s.crlf t) = test t s) :
    Steady fun t => atSpans t ((p.findGroups (i + 1) t).filter (test t)) (message t) := by
  refine steady_atSpans fun t ht => ?_
  refine (forall₂_filter (becomes_findGroups hp hconsumes (i + 1) t) ?_).imp
    fun _ _ h => h.samePlace_of_group
  rintro s s' ⟨hs, rfl⟩
  exact htest t ht s hs

/-- A test on the text of groups that stand on one line. -/
theorem steady_filterGroups_text (havoids : p.groupAvoids '\n' (i + 1) = true) {test : Span → Bool}
    (htest : ∀ s s' : Span, s'.text = s.text → test s' = test s) :
    Steady fun t => atSpans t ((p.findGroups (i + 1) t).filter test) (message t) :=
  steady_filterGroups hp hconsumes fun _ _ s hs =>
    htest s _ (Becomes.text_of_group havoids ⟨hs, rfl⟩)

theorem steady_groups : Steady fun t => atSpans t (p.findGroups (i + 1) t) (message t) :=
  steady_atSpans fun t _ =>
    (becomes_findGroups hp hconsumes (i + 1) t).imp fun _ _ h => h.samePlace_of_group

section

variable {test : Text → Found → Bool}
  (htest : ∀ t, '\r' ∉ t → ∀ m ∈ p.findAll t, test (Text.crlf t) (m.crlf t) = test t m)

include htest

theorem becomes_filterMatches {t : Text} (ht : '\r' ∉ t) :
    List.Forall₂ (Becomes (p.findAll t) (Found.crlf t)) ((p.findAll t).filter (test t))
      ((p.findAll (Text.crlf t)).filter (test (Text.crlf t))) := by
  refine forall₂_filter (becomes_findAll hp hconsumes t) ?_
  rintro m m' ⟨hm, rfl⟩
  exact htest t ht m hm

theorem steady_filterMatches_group : Steady fun t =>
    atSpans t (((p.findAll t).filter (test t)).filterMap (·.group? (i + 1))) (message t) := by
  refine steady_atSpans fun t ht => ?_
  exact List.rel_filterMap (fun _ _ h => h.samePlace_group? i)
    (becomes_filterMatches hp hconsumes htest ht)

theorem steady_filterMatches : Steady fun t =>
    atSpans t (((p.findAll t).filter (test t)).map (·.whole)) (message t) := by
  refine steady_atSpans fun t ht => ?_
  exact List.rel_map (fun _ _ h => h.samePlace_whole)
    (becomes_filterMatches hp hconsumes htest ht)

end

/-- Declared names that are used nowhere else. -/
theorem steady_unused (hgroup : p.groupConsumes (i + 1) = true)
    (havoids : p.groupAvoids '\n' (i + 1) = true) : Steady fun t =>
      atSpans t ((p.findGroups (i + 1) t).filter fun s => !Words.isUsed t s) (message t) := by
  refine steady_filterGroups hp hconsumes fun t ht s hs => ?_
  have hused := Words.isUsed_crlf (partOf_of_mem_findGroups hs) (ne_nil_of_mem_findGroups hgroup hs)
    (notMem_of_mem_findGroups havoids hs) ht
  rw [hused]

end

end Check

end SnippetLint
