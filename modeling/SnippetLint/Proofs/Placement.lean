/-
Checks that finish and point at the right line.

A check is sound when it runs into no fault and whatever line it names is a line of the text, shown
with the snippet that line has.  Both halves come from one fact about the offset that a check hands
on: it is a *place*, the offset of a character of the text.  So each rule's proof says why its
offsets are places, and the lemmas here do the rest.

An offset is often computed in two steps: a part of the text is cut out, and a span is found in that
part.  `PartOf.shift` and `partOf_of_mem_spansIn` say that such spans are parts of the whole text.
-/
import SnippetLint.Proofs.Checked
import SnippetLint.Proofs.Pattern.Extent
import SnippetLint.Proofs.Text.Lines
import SnippetLint.Rule

namespace SnippetLint

/-! ### Places -/

/-- An offset at which a character of the text begins. -/
def Text.IsPlace (t : Text) (offset : Nat) : Prop :=
  ∃ pre c post, t = pre ++ c :: post ∧ offset = Text.size pre

theorem Span.PartOf.isPlace {s : Span} {t : Text} (h : s.PartOf t) (hne : s.text ≠ []) :
    t.IsPlace s.start := by
  obtain ⟨pre, post, ht, hstart⟩ := h
  obtain ⟨c, rest, htext⟩ := List.exists_cons_of_ne_nil hne
  exact ⟨pre, c, rest ++ post, by rw [ht, htext]; simp, hstart⟩

/-- A part of a part is a part. -/
theorem Span.PartOf.shift {outer inner : Span} {t : Text} (h : outer.PartOf t)
    (hinner : inner.PartOf outer.text) : PartOf ⟨outer.start + inner.start, inner.text⟩ t := by
  obtain ⟨pre, post, ht, hstart⟩ := h
  obtain ⟨pre', post', houter, hstart'⟩ := hinner
  refine ⟨pre ++ pre', post' ++ post, ?_, by rw [hstart, hstart', Text.size_append]⟩
  rw [ht, houter]
  simp

theorem Span.PartOf.after_stop {s : Span} {t : Text} (h : s.PartOf t) :
    ∃ rest, Text.after t s.stop = .ok rest := by
  obtain ⟨pre, post, ht, hstart⟩ := h
  refine ⟨post, ?_⟩
  rw [Span.stop, hstart, ht, ← Text.size_append]
  exact Text.after_size _ post

/-- A place of one of the pieces that a text is made of. -/
theorem Text.IsPlace.shift {t pre piece post : Text} {offset : Nat} (ht : t = pre ++ piece ++ post)
    (h : piece.IsPlace offset) : t.IsPlace (Text.size pre + offset) := by
  obtain ⟨before, c, after, hpiece, hoffset⟩ := h
  refine ⟨pre ++ before, c, after ++ post, ?_, by rw [Text.size_append, hoffset]⟩
  rw [ht, hpiece]
  simp

/-! ### Findings -/

namespace Finding

/-- The line that a finding names is a line of the text, and the snippet is what stands on it. -/
def Placed (t : Text) (f : Finding) : Prop :=
  ∀ n, f.line = some n →
    ∃ line, (line, n) ∈ Text.numberedLines t ∧ f.snippet = some (String.ofList (Text.trim line))

theorem placed_general (t : Text) (message : String) : (general message).Placed t := by
  intro n h
  simp [general] at h

theorem placed_onLine {t line : Text} {n : Nat} (h : (line, n) ∈ Text.numberedLines t)
    (message : String) : (onLine n line message).Placed t := by
  intro m hm
  obtain rfl := Option.some.inj hm
  exact ⟨line, h, rfl⟩

/-- At a place of a text a finding is made, and it is about the line there. -/
theorem atOffset_sound {t : Text} {offset : Nat} (h : t.IsPlace offset) (message : String) :
    Yields (atOffset t offset message) (·.Placed t) := by
  obtain ⟨pre, c, post, rfl, rfl⟩ := h
  obtain ⟨line, hmem, htrim⟩ := Text.exists_mem_numberedLines pre c post
  rw [atOffset, Text.lineAt_append, ← htrim]
  refine yields_pure fun n hn => ?_
  obtain rfl := Option.some.inj hn
  exact ⟨line, hmem, rfl⟩

/-- A finding about an offset: it names the line that the line feeds before the offset tell, and
shows what stands between the line feeds on either side. -/
def StandsAt (t : Text) (offset : Nat) (message : String) (f : Finding) : Prop :=
  ∃ pre post, t = pre ++ post ∧ offset = Text.size pre ∧
    f = ⟨message, some (pre.count '\n' + 1),
      some (String.ofList (Text.trim (Text.lineTail pre ++ Text.lineHead post)))⟩

theorem yields_atOffset {t : Text} {offset : Nat} (h : t.IsPlace offset) (message : String) :
    Yields (atOffset t offset message) (StandsAt t offset message) := by
  obtain ⟨pre, c, post, rfl, rfl⟩ := h
  rw [atOffset, Text.lineAt_append]
  exact yields_pure ⟨pre, c :: post, rfl, rfl, rfl⟩

/-- At places of a text several findings are made, one about each. -/
theorem yields_atOffsets {α : Type} {t : Text} {offset : α → Nat} {l : List α}
    (h : ∀ a ∈ l, t.IsPlace (offset a)) (message : α → String) :
    Yields (l.mapM fun a => atOffset t (offset a) (message a))
      (List.Forall₂ (fun a => StandsAt t (offset a) (message a)) l) :=
  yields_mapM_forall₂ fun a ha => yields_atOffset (h a ha) (message a)

/-- All of several findings are placed. -/
def AllPlaced (t : Text) (fs : List Finding) : Prop := ∀ f ∈ fs, f.Placed t

theorem atSpans_sound {t : Text} {spans : List Span} (h : ∀ s ∈ spans, t.IsPlace s.start)
    (message : Span → String) : Yields (atSpans t spans message) (AllPlaced t) :=
  yields_mapM fun s hs => atOffset_sound (h s hs) (message s)

theorem ifMissing_sound (t : Text) (present : Bool) (message : String) :
    Yields (ifMissing present message) (AllPlaced t) := by
  refine yields_pure fun f hf => ?_
  split at hf
  · simp at hf
  · rw [List.mem_singleton.mp hf]
    exact placed_general t message

theorem ifPresent_sound (t : Text) (present : Bool) (message : String) :
    Yields (ifPresent present message) (AllPlaced t) := by
  refine yields_pure fun f hf => ?_
  split at hf
  · rw [List.mem_singleton.mp hf]
    exact placed_general t message
  · simp at hf

/-- Findings on the numbered lines that pass a test. -/
theorem allPlaced_filter (t : Text) {test : Text × Nat → Bool} {report : Text × Nat → Finding}
    (h : ∀ line n, ∃ message, report (line, n) = onLine n line message) :
    AllPlaced t (((Text.numberedLines t).filter test).map report) := by
  intro f hf
  obtain ⟨⟨line, n⟩, hmem, rfl⟩ := List.mem_map.mp hf
  obtain ⟨message, hreport⟩ := h line n
  rw [hreport]
  exact placed_onLine (List.mem_filter.mp hmem).1 message

/-- Findings on some of the numbered lines. -/
theorem allPlaced_filterMap (t : Text) {report : Text × Nat → Option Finding}
    (h : ∀ line n f, report (line, n) = some f → ∃ message, f = onLine n line message) :
    AllPlaced t ((Text.numberedLines t).filterMap report) := by
  intro f hf
  obtain ⟨⟨line, n⟩, hmem, hreport⟩ := List.mem_filterMap.mp hf
  obtain ⟨message, rfl⟩ := h line n f hreport
  exact placed_onLine hmem message

end Finding

/-! ### Checks -/

/-- A check finishes on every text, and each line it names is there and looks as shown. -/
def Check.Sound (check : Check) : Prop := ∀ t, Yields (check t) (Finding.AllPlaced t)

open Finding Pattern

section

variable {p : Pattern} {i : Nat} {message : Span → String}

/-- Reporting matches of a pattern that takes up text. -/
theorem spans_sound (hp : consumes p = true) (t : Text) {spans : List Span}
    (h : ∀ s ∈ spans, s ∈ p.findSpans t) : Yields (atSpans t spans message) (AllPlaced t) :=
  atSpans_sound (fun s hs =>
    (partOf_of_mem_findSpans (h s hs)).isPlace (ne_nil_of_mem_findSpans hp (h s hs))) message

/-- Reporting groups of a pattern that take up text. -/
theorem groups_sound (hp : groupConsumes (i + 1) p = true) (t : Text) {spans : List Span}
    (h : ∀ s ∈ spans, s ∈ p.findGroups (i + 1) t) :
    Yields (atSpans t spans message) (AllPlaced t) :=
  atSpans_sound (fun s hs =>
    (partOf_of_mem_findGroups (h s hs)).isPlace (ne_nil_of_mem_findGroups hp (h s hs))) message

theorem findSpans_sound (hp : consumes p = true) :
    Check.Sound fun t => atSpans t (p.findSpans t) message :=
  fun t => spans_sound hp t fun _ hs => hs

theorem findGroups_sound (hp : groupConsumes (i + 1) p = true) :
    Check.Sound fun t => atSpans t (p.findGroups (i + 1) t) message :=
  fun t => groups_sound hp t fun _ hs => hs

theorem filterGroups_sound (hp : groupConsumes (i + 1) p = true)
    (test : Text → Span → Bool) :
    Check.Sound fun t => atSpans t ((p.findGroups (i + 1) t).filter (test t)) message :=
  fun t => groups_sound hp t fun _ hs => (List.mem_filter.mp hs).1

/-- A group of one of the matches that pass a test. -/
theorem mem_findGroups_of_filter {test : Found → Bool} {t : Text} {s : Span}
    (h : s ∈ ((p.findAll t).filter test).filterMap (·.group? i)) :
    s ∈ p.findGroups i t := by
  obtain ⟨found, hfound, hs⟩ := List.mem_filterMap.mp h
  exact List.mem_filterMap.mpr ⟨found, (List.mem_filter.mp hfound).1, hs⟩

end

/-! ### Spans found in consecutive pieces -/

/-- A piece of a text that is cut into pieces, some of which stand before it. -/
theorem Span.partOf_of_pieces {t pre piece post : Text} {s : Span} (ht : t = pre ++ piece ++ post)
    (hs : s.PartOf piece) : PartOf ⟨Text.size pre + s.start, s.text⟩ t :=
  PartOf.shift (show PartOf ⟨Text.size pre, piece⟩ t from ⟨pre, post, ht, rfl⟩) hs

end SnippetLint
