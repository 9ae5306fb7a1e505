/-
What findings say.

A message is put together from fixed words and from parts of the text, and the fixed words come
first.  So a property that the first few characters decide holds of a rule's messages whatever stands
in the text.  One such property is `Telling`: the message is not the beginning of what is shown for
a report without findings.  Another property, `OneLine`, depends on the parts of the text too: on
numbers and trimmed lines, which hold no line feed, and on groups of patterns, which hold none where
the pattern says so.

The lemmas on `Check.Says` follow the ways in which checks are put together, for any property of a
message.
-/
import SnippetLint.Proofs.Checked
import SnippetLint.Proofs.Pattern.Avoids
import SnippetLint.Proofs.Text.Characters
import SnippetLint.Proofs.Text.Lines
import SnippetLint.Report
import SnippetLint.Rule

namespace SnippetLint

/-! ### Messages on one line -/

/-- A message without a line feed. -/
def OneLine (message : String) : Prop := '\n' ∉ message.toList

instance (message : String) : Decidable (OneLine message) :=
  inferInstanceAs (Decidable ('\n' ∉ message.toList))

namespace OneLine

theorem of_eq {s : String} {l : List Char} (h : s = String.ofList l) (hc : '\n' ∉ l) :
    OneLine s := notMem_toList_of_eq l h hc

theorem append {a b : String} (ha : OneLine a) (hb : OneLine b) : OneLine (a ++ b) :=
  notMem_toList_append ha hb

theorem ofList {t : Text} (h : '\n' ∉ t) : OneLine (String.ofList t) := by
  rw [OneLine, String.toList_ofList]
  exact h

theorem toString (n : Nat) : OneLine (toString n) := notMem_toList_toString (by decide) n

theorem trim {line : Text} (h : '\n' ∉ line) : OneLine (String.ofList (Text.trim line)) :=
  ofList fun hmem => h (Text.mem_of_mem_trim hmem)

theorem join {separator : String} {parts : List String} (hs : OneLine separator)
    (h : ∀ part ∈ parts, OneLine part) : OneLine (Text.join separator parts) :=
  notMem_toList_join hs h

open Pattern

theorem of_mem_findGroups {p : Pattern} {t : Text} {i : Nat} {s : Span}
    (hp : p.groupAvoids '\n' (i + 1) = true) (h : s ∈ p.findGroups (i + 1) t) :
    OneLine s.string := ofList (notMem_of_mem_findGroups hp h)

end OneLine

/-- What a group of a match holds, where the pattern keeps it on one line. -/
theorem Pattern.Finds.gives_group {p : Pattern} {t : Text} {m : Found} {i : Nat} (h : Finds p t m)
    (hp : p.groupAvoids '\n' (i + 1) = true) : Gives (m.group (i + 1)) fun s => '\n' ∉ s.text := by
  intro s hs
  unfold Found.group at hs
  split at hs
  · rename_i span hspan
    obtain rfl := Except.ok.inj hs
    exact h.notMem_group hp hspan
  · simp at hs

/-! ### Messages of checks -/

namespace Finding

/-- All of several findings have messages with a property. -/
def AllSay (P : String → Prop) (fs : List Finding) : Prop := ∀ f ∈ fs, P f.message

section

variable {P : String → Prop} {t : Text}

theorem allSay_nil : AllSay P [] := by simp [AllSay]

theorem allSay_singleton {f : Finding} (h : P f.message) : AllSay P [f] :=
  List.forall_mem_singleton.mpr h

theorem AllSay.append {a b : List Finding} (ha : AllSay P a) (hb : AllSay P b) :
    AllSay P (a ++ b) := List.forall_mem_append.mpr ⟨ha, hb⟩

theorem atOffset_wording {offset : Nat} {message : String} (h : P message) :
    Gives (atOffset t offset message) fun f => P f.message :=
  gives_bind fun _ => gives_pure h

theorem atOffsets_wording {α : Type} {l : List α} {offset : α → Nat} {message : α → String}
    (h : ∀ a ∈ l, P (message a)) :
    Gives (l.mapM fun a => atOffset t (offset a) (message a)) (AllSay P) :=
  gives_mapM fun a ha => atOffset_wording (h a ha)

theorem atSpans_wording {spans : List Span} {message : Span → String}
    (h : ∀ s ∈ spans, P (message s)) : Gives (atSpans t spans message) (AllSay P) :=
  atOffsets_wording h

/-- Messages about groups of matches may show them, where the pattern keeps them on one line. -/
theorem groups_wording {p : Pattern} {i : Nat} (hp : p.groupAvoids '\n' (i + 1) = true)
    {spans : List Span} (hs : ∀ s ∈ spans, s ∈ p.findGroups (i + 1) t) {message : Span → String}
    (h : ∀ s : Span, OneLine s.string → P (message s)) : Gives (atSpans t spans message) (AllSay P) :=
  atSpans_wording fun s hmem => h s (.of_mem_findGroups hp (hs s hmem))

/-- Messages about matches may show them, where the pattern keeps to one line. -/
theorem spans_wording {p : Pattern} (hp : p.avoids '\n' = true) {spans : List Span}
    (hs : ∀ s ∈ spans, s ∈ p.findSpans t) {message : Span → String}
    (h : ∀ s : Span, OneLine s.string → P (message s)) : Gives (atSpans t spans message) (AllSay P) :=
  atSpans_wording fun s hmem => h s (.ofList (Pattern.notMem_of_mem_findSpans hp (hs s hmem)))

theorem ifMissing_wording {present : Bool} {message : String} (h : P message) :
    Gives (ifMissing present message) (AllSay P) := by
  cases present with
  | false => exact gives_pure (allSay_singleton h)
  | true => exact gives_pure allSay_nil

theorem ifPresent_wording {present : Bool} {message : String} (h : P message) :
    Gives (ifPresent present message) (AllSay P) := by
  cases present with
  | false => exact gives_pure allSay_nil
  | true => exact gives_pure (allSay_singleton h)

theorem map_wording {α : Type} {l : List α} {report : α → Finding}
    (h : ∀ a ∈ l, P (report a).message) : AllSay P (l.map report) := by
  intro f hf
  obtain ⟨a, ha, rfl⟩ := List.mem_map.mp hf
  exact h a ha

/-- Messages about numbered lines may show the number and the line. -/
theorem onLines_wording {test : Text × Nat → Bool} {report : Text × Nat → Finding}
    (h : ∀ line number, OneLine (toString number) → OneLine (String.ofList (Text.trim line)) →
      ∃ message, report (line, number) = onLine number line message ∧ P message) :
    AllSay P (((Text.numberedLines t).filter test).map report) := by
  refine map_wording fun ⟨line, number⟩ hmem => ?_
  have hline := Text.newline_notMem_of_mem_numberedLines (List.mem_filter.mp hmem).1
  obtain ⟨message, hreport, hmessage⟩ := h line number (.toString number) (.trim hline)
  rw [hreport]
  exact hmessage

theorem filterMap_wording {α : Type} {l : List α} {report : α → Option Finding}
    (h : ∀ a ∈ l, ∀ f, report a = some f → P f.message) : AllSay P (l.filterMap report) := by
  intro f hf
  obtain ⟨a, ha, hreport⟩ := List.mem_filterMap.mp hf
  exact h a ha f hreport

end

end Finding

/-- Every message of a check has a property. -/
def Check.Says (P : String → Prop) (check : Check) : Prop :=
  ∀ t, Gives (check t) (Finding.AllSay P)

/-- The rules whose messages quote a part of the text that may stand on several lines. -/
def Rule.quotingIds : List String := ["max-params", "no-duplicate-imports", "redundant-import"]

/-! ### Messages that tell

`Telling.append` takes a message apart down to its first words, and those are evaluated.
-/

/-- The first three characters are not those of what is shown for a report without findings. -/
def Telling (message : String) : Prop :=
  ∃ a b c rest, message.toList = a :: b :: c :: rest ∧ [a, b, c] ≠ ['U', 'n', 's'] ∧
    [a, b, c] ≠ ['N', 'o', ' ']

namespace Telling

theorem of_eq {message : String} {a b c : Char} {rest : List Char}
    (h : message = String.ofList (a :: b :: c :: rest))
    (hne : [a, b, c] ≠ ['U', 'n', 's'] ∧ [a, b, c] ≠ ['N', 'o', ' ']) : Telling message :=
  ⟨a, b, c, rest, by rw [h, String.toList_ofList], hne⟩

theorem append {message : String} (h : Telling message) (more : String) :
    Telling (message ++ more) := by
  obtain ⟨a, b, c, rest, hchars, hne⟩ := h
  exact ⟨a, b, c, rest ++ more.toList, by simp [hchars], hne⟩

end Telling

end SnippetLint
