/-
Checks that report from the first line to the last.

Whatever a check looks at, it names lines in one of two ways, and both keep an order: of two offsets
the later has at least as many line feeds before it, and the numbers of lines grow.  So a rule's proof
says why its offsets, or its lines, come in order, and the lemmas here do the rest.  A finding about
the input as a whole names no line and may stand anywhere.
-/
import SnippetLint.Proofs.Checked
import SnippetLint.Proofs.Pattern.Order
import SnippetLint.Proofs.Repeats
import SnippetLint.Proofs.Text.LineAt
import SnippetLint.Rule

namespace SnippetLint

/-! ### Numbered lines -/

namespace Text

/-- The numbers of numbered lines grow. -/
def Growing (lines : List (Text × Nat)) : Prop := lines.Pairwise fun x y => x.2 < y.2

theorem growing_zipIdx (lines : List Text) (number : Nat) : Growing (lines.zipIdx number) := by
  rw [Growing, ← List.pairwise_map, List.zipIdx_map_snd]
  exact List.pairwise_lt_range'

theorem growing_numberedLines (t : Text) : Growing (numberedLines t) := growing_zipIdx _ _

end Text

/-! ### Findings -/

namespace Finding

/-- The lines that findings name, where they do, never decrease. -/
def InOrder (fs : List Finding) : Prop := (fs.filterMap (·.line)).Pairwise (· ≤ ·)

/-- The second of two findings is not about an earlier line than the first. -/
def NotAfter (f g : Finding) : Prop := ∀ m ∈ f.line, ∀ n ∈ g.line, m ≤ n

theorem inOrder_iff {fs : List Finding} : InOrder fs ↔ fs.Pairwise NotAfter :=
  List.pairwise_filterMap

theorem exists_of_atOffset {t : Text} {offset : Nat} {message : String} {f : Finding}
    (h : atOffset t offset message = .ok f) : ∃ n snippet, Text.lineAt t offset = .ok (n, snippet) ∧
      f = ⟨message, some n, some (String.ofList snippet)⟩ := by
  obtain ⟨⟨n, snippet⟩, hline, hf⟩ := bind_eq_ok_iff.mp h
  exact ⟨n, snippet, hline, (Except.ok.inj hf).symm⟩

theorem notAfter_of_atOffset {t : Text} {offset offset' : Nat} {message message' : String}
    {f g : Finding} (hle : offset ≤ offset') (hf : atOffset t offset message = .ok f)
    (hg : atOffset t offset' message' = .ok g) : f.NotAfter g := by
  obtain ⟨m, snippet, hm, rfl⟩ := exists_of_atOffset hf
  obtain ⟨n, snippet', hn, rfl⟩ := exists_of_atOffset hg
  rintro _ ⟨⟩ _ ⟨⟩
  exact Text.lineAt_mono hle hm hn

/-- Findings at offsets that never decrease. -/
theorem atOffsets_inOrder {α : Type} {t : Text} (offset : α → Nat) (message : α → String)
    {l : List α} (h : l.Pairwise fun a b => offset a ≤ offset b) :
    Gives (l.mapM fun a => atOffset t (offset a) (message a)) InOrder := by
  have hpairwise : Gives (l.mapM fun a => atOffset t (offset a) (message a))
      (List.Pairwise NotAfter) :=
    gives_mapM_pairwise (fun _ => gives_self _) notAfter_of_atOffset h
  exact fun fs hfs => inOrder_iff.mpr (hpairwise fs hfs)

section

variable {t : Text} {message : Span → String}

theorem atSpans_inOrder {spans : List Span} (h : spans.Pairwise fun a b => a.start ≤ b.start) :
    Gives (atSpans t spans message) InOrder := atOffsets_inOrder Span.start message h

theorem atSpans_successive {spans : List Span} (h : spans.Pairwise Span.Before) :
    Gives (atSpans t spans message) InOrder := atSpans_inOrder (h.imp Span.Before.start_le)

/-- Where at most one span is reported, there is nothing to order. -/
theorem atSpans_toList_inOrder (span : Option Span) :
    Gives (atSpans t span.toList message) InOrder := by
  refine atSpans_successive ?_
  cases span with
  | none => exact .nil
  | some s => exact List.pairwise_singleton _ _

end

theorem ifMissing_inOrder (present : Bool) (message : String) :
    Gives (ifMissing present message) InOrder := by
  refine gives_pure (inOrder_iff.mpr ?_)
  split
  · exact .nil
  · exact List.pairwise_singleton _ _

theorem ifPresent_inOrder (present : Bool) (message : String) :
    Gives (ifPresent present message) InOrder := by
  refine gives_pure (inOrder_iff.mpr ?_)
  split
  · exact List.pairwise_singleton _ _
  · exact .nil

/-! ### Findings line by line -/

theorem notAfter_of_le {f g : Finding} {m n : Nat} (hle : m ≤ n) (hf : f.line = some m)
    (hg : g.line = some n) : f.NotAfter g := by
  intro m' hm' n' hn'
  rw [hf] at hm'
  rw [hg] at hn'
  obtain rfl := Option.some.inj hm'
  obtain rfl := Option.some.inj hn'
  exact hle

section

variable {lines : List (Text × Nat)} (hlines : Text.Growing lines)

include hlines

/-- A finding on each of several lines. -/
theorem map_inOrder {report : Text × Nat → Finding} (h : ∀ x, (report x).line = some x.2) :
    InOrder (lines.map report) := by
  rw [inOrder_iff, List.pairwise_map]
  exact hlines.imp fun hlt => notAfter_of_le (Nat.le_of_lt hlt) (h _) (h _)

/-- A finding on some of several lines. -/
theorem filterMap_inOrder {report : Text × Nat → Option Finding}
    (h : ∀ x, ∀ f ∈ report x, f.line = some x.2) : InOrder (lines.filterMap report) := by
  rw [inOrder_iff, List.pairwise_filterMap]
  exact hlines.imp fun hlt f hf g hg => notAfter_of_le (Nat.le_of_lt hlt) (h _ f hf) (h _ g hg)

/-- Any number of findings on each of several lines. -/
theorem flatten_inOrder {report : Text × Nat → Checked (List Finding)}
    (h : ∀ x, Gives (report x) fun fs => ∀ f ∈ fs, f.line = some x.2) :
    Gives (do return (← lines.mapM report).flatten) InOrder := by
  have heach : Gives (lines.mapM report) fun found => ∀ fs ∈ found, fs.Pairwise NotAfter := by
    refine gives_mapM fun x _ fs hfs => List.pairwise_of_forall_mem_list fun f hf g hg => ?_
    exact notAfter_of_le (Nat.le_refl x.2) (h x fs hfs f hf) (h x fs hfs g hg)
  have hrows : Gives (lines.mapM report) (List.Pairwise fun fs gs =>
      ∀ f ∈ fs, ∀ g ∈ gs, f.NotAfter g) :=
    gives_mapM_pairwise h (fun hlt hfs hgs f hf g hg =>
      notAfter_of_le (Nat.le_of_lt hlt) (hfs f hf) (hgs g hg)) hlines
  exact (heach.and hrows).bind fun _ hfound =>
    gives_pure (inOrder_iff.mpr (List.pairwise_flatten.mpr hfound))

/-- Findings on some of several lines, told from the lines that they name. -/
theorem inOrder_of_sublist {fs : List Finding}
    (h : (fs.filterMap (·.line)).Sublist (lines.map Prod.snd)) : InOrder fs :=
  ((List.pairwise_map.mpr hlines).sublist h).imp Nat.le_of_lt

end

end Finding

/-! ### Checks -/

/-- A check reports from the first line to the last. -/
def Check.Ordered (check : Check) : Prop := ∀ t, Gives (check t) Finding.InOrder

open Finding Pattern

section

variable {p : Pattern} {i : Nat} {message : Span → String}

theorem findSpans_ordered : Check.Ordered fun t => atSpans t (p.findSpans t) message :=
  fun t => atSpans_successive (pairwise_findSpans p t)

theorem findGroups_ordered : Check.Ordered fun t => atSpans t (p.findGroups i t) message :=
  fun t => atSpans_successive (pairwise_findGroups p i t)

theorem filterGroups_ordered (test : Text → Span → Bool) :
    Check.Ordered fun t => atSpans t ((p.findGroups i t).filter (test t)) message :=
  fun t => atSpans_successive ((pairwise_findGroups p i t).filter _)

theorem filterSpans_ordered (test : Text → Span → Bool) :
    Check.Ordered fun t => atSpans t ((p.findSpans t).filter (test t)) message :=
  fun t => atSpans_successive ((pairwise_findSpans p t).filter _)

/-- Reporting the groups whose text an earlier one has. -/
theorem repeatedGroups_ordered :
    Check.Ordered fun t => atSpans t (repeats Span.text (p.findGroups i t)) message :=
  fun t => atSpans_successive ((pairwise_findGroups p i t).sublist (repeats_sublist _))

/-- Reporting a group of some of the matches. -/
theorem filterMatches_ordered (test : Text → Found → Bool) :
    Check.Ordered fun t =>
      atSpans t (((p.findAll t).filter (test t)).filterMap (·.group? i)) message :=
  fun _ => atSpans_successive (pairwise_groups List.filter_sublist i)

end

/-- Reporting some of the numbered lines. -/
theorem filterLines_ordered {test : Text × Nat → Bool} {report : Text × Nat → Finding}
    (h : ∀ x, (report x).line = some x.2) :
    Check.Ordered fun t => return ((Text.numberedLines t).filter test).map report :=
  fun t => gives_pure (map_inOrder ((Text.growing_numberedLines t).filter _) h)

end SnippetLint
