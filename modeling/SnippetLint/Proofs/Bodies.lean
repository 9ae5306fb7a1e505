/-
Functions whose bodies lack a word.

A missing return and an async method that awaits nothing are found in the same way: a pattern finds the
functions, and what it takes for the body of one goes up to the first closing brace.  `OpensAt` says
where the opening brace of a function stands.  The functions that are reported are then just those
between whose opening brace and the first closing brace behind it the word does not stand
(`reportsWithout`).

The first closing brace is the one that matches the opening brace only if no brace opens between them,
and a block in the body hides what stands behind it.
-/
import Mathlib.Data.List.Pairwise
import SnippetLint.Proofs.Braces
import SnippetLint.Proofs.Names
import SnippetLint.Proofs.Order.Checks
import SnippetLint.Rules.CSharp
import SnippetLint.Rules.Cpp

namespace SnippetLint

open Pattern Words

/-! ### Matching braces -/

namespace Braces

/-- No brace closes what was not opened, and none is left open. -/
structure Balanced (t : Text) : Prop where
  prefixes : ∀ s, s <+: t → 0 ≤ excess s
  total : excess t = 0

instance (t : Text) : Decidable (Balanced t) :=
  decidable_of_iff ((∀ s ∈ t.inits, 0 ≤ excess s) ∧ excess t = 0)
    ⟨fun h => ⟨fun s hs => h.1 s ((List.mem_inits s t).mpr hs), h.2⟩,
      fun h => ⟨fun s hs => h.prefixes s ((List.mem_inits s t).mp hs), h.total⟩⟩

theorem Balanced.close_notMem {t : Text} (h : Balanced t) (hopen : '\x7b' ∉ t) : '\x7d' ∉ t := by
  have htotal := h.total
  rw [excess, List.count_eq_zero.mpr hopen] at htotal
  exact List.count_eq_zero.mp (by omega)

/-- What stands before the first closing brace of a text. -/
def upToClose (t : Text) : Text := t.takeWhile (· != '\x7d')

theorem upToClose_append {body after : Text} (h : '\x7d' ∉ body) :
    upToClose (body ++ '\x7d' :: after) = body := by
  have hall : ∀ c ∈ body, (c != '\x7d') = true := by
    intro c hc
    simpa using fun heq : c = '\x7d' => h (heq ▸ hc)
  rw [upToClose, List.takeWhile_append_of_pos hall]
  simp

/-- Where no brace opens in between, the first closing brace is the one that matches. -/
theorem upToClose_of_balanced {whole after : Text} (h : Balanced whole) (hopen : '\x7b' ∉ whole) :
    upToClose (whole ++ '\x7d' :: after) = whole := upToClose_append (h.close_notMem hopen)

end Braces

open Braces

/-! ### Words in a part of a text -/

/-- A word of the text stands within a span. -/
def WordWithin (t : Text) (w : String) (outer : Span) : Prop :=
  ∃ s, Stands t s ∧ s.text = w.toList ∧ outer.start ≤ s.start ∧ s.stop ≤ outer.stop

instance (t : Text) (w : String) (outer : Span) : Decidable (WordWithin t w outer) :=
  decidable_of_iff
    (∃ s ∈ spans t, s.text = w.toList ∧ outer.start ≤ s.start ∧ s.stop ≤ outer.stop)
    (by simp only [mem_spans_iff, WordWithin])

theorem recognises_wholeWord {w : String} (hne : w.toList ≠ [])
    (hw : ∀ c ∈ w.toList, Unicode.isWord c = true) : Recognises (wholeWord w) (· == w.toList) :=
  recognises_standing hne hw

section

variable {t before body after : Text}

/-- A word of what stands between two braces is a word of the text. -/
theorem Words.Stands.of_body {s : Span} (ht : t = before ++ '\x7b' :: (body ++ '\x7d' :: after))
    (h : Stands body s) : Stands t ⟨Text.size before + 1 + s.start, s.text⟩ := by
  obtain ⟨pre, post, hbody, hstart, hpre, hpost⟩ := h.apart
  have hapart : Apart t ⟨Text.size before + 1, body⟩ :=
    ⟨before ++ ['\x7b'], '\x7d' :: after, by simp [ht],
      (Text.size_append before ['\x7b']).symm, by simp; decide, by simp; decide⟩
  exact ⟨h.ne_nil, h.isWord, hstart ▸ hapart.shift hbody hpre hpost⟩

/-- A word of the text that lies between two braces is a word of what stands there. -/
theorem Words.Stands.in_body {s : Span} (ht : t = before ++ '\x7b' :: (body ++ '\x7d' :: after))
    (h : Stands t s) (hfrom : Text.size before + 1 ≤ s.start)
    (hto : s.stop ≤ Text.size before + 1 + Text.size body) :
    ∃ s' ∈ spans body, s'.text = s.text := by
  obtain ⟨pre, post, hsplit, hstart, hpre, hpost⟩ := h.apart
  have hstop : s.stop = Text.size (pre ++ s.text) := by rw [Span.stop, hstart, Text.size_append]
  have hsize : Text.size (before ++ ['\x7b']) = Text.size before + 1 := Text.size_append _ _
  have hopen : before ++ ['\x7b'] <+: t := ⟨body ++ '\x7d' :: after, by simp [ht]⟩
  have hclose : before ++ ['\x7b'] ++ body <+: t := ⟨'\x7d' :: after, by simp [ht]⟩
  have hpre' : pre <+: t := ⟨s.text ++ post, by simp [hsplit]⟩
  obtain ⟨lead, rfl⟩ := Text.prefix_of_size_le hopen hpre' (by omega)
  obtain ⟨trail, htrail⟩ := Text.prefix_of_size_le ⟨post, hsplit.symm⟩ hclose (by
    rw [← hstop, Text.size_append, hsize]
    exact hto)
  have hbody : body = lead ++ s.text ++ trail := by simpa using htrail.symm
  have hbehind : post = trail ++ '\x7d' :: after := by
    rw [ht, hbody] at hsplit
    simpa using hsplit.symm
  refine ⟨⟨Text.size lead, s.text⟩, mem_spans_iff.mpr ⟨h.ne_nil, h.isWord, lead, trail, hbody, rfl,
    ?_, ?_⟩, rfl⟩
  · rw [List.getLast?_append] at hpre
    cases hlast : lead.getLast? with
    | none => rfl
    | some c => rwa [hlast] at hpre
  · rw [hbehind, List.head?_append] at hpost
    cases hfirst : trail.head? with
    | none => rfl
    | some c => rwa [hfirst] at hpost

/-- A word stands between two braces if it occurs in what stands there. -/
theorem occursIn_iff_wordWithin {w : String} (hne : w.toList ≠ [])
    (hw : ∀ c ∈ w.toList, Unicode.isWord c = true)
    (ht : t = before ++ '\x7b' :: (body ++ '\x7d' :: after)) :
    (wholeWord w).occursIn body = true ↔ WordWithin t w ⟨Text.size before + 1, body⟩ := by
  rw [occursIn_eq (recognises_wholeWord hne hw), ← texts_spans, List.any_eq_true]
  constructor
  · rintro ⟨_, hmem, hword⟩
    obtain ⟨s, hs, rfl⟩ := List.mem_map.mp hmem
    have hstands := mem_spans_iff.mp hs
    obtain ⟨pre, post, hbody, hstart, -, -⟩ := hstands.apart
    have hsize := congrArg Text.size hbody
    refine ⟨_, hstands.of_body ht, beq_iff_eq.mp hword, Nat.le_add_right _ _, ?_⟩
    simp only [Span.stop, Text.size_append] at hsize ⊢
    omega
  · rintro ⟨s, hs, hword, hfrom, hto⟩
    obtain ⟨s', hs', htext⟩ := hs.in_body ht hfrom hto
    exact ⟨_, List.mem_map_of_mem hs', by simp [htext, hword]⟩

end

/-! ### Functions and their bodies -/

/-- What the pattern of a function with a body looks like. -/
def bodied (head : Pattern) : Pattern :=
  head ++ text "\x7b" ++ group 2 (many (except "\x7d")) ++ text "\x7d"

/-- A pattern finds a function with a certain name, and the opening brace of the function's body stands
at an offset. -/
def OpensAt (p : Pattern) (t : Text) (name : Span) (offset : Nat) : Prop :=
  ∃ m ∈ p.findAll t, m.group? 1 = some name ∧ (m.group? 2).any (·.start == offset + 1) = true

/-- The body of a function goes from its opening brace to the first closing brace. -/
theorem exists_body_of_mem_findAll {head : Pattern} {t : Text} {m : Found}
    (h : m ∈ (bodied head).findAll t) : ∃ before body after,
      t = before ++ '\x7b' :: (body ++ '\x7d' :: after) ∧ '\x7d' ∉ body ∧
        m.group? 2 = some ⟨Text.size before + 1, body⟩ := by
  obtain ⟨pre, here, stop, new, hpre, hmatch, rfl⟩ := (finds_of_mem_findAll h).exists_matches
  obtain ⟨c, _, _, ⟨b, _, _, ⟨a, _, _, hhead, hopen, rfl⟩, ⟨_, ⟨body, hbody, hplain, rfl⟩, rfl⟩, rfl⟩,
    hclose, rfl⟩ := hmatch
  obtain ⟨lead, hlead⟩ := hhead.passes
  obtain ⟨hbrace, rfl⟩ := hopen.passes_exactly
  obtain ⟨hbrace', rfl⟩ := hclose.passes_exactly
  refine ⟨pre ++ lead, body, stop.ahead, ?_, fun hmem => absurd (hplain _ hmem) (by decide), ?_⟩
  · rw [((((hpre.trans hlead).trans hbrace).trans hbody).trans hbrace').eq_append]
    simp
  · show some (Span.between b c) = _
    rw [Span.between_eq hbody, hbrace.offset, (hpre.trans hlead).offset_start]
    rfl

/-! ### Checks that look into bodies -/

/-- The functions that a pattern finds, are of concern, and have bodies in which a word is missing. -/
def lacking (p : Pattern) (w : String) (concerns : Span → Bool) (t : Text) : List Span :=
  ((p.findAll t).filter fun m =>
    (m.group? 1).any concerns && !(wholeWord w).occursIn (m.textOf 2)).filterMap (·.group? 1)

/-- A check finishes, and it reports just the functions of concern where a word does not stand between
the opening brace and the first closing brace behind it.  If no brace opens in the body, that is the
brace that matches. -/
def Check.ReportsWithout (check : Check) (p : Pattern) (w : String) (concerns : Span → Bool)
    (message : Span → String) : Prop :=
  ∀ t, ∃ names, Yields (check t)
      (List.Forall₂ (fun name => Finding.StandsAt t name.start (message name)) names) ∧
    Span.Lists (fun name => concerns name = true ∧ ∃ before rest, t = before ++ '\x7b' :: rest ∧
      OpensAt p t name (Text.size before) ∧
      ¬ WordWithin t w ⟨Text.size before + 1, upToClose rest⟩) names ∧
    ∀ name ∈ names, ∀ before whole after, t = before ++ '\x7b' :: (whole ++ '\x7d' :: after) →
      OpensAt p t name (Text.size before) → Balanced whole → '\x7b' ∉ whole →
      ¬ WordWithin t w ⟨Text.size before + 1, whole⟩

section

variable {p head : Pattern} {w : String} {concerns : Span → Bool} {t : Text}

/-- Where the opening brace of a function is known, so is what its match takes for the body. -/
theorem group?_of_opensAt {before rest : Text} {m : Found} (hm : m ∈ (bodied head).findAll t)
    (ht : t = before ++ '\x7b' :: rest)
    (hopens : (m.group? 2).any (·.start == Text.size before + 1) = true) :
    m.group? 2 = some ⟨Text.size before + 1, upToClose rest⟩ ∧
      ∃ after, t = before ++ '\x7b' :: (upToClose rest ++ '\x7d' :: after) := by
  obtain ⟨before', body, after, ht', hplain, hgroup⟩ := exists_body_of_mem_findAll hm
  rw [hgroup, Option.any_some, beq_iff_eq, Nat.add_right_cancel_iff] at hopens
  obtain ⟨rfl, hrest⟩ := Text.append_inj_of_size (ht.symm.trans ht') hopens.symm
  obtain rfl : rest = body ++ '\x7d' :: after := (List.cons.inj hrest).2
  rw [upToClose_append hplain]
  exact ⟨hgroup, after, ht'⟩

/-- Matches do not overlap, so a name belongs to one function, which has one opening brace. -/
theorem opensAt_unique {name : Span} {offset offset' : Nat} (hconsumes : groupConsumes 1 p = true)
    (h : OpensAt p t name offset) (h' : OpensAt p t name offset') : offset = offset' := by
  obtain ⟨m, hm, hname, hoffset⟩ := h
  obtain ⟨m', hm', hname', hoffset'⟩ := h'
  have hpos := Text.size_pos_of_ne_nil
    (((finds_of_mem_findAll hm).group?_partOf (i := 0) hname).2 hconsumes)
  have hself : ¬ name.Before name := fun hle => by
    have hstop : name.start + Text.size name.text ≤ name.start := hle
    omega
  have happart : (p.findAll t).Pairwise fun m m' => m.Before m' ∨ m'.Before m :=
    (pairwise_findAll p t).imp .inl
  have hsame : m = m' := by
    by_contra hne
    have hsymm : Std.Symm fun m m' : Found => m.Before m' ∨ m'.Before m := ⟨fun _ _ => Or.symm⟩
    rcases happart.forall hm hm' hne with hbefore | hbefore
    · exact hself (hbefore hname hname')
    · exact hself (hbefore hname' hname)
  subst hsame
  obtain ⟨body, hbody⟩ := Option.isSome_iff_exists.mp (Option.isSome_of_any hoffset)
  rw [hbody, Option.any_some, beq_iff_eq] at hoffset hoffset'
  omega

theorem mem_lacking_iff (hne : w.toList ≠ []) (hw : ∀ c ∈ w.toList, Unicode.isWord c = true)
    {name : Span} : name ∈ lacking (bodied head) w concerns t ↔
      concerns name = true ∧ ∃ before rest, t = before ++ '\x7b' :: rest ∧
        OpensAt (bodied head) t name (Text.size before) ∧
        ¬ WordWithin t w ⟨Text.size before + 1, upToClose rest⟩ := by
  constructor
  · intro h
    obtain ⟨m, hm, hname⟩ := List.mem_filterMap.mp h
    obtain ⟨hm, hlacks⟩ := List.mem_filter.mp hm
    obtain ⟨before, body, after, ht, hplain, hgroup⟩ := exists_body_of_mem_findAll hm
    rw [hname, Found.textOf, hgroup] at hlacks
    obtain ⟨hconcerns, hlacks⟩ := Bool.and_eq_true_iff.mp hlacks
    refine ⟨hconcerns, before, _, ht, ⟨m, hm, hname, by simp [hgroup]⟩, ?_⟩
    rw [upToClose_append hplain, ← occursIn_iff_wordWithin hne hw ht]
    simpa using hlacks
  · rintro ⟨hconcerns, before, rest, ht, ⟨m, hm, hname, hopens⟩, hlacks⟩
    obtain ⟨hgroup, after, ht'⟩ := group?_of_opensAt hm ht hopens
    rw [← occursIn_iff_wordWithin hne hw ht'] at hlacks
    refine List.mem_filterMap.mpr ⟨m, List.mem_filter.mpr ⟨hm, ?_⟩, hname⟩
    rw [hname, Found.textOf, hgroup]
    simp [hconcerns, hlacks]

/-- Reporting the functions that lack a word is exact. -/
theorem reportsWithout {check : Check} {message : Span → String} (hp : p = bodied head)
    (hconsumes : groupConsumes 1 p = true) (hne : w.toList ≠ [])
    (hw : ∀ c ∈ w.toList, Unicode.isWord c = true)
    (h : ∀ t, check t = Finding.atSpans t (lacking p w concerns t) message) :
    check.ReportsWithout p w concerns message := by
  subst hp
  intro t
  have hmem : ∀ name, name ∈ lacking (bodied head) w concerns t ↔ _ := fun _ => mem_lacking_iff hne hw
  refine ⟨lacking (bodied head) w concerns t, ?_, ⟨?_, hmem⟩, ?_⟩
  · rw [h]
    refine Finding.yields_atOffsets (fun name hname => ?_) _
    have hgroups := mem_findGroups_of_filter hname
    exact (partOf_of_mem_findGroups hgroups).isPlace (ne_nil_of_mem_findGroups hconsumes hgroups)
  · exact pairwise_groups List.filter_sublist 1
  · intro name hname before whole after ht hopens hbalanced hblock
    obtain ⟨-, before', rest, ht', hopens', hlacks⟩ := (hmem name).mp hname
    obtain ⟨rfl, hrest⟩ := Text.append_inj_of_size (ht.symm.trans ht')
      (opensAt_unique hconsumes hopens hopens')
    rwa [← (List.cons.inj hrest).2, upToClose_of_balanced hbalanced hblock] at hlacks

end

theorem missingReturn_eq (t : Text) : Cpp.missingReturn t =
    Finding.atSpans t (lacking Cpp.valueFunction "return" (fun name => name.string != "main") t)
      fun name => "Function \"" ++ name.string ++ "\" is missing a return statement." := by
  have hnames : (Cpp.valueFunction.findAll t).filterMapM (fun m => do
      let function ← m.group 1
      let body ← m.group 2
      return if function.string != "main" && !Cpp.returnWord.occursIn body.text then some function
        else none) = .ok (lacking Cpp.valueFunction "return" (fun name => name.string != "main") t) := by
    rw [lacking, List.filterMap_filter]
    refine filterMapM_eq_ok fun m hm => ?_
    obtain ⟨function, hfunction, hfunction'⟩ :=
      (finds_of_mem_findAll hm).exists_group (i := 0) (by decide)
    obtain ⟨body, hbody, hbody'⟩ := (finds_of_mem_findAll hm).exists_group (i := 1) (by decide)
    rw [hfunction', hbody', Found.textOf, hfunction, hbody]
    rfl
  rw [Cpp.missingReturn, hnames]
  rfl

theorem asyncWithoutAwait_eq (t : Text) : CSharp.asyncWithoutAwait t =
    Finding.atSpans t (lacking CSharp.asyncMethod "await" (fun _ => true) t)
      fun name => "Async method \"" ++ name.string ++ "\" has no await statement." := by
  have hidle : (CSharp.asyncMethod.findAll t).filter (fun m => !CSharp.awaitWord.occursIn (m.textOf 2)) =
      (CSharp.asyncMethod.findAll t).filter fun m =>
        (m.group? 1).any (fun _ => true) && !(wholeWord "await").occursIn (m.textOf 2) := by
    refine List.filter_congr fun m hm => ?_
    obtain ⟨name, hname, -⟩ := (finds_of_mem_findAll hm).exists_group (i := 0) (by decide)
    rw [hname]
    rfl
  rw [CSharp.asyncWithoutAwait, hidle]
  rfl

/-- **Both rules look for their word up to the first closing brace, and report a function exactly if it
does not stand there.** -/
theorem reportsWithout_return_await :
    Cpp.missingReturn.ReportsWithout Cpp.valueFunction "return" (fun name => name.string != "main")
      (fun name => "Function \"" ++ name.string ++ "\" is missing a return statement.") ∧
    CSharp.asyncWithoutAwait.ReportsWithout CSharp.asyncMethod "await" (fun _ => true)
      (fun name => "Async method \"" ++ name.string ++ "\" has no await statement.") :=
  ⟨reportsWithout rfl (by decide) (by decide) (List.all_eq_true.mp (by decide)) missingReturn_eq,
    reportsWithout rfl (by decide) (by decide) (List.all_eq_true.mp (by decide)) asyncWithoutAwait_eq⟩

/-- A function with a block in its body, and a return behind the block. -/
def returningFunction : Text := "int f(int a) \x7b if (a) \x7b g(); \x7d return 1; \x7d".toList

/-- A method with a block in its body that awaits something behind the block. -/
def awaitingMethod : Text := "async Task F() \x7b if (a) \x7b b(); \x7d await c(); \x7d".toList

/-- A block in a body hides the words behind it, although the braces are balanced and the words stand
before the brace that matches. -/
theorem reports_behind_block :
    (∃ before whole, returningFunction = before ++ '\x7b' :: (whole ++ ['\x7d']) ∧
      Balanced returningFunction ∧ Balanced whole ∧
      OpensAt Cpp.valueFunction returningFunction ⟨4, ['f']⟩ (Text.size before) ∧
      WordWithin returningFunction "return" ⟨Text.size before + 1, whole⟩ ∧
      Cpp.missingReturn returningFunction = .ok [⟨"Function \"f\" is missing a return statement.",
        some 1, some (String.ofList returningFunction)⟩]) ∧
    ∃ before whole, awaitingMethod = before ++ '\x7b' :: (whole ++ ['\x7d']) ∧
      Balanced awaitingMethod ∧ Balanced whole ∧
      OpensAt CSharp.asyncMethod awaitingMethod ⟨11, ['F']⟩ (Text.size before) ∧
      WordWithin awaitingMethod "await" ⟨Text.size before + 1, whole⟩ ∧
      CSharp.asyncWithoutAwait awaitingMethod = .ok [⟨"Async method \"F\" has no await statement.",
        some 1, some (String.ofList awaitingMethod)⟩] := by
  refine ⟨⟨"int f(int a) ".toList, " if (a) \x7b g(); \x7d return 1; ".toList, rfl, ?_⟩,
    ⟨"async Task F() ".toList, " if (a) \x7b b(); \x7d await c(); ".toList, rfl, ?_⟩⟩
  · unfold OpensAt
    decide +kernel
  · unfold OpensAt
    decide +kernel

end SnippetLint
