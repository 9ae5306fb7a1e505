/-
The rules about magic numbers report the numerals they promise.

All three look at the numerals of a text, which `lists_numerals` describes.  The one for Java reads
each as a number of 32 bits: a step that does not fit ends the reading, so what is read is always the
number that is written (`foldlM_appendDigit?_eq_some_iff`).  The one for C++ goes from line to line
and leaves out directives; the induction is on the lines, and says of those that are left which words
are found in them (`mem_numeralsFrom_iff`).
-/
import SnippetLint.Proofs.Numerals
import SnippetLint.Proofs.Placement
import SnippetLint.Proofs.Rules.Cpp
import SnippetLint.Rules.CSharp
import SnippetLint.Rules.Java

namespace SnippetLint

open Pattern Words

/-! ### Reading numbers -/

namespace Java

theorem fitting?_eq_some_iff {n : Nat} {value : UInt32} :
    fitting? n = some value ↔ value.toNat = n := by
  unfold fitting?
  constructor
  · intro h
    split at h
    · rename_i hlt
      rw [← Option.some.inj h]
      exact UInt32.toNat_ofNat_of_lt' hlt
    · simp at h
  · rintro rfl
    rw [if_pos value.toNat_lt, UInt32.ofNat_toNat]

theorem exists_toNat_eq {n : Nat} (h : n < UInt32.size) : ∃ value : UInt32, value.toNat = n :=
  ⟨.ofNat n, UInt32.toNat_ofNat_of_lt' h⟩

theorem appendDigit?_eq_some_iff {value next : UInt32} {c : Char} :
    appendDigit? value c = some next ↔
      c.isDigit = true ∧ next.toNat = 10 * value.toNat + (c.toNat - '0'.toNat) := by
  unfold appendDigit?
  by_cases hc : c.isDigit = true
  · simp only [hc, if_true, true_and, bind, Option.bind_eq_some_iff, fitting?_eq_some_iff]
    constructor
    · rintro ⟨tens, htens, hnext⟩
      omega
    · intro hnext
      have hfits : value.toNat * 10 < UInt32.size :=
        Nat.lt_of_le_of_lt (by omega) next.toNat_lt
      obtain ⟨tens, htens⟩ := exists_toNat_eq hfits
      exact ⟨tens, htens, by omega⟩
  · simp [hc]

/-- Digits that are appended make a number no smaller. -/
theorem le_ofDigitChars (digits : Text) (n : Nat) : n ≤ Nat.ofDigitChars 10 digits n := by
  induction digits generalizing n with
  | nil => exact Nat.le_refl n
  | cons c rest ih =>
      have hle := ih (10 * n + (c.toNat - '0'.toNat))
      rw [Nat.ofDigitChars_cons]
      omega

/-- What is read is the number that is written, and it is read whenever it fits. -/
theorem foldlM_appendDigit?_eq_some_iff {digits : Text} {value n : UInt32} :
    digits.foldlM appendDigit? value = some n ↔
      (∀ c ∈ digits, c.isDigit = true) ∧ n.toNat = Nat.ofDigitChars 10 digits value.toNat := by
  induction digits generalizing value with
  | nil =>
      rw [List.foldlM_nil]
      show some value = some n ↔ _ ∧ n.toNat = value.toNat
      rw [Option.some_inj, UInt32.toNat_inj, and_iff_right (by simp)]
      exact eq_comm
  | cons c rest ih =>
      rw [List.foldlM_cons, Option.bind_eq_bind, Option.bind_eq_some_iff, List.forall_mem_cons,
        Nat.ofDigitChars_cons]
      constructor
      · rintro ⟨next, happend, hread⟩
        obtain ⟨hc, hnext⟩ := appendDigit?_eq_some_iff.mp happend
        obtain ⟨hrest, hn⟩ := ih.mp hread
        exact ⟨⟨hc, hrest⟩, hnext ▸ hn⟩
      · rintro ⟨⟨hc, hrest⟩, hn⟩
        have hle := le_ofDigitChars rest (10 * value.toNat + (c.toNat - '0'.toNat))
        rw [← hn] at hle
        obtain ⟨next, hnext⟩ := exists_toNat_eq (Nat.lt_of_le_of_lt hle n.toNat_lt)
        exact ⟨next, appendDigit?_eq_some_iff.mpr ⟨hc, hnext⟩, ih.mpr ⟨hrest, hnext ▸ hn⟩⟩

/-- A numeral is reported if it is written in ASCII and its value, however large, is in range. -/
theorem isMagic_iff {literal : Text} :
    isMagic literal = true ↔
      (∀ c ∈ literal, c.isDigit = true) ∧
        1 ≤ Nat.ofDigitChars 10 literal 0 ∧ Nat.ofDigitChars 10 literal 0 ≤ 99 := by
  rw [isMagic, value?, Option.any_eq_true]
  rcases literal with _ | ⟨c, rest⟩
  · simp
  · simp only [List.isEmpty_cons, Bool.false_eq_true, if_false, foldlM_appendDigit?_eq_some_iff,
      Bool.and_eq_true, decide_eq_true_eq, UInt32.le_iff_toNat_le]
    constructor
    · rintro ⟨n, ⟨hdigits, hn⟩, hlow, hhigh⟩
      exact ⟨hdigits, hn ▸ hlow, hn ▸ hhigh⟩
    · rintro ⟨hdigits, hlow, hhigh⟩
      obtain ⟨n, hn⟩ := exists_toNat_eq (Nat.lt_of_le_of_lt hhigh (by decide))
      exact ⟨n, ⟨hdigits, hn⟩, hn ▸ hlow, hn ▸ hhigh⟩

/-- Zeros in front change nothing, and what does not fit into 32 bits does not wrap. -/
example : ["0042", "4294967338", "٤٢"].map (isMagic ·.toList) = [true, false, false] := by decide

end Java

/-! ### Numerals outside of directives -/

namespace Cpp

/-- The line of a word is no directive: its first character that is no blank is no number sign. -/
def OffDirective (t : Text) (s : Span) : Prop :=
  ∃ pre post, t = pre ++ s.text ++ post ∧ s.start = Text.size pre ∧
    ((Text.lineTail pre ++ s.text ++ Text.lineHead post).dropWhile Unicode.isBlank).head? ≠ some '#'

theorem isPreprocessor_iff {line : Text} :
    isPreprocessor line = true ↔ (line.dropWhile Unicode.isBlank).head? = some '#' := by
  rw [isPreprocessor, Text.startsWith, Text.trimStart, List.isPrefixOf_iff_prefix]
  show ['#'] <+: line.dropWhile Unicode.isBlank ↔ _
  cases line.dropWhile Unicode.isBlank with
  | nil => simp
  | cons c rest => simp [eq_comm]

theorem isPreprocessor_concat (line : Text) :
    isPreprocessor (line ++ ['\n']) = isPreprocessor line := by
  rw [Bool.eq_iff_iff, isPreprocessor_iff, isPreprocessor_iff, List.dropWhile_append]
  split
  · rename_i hblank
    have hfeed : ['\n'].dropWhile Unicode.isBlank = [] := rfl
    rw [List.isEmpty_iff.mp hblank, hfeed]
  · rename_i hink
    cases hline : line.dropWhile Unicode.isBlank with
    | nil => simp [hline] at hink
    | cons c rest => rfl

section

variable {pre line post : Text} {s : Span}

/-- Where a word is on a line, the line feeds on either side are the ends of that line. -/
theorem offDirective_iff (hpre : ∀ c, pre.getLast? = some c → c = '\n') (hline : '\n' ∉ line)
    (hpost : Text.lineHead post = []) (hs : s ∈ spansFrom none (Text.size pre) line) :
    OffDirective (pre ++ line ++ post) s ↔ isPreprocessor line = false := by
  obtain ⟨-, -, lead, trail, rfl, hstart, -, -⟩ := exists_of_mem_spansFrom hs
  have hwhole : pre ++ (lead ++ s.text ++ trail) ++ post =
      pre ++ lead ++ s.text ++ (trail ++ post) := by simp
  simp only [List.mem_append, not_or] at hline
  have hlead : Text.lineTail (pre ++ lead) = lead := Text.lineTail_of_start hpre hline.1.1
  have htrail : Text.lineHead (trail ++ post) = trail := by
    rw [Text.lineHead_append_of_notMem hline.2, hpost, List.append_nil]
  rw [← Bool.not_eq_true, isPreprocessor_iff]
  constructor
  · rintro ⟨pre', post', hcut, hstart', hoff⟩
    rw [hwhole, List.append_assoc, List.append_assoc pre'] at hcut
    obtain ⟨rfl, hrest⟩ := Text.append_inj_of_size hcut (by
      rw [← hstart', hstart, Text.size_append])
    rwa [hlead, ← List.append_cancel_left hrest, htrail] at hoff
  · intro hoff
    refine ⟨pre ++ lead, trail ++ post, hwhole, by rw [hstart, Text.size_append], ?_⟩
    rwa [hlead, htrail]

/-- What is found on a line, which may have its ending, are the numerals there. -/
theorem mem_numerals_iff {raw : Text} (hraw : raw = line ∨ raw = line ++ ['\n'])
    (hpre : ∀ c, pre.getLast? = some c → c = '\n') (hline : '\n' ∉ line)
    (hpost : Text.lineHead post = []) :
    (s ∈ if isPreprocessor raw then [] else
      (numerals raw).map fun s => (⟨Text.size pre + s.start, s.text⟩ : Span)) ↔
      s ∈ spansFrom none (Text.size pre) line ∧ s.text.all digit = true ∧
        OffDirective (pre ++ line ++ post) s := by
  have hsame : isPreprocessor raw = isPreprocessor line ∧ spans raw = spans line := by
    rcases hraw with rfl | rfl
    · exact ⟨rfl, rfl⟩
    · exact ⟨isPreprocessor_concat line, spans_concat Unicode.isWord_lineFeed line⟩
  have hfound : ((numerals raw).map fun s => (⟨Text.size pre + s.start, s.text⟩ : Span)) =
      (spansFrom none (Text.size pre) line).filter fun s => s.text.all digit := by
    rw [numerals_eq, hsame.2, spans, ← Nat.add_zero (Text.size pre), spansFrom_shift,
      List.filter_map]
    rfl
  rw [hsame.1, hfound]
  constructor
  · intro h
    split at h
    · simp at h
    · rename_i hcode
      obtain ⟨hs, hdigits⟩ := List.mem_filter.mp h
      exact ⟨hs, hdigits, (offDirective_iff hpre hline hpost hs).mpr (by simpa using hcode)⟩
  · rintro ⟨hs, hdigits, hoff⟩
    rw [(offDirective_iff hpre hline hpost hs).mp hoff]
    exact List.mem_filter.mpr ⟨hs, hdigits⟩

end

/-- The induction is on the lines of the text that is left; `pre` is the text before it. -/
theorem mem_numeralsFrom_iff {pre t : Text} {s : Span}
    (hpre : ∀ c, pre.getLast? = some c → c = '\n') :
    s ∈ numeralsFrom (Text.size pre) (Text.linesWithEnds t) ↔
      s ∈ spansFrom none (Text.size pre) t ∧ s.text.all digit = true ∧ OffDirective (pre ++ t) s := by
  induction t using Text.induction_lines generalizing pre with
  | last line hline =>
      rcases line with _ | ⟨c, rest⟩
      · simp [Text.linesWithEnds, numeralsFrom, spansFrom]
      · have hpost : Text.lineHead [] = [] := rfl
        have hiff := mem_numerals_iff (s := s) (.inl rfl) hpre hline hpost
        rw [List.append_nil] at hiff
        rw [Text.linesWithEnds_eq_singleton hline (List.cons_ne_nil _ _), numeralsFrom,
          numeralsFrom, List.append_nil, hiff]
  | more line rest hline ih =>
      have hpost : Text.lineHead ('\n' :: rest) = [] := rfl
      have hiff := mem_numerals_iff (s := s) (.inr rfl) hpre hline hpost
      have hlater := @ih (pre ++ (line ++ ['\n'])) (by simp)
      have hwhole : pre ++ (line ++ ['\n']) ++ rest = pre ++ (line ++ '\n' :: rest) := by simp
      rw [List.append_assoc] at hiff
      rw [Text.linesWithEnds_append hline, numeralsFrom, List.mem_append, hiff, ← Text.size_append,
        hlater, hwhole, spansFrom_append Unicode.isWord_lineFeed, List.mem_append,
        ← Text.size_append, ← List.append_assoc, or_and_right]

theorem mem_numeralsFrom_zero_iff {t : Text} {s : Span} :
    s ∈ numeralsFrom 0 (Text.linesWithEnds t) ↔ s ∈ numerals t ∧ OffDirective t s := by
  have hstart : ∀ c, ([] : Text).getLast? = some c → c = '\n' := by simp
  have hiff := mem_numeralsFrom_iff (t := t) (s := s) hstart
  rw [Text.size_nil, ← spans, List.nil_append] at hiff
  rw [hiff, numerals_eq, List.mem_filter, and_assoc]

/-- The numerals outside of directives, each where its text first stands there. -/
theorem lists_firsts_numeralsFrom (t : Text) :
    Span.Lists
      (fun s => s ∈ numerals t ∧ OffDirective t s ∧
        ∀ s' ∈ numerals t, OffDirective t s' → s'.text = s.text → s.start ≤ s'.start)
      (firsts Span.text (numeralsFrom 0 (Text.linesWithEnds t))) := by
  have hinOrder := (numeralsFrom_inOrder 0 (Text.linesWithEnds t)).2
  have hstart : (numeralsFrom 0 (Text.linesWithEnds t)).Pairwise fun s s' => s.start < s'.start := by
    refine hinOrder.imp_of_mem fun {s s'} hs _ hbefore => ?_
    have hnumeral := ((lists_numerals t).mem_iff s).mp (mem_numeralsFrom_zero_iff.mp hs).1
    have hpos := Text.size_pos_of_ne_nil hnumeral.stands.ne_nil
    have hle : s.start + Text.size s.text ≤ s'.start := hbefore
    omega
  refine ⟨hinOrder.sublist (firsts_sublist _), fun s => ?_⟩
  rw [mem_firsts_iff (fun hlt => Nat.lt_asymm hlt) hstart]
  simp only [mem_numeralsFrom_zero_iff, Nat.not_lt, and_imp, and_assoc]

end Cpp

/-! ### The rules -/

/-- A finding is made about each of several numerals. -/
theorem yields_atSpans_numerals {t : Text} {l : List Span} (h : ∀ s ∈ l, s ∈ numerals t)
    (message : Span → String) :
    Yields (Finding.atSpans t l message)
      (List.Forall₂ (fun s => Finding.StandsAt t s.start (message s)) l) := by
  refine Finding.yields_atOffsets (fun s hs => ?_) message
  have hnumeral := ((lists_numerals t).mem_iff s).mp (h s hs)
  obtain ⟨hne, -, pre, post, ht, hstart, -, -⟩ := hnumeral.stands
  exact Span.PartOf.isPlace ⟨pre, post, ht, hstart⟩ hne

theorem CSharp.magicNumber_eq (t : Text) :
    CSharp.magicNumber t = .ok (if numerals t = [] then [] else
      [.general ("Avoid using magic numbers ("
        ++ Text.join ", " ((((numerals t).map Span.text).eraseDups).map String.ofList)
        ++ "). Use named constants instead.")]) := by
  have hnames : (firsts Span.text (numerals t)).map Span.string =
      (((numerals t).map Span.text).eraseDups).map String.ofList := by
    rw [← map_firsts, List.map_map]
    rfl
  rw [CSharp.magicNumber, hnames]
  cases numerals t with
  | nil => rfl
  | cons s rest =>
      rw [List.map_cons, List.eraseDups_cons]
      rfl

theorem Java.magicNumber_yields (t : Text) :
    ∃ small, Span.Lists (fun s => s ∈ numerals t ∧ (∀ c ∈ s.text, c.isDigit = true) ∧
        1 ≤ Nat.ofDigitChars 10 s.text 0 ∧ Nat.ofDigitChars 10 s.text 0 ≤ 99) small ∧
      Yields (Java.magicNumber t) (List.Forall₂ (fun s => Finding.StandsAt t s.start
        ("Consider replacing magic number \"" ++ s.string ++ "\" with a named constant.")) small) := by
  have hall : Span.Lists (· ∈ numerals t) (numerals t) :=
    ⟨(lists_numerals t).inOrder, fun _ => Iff.rfl⟩
  exact ⟨_, hall.filter fun s => isMagic_iff,
    yields_atSpans_numerals (fun s hs => (List.mem_filter.mp hs).1) _⟩

theorem Cpp.magicNumber_yields (t : Text) :
    ∃ unnamed, Span.Lists (fun s => s ∈ numerals t ∧ OffDirective t s ∧
        ∀ s' ∈ numerals t, OffDirective t s' → s'.text = s.text → s.start ≤ s'.start) unnamed ∧
      Yields (Cpp.magicNumber t) (List.Forall₂ (fun s => Finding.StandsAt t s.start
        ("Avoid using magic number `" ++ s.string ++ "`. Use a named constant instead.")) unnamed) := by
  have hfirsts := lists_firsts_numeralsFrom t
  exact ⟨_, hfirsts, yields_atSpans_numerals (fun s hs => ((hfirsts.mem_iff s).mp hs).1) _⟩

/--
**Each rule reports the numerals of a text that it is about,** and no others.  One names each numeral
once, in a single finding; one reports those from 1 to 99 that are written in ASCII; and one reports
each number where it first stands outside of directives.
-/
theorem magicNumbers_exact (t : Text) :
    ∃ numerals, Span.Lists (IsNumeral t) numerals ∧
      CSharp.magicNumber t = .ok (if numerals = [] then [] else
        [.general ("Avoid using magic numbers ("
          ++ Text.join ", " (((numerals.map Span.text).eraseDups).map String.ofList)
          ++ "). Use named constants instead.")]) ∧
      (∃ small, Span.Lists (fun s => s ∈ numerals ∧ (∀ c ∈ s.text, c.isDigit = true) ∧
          1 ≤ Nat.ofDigitChars 10 s.text 0 ∧ Nat.ofDigitChars 10 s.text 0 ≤ 99) small ∧
        Yields (Java.magicNumber t) (List.Forall₂ (fun s => Finding.StandsAt t s.start
          ("Consider replacing magic number \"" ++ s.string ++ "\" with a named constant.")) small)) ∧
      ∃ unnamed, Span.Lists (fun s => s ∈ numerals ∧ Cpp.OffDirective t s ∧
          ∀ s' ∈ numerals, Cpp.OffDirective t s' → s'.text = s.text → s.start ≤ s'.start) unnamed ∧
        Yields (Cpp.magicNumber t) (List.Forall₂ (fun s => Finding.StandsAt t s.start
          ("Avoid using magic number `" ++ s.string ++ "`. Use a named constant instead.")) unnamed) :=
  ⟨numerals t, lists_numerals t, CSharp.magicNumber_eq t, Java.magicNumber_yields t,
    Cpp.magicNumber_yields t⟩

end SnippetLint
