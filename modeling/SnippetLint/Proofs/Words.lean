/-
Words, and the patterns that find them.

A word of a text is a maximal run of word characters.  `Words.all` cuts a text where it has no word
characters, and says so without offsets; `Words.spans` walks over the text as a scan does, and knows
the offsets.  The two agree, so whatever a scan finds can be counted by cutting.

A pattern between word edges that matches word characters only can match nothing but whole words.
`Recognises` says this of a single place.  It is enough for a whole scan (`findSpans_eq`): a match
takes up one word, and the scan goes on behind it, where no other word has begun.
-/
import SnippetLint.Proofs.Pattern.Extent
import SnippetLint.Proofs.Pattern.Run
import SnippetLint.Proofs.Text.Pieces
import SnippetLint.Proofs.Unicode.Word
import SnippetLint.Words

namespace SnippetLint.Words

open Pattern Unicode

/-! ### The words of a text -/

/-- The words of a text, in order. -/
def all (t : Text) : List Text := (Text.pieces (fun c => !isWord c) t).filter fun w => !w.isEmpty

/-- Whether a name stands in a text as a word, and only once. -/
def occursOnce (t name : Text) : Bool := (all t).count name = 1

/-- A place at which a word begins. -/
def atStart (here : Cursor) : Bool := !here.before.any isWord && here.ahead.head?.any isWord

/-- The word that begins at a place, or the rest of the one around it. -/
def wordAt (here : Cursor) : Text := here.ahead.takeWhile isWord

/-- The words that begin at or behind a place. -/
def spansFrom : Option Char → Nat → Text → List Span
  | _, _, [] => []
  | before, offset, c :: rest =>
    let later := spansFrom (some c) (offset + c.utf8Size) rest
    if atStart ⟨before, offset, c :: rest⟩ then
      ⟨offset, wordAt ⟨before, offset, c :: rest⟩⟩ :: later
    else later

/-- The words of a text with their offsets. -/
def spans (t : Text) : List Span := spansFrom none 0 t

/-! ### Cutting and walking agree -/

/-- The words of a text that begin behind its first character that is no word character. -/
def behind (t : Text) : List Text :=
  (Text.pieces (fun c => !isWord c) t).tail.filter fun w => !w.isEmpty

section

variable {c : Char} {rest : Text}

theorem all_cons_of_isWord (hc : isWord c = true) :
    all (c :: rest) = (c :: rest).takeWhile isWord :: behind rest := by
  rw [all, Text.pieces_eq_cons, Text.tail_pieces_cons (by simp [hc]), behind]
  simp [hc]

theorem all_cons_of_not_isWord (hc : isWord c = false) : all (c :: rest) = all rest := by
  simp [all, Text.pieces, hc]

theorem behind_cons_of_isWord (hc : isWord c = true) : behind (c :: rest) = behind rest := by
  rw [behind, Text.tail_pieces_cons (by simp [hc]), behind]

theorem behind_cons_of_not_isWord (hc : isWord c = false) : behind (c :: rest) = all rest := by
  simp [behind, all, Text.pieces, hc]

end

theorem all_concat_of_not_isWord {t : Text} {c : Char} (hc : isWord c = false) :
    all (t ++ [c]) = all t := by
  have hpieces : Text.pieces (fun c => !isWord c) (t ++ [c]) =
      Text.pieces (fun c => !isWord c) t ++ [[]] := Text.pieces_concat (by simp [hc]) t
  rw [all, hpieces, List.filter_append, all]
  simp

/-- Inside of a word the rest of that word is no word. -/
theorem texts_spansFrom (before : Option Char) (offset : Nat) (t : Text) :
    (spansFrom before offset t).map (·.text) =
      if before.any isWord then behind t else all t := by
  induction t generalizing before offset with
  | nil => split <;> rfl
  | cons c rest ih =>
      unfold spansFrom atStart
      by_cases hc : isWord c = true
      · by_cases hbefore : before.any isWord = true
        · simp [hc, hbefore, ih, behind_cons_of_isWord]
        · simp [hc, hbefore, ih, all_cons_of_isWord, wordAt]
      · have hc : isWord c = false := by simpa using hc
        simp [hc, ih, behind_cons_of_not_isWord, all_cons_of_not_isWord]

theorem texts_spans (t : Text) : (spans t).map (·.text) = all t := texts_spansFrom none 0 t

/-! ### Where words are -/

/-- Inside of a word the next one begins behind it. -/
theorem le_start_of_mem_spansFrom {s : Span} {before : Option Char} {offset : Nat} {t : Text}
    (h : s ∈ spansFrom before offset t) :
    offset + (if before.any isWord then Text.size (t.takeWhile isWord) else 0) ≤ s.start := by
  induction t generalizing before offset with
  | nil => simp [spansFrom] at h
  | cons c rest ih =>
      have hlater : s ∈ spansFrom (some c) (offset + c.utf8Size) rest →
          offset + Text.size ((c :: rest).takeWhile isWord) ≤ s.start := by
        intro h
        have hle := ih h
        by_cases hc : isWord c = true
        · rw [Option.any_some, if_pos hc] at hle
          rw [List.takeWhile_cons_of_pos hc, Text.size_cons]
          omega
        · rw [List.takeWhile_cons_of_neg hc, Text.size_nil]
          omega
      unfold spansFrom at h
      split at h
      · rename_i hstart
        have hbefore : before.any isWord = false := by
          simpa using (Bool.and_eq_true_iff.mp hstart).1
        rw [if_neg (by simp [hbefore])]
        rcases List.mem_cons.mp h with rfl | h
        · exact Nat.le_refl _
        · have hle := hlater h
          omega
      · have hle := hlater h
        split <;> omega

/-- Words stand one behind the other. -/
theorem pairwise_spansFrom (before : Option Char) (offset : Nat) (t : Text) :
    (spansFrom before offset t).Pairwise fun a b => a.stop ≤ b.start := by
  induction t generalizing before offset with
  | nil => exact .nil
  | cons c rest ih =>
      unfold spansFrom
      split
      · rename_i hstart
        have hc : isWord c = true := (Bool.and_eq_true_iff.mp hstart).2
        refine .cons (fun s hs => ?_) (ih _ _)
        have hle := le_start_of_mem_spansFrom hs
        rw [Option.any_some, if_pos hc] at hle
        rw [wordAt, List.takeWhile_cons_of_pos hc]
        show offset + Text.size (c :: rest.takeWhile isWord) ≤ s.start
        rw [Text.size_cons]
        omega
      · exact ih _ _

theorem any_isWord_eq_false {beside : Option Char} (h : ∀ c, beside = some c → isWord c = false) :
    beside.any isWord = false := by
  cases beside with
  | none => rfl
  | some c => exact h c rfl

/-- A part of a text next to which there is no word character. -/
def Apart (t : Text) (s : Span) : Prop :=
  ∃ pre post, t = pre ++ s.text ++ post ∧ s.start = Text.size pre ∧
    pre.getLast?.any isWord = false ∧ post.head?.any isWord = false

/-- A part of a text that is one of its words. -/
structure Stands (t : Text) (s : Span) : Prop where
  ne_nil : s.text ≠ []
  isWord : ∀ c ∈ s.text, Unicode.isWord c = true
  apart : Apart t s

/-- A part of a part stands apart too, where no word character is left next to it. -/
theorem Apart.shift {t lead w trail : Text} {s : Span} (h : Apart t s)
    (hs : s.text = lead ++ w ++ trail) (hlead : lead.getLast?.any isWord = false)
    (htrail : trail.head?.any isWord = false) : Apart t ⟨s.start + Text.size lead, w⟩ := by
  obtain ⟨pre, post, ht, hstart, hpre, hpost⟩ := h
  refine ⟨pre ++ lead, trail ++ post, ?_, by rw [hstart, Text.size_append], ?_, ?_⟩
  · rw [ht, hs]
    simp
  · rw [List.getLast?_append]
    cases hlast : lead.getLast? with
    | none => exact hpre
    | some c => rwa [hlast] at hlead
  · rw [List.head?_append]
    cases hfirst : trail.head? with
    | none => exact hpost
    | some c => rwa [hfirst] at htrail

theorem takeWhile_eq_self {w post : Text} (hw : ∀ c ∈ w, isWord c = true)
    (hpost : post.head?.any isWord = false) : (w ++ post).takeWhile isWord = w := by
  rw [List.takeWhile_append_of_pos hw]
  cases post with
  | nil => simp
  | cons c rest =>
      have hc : isWord c = false := hpost
      simp [hc]

theorem mem_spansFrom {before : Option Char} {offset : Nat} {pre w post : Text} (hne : w ≠ [])
    (hw : ∀ c ∈ w, isWord c = true) (hpre : (pre.getLast?.or before).any isWord = false)
    (hpost : post.head?.any isWord = false) :
    ⟨offset + Text.size pre, w⟩ ∈ spansFrom before offset (pre ++ w ++ post) := by
  induction pre generalizing before offset with
  | nil =>
      obtain ⟨c, rest, rfl⟩ := List.exists_cons_of_ne_nil hne
      have hstart : atStart ⟨before, offset, c :: rest ++ post⟩ = true := by
        have hbefore : before.any isWord = false := hpre
        simp [atStart, hbefore, hw c List.mem_cons_self]
      rw [List.nil_append, List.cons_append, spansFrom, ← List.cons_append, if_pos hstart, wordAt,
        takeWhile_eq_self hw hpost]
      exact List.mem_cons_self
  | cons d rest ih =>
      have hlater := @ih (some d) (offset + d.utf8Size) (by
        rw [← hpre, List.getLast?_cons]
        cases rest.getLast? <;> rfl)
      rw [Nat.add_assoc, ← Text.size_cons] at hlater
      rw [List.cons_append, List.cons_append, spansFrom]
      split
      · exact List.mem_cons_of_mem _ hlater
      · exact hlater

theorem head?_dropWhile_isWord (t : Text) : (t.dropWhile isWord).head?.any isWord = false := by
  refine any_isWord_eq_false fun c hc => ?_
  have hhead := List.head?_dropWhile_not isWord t
  simpa [hc] using hhead

theorem exists_of_mem_spansFrom {s : Span} {before : Option Char} {offset : Nat} {t : Text}
    (h : s ∈ spansFrom before offset t) :
    s.text ≠ [] ∧ (∀ c ∈ s.text, isWord c = true) ∧
      ∃ pre post, t = pre ++ s.text ++ post ∧ s.start = offset + Text.size pre ∧
        (pre.getLast?.or before).any isWord = false ∧ post.head?.any isWord = false := by
  induction t generalizing before offset with
  | nil => simp [spansFrom] at h
  | cons c rest ih =>
      have hlater : s ∈ spansFrom (some c) (offset + c.utf8Size) rest →
          s.text ≠ [] ∧ (∀ c ∈ s.text, isWord c = true) ∧
            ∃ pre post, c :: rest = pre ++ s.text ++ post ∧ s.start = offset + Text.size pre ∧
              (pre.getLast?.or before).any isWord = false ∧ post.head?.any isWord = false := by
        intro h
        obtain ⟨hne, hall, pre, post, rfl, hstart, hpre, hpost⟩ := ih h
        refine ⟨hne, hall, c :: pre, post, rfl, ?_, ?_, hpost⟩
        · rw [hstart, Text.size_cons, Nat.add_assoc]
        · rw [← hpre, List.getLast?_cons]
          cases pre.getLast? <;> rfl
      unfold spansFrom at h
      split at h
      · rename_i hstart
        rcases List.mem_cons.mp h with rfl | h
        · obtain ⟨hbefore, hc⟩ := Bool.and_eq_true_iff.mp hstart
          refine ⟨?_, List.all_eq_true.mp List.all_takeWhile, [], (c :: rest).dropWhile isWord, ?_,
            rfl, by simpa using hbefore, head?_dropWhile_isWord _⟩
          · have hc : isWord c = true := hc
            rw [wordAt, List.takeWhile_cons_of_pos hc]
            exact List.cons_ne_nil _ _
          · exact List.takeWhile_append_dropWhile.symm
        · exact hlater h
      · exact hlater h

/-- The spans are those of all words of the text: all maximal runs of word characters. -/
theorem mem_spans_iff {t : Text} {s : Span} : s ∈ spans t ↔ Stands t s := by
  constructor
  · intro h
    obtain ⟨hne, hall, pre, post, ht, hstart, hpre, hpost⟩ := exists_of_mem_spansFrom h
    exact ⟨hne, hall, pre, post, ht, by rw [hstart, Nat.zero_add], by simpa using hpre, hpost⟩
  · intro h
    obtain ⟨pre, post, ht, hstart, hpre, hpost⟩ := h.apart
    have hmem := @mem_spansFrom none 0 pre s.text post h.ne_nil h.isWord (by simpa using hpre) hpost
    rw [Nat.zero_add, ← hstart, ← ht] at hmem
    exact hmem

/-! ### Patterns that find words -/

/-- The match that takes up the word at a place. -/
def foundAt (here : Cursor) : Found := ⟨⟨here.offset, wordAt here⟩, []⟩

/-- What a pattern matches at a place is the word that begins there, if it is good, and nothing
else. -/
def Recognises (p : Pattern) (good : Text → Bool) : Prop :=
  ∀ here, matchAt p here =
    if atStart here && good (wordAt here) then some (foundAt here) else none

/-- The last match stopped before a place, or it stops together with the word around that place. -/
def Settled (here : Cursor) (last : Option Nat) : Prop :=
  ∀ stop, last = some stop →
    stop ≤ here.offset ∨
      here.before.any isWord = true ∧ stop = here.offset + Text.size (wordAt here)

theorem wordAt_ne_nil {here : Cursor} (h : atStart here = true) : wordAt here ≠ [] := by
  obtain ⟨before, offset, ahead⟩ := here
  cases ahead with
  | nil => simp [atStart] at h
  | cons c rest =>
      have hc : isWord c = true := (Bool.and_eq_true_iff.mp h).2
      rw [wordAt, List.takeWhile_cons_of_pos hc]
      exact List.cons_ne_nil _ _

section

variable {c : Char} {rest : Text} {before : Option Char} {offset : Nat}

theorem settled_step {last : Option Nat} (h : Settled ⟨before, offset, c :: rest⟩ last) :
    Settled ⟨some c, offset + c.utf8Size, rest⟩ last := by
  intro stop hstop
  rcases h stop hstop with hle | ⟨-, heq⟩
  · exact .inl (Nat.le_trans hle (Nat.le_add_right _ _))
  · by_cases hc : isWord c = true
    · refine .inr ⟨hc, ?_⟩
      rw [heq, wordAt, List.takeWhile_cons_of_pos hc, Text.size_cons, wordAt, Nat.add_assoc]
    · refine .inl ?_
      rw [heq, wordAt, List.takeWhile_cons_of_neg hc]
      exact Nat.le_add_right _ _

theorem settled_found (h : atStart ⟨before, offset, c :: rest⟩ = true) :
    Settled ⟨some c, offset + c.utf8Size, rest⟩
      (some (foundAt ⟨before, offset, c :: rest⟩).whole.stop) := by
  have hc : isWord c = true := (Bool.and_eq_true_iff.mp h).2
  intro stop hstop
  refine .inr ⟨hc, ?_⟩
  rw [← Option.some.inj hstop]
  show offset + Text.size ((c :: rest).takeWhile isWord) = _
  rw [List.takeWhile_cons_of_pos hc, Text.size_cons, wordAt, Nat.add_assoc]

end

theorem counts_foundAt {here : Cursor} {last : Option Nat} (h : atStart here = true)
    (hlast : last.any (here.offset < ·) = false) : counts last (foundAt here) = true := by
  cases last with
  | none => rfl
  | some stop =>
      have hle : ¬ here.offset < stop := by simpa using hlast
      have hne : (wordAt here).isEmpty = false := by simpa using wordAt_ne_nil h
      show (decide (stop < here.offset)
        || (decide (stop = here.offset) && !(wordAt here).isEmpty)) = true
      simp only [hne, Bool.not_false, Bool.and_true, Bool.or_eq_true, decide_eq_true_eq]
      omega

/-- A pattern that recognises good words finds the good words, one after the other. -/
theorem scan_eq {p : Pattern} {good : Text → Bool} (h : Recognises p good) {before : Option Char}
    {offset : Nat} {ahead : Text} {last : Option Nat} (hlast : Settled ⟨before, offset, ahead⟩ last) :
    scan p before offset ahead last =
      ((spansFrom before offset ahead).filter fun s => good s.text).map fun s => ⟨s, []⟩ := by
  induction ahead generalizing before offset last with
  | nil =>
      have hnone : matchAt p ⟨before, offset, []⟩ = none := by
        rw [h]
        simp [atStart]
      rw [scan, hnone]
      split <;> rfl
  | cons c rest ih =>
      have hskip := ih (settled_step hlast)
      rw [scan, spansFrom]
      by_cases hlt : last.any (offset < ·) = true
      · obtain ⟨stop, hstop, hbehind⟩ : ∃ stop, last = some stop ∧ offset < stop := by
          cases last <;> simp_all
        have hinside : atStart ⟨before, offset, c :: rest⟩ = false := by
          rcases hlast stop hstop with hle | ⟨hword, -⟩
          · exact absurd hle (Nat.not_le_of_lt hbehind)
          · have hword : before.any isWord = true := hword
            simp [atStart, hword]
        rw [if_pos hlt, if_neg (by simp [hinside]), hskip]
      · rw [if_neg hlt, h]
        by_cases hstart : atStart ⟨before, offset, c :: rest⟩ = true
        · rw [if_pos hstart, List.filter_cons]
          by_cases hgood : good (wordAt ⟨before, offset, c :: rest⟩) = true
          · simp only [hstart, hgood, Bool.and_self, if_true]
            rw [if_pos (counts_foundAt hstart (by simpa using hlt)), ih (settled_found hstart)]
            rfl
          · simp only [hstart, hgood, Bool.and_false, Bool.false_eq_true, if_false]
            exact hskip
        · rw [if_neg hstart]
          simp only [hstart, Bool.false_and, Bool.false_eq_true, if_false]
          exact hskip

theorem findSpans_eq {p : Pattern} {good : Text → Bool} (h : Recognises p good) (t : Text) :
    p.findSpans t = (spans t).filter fun s => good s.text := by
  have hnone : Settled (Cursor.start t) none := by
    intro stop hstop
    simp at hstop
  have hscan := scan_eq h hnone
  rw [findSpans, findAll, hscan, List.map_map]
  exact List.map_id _

theorem isSome_search_eq {p : Pattern} {good : Text → Bool} (h : Recognises p good)
    (before : Option Char) (offset : Nat) (ahead : Text) :
    (search p before offset ahead).isSome =
      (spansFrom before offset ahead).any fun s => good s.text := by
  induction ahead generalizing before offset with
  | nil =>
      rw [search, h]
      simp [atStart, spansFrom]
  | cons c rest ih =>
      rw [search, spansFrom, h]
      by_cases hstart : atStart ⟨before, offset, c :: rest⟩ = true
      · by_cases hgood : good (wordAt ⟨before, offset, c :: rest⟩) = true
        · simp [hstart, hgood]
        · simp [hstart, hgood, ih]
      · simp [hstart, ih]

/-- A pattern that recognises good words occurs in a text with a good word. -/
theorem occursIn_eq {p : Pattern} {good : Text → Bool} (h : Recognises p good) (t : Text) :
    p.occursIn t = (all t).any good := by
  rw [occursIn, find?, isSome_search_eq h, ← texts_spans, List.any_map]
  rfl

/-- One of two patterns recognises what either does. -/
theorem Recognises.either {p q r : Pattern} {good good' : Text → Bool} (hp : Recognises p good)
    (hq : Recognises q good') (h : ∀ here, matchAt r here = (matchAt p here).or (matchAt q here)) :
    Recognises r fun w => good w || good' w := by
  intro here
  rw [h, hp, hq]
  by_cases hstart : atStart here = true
  · by_cases hgood : good (wordAt here) = true <;> simp [hstart, hgood]
  · simp [hstart]

/-! ### Standing names -/

theorem any_getLast?_or {w : Text} (hne : w ≠ []) (hw : ∀ c ∈ w, isWord c = true)
    (before : Option Char) : (w.getLast?.or before).any isWord = true := by
  rw [List.getLast?_eq_some_getLast hne]
  exact hw _ (List.getLast_mem hne)

/-- Of the word at a place a name is all, if it is ahead and no word character follows. -/
theorem wordAt_beq_eq {here : Cursor} {name rest : Text} (hw : ∀ c ∈ name, isWord c = true)
    (hahead : here.ahead = name ++ rest) : (wordAt here == name) = !rest.head?.any isWord := by
  rw [wordAt, hahead, List.takeWhile_append_of_pos hw]
  cases rest with
  | nil => simp
  | cons c more =>
      cases hc : isWord c <;> simp [hc]

theorem recognises_standing {name : Text} (hne : name ≠ []) (hw : ∀ c ∈ name, isWord c = true) :
    Recognises (standing name) (· == name) := by
  intro here
  have hrun : matchAt (standing name) here =
      if here.atWordEdge then
        run (exactly name) here [] fun next groups =>
          if next.atWordEdge then some (Found.between here next groups) else none
      else none := rfl
  rw [hrun]
  by_cases hbegins : name <+: here.ahead
  · obtain ⟨rest, hrest⟩ := hbegins
    have hpass : here.Passes name
        ⟨name.getLast?.or here.before, here.offset + Text.size name, rest⟩ :=
      ⟨hrest.symm, rfl, rfl⟩
    have hhead : here.ahead.head?.any isWord = true := by
      obtain ⟨c, more, rfl⟩ := List.exists_cons_of_ne_nil hne
      rw [← hrest]
      exact hw c List.mem_cons_self
    have hstart : here.atWordEdge = atStart here := by
      rw [Cursor.atWordEdge, atStart, hhead]
      cases here.before.any isWord <;> rfl
    have hstop : Cursor.atWordEdge
        ⟨name.getLast?.or here.before, here.offset + Text.size name, rest⟩ =
          (wordAt here == name) := by
      rw [wordAt_beq_eq hw hrest.symm, Cursor.atWordEdge, any_getLast?_or hne hw]
      exact Bool.true_bne _
    have hfound : Found.between here
        ⟨name.getLast?.or here.before, here.offset + Text.size name, rest⟩ [] =
          ⟨⟨here.offset, name⟩, []⟩ := by
      rw [Found.between, Span.between_eq hpass]
      rfl
    rw [run_exactly hpass, hstart, hstop, hfound]
    by_cases hword : wordAt here = name
    · simp [foundAt, hword]
    · simp [hword]
  · have hword : wordAt here ≠ name := by
      rintro rfl
      exact hbegins (List.takeWhile_prefix _)
    rw [run_exactly_eq_none hbegins]
    simp [hword]

/-! ### Names used elsewhere -/

section

variable {t : Text} {declared : Span} {former latter : List Span}

theorem occursOnce_iff (hsplit : spans t = former ++ declared :: latter) :
    occursOnce t declared.text = true ↔ ¬ ∃ s ∈ former ++ latter, s.text = declared.text := by
  have hcount : (all t).count declared.text =
      ((former ++ latter).map (·.text)).count declared.text + 1 := by
    rw [← texts_spans, hsplit]
    simp only [List.map_append, List.map_cons, List.count_append, List.count_cons_self]
    omega
  rw [occursOnce, decide_eq_true_eq, hcount, Nat.add_eq_right, List.count_eq_zero, List.mem_map]

/-- The other words of the text are those that stand before the declared one and behind it. -/
theorem isUsed_iff (h : Stands t declared) (hsplit : spans t = former ++ declared :: latter) :
    isUsed t declared = true ↔ ∃ s ∈ former ++ latter, s.text = declared.text := by
  have hpairwise := pairwise_spansFrom none 0 t
  rw [← spans, hsplit, List.pairwise_append, List.pairwise_cons] at hpairwise
  obtain ⟨-, ⟨hlatter, -⟩, hformer⟩ := hpairwise
  have hpos := Text.size_pos_of_ne_nil h.ne_nil
  have hstop : declared.stop = declared.start + Text.size declared.text := rfl
  rw [isUsed, usedOutside, findSpans_eq (recognises_standing h.ne_nil h.isWord), hsplit,
    List.any_eq_true]
  simp only [List.mem_filter, beq_iff_eq, Bool.or_eq_true, decide_eq_true_eq]
  constructor
  · rintro ⟨s, ⟨hs, htext⟩, hout⟩
    refine ⟨s, ?_, htext⟩
    rcases List.mem_append.mp hs with hs | hs
    · exact List.mem_append_left _ hs
    · rcases List.mem_cons.mp hs with rfl | hs
      · omega
      · exact List.mem_append_right _ hs
  · rintro ⟨s, hs, htext⟩
    rcases List.mem_append.mp hs with hs | hs
    · have hle : s.start + Text.size s.text ≤ declared.start :=
        hformer s hs declared List.mem_cons_self
      rw [htext] at hle
      exact ⟨s, ⟨List.mem_append_left _ hs, htext⟩, .inl (by omega)⟩
    · exact ⟨s, ⟨List.mem_append_right _ (List.mem_cons_of_mem _ hs), htext⟩,
        .inr (hlatter s hs)⟩

/-- A name that stands as a word of the text is used elsewhere, or it occurs only once. -/
theorem isUsed_eq (h : Stands t declared) :
    isUsed t declared = !occursOnce t declared.text := by
  obtain ⟨former, latter, hsplit⟩ := List.append_of_mem (mem_spans_iff.mpr h)
  rw [Bool.eq_iff_iff, isUsed_iff h hsplit, Bool.not_eq_true', ← Bool.not_eq_true,
    occursOnce_iff hsplit, Classical.not_not]

end

/-- The empty name is used wherever a text has a word edge, and it is no word. -/
theorem isUsed_nil {t pre : Text} {here : Cursor} (hpass : (Cursor.start t).Passes pre here)
    (hedge : here.atWordEdge = true) (offset : Nat) : isUsed t ⟨offset, []⟩ = true := by
  have hmatch : (matchAt (standing []) here).isSome = true := by
    have hrun : matchAt (standing []) here =
        if here.atWordEdge then
          if here.atWordEdge then some (Found.between here here []) else none
        else none := rfl
    rw [hrun, if_pos hedge, if_pos hedge]
    rfl
  have hne : (standing []).findSpans t ≠ [] := fun hnil =>
    scan_ne_nil hpass hmatch (List.map_eq_nil_iff.mp hnil)
  obtain ⟨s, hs⟩ := List.exists_mem_of_ne_nil _ hne
  refine List.any_eq_true.mpr ⟨s, hs, ?_⟩
  show (decide (s.start < offset) || decide (offset + 0 ≤ s.start)) = true
  simp only [Bool.or_eq_true, decide_eq_true_eq]
  omega

theorem occursOnce_nil (t : Text) : occursOnce t [] = false := by
  have hcount : (all t).count [] = 0 := List.count_eq_zero.mpr fun h => by
    simp [all] at h
  simp [occursOnce, hcount]

end SnippetLint.Words
