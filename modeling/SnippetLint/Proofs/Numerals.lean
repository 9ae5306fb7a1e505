/-
Numerals: the words of a text that consist of digits.

A digit is a word character, so a run of digits between two word edges is a whole word: at any
earlier end of it the next character is a digit, and there is no edge.  Going back over a run that
ends before a letter therefore finds nothing (`passMany_inWord`), and what is found are the words of
digits (`numerals_eq`).

A line feed is no word character, so the words of a text are those of its lines
(`spansFrom_append`).
-/
import SnippetLint.Proofs.Pattern.Order
import SnippetLint.Proofs.Words

namespace SnippetLint.Words

open Pattern Unicode

/-- A word of a text that consists of digits. -/
structure IsNumeral (t : Text) (s : Span) : Prop where
  stands : Stands t s
  digits : ∀ c ∈ s.text, digit c = true

/-! ### Runs of digits -/

section

variable {α : Type} {f : Char → Bool}

/-- What follows a run inside of a word accepts no place but an edge, and so only its end. -/
theorem passMany_inWord {k : Cursor → Option α} (hf : ∀ c, f c = true → isWord c = true)
    (hk : ∀ next : Cursor, next.atWordEdge = false → k next = none) {before : Option Char}
    (hbefore : before.any isWord = true) (offset : Nat) (ahead : Text) :
    ∃ next, Cursor.Passes ⟨before, offset, ahead⟩ (ahead.takeWhile f) next ∧
      passMany f k before offset ahead = k next := by
  induction ahead generalizing before offset with
  | nil => exact ⟨_, .refl _, rfl⟩
  | cons c rest ih =>
      unfold passMany
      by_cases hc : f c = true
      · obtain ⟨next, hpass, heq⟩ := @ih (some c) (hf c hc) (offset + c.utf8Size)
        have hinside : k ⟨before, offset, c :: rest⟩ = none :=
          hk _ (by simp [Cursor.atWordEdge, hbefore, hf c hc])
        refine ⟨next, ?_, ?_⟩
        · rw [List.takeWhile_cons_of_pos hc]
          exact hpass.cons
        · rw [if_pos hc, heq, hinside]
          cases k next <;> rfl
      · refine ⟨_, ?_, if_neg hc⟩
        rw [List.takeWhile_cons_of_neg hc]
        exact .refl _

theorem run_several_inWord {here : Cursor} {groups : Groups} {k : Cursor → Groups → Option α}
    (hf : ∀ c, f c = true → isWord c = true)
    (hk : ∀ next : Cursor, next.atWordEdge = false → k next groups = none) {c : Char} {rest : Text}
    (h : here.ahead = c :: rest) (hc : f c = true) :
    ∃ next, here.Passes (c :: rest.takeWhile f) next ∧
      run (several f) here groups k = k next groups := by
  have hbefore : (some c).any isWord = true := hf c hc
  obtain ⟨next, hpass, heq⟩ := passMany_inWord hf hk hbefore (here.offset + c.utf8Size) rest
  refine ⟨next, (Cursor.passes_step h).trans hpass, ?_⟩
  rw [several, run, run, h]
  exact (if_pos hc).trans heq

end

/-- A word that begins with digits consists of them if no word character follows them. -/
theorem all_takeWhile_isWord (t : Text) :
    (t.takeWhile isWord).all digit = !(t.dropWhile digit).head?.any isWord := by
  induction t with
  | nil => rfl
  | cons c rest ih =>
      by_cases hc : digit c = true
      · rw [List.takeWhile_cons_of_pos (isWord_of_isDigit c hc), List.all_cons, hc, ih,
          List.dropWhile_cons_of_pos hc, Bool.true_and]
      · rw [List.dropWhile_cons_of_neg hc]
        cases hword : isWord c <;> simp [hc, hword]

theorem takeWhile_digit_eq {t : Text} (h : (t.takeWhile isWord).all digit = true) :
    t.takeWhile digit = t.takeWhile isWord := by
  induction t with
  | nil => rfl
  | cons c rest ih =>
      by_cases hword : isWord c = true
      · rw [List.takeWhile_cons_of_pos hword, List.all_cons, Bool.and_eq_true] at h
        rw [List.takeWhile_cons_of_pos hword, List.takeWhile_cons_of_pos h.1, ih h.2]
      · have hc : ¬ digit c = true := fun hc => hword (isWord_of_isDigit c hc)
        rw [List.takeWhile_cons_of_neg hword, List.takeWhile_cons_of_neg hc]

section

variable {here next : Cursor} {c : Char} {rest : Text}

/-- Where a run of digits ends is a word edge if the word around it has no other characters. -/
theorem atWordEdge_of_passes (h : here.ahead = c :: rest) (hc : digit c = true)
    (hpass : here.Passes (c :: rest.takeWhile digit) next) :
    next.atWordEdge = (wordAt here).all digit := by
  have hahead : next.ahead = rest.dropWhile digit := by
    have hsplit := hpass.ahead
    rw [h, List.cons_append, List.cons_inj_right] at hsplit
    exact List.append_cancel_left (hsplit.symm.trans List.takeWhile_append_dropWhile.symm)
  have hword : ∀ d ∈ c :: rest.takeWhile digit, isWord d = true := by
    refine List.forall_mem_cons.mpr ⟨isWord_of_isDigit c hc, fun d hd => ?_⟩
    exact isWord_of_isDigit d (List.all_eq_true.mp List.all_takeWhile d hd)
  rw [Cursor.atWordEdge, hpass.before, any_getLast?_or (List.cons_ne_nil _ _) hword, hahead,
    wordAt, h, List.takeWhile_cons_of_pos (hword c List.mem_cons_self), List.all_cons, hc,
    all_takeWhile_isWord]
  exact Bool.true_bne _

end

theorem recognises_numeral : Recognises numeral (·.all digit) := by
  intro here
  let k : Cursor → Groups → Option Found := fun next groups =>
    if next.atWordEdge then some (Found.between here next groups) else none
  have hrun : matchAt numeral here =
      if here.atWordEdge then run (several digit) here [] k else none := rfl
  rw [hrun]
  by_cases hhead : here.ahead.head?.any digit = true
  · obtain ⟨c, rest, hahead, hc⟩ : ∃ c rest, here.ahead = c :: rest ∧ digit c = true := by
      cases hahead : here.ahead with
      | nil => simp [hahead] at hhead
      | cons c rest => exact ⟨c, rest, rfl, by simpa [hahead] using hhead⟩
    have hedge : here.atWordEdge = atStart here := by
      rw [Cursor.atWordEdge, atStart, hahead, List.head?_cons, Option.any_some,
        isWord_of_isDigit c hc]
      cases here.before.any isWord <;> rfl
    obtain ⟨next, hpass, heq⟩ : ∃ next, here.Passes (c :: rest.takeWhile digit) next ∧
        run (several digit) here [] k = k next [] :=
      run_several_inWord isWord_of_isDigit (fun next hnext => if_neg (by simp [hnext])) hahead hc
    rw [heq, hedge]
    show (if atStart here = true then
      if next.atWordEdge = true then some (Found.between here next []) else none else none) = _
    rw [atWordEdge_of_passes hahead hc hpass]
    by_cases hall : (wordAt here).all digit = true
    · have htext : wordAt here = c :: rest.takeWhile digit := by
        rw [wordAt, hahead] at hall ⊢
        rw [← takeWhile_digit_eq hall, List.takeWhile_cons_of_pos hc]
      have hfound : Found.between here next [] = foundAt here := by
        rw [Found.between, Span.between_eq hpass, foundAt, htext]
        rfl
      simp [hall, hfound]
    · simp [hall]
  · have hgood : (atStart here && (wordAt here).all digit) = false := by
      rw [wordAt]
      cases hahead : here.ahead with
      | nil => simp [atStart, hahead]
      | cons c rest =>
          have hc : digit c = false := by simpa [hahead] using hhead
          cases hword : isWord c <;> simp [atStart, hahead, hword, hc]
    rw [run_several_eq_none (by simpa using hhead), hgood]
    simp

theorem numerals_eq (t : Text) : numerals t = (spans t).filter fun s => s.text.all digit :=
  findSpans_eq recognises_numeral t

/-- The numerals that are found are all words of digits, in order. -/
theorem lists_numerals (t : Text) : Span.Lists (IsNumeral t) (numerals t) := by
  rw [numerals_eq]
  refine ⟨(pairwise_spansFrom none 0 t).filter _, fun s => ?_⟩
  rw [List.mem_filter, mem_spans_iff, List.all_eq_true]
  exact ⟨fun h => ⟨h.1, h.2⟩, fun h => ⟨h.stands, h.digits⟩⟩

/-! ### Words of lines -/

theorem spansFrom_cons (before : Option Char) (offset : Nat) (c : Char) (rest : Text) :
    spansFrom before offset (c :: rest) =
      if before.any isWord = false ∧ isWord c = true then
        ⟨offset, (c :: rest).takeWhile isWord⟩ :: spansFrom (some c) (offset + c.utf8Size) rest
      else spansFrom (some c) (offset + c.utf8Size) rest := by
  rw [spansFrom]
  cases hbefore : before.any isWord <;> cases hc : isWord c <;>
    simp [atStart, wordAt, hbefore, hc]

/-- For where words begin it only matters whether there is a word character before the text. -/
theorem spansFrom_beside {before before' : Option Char}
    (h : before.any isWord = before'.any isWord) (offset : Nat) (t : Text) :
    spansFrom before offset t = spansFrom before' offset t := by
  cases t with
  | nil => rfl
  | cons c rest => rw [spansFrom_cons, spansFrom_cons, h]

theorem spansFrom_shift (before : Option Char) (n offset : Nat) (t : Text) :
    spansFrom before (n + offset) t =
      (spansFrom before offset t).map fun s => ⟨n + s.start, s.text⟩ := by
  induction t generalizing before offset with
  | nil => rfl
  | cons c rest ih =>
      rw [spansFrom_cons, spansFrom_cons, Nat.add_assoc, ih]
      split <;> rfl

theorem takeWhile_isWord_append {c : Char} (hc : isWord c = false) (a b : Text) :
    (a ++ c :: b).takeWhile isWord = a.takeWhile isWord := by
  induction a with
  | nil => exact List.takeWhile_cons_of_neg (by simp [hc])
  | cons d rest ih => rw [List.cons_append, List.takeWhile_cons, List.takeWhile_cons, ih]

/-- No word reaches over a character that is no word character. -/
theorem spansFrom_append {c : Char} (hc : isWord c = false) (before : Option Char) (offset : Nat)
    (a b : Text) :
    spansFrom before offset (a ++ c :: b) =
      spansFrom before offset a ++ spansFrom none (offset + Text.size (a ++ [c])) b := by
  induction a generalizing before offset with
  | nil =>
      have hbeside : (some c).any isWord = none.any isWord := hc
      rw [List.nil_append, spansFrom_cons, if_neg (by simp [hc]), spansFrom_beside hbeside]
      rfl
  | cons d rest ih =>
      have hword := takeWhile_isWord_append hc (d :: rest) b
      rw [List.cons_append] at hword
      rw [List.cons_append, List.cons_append, spansFrom_cons, spansFrom_cons, ih, hword,
        Text.size_cons, Nat.add_assoc]
      split <;> rfl

theorem spans_concat {c : Char} (hc : isWord c = false) (t : Text) :
    spans (t ++ [c]) = spans t := by
  rw [spans, spansFrom_append hc, spans, spansFrom, List.append_nil]

end SnippetLint.Words
