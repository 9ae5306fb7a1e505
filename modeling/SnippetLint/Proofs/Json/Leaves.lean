/-
Strings and counts as they are written.

A character of a string is written in one of three ways (`Written`): as itself, as a letter behind a
backslash, or as the number of a control character.  Each is undone by `unescape` whatever follows,
and none of them ends the string, so a string is read up to the quote that closes it and stands for
the characters it was made of.  A count is written with digits of which the first is no zero, unless
it is the only one, and digits are taken for nothing else.
-/
import Mathlib.Data.List.TakeWhile
import SnippetLint.Json.Printer
import SnippetLint.Json.Token

namespace SnippetLint.Json

open Token

/-- What is read back item by item is read back as a list. -/
theorem mapM_map_eq_some {α β : Type} {write : α → β} {read : β → Option α} {l : List α}
    (h : ∀ a ∈ l, read (write a) = some a) : (l.map write).mapM read = some l := by
  induction l with
  | nil => rfl
  | cons a rest ih =>
      obtain ⟨ha, hrest⟩ := List.forall_mem_cons.mp h
      rw [List.map_cons, List.mapM_cons, ha, ih hrest]
      rfl

/-! ### Characters of a string -/

/-- A character that stands in a string as itself. -/
structure Ordinary (c : Char) : Prop where
  visible : ¬ c.toNat < 0x20
  ne_quote : c ≠ '"'
  ne_backslash : c ≠ '\\'

instance (c : Char) : Decidable (Ordinary c) :=
  decidable_of_iff (¬ c.toNat < 0x20 ∧ c ≠ '"' ∧ c ≠ '\\')
    ⟨fun ⟨hv, hq, hb⟩ => ⟨hv, hq, hb⟩, fun ⟨hv, hq, hb⟩ => ⟨hv, hq, hb⟩⟩

/-- How a character can be written in a string. -/
inductive Written (c : Char) : List Char → Prop
  | itself (h : Ordinary c) : Written c [c]
  | letter {e : Char} (h : escaped? e = some c) (hvisible : ¬ e.toNat < 0x20) :
      Written c ['\\', e]
  | number {a b : Char} (h : hex? '0' '0' a b = some c.toNat) (hcontrol : c.toNat < 0x20)
      (ha : Ordinary a) (hb : Ordinary b) : Written c ['\\', 'u', '0', '0', a, b]

theorem ordinary_hexDigit : ∀ n < 16, Ordinary (hexDigit n) := by decide

theorem hex?_hexDigit : ∀ n < 0x20, hex? '0' '0' (hexDigit (n / 16)) (hexDigit (n % 16)) = some n := by
  decide

theorem written_escape (c : Char) : Written c (escape c) := by
  unfold escape
  repeat' split
  -- Each of the letters is settled by evaluation; the last two branches are not about one character.
  any_goals
    rename_i h
    exact .letter (by rw [h]; rfl) (by decide)
  · rename_i hcontrol
    exact .number (hex?_hexDigit _ hcontrol) hcontrol (ordinary_hexDigit _ (by omega))
      (ordinary_hexDigit _ (by omega))
  · rename_i hquote hbackslash _ _ _ _ _ hvisible
    exact .itself ⟨hvisible, hquote, hbackslash⟩

/-- What a character is written as stands for it, whatever follows. -/
theorem Written.unescape {c : Char} {w : List Char} (h : Written c w) (rest : List Char) :
    unescape (w ++ rest) = (unescape rest).map (some c :: ·) := by
  cases h with
  | itself h =>
      rw [List.singleton_append, unescape.eq_5]
      · cases Token.unescape rest <;> rfl
      all_goals simp [h.ne_backslash]
  | letter h =>
      rw [List.cons_append, List.singleton_append, unescape.eq_3, h]
      · cases Token.unescape rest <;> rfl
      · rintro a b c d more rfl -
        simp [escaped?] at h
  | number h hcontrol =>
      have hhigh : isHighHalf c.toNat = false := by
        simp [isHighHalf]
        omega
      have hlow : isLowHalf c.toNat = false := by
        simp [isLowHalf]
        omega
      rw [List.cons_append, List.cons_append, List.cons_append, List.cons_append, List.cons_append,
        List.singleton_append, unescape.eq_2, h]
      simp only [Option.bind_eq_bind, Option.bind_some, hhigh, hlow, Char.ofNat_toNat]
      cases Token.unescape rest <;> rfl

theorem unescape_flatMap (s : List Char) : unescape (s.flatMap escape) = some (s.map some) := by
  induction s with
  | nil => rfl
  | cons c rest ih => rw [List.flatMap_cons, (written_escape c).unescape, ih]; rfl

theorem ofQuoted?_flatMap (s : String) : ofQuoted? (s.toList.flatMap escape) = some (.text s) := by
  have hall : (s.toList.map some).mapM id = some s.toList := mapM_map_eq_some fun _ _ => rfl
  rw [ofQuoted?, unescape_flatMap]
  simp [hall]

/-! ### Scanning a string -/

theorem scanFrom_ordinary {c : Char} (h : Ordinary c) (seen rest : List Char) :
    scanFrom (.quoted seen false) (c :: rest) = scanFrom (.quoted (c :: seen) false) rest := by
  rw [scanFrom, if_neg h.visible, if_neg Bool.false_ne_true, if_neg (by simp [h.ne_backslash]),
    if_neg (by simp [h.ne_quote])]

theorem scanFrom_letter {e : Char} (h : ¬ e.toNat < 0x20) (seen rest : List Char) :
    scanFrom (.quoted seen false) ('\\' :: e :: rest) =
      scanFrom (.quoted (e :: '\\' :: seen) false) rest := by
  rw [scanFrom, if_neg (by decide), if_neg Bool.false_ne_true, if_pos (by decide), scanFrom, if_neg h,
    if_pos rfl]

/-- What a character is written as is passed inside of a string. -/
theorem Written.scanFrom {c : Char} {w : List Char} (h : Written c w) (seen rest : List Char) :
    scanFrom (.quoted seen false) (w ++ rest) = scanFrom (.quoted (w.reverse ++ seen) false) rest := by
  cases h with
  | itself h => exact scanFrom_ordinary h seen rest
  | letter _ hvisible => exact scanFrom_letter hvisible seen rest
  | number _ _ ha hb =>
      refine (scanFrom_letter (by decide) seen _).trans ?_
      refine (scanFrom_ordinary (by decide) _ _).trans ?_
      refine (scanFrom_ordinary (by decide) _ _).trans ?_
      exact (scanFrom_ordinary ha _ _).trans (scanFrom_ordinary hb _ _)

theorem scanFrom_flatMap (s seen rest : List Char) :
    scanFrom (.quoted seen false) (s.flatMap escape ++ rest) =
      scanFrom (.quoted ((s.flatMap escape).reverse ++ seen) false) rest := by
  induction s generalizing seen with
  | nil => rfl
  | cons c more ih =>
      rw [List.flatMap_cons, List.append_assoc, (written_escape c).scanFrom, ih, List.reverse_append,
        List.append_assoc]

/-- **A string is read up to its end, and stands for the text it was made of.** -/
theorem scanFrom_quote (s : String) (rest : List Char) :
    scanFrom .between (quote s ++ rest) = (scanFrom .between rest).map (.text s :: ·) := by
  have hopen : scanFrom .between (quote s ++ rest) =
      scanFrom (.quoted [] false) (s.toList.flatMap escape ++ '"' :: rest) := by
    rw [quote, List.cons_append, List.cons_append, List.append_assoc, scanFrom]
    exact Option.map_id'
  rw [hopen, scanFrom_flatMap, scanFrom, if_neg (by decide), if_neg Bool.false_ne_true,
    if_neg (by decide), if_pos (by decide), List.append_nil, List.reverse_reverse, ofQuoted?_flatMap]

/-! ### Counts -/

theorem isDigit_of_mem_toDigits {n : Nat} {c : Char} (h : c ∈ Nat.toDigits 10 n) :
    c.isDigit = true := Nat.isDigit_of_mem_toDigits (by decide) (by decide) h

/-- The digits of a positive count do not begin with a zero. -/
theorem head?_toDigits_ne {n : Nat} (h : 0 < n) : (Nat.toDigits 10 n).head? ≠ some '0' := by
  induction n using Nat.strongRecOn with
  | _ n ih =>
      by_cases hlt : n < 10
      · have hsmall : ∀ m < 10, 0 < m → (Nat.toDigits 10 m).head? ≠ some '0' := by decide
        exact hsmall n hlt h
      · have hhead := ih (n / 10) (by omega) (by omega)
        rw [Nat.toDigits_of_base_le (by decide) (by omega), List.head?_append]
        cases hdigits : (Nat.toDigits 10 (n / 10)).head? with
        | none => exact absurd (List.head?_eq_none_iff.mp hdigits) Nat.toDigits_ne_nil
        | some c =>
            rw [hdigits] at hhead
            exact hhead

theorem isCount_toDigits (n : Nat) : isCount (Nat.toDigits 10 n) = true := by
  by_cases hzero : n = 0
  · rw [hzero]
    decide
  · obtain ⟨c, rest, hcons⟩ := List.exists_cons_of_ne_nil (Nat.toDigits_ne_nil (n := n) (b := 10))
    have hne : c ≠ '0' := by
      have hhead := head?_toDigits_ne (n := n) (by omega)
      rw [hcons] at hhead
      exact fun heq => hhead (congrArg some heq)
    have hdigits : ∀ d ∈ c :: rest, d.isDigit = true := fun d hd =>
      isDigit_of_mem_toDigits (hcons ▸ hd)
    have hrest : rest.dropWhile Char.isDigit = [] :=
      List.dropWhile_eq_nil_iff.mpr fun d hd => hdigits d (List.mem_cons_of_mem c hd)
    rw [hcons, isCount, dropWhole?.eq_2 _ (by simpa using hne), dropDigits?,
      if_pos (hdigits c List.mem_cons_self), hrest]
    rfl

theorem value_toDigits (n : Nat) : value (Nat.toDigits 10 n) = n := by
  have hvalue : value (Nat.toDigits 10 n) = Nat.ofDigitChars 10 (Nat.toDigits 10 n) 0 := by
    unfold value Nat.ofDigitChars
    simp only [Nat.mul_comm]
  rw [hvalue, Nat.ofDigitChars_toDigits (by decide) (by decide)]

/-- **The digits of a count are read as that count.** -/
theorem ofWord?_toDigits (n : Nat) : ofWord? (Nat.toDigits 10 n) = some (.scalar (.count n)) := by
  have hne : ∀ word : String, word.toList.all Char.isDigit = false →
      Nat.toDigits 10 n ≠ word.toList := by
    intro word hword heq
    rw [← heq, List.all_eq_true.mpr fun c hc => isDigit_of_mem_toDigits hc] at hword
    simp at hword
  rw [ofWord?, if_neg (hne _ (by decide)), if_neg (hne _ (by decide)), if_neg (hne _ (by decide)),
    if_pos (isCount_toDigits n), value_toDigits]

end SnippetLint.Json
