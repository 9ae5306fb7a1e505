/-
Pieces between separators.

Cutting a text at its separators is undone by putting the separators back: the first piece is what
stands before the first separator, and the other pieces are those of what stands behind it.
-/
import SnippetLint.Text.Basic

namespace SnippetLint.Text

/-- The first piece ends with the text, or else with a separator. -/
theorem pieces_cases (isSeparator : Char → Bool) (t : Text) :
    ∃ piece, (∀ c ∈ piece, isSeparator c = false)
      ∧ ((t = piece ∧ pieces isSeparator t = [piece])
        ∨ ∃ c rest, isSeparator c = true ∧ t = piece ++ c :: rest
          ∧ pieces isSeparator t = piece :: pieces isSeparator rest) := by
  induction t with
  | nil => exact ⟨[], by simp, .inl ⟨rfl, rfl⟩⟩
  | cons d rest ih =>
      by_cases hd : isSeparator d = true
      · exact ⟨[], by simp, .inr ⟨d, rest, hd, rfl, by simp [pieces, hd]⟩⟩
      · obtain ⟨piece, hpiece, h⟩ := ih
        refine ⟨d :: piece, by simpa [hd] using hpiece, ?_⟩
        rcases h with ⟨rfl, h⟩ | ⟨c, rest', hc, rfl, h⟩
        · exact .inl ⟨rfl, by simp [pieces, hd, h]⟩
        · exact .inr ⟨c, rest', hc, rfl, by simp [pieces, hd, h]⟩

/-- A piece is made of characters of the text. -/
theorem mem_of_mem_pieces {isSeparator : Char → Bool} {t piece : Text} {d : Char}
    (h : piece ∈ pieces isSeparator t) (hd : d ∈ piece) : d ∈ t := by
  fun_induction pieces isSeparator t generalizing piece with
  | case1 => exact List.mem_singleton.mp h ▸ hd
  | case2 c rest hc ih =>
      rcases List.mem_cons.mp h with rfl | h
      · exact absurd hd List.not_mem_nil
      · exact List.mem_cons_of_mem _ (ih h hd)
  | case3 c rest hc hrest ih =>
      obtain rfl : piece = [c] := List.mem_singleton.mp h
      exact List.mem_singleton.mp hd ▸ List.mem_cons_self
  | case4 c rest hc first more hrest ih =>
      rcases List.mem_cons.mp h with rfl | h
      · rcases List.mem_cons.mp hd with rfl | hd
        · exact List.mem_cons_self
        · exact List.mem_cons_of_mem _ (ih (by rw [hrest]; exact List.mem_cons_self) hd)
      · exact List.mem_cons_of_mem _ (ih (by rw [hrest]; exact List.mem_cons_of_mem _ h) hd)

theorem pieces_eq_cons (isSeparator : Char → Bool) (t : Text) :
    pieces isSeparator t =
      t.takeWhile (fun c => !isSeparator c) :: (pieces isSeparator t).tail := by
  induction t with
  | nil => rfl
  | cons c rest ih =>
      unfold pieces
      by_cases hc : isSeparator c = true
      · simp [hc]
      · rw [ih]
        simp [hc]

theorem tail_pieces_cons {isSeparator : Char → Bool} {c : Char} (hc : isSeparator c = false)
    (rest : Text) : (pieces isSeparator (c :: rest)).tail = (pieces isSeparator rest).tail := by
  rw [pieces, pieces_eq_cons isSeparator rest]
  simp [hc]

/-- A separator cuts a text in two, and each half into its pieces. -/
theorem pieces_append_cons {isSeparator : Char → Bool} {c : Char} (hc : isSeparator c = true)
    (s t : Text) :
    pieces isSeparator (s ++ c :: t) = pieces isSeparator s ++ pieces isSeparator t := by
  fun_induction pieces isSeparator s with
  | case1 => simp [pieces, hc]
  | case2 d rest hd ih => simp [pieces, hd, ih]
  | case3 d rest hd hrest ih =>
      rw [pieces_eq_cons] at hrest
      exact absurd hrest (List.cons_ne_nil _ _)
  | case4 d rest hd first more hrest ih => simp [pieces, hd, ih, hrest]

/-- Behind a separator at the end there is an empty piece. -/
theorem pieces_concat {isSeparator : Char → Bool} {c : Char} (hc : isSeparator c = true)
    (t : Text) : pieces isSeparator (t ++ [c]) = pieces isSeparator t ++ [[]] :=
  pieces_append_cons hc t []

/-- What holds no separator belongs to the first piece. -/
theorem pieces_append {isSeparator : Char → Bool} {s : Text}
    (hs : ∀ c ∈ s, isSeparator c = false) (t : Text) : pieces isSeparator (s ++ t) =
      (s ++ t.takeWhile fun c => !isSeparator c) :: (pieces isSeparator t).tail := by
  induction s with
  | nil => exact pieces_eq_cons isSeparator t
  | cons c rest ih =>
      rw [List.forall_mem_cons] at hs
      rw [List.cons_append, pieces, ih hs.2]
      simp [hs.1]

/-- A text goes on with characters of a class in one way only. -/
theorem append_inj_of_class {f : Char → Bool} {s s' t t' : Text} (hs : ∀ c ∈ s, f c = true)
    (hs' : ∀ c ∈ s', f c = true) (ht : t.head?.any f = false) (ht' : t'.head?.any f = false)
    (h : s ++ t = s' ++ t') : s = s' ∧ t = t' := by
  have htake : ∀ {u v : Text}, (∀ c ∈ u, f c = true) → v.head?.any f = false →
      (u ++ v).takeWhile f = u := by
    intro u v hu hv
    rw [List.takeWhile_append_of_pos hu]
    cases v with
    | nil => simp
    | cons c rest => simp [show f c = false from hv]
  have hfront : s = s' := by rw [← htake hs ht, h, htake hs' ht']
  exact ⟨hfront, List.append_cancel_left (hfront ▸ h)⟩

/-- A character stands first at one place of a text only. -/
theorem append_cons_inj {c : Char} {s s' t t' : Text} (hs : c ∉ s) (hs' : c ∉ s')
    (h : s ++ c :: t = s' ++ c :: t') : s = s' ∧ t = t' := by
  have hclass : ∀ {u : Text}, c ∉ u → ∀ d ∈ u, (d != c) = true := fun hu d hd => by
    simpa using fun heq : d = c => hu (heq ▸ hd)
  obtain ⟨hfront, hback⟩ := append_inj_of_class (hclass hs) (hclass hs') (by simp) (by simp) h
  exact ⟨hfront, (List.cons.inj hback).2⟩

end SnippetLint.Text
