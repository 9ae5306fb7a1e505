/-
Offsets count bytes, and the places of a text are the offsets that its characters begin at.

Cutting a text never faults where the offset is the size of what stands before it, and that is the
only form in which the rest of the development speaks about offsets: a place of `t` is a way to
write `t` as `pre ++ post`, and its offset is `size pre`.
-/
import SnippetLint.Proofs.Except
import SnippetLint.Text.Lines

namespace SnippetLint.Text

/-! ### Size -/

@[simp] theorem size_nil : size [] = 0 := rfl

@[simp] theorem size_cons (c : Char) (t : Text) : size (c :: t) = c.utf8Size + size t := rfl

@[simp] theorem size_append (a b : Text) : size (a ++ b) = size a + size b := by
  induction a with
  | nil => simp
  | cons c rest ih => simp [ih, Nat.add_assoc]

theorem size_pos_of_ne_nil {t : Text} (h : t ≠ []) : 0 < size t := by
  cases t with
  | nil => exact absurd rfl h
  | cons c rest =>
      have := Char.utf8Size_pos c
      rw [size_cons]
      omega

/-! ### Cutting at a place -/

theorem splitAt_size (a b : Text) : splitAt (a ++ b) (size a) = .ok (a, b) := by
  induction a with
  | nil => cases b <;> rfl
  | cons c rest ih =>
      have hpos := Char.utf8Size_pos c
      obtain ⟨n, hn⟩ : ∃ n, c.utf8Size + size rest = n + 1 :=
        ⟨c.utf8Size + size rest - 1, by omega⟩
      have hrest : n + 1 - c.utf8Size = size rest := by omega
      rw [List.cons_append, size_cons, hn, splitAt, if_pos (by omega), hrest, ih]
      rfl

/-- An offset cuts a text in one way only. -/
theorem append_inj_of_size {a b a' b' : Text} (h : a ++ b = a' ++ b') (hsize : size a = size a') :
    a = a' ∧ b = b' := by
  have hcut := splitAt_size a b
  rw [h, hsize, splitAt_size] at hcut
  exact Prod.mk.inj (Except.ok.inj hcut.symm)

theorem before_size (a b : Text) : before (a ++ b) (size a) = .ok a := by
  rw [before, splitAt_size]
  rfl

theorem after_size (a b : Text) : after (a ++ b) (size a) = .ok b := by
  rw [after, splitAt_size]
  rfl

theorem slice_size (a b c : Text) :
    slice (a ++ b ++ c) (size a) (size a + size b) = .ok b := by
  have hdiff : difference (size a + size b) (size a) = .ok (size b) := by
    rw [difference, if_pos (Nat.le_add_right _ _), Nat.add_sub_cancel_left]
  rw [slice, hdiff, List.append_assoc, after_size]
  exact before_size b c

theorem eq_append_of_splitAt {t front back : Text} {offset : Nat}
    (h : splitAt t offset = .ok (front, back)) : t = front ++ back ∧ offset = size front := by
  fun_induction splitAt t offset generalizing front back with
  | case1 t =>
      obtain ⟨rfl, rfl⟩ := Prod.mk.inj (Except.ok.inj h)
      exact ⟨rfl, rfl⟩
  | case2 n => cases h
  | case3 c rest n hc ih =>
      obtain ⟨⟨front', back'⟩, hsplit, hpair⟩ := bind_eq_ok_iff.mp h
      obtain ⟨rfl, rfl⟩ := Prod.mk.inj (Except.ok.inj hpair)
      obtain ⟨rfl, hsize⟩ := ih hsplit
      exact ⟨rfl, by rw [size_cons]; omega⟩
  | case4 => cases h

theorem exists_of_after {t back : Text} {offset : Nat} (h : after t offset = .ok back) :
    ∃ front, t = front ++ back ∧ offset = size front := by
  obtain ⟨⟨front, back'⟩, hsplit, hback⟩ := bind_eq_ok_iff.mp h
  obtain rfl := Except.ok.inj hback
  exact ⟨front, eq_append_of_splitAt hsplit⟩

/-- Of two texts with which a text begins, the smaller one begins the other. -/
theorem prefix_of_size_le {t a b : Text} (ha : a <+: t) (hb : b <+: t) (h : size a ≤ size b) :
    a <+: b := by
  rcases List.prefix_or_prefix_of_prefix ha hb with hab | ⟨more, rfl⟩
  · exact hab
  · rw [size_append] at h
    cases more with
    | nil => simp
    | cons c rest =>
        have hpos := size_pos_of_ne_nil (List.cons_ne_nil c rest)
        omega

/-! ### Finding -/

/-- What `find?` finds is an occurrence. -/
theorem find?_some {part t : Text} {offset : Nat} (h : find? part t = some offset) :
    ∃ pre post, t = pre ++ part ++ post ∧ offset = size pre := by
  induction t generalizing offset with
  | nil =>
      unfold find? at h
      split at h
      · rename_i hempty
        have hpart : part = [] := by simpa using hempty
        exact ⟨[], [], by simp [hpart], by simpa using h.symm⟩
      · simp at h
  | cons c rest ih =>
      unfold find? at h
      split at h
      · rename_i hbegins
        obtain ⟨post, hpost⟩ := List.isPrefixOf_iff_prefix.mp hbegins
        exact ⟨[], post, by simp [hpost], by simpa using h.symm⟩
      · obtain ⟨o, ho, rfl⟩ := Option.map_eq_some_iff.mp h
        obtain ⟨pre, post, hrest, rfl⟩ := ih ho
        exact ⟨c :: pre, post, by simp [hrest], by rw [size_cons]; omega⟩

theorem findLast?_eq_none {part t : Text} (h : ¬ part <:+: t) : findLast? part t = none := by
  induction t with
  | nil =>
      have hpart : part.isEmpty = false := by
        cases part with
        | nil => exact absurd List.nil_infix h
        | cons c rest => rfl
      simp [findLast?, hpart]
  | cons c rest ih =>
      have hbegins : part.isPrefixOf (c :: rest) = false :=
        Bool.eq_false_iff.mpr fun hpre => h (List.isPrefixOf_iff_prefix.mp hpre).isInfix
      have hrest := ih fun hoccurs => h (List.infix_cons hoccurs)
      simp [findLast?, hrest, hbegins]

theorem findLast?_le {part t : Text} {offset : Nat} (h : findLast? part t = some offset) :
    offset ≤ size t := by
  induction t generalizing offset with
  | nil =>
      unfold findLast? at h
      obtain ⟨-, h⟩ := Option.ite_none_right_eq_some.mp h
      rw [← Option.some.inj h]
      exact Nat.zero_le _
  | cons c rest ih =>
      unfold findLast? at h
      rw [size_cons]
      split at h
      · rename_i later hlater
        have hle := ih hlater
        have heq := Option.some.inj h
        omega
      · obtain ⟨-, h⟩ := Option.ite_none_right_eq_some.mp h
        rw [← Option.some.inj h]
        exact Nat.zero_le _

/-- The last occurrence is the one of which no other begins further behind. -/
theorem findLast?_append {c : Char} {more tail : Text} (front : Text)
    (h : ¬ (c :: more) <:+: more ++ tail) :
    findLast? (c :: more) (front ++ c :: (more ++ tail)) = some (size front) := by
  induction front with
  | nil =>
      have hbegins : (c :: more).isPrefixOf (c :: (more ++ tail)) = true :=
        List.isPrefixOf_iff_prefix.mpr (List.prefix_append (c :: more) tail)
      simp only [List.nil_append, findLast?, findLast?_eq_none h, hbegins, if_true, size_nil]
  | cons d rest ih =>
      rw [List.cons_append, findLast?, ih, size_cons, Nat.add_comm]

/-! ### Line feeds -/

theorem find?_newline_eq_none {t : Text} (h : '\n' ∉ t) : find? ['\n'] t = none := by
  induction t with
  | nil => rfl
  | cons c rest ih =>
      have hc : '\n' ≠ c := fun e => h (e ▸ List.mem_cons_self)
      have hrest := ih fun hmem => h (List.mem_cons_of_mem _ hmem)
      simp [find?, hc, hrest]

/-- A part is found where its first character first stands. -/
theorem find?_append {c : Char} {head : Text} (h : c ∉ head) (more tail : Text) :
    find? (c :: more) (head ++ c :: (more ++ tail)) = some (size head) := by
  induction head with
  | nil =>
      have hbegins : (c :: more).isPrefixOf (c :: (more ++ tail)) = true :=
        List.isPrefixOf_iff_prefix.mpr (List.prefix_append (c :: more) tail)
      rw [List.nil_append, find?, if_pos hbegins]
      rfl
  | cons d rest ih =>
      have hd : c ≠ d := fun e => h (e ▸ List.mem_cons_self)
      have hmore := ih fun hmem => h (List.mem_cons_of_mem _ hmem)
      simp [find?, List.isPrefixOf, hd, hmore, Nat.add_comm]

theorem find?_newline_of_notMem {head : Text} (rest : Text) (h : '\n' ∉ head) :
    find? ['\n'] (head ++ '\n' :: rest) = some (size head) := find?_append h [] rest

theorem findLast?_newline_eq_none {t : Text} (h : '\n' ∉ t) : findLast? ['\n'] t = none :=
  findLast?_eq_none fun hoccurs => h (hoccurs.subset List.mem_cons_self)

theorem findLast?_newline_of_notMem (front : Text) {tail : Text} (h : '\n' ∉ tail) :
    findLast? ['\n'] (front ++ '\n' :: tail) = some (size front) :=
  findLast?_append front fun hoccurs => h (hoccurs.subset List.mem_cons_self)

end SnippetLint.Text
