/-
First occurrences and repeats are members of the list, in the order that they have there.

Two descriptions say which members the first occurrences are: their keys are the keys of the list
without duplicates, and where the list is in order, they are the least members with their keys.
-/
import SnippetLint.Repeats

namespace SnippetLint

section

variable {α κ : Type} [BEq κ] {key : α → κ}

theorem firstsAfter_sublist (l : List α) (seen : List κ) : (firstsAfter key seen l).Sublist l := by
  fun_induction firstsAfter key seen l with
  | case1 => exact .slnil
  | case2 seen a rest _ ih => exact ih.cons a
  | case3 seen a rest _ ih => exact ih.cons_cons a

theorem repeatsAfter_sublist (l : List α) (seen : List κ) :
    (repeatsAfter key seen l).Sublist l := by
  fun_induction repeatsAfter key seen l with
  | case1 => exact .slnil
  | case2 seen a rest _ ih => exact ih.cons_cons a
  | case3 seen a rest _ ih => exact ih.cons a

theorem firsts_sublist (l : List α) : (firsts key l).Sublist l := firstsAfter_sublist l []

theorem repeats_sublist (l : List α) : (repeats key l).Sublist l := repeatsAfter_sublist l []

theorem mem_of_mem_firsts {a : α} {l : List α} (h : a ∈ firsts key l) : a ∈ l :=
  (firsts_sublist l).subset h

theorem mem_of_mem_repeats {a : α} {l : List α} (h : a ∈ repeats key l) : a ∈ l :=
  (repeats_sublist l).subset h

theorem repeatsAfter_map {β : Type} (f : β → α) (l : List β) (seen : List κ) :
    repeatsAfter key seen (l.map f) = (repeatsAfter (fun b => key (f b)) seen l).map f := by
  induction l generalizing seen with
  | nil => rfl
  | cons b rest ih =>
      rw [List.map_cons, repeatsAfter, repeatsAfter, ih, ih]
      split <;> rfl

theorem repeats_map {β : Type} (f : β → α) (l : List β) :
    repeats key (l.map f) = (repeats (fun b => key (f b)) l).map f := repeatsAfter_map f l []

theorem map_firstsAfter (l : List α) (seen : List κ) :
    (firstsAfter key seen l).map key = ((l.map key).filter fun k => !seen.contains k).eraseDups := by
  fun_induction firstsAfter key seen l with
  | case1 => rfl
  | case2 seen a rest hseen ih =>
      rw [ih, List.map_cons, List.filter_cons_of_neg (by rw [hseen]; decide)]
  | case3 seen a rest hseen ih =>
      rw [List.map_cons, ih, List.map_cons,
        List.filter_cons_of_pos (by rwa [Bool.not_eq_true', ← Bool.not_eq_true]),
        List.eraseDups_cons, List.filter_filter]
      simp only [List.contains_cons, Bool.not_or]

theorem map_firsts (l : List α) : (firsts key l).map key = (l.map key).eraseDups := by
  rw [firsts, map_firstsAfter]
  exact congrArg List.eraseDups (List.filter_eq_self.mpr fun _ _ => rfl)

variable [LawfulBEq κ]

theorem mem_map_firsts {l : List α} {k : κ} : k ∈ (firsts key l).map key ↔ k ∈ l.map key := by
  rw [map_firsts, List.mem_eraseDups]

theorem key_notMem_of_mem_firstsAfter {l : List α} {seen : List κ} {a : α}
    (h : a ∈ firstsAfter key seen l) : key a ∉ seen := by
  fun_induction firstsAfter key seen l with
  | case1 => simp at h
  | case2 seen b rest _ ih => exact ih h
  | case3 seen b rest hnew ih =>
      rcases List.mem_cons.mp h with rfl | h
      · simpa using hnew
      · exact fun hseen => ih h (List.mem_cons_of_mem _ hseen)

/-- No two first occurrences have the same key. -/
theorem pairwise_firstsAfter (l : List α) (seen : List κ) :
    (firstsAfter key seen l).Pairwise fun a b => key a ≠ key b := by
  fun_induction firstsAfter key seen l with
  | case1 => exact .nil
  | case2 seen a rest _ ih => exact ih
  | case3 seen a rest _ ih =>
      refine .cons (fun b hb heq => ?_) ih
      exact key_notMem_of_mem_firstsAfter hb (heq ▸ List.mem_cons_self)

/-- Of the members with one key the first is the one that has no other before it. -/
theorem mem_firstsAfter_iff {R : α → α → Prop} (hR : ∀ {a b}, R a b → ¬ R b a) {l : List α}
    (h : l.Pairwise R) {seen : List κ} {a : α} :
    a ∈ firstsAfter key seen l ↔
      a ∈ l ∧ key a ∉ seen ∧ ∀ b ∈ l, key b = key a → ¬ R b a := by
  induction h generalizing seen with
  | nil => simp [firstsAfter]
  | @cons x rest hx _ ih =>
      have hirrefl : ¬ R x x := fun hself => hR hself hself
      unfold firstsAfter
      by_cases hseen : key x ∈ seen
      · rw [if_pos (List.contains_iff_mem.mpr hseen), ih]
        constructor
        · rintro ⟨ha, hnew, hfirst⟩
          refine ⟨List.mem_cons_of_mem _ ha, hnew, List.forall_mem_cons.mpr ⟨?_, hfirst⟩⟩
          exact fun hkey => absurd (hkey ▸ hseen) hnew
        · rintro ⟨ha, hnew, hfirst⟩
          refine ⟨?_, hnew, (List.forall_mem_cons.mp hfirst).2⟩
          rcases List.mem_cons.mp ha with rfl | ha
          · exact absurd hseen hnew
          · exact ha
      · rw [if_neg (by simpa using hseen), List.mem_cons, ih]
        constructor
        · rintro (rfl | ⟨ha, hnew, hfirst⟩)
          · refine ⟨List.mem_cons_self, hseen, List.forall_mem_cons.mpr ⟨fun _ => hirrefl, ?_⟩⟩
            exact fun b hb _ => hR (hx b hb)
          · rw [List.mem_cons, not_or] at hnew
            refine ⟨List.mem_cons_of_mem _ ha, hnew.2, List.forall_mem_cons.mpr ⟨?_, hfirst⟩⟩
            exact fun hkey => absurd hkey.symm hnew.1
        · rintro ⟨ha, hnew, hfirst⟩
          obtain ⟨hhead, hlater⟩ := List.forall_mem_cons.mp hfirst
          rcases List.mem_cons.mp ha with rfl | ha
          · exact .inl rfl
          · refine .inr ⟨ha, ?_, hlater⟩
            rw [List.mem_cons, not_or]
            exact ⟨fun hkey => hhead hkey.symm (hx a ha), hnew⟩

theorem mem_firsts_iff {R : α → α → Prop} (hR : ∀ {a b}, R a b → ¬ R b a) {l : List α}
    (h : l.Pairwise R) {a : α} :
    a ∈ firsts key l ↔ a ∈ l ∧ ∀ b ∈ l, key b = key a → ¬ R b a := by
  rw [firsts, mem_firstsAfter_iff hR h]
  simp

/-- Of the members with one key those are left that have another before them. -/
theorem repeatsAfter_eq_filter {R : α → α → Prop} [DecidableRel R] (hR : ∀ {a b}, R a b → ¬ R b a)
    {l : List α} (h : l.Pairwise R) (seen : List κ) : repeatsAfter key seen l =
      l.filter fun a => seen.contains (key a) || l.any fun b => key b == key a && decide (R b a) := by
  induction h generalizing seen with
  | nil => rfl
  | @cons x rest hx _ ih =>
      have hfirst : ((x :: rest).any fun b => key b == key x && decide (R b x)) = false := by
        rw [List.any_eq_false]
        intro b hb
        have hnot : ¬ R b x := by
          rcases List.mem_cons.mp hb with rfl | hb
          · exact fun hself => hR hself hself
          · exact hR (hx b hb)
        simp [hnot]
      have hlater : ∀ a ∈ rest, ((x :: rest).any fun b => key b == key a && decide (R b a)) =
          (key x == key a || rest.any fun b => key b == key a && decide (R b a)) := by
        intro a ha
        rw [List.any_cons, decide_eq_true (hx a ha), Bool.and_true]
      rw [repeatsAfter, List.filter_cons, hfirst, Bool.or_false, ih, ih]
      split
      · rename_i hseen
        refine congrArg (x :: ·) (List.filter_congr fun a ha => ?_)
        rw [hlater a ha]
        by_cases hkey : key x = key a
        · rw [← hkey, hseen, Bool.true_or, Bool.true_or]
        · rw [beq_false_of_ne hkey, Bool.false_or]
      · refine List.filter_congr fun a ha => ?_
        rw [hlater a ha, List.contains_cons, Bool.or_left_comm, Bool.or_assoc, Bool.beq_comm]

theorem repeats_eq_filter {R : α → α → Prop} [DecidableRel R] (hR : ∀ {a b}, R a b → ¬ R b a)
    {l : List α} (h : l.Pairwise R) :
    repeats key l = l.filter fun a => l.any fun b => key b == key a && decide (R b a) :=
  repeatsAfter_eq_filter hR h []

end

end SnippetLint
