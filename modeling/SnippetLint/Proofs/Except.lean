/-
Computations that can fail, and their results.

The lists of the command line and of configurations are gone through by `mapM` and `foldlM`, which
end at the first member that fails.  So a walk over a list has a result if each step has one, and what
every step keeps the walk keeps.
-/
namespace SnippetLint

section

variable {ε α β : Type}

theorem bind_eq_ok_iff {x : Except ε α} {f : α → Except ε β} {b : β} :
    x >>= f = .ok b ↔ ∃ a, x = .ok a ∧ f a = .ok b := by
  cases x with
  | error e => simp [bind, Except.bind]
  | ok a => simp [bind, Except.bind]

theorem mapError_eq_ok_iff {x : Except ε α} {f : ε → β} {a : α} :
    x.mapError f = .ok a ↔ x = .ok a := by
  cases x with
  | error e => exact iff_of_false (fun h => nomatch h) (fun h => nomatch h)
  | ok b =>
      exact ⟨fun h => congrArg Except.ok (Except.ok.inj h),
        fun h => congrArg Except.ok (Except.ok.inj h)⟩

theorem isOk_iff {x : Except ε α} : x.isOk = true ↔ ∃ a, x = .ok a := by
  cases x with
  | error e => simp [Except.isOk, Except.toBool]
  | ok a => simp [Except.isOk, Except.toBool]

theorem exists_of_toOption_map {x : Except ε α} {f : α → β} {b : β}
    (h : x.toOption.map f = some b) : ∃ a, x = .ok a ∧ f a = b := by
  cases x with
  | error e => simp [Except.toOption] at h
  | ok a => exact ⟨a, rfl, Option.some.inj h⟩

/-! ### Lists of results -/

theorem mapM_cons_eq_ok_iff {f : α → Except ε β} {a : α} {l : List α} {bs : List β} :
    (a :: l).mapM f = .ok bs ↔ ∃ b rest, f a = .ok b ∧ l.mapM f = .ok rest ∧ b :: rest = bs := by
  rw [List.mapM_cons, bind_eq_ok_iff]
  refine ⟨fun ⟨b, hb, h⟩ => ?_, fun ⟨b, rest, hb, hrest, h⟩ => ⟨b, hb, ?_⟩⟩
  · obtain ⟨rest, hrest, h⟩ := bind_eq_ok_iff.mp h
    exact ⟨b, rest, hb, hrest, Except.ok.inj h⟩
  · rw [hrest, ← h]
    rfl

theorem exists_mapM_iff {f : α → Except ε β} {l : List α} :
    (∃ bs, l.mapM f = .ok bs) ↔ ∀ a ∈ l, ∃ b, f a = .ok b := by
  induction l with
  | nil => exact ⟨fun _ _ h => absurd h List.not_mem_nil, fun _ => ⟨[], rfl⟩⟩
  | cons a rest ih =>
      rw [List.forall_mem_cons, ← ih]
      refine ⟨fun ⟨bs, h⟩ => ?_, fun ⟨⟨b, hb⟩, bs, hbs⟩ => ?_⟩
      · obtain ⟨b, bs, hb, hbs, -⟩ := mapM_cons_eq_ok_iff.mp h
        exact ⟨⟨b, hb⟩, bs, hbs⟩
      · exact ⟨b :: bs, mapM_cons_eq_ok_iff.mpr ⟨b, bs, hb, hbs, rfl⟩⟩

theorem mem_mapM_iff {f : α → Except ε β} {l : List α} {bs : List β} (h : l.mapM f = .ok bs)
    {b : β} : b ∈ bs ↔ ∃ a ∈ l, f a = .ok b := by
  induction l generalizing bs with
  | nil =>
      obtain rfl := Except.ok.inj h
      simp
  | cons a rest ih =>
      obtain ⟨first, bs, hfirst, hbs, rfl⟩ := mapM_cons_eq_ok_iff.mp h
      simp only [List.mem_cons, exists_eq_or_imp]
      rw [ih hbs, hfirst, Except.ok.injEq, eq_comm]

/-! ### Steps one after another -/

/-- What each step keeps is kept. -/
theorem foldlM_keeps {f : β → α → Except ε β} {l : List α} {P : β → Prop}
    (hstep : ∀ b, P b → ∀ a ∈ l, ∀ c, f b a = .ok c → P c) {b c : β} (hb : P b)
    (h : l.foldlM f b = .ok c) : P c := by
  induction l generalizing b with
  | nil => exact Except.ok.inj h ▸ hb
  | cons a rest ih =>
      obtain ⟨next, hnext, h⟩ := bind_eq_ok_iff.mp h
      exact ih (fun b hb x hx => hstep b hb x (List.mem_cons_of_mem a hx))
        (hstep b hb a List.mem_cons_self next hnext) h

theorem exists_foldlM {f : β → α → Except ε β} {l : List α}
    (h : ∀ b, ∀ a ∈ l, ∃ c, f b a = .ok c) (b : β) : ∃ c, l.foldlM f b = .ok c := by
  induction l generalizing b with
  | nil => exact ⟨b, rfl⟩
  | cons a rest ih =>
      obtain ⟨next, hnext⟩ := h b a List.mem_cons_self
      obtain ⟨c, hc⟩ := ih (fun b x hx => h b x (List.mem_cons_of_mem a hx)) next
      exact ⟨c, bind_eq_ok_iff.mpr ⟨next, hnext, hc⟩⟩

theorem foldlM_congr {f g : β → α → Except ε β} {l : List α}
    (h : ∀ b, ∀ a ∈ l, f b a = g b a) (b : β) : l.foldlM f b = l.foldlM g b := by
  induction l generalizing b with
  | nil => rfl
  | cons a rest ih =>
      rw [List.foldlM_cons, List.foldlM_cons, h b a List.mem_cons_self]
      exact congrArg _ (funext fun next => ih (fun b x hx => h b x (List.mem_cons_of_mem a hx)) next)

end

end SnippetLint
