/-
Computations that finish.

`Yields x P` says two things at once: `x` runs into no fault, and what it computes has the property
`P`.  That is what is proved of every check, so the lemmas here follow the ways in which checks are
put together: a bind passes on what is known of its first half, and the monadic list functions
finish when they finish on each member.

`Gives x P` is the second half alone, for properties that do not depend on whether `x` finishes.
-/
import Mathlib.Data.List.Forall2
import SnippetLint.Text.Basic

namespace SnippetLint

/-- The computation finishes, and its result has a property. -/
def Yields {α : Type} (x : Checked α) (P : α → Prop) : Prop := ∃ a, x = .ok a ∧ P a

section

variable {α β : Type} {P : α → Prop} {Q : β → Prop}

theorem yields_pure {a : α} (h : P a) : Yields (pure a) P := ⟨a, rfl, h⟩

theorem Yields.bind {x : Checked α} {f : α → Checked β} (hx : Yields x P)
    (hf : ∀ a, P a → Yields (f a) Q) : Yields (x >>= f) Q := by
  obtain ⟨a, rfl, ha⟩ := hx
  exact hf a ha

theorem Yields.imp {P' : α → Prop} {x : Checked α} (h : Yields x P) (himp : ∀ a, P a → P' a) :
    Yields x P' := by
  obtain ⟨a, rfl, ha⟩ := h
  exact ⟨a, rfl, himp a ha⟩

theorem yields_mapM {f : α → Checked β} {l : List α} (h : ∀ a ∈ l, Yields (f a) Q) :
    Yields (l.mapM f) fun bs => ∀ b ∈ bs, Q b := by
  induction l with
  | nil => exact yields_pure (by simp)
  | cons a rest ih =>
      rw [List.mapM_cons]
      refine (h a (by simp)).bind fun b hb => ?_
      refine (ih fun x hx => h x (by simp [hx])).bind fun bs hbs => ?_
      refine yields_pure fun c hc => ?_
      rcases List.mem_cons.mp hc with rfl | hc
      · exact hb
      · exact hbs c hc

/-- A list of computations that each finish gives a result for each, in order. -/
theorem yields_mapM_forall₂ {f : α → Checked β} {R : α → β → Prop} {l : List α}
    (h : ∀ a ∈ l, Yields (f a) (R a)) : Yields (l.mapM f) (List.Forall₂ R l) := by
  induction l with
  | nil => exact yields_pure .nil
  | cons a rest ih =>
      rw [List.mapM_cons]
      rw [List.forall_mem_cons] at h
      exact h.1.bind fun b hb => (ih h.2).bind fun bs hbs => yields_pure (.cons hb hbs)

theorem yields_filterMapM {f : α → Checked (Option β)} {l : List α}
    (h : ∀ a ∈ l, Yields (f a) fun found => ∀ b, found = some b → Q b) :
    Yields (l.filterMapM f) fun bs => ∀ b ∈ bs, Q b := by
  induction l with
  | nil => exact yields_pure (by simp)
  | cons a rest ih =>
      have hrest := ih fun x hx => h x (by simp [hx])
      rw [List.filterMapM_cons]
      refine (h a (by simp)).bind fun found hfound => ?_
      cases found with
      | none => exact hrest
      | some b =>
          refine hrest.bind fun bs hbs => yields_pure fun c hc => ?_
          rcases List.mem_cons.mp hc with rfl | hc
          · exact hfound c rfl
          · exact hbs c hc

/-- Where each test finishes, filtering finishes and does what it does without faults. -/
theorem filterM_eq_ok {f : α → Checked Bool} {g : α → Bool} {l : List α}
    (h : ∀ a ∈ l, f a = .ok (g a)) : l.filterM f = .ok (l.filter g) := by
  have hloop : ∀ (l acc : List α), (∀ a ∈ l, f a = .ok (g a)) →
      List.filterAuxM f l acc = .ok ((l.filter g).reverse ++ acc) := by
    intro l
    induction l with
    | nil => intro acc _; rfl
    | cons a rest ih =>
        intro acc h
        have hstep := ih (cond (g a) (a :: acc) acc) fun x hx => h x (by simp [hx])
        simp only [List.filterAuxM, h a (by simp), bind, Except.bind, hstep]
        cases hg : g a <;> simp [hg]
  simp [List.filterM, hloop l [] h, bind, Except.bind, pure, Except.pure]

/-- Where each step finishes, going through a list finishes and does what it does without faults. -/
theorem mapM_eq_ok {f : α → Checked β} {g : α → β} {l : List α} (h : ∀ a ∈ l, f a = .ok (g a)) :
    l.mapM f = .ok (l.map g) := by
  induction l with
  | nil => rfl
  | cons a rest ih =>
      rw [List.forall_mem_cons] at h
      rw [List.mapM_cons, h.1, ih h.2]
      rfl

@[inherit_doc mapM_eq_ok]
theorem filterMapM_eq_ok {f : α → Checked (Option β)} {g : α → Option β} {l : List α}
    (h : ∀ a ∈ l, f a = .ok (g a)) : l.filterMapM f = .ok (l.filterMap g) := by
  induction l with
  | nil => rfl
  | cons a rest ih =>
      rw [List.forall_mem_cons] at h
      rw [List.filterMapM_cons, h.1, List.filterMap_cons, ih h.2]
      cases g a <;> rfl

/-- Where each step finishes and yields something, as many results come out as go in. -/
theorem filterMapM_eq_ok_of_map {γ : Type} {f : α → Checked (Option β)} {g : γ → β} {l : List α}
    {l' : List γ} (h : l.map f = l'.map fun c => .ok (some (g c))) :
    l.filterMapM f = .ok (l'.map g) := by
  induction l generalizing l' with
  | nil =>
      rw [List.map_eq_nil_iff.mp h.symm]
      rfl
  | cons a rest ih =>
      obtain ⟨c, more, rfl, hc, hmore⟩ := List.map_eq_cons_iff.mp h.symm
      rw [List.filterMapM_cons, ← hc, ih hmore.symm]
      rfl

theorem yields_filterM {f : α → Checked Bool} {l : List α}
    (h : ∀ a ∈ l, Yields (f a) fun _ => True) : Yields (l.filterM f) fun bs => ∀ b ∈ bs, b ∈ l := by
  have hg : ∀ a ∈ l, f a = .ok (match f a with | .ok b => b | .error _ => false) := by
    intro a ha
    obtain ⟨b, hb, -⟩ := h a ha
    rw [hb]
  exact ⟨_, filterM_eq_ok hg, fun b hb => (List.mem_filter.mp hb).1⟩

end

/-! ### Results -/

/-- If the computation finishes, its result has a property. -/
def Gives {α : Type} (x : Checked α) (P : α → Prop) : Prop := ∀ a, x = .ok a → P a

section

variable {α β : Type} {P : α → Prop} {Q : β → Prop}

theorem gives_pure {a : α} (h : P a) : Gives (pure a) P := by
  rintro _ ⟨⟩
  exact h

theorem Gives.bind {x : Checked α} {f : α → Checked β} (hx : Gives x P)
    (hf : ∀ a, P a → Gives (f a) Q) : Gives (x >>= f) Q := by
  intro b hb
  cases x with
  | error fault => simp [Bind.bind, Except.bind] at hb
  | ok a => exact hf a (hx a rfl) b hb

theorem gives_self (x : Checked α) : Gives x fun a => x = .ok a := fun _ ha => ha

theorem Gives.and {P' : α → Prop} {x : Checked α} (h : Gives x P) (h' : Gives x P') :
    Gives x fun a => P a ∧ P' a := fun a ha => ⟨h a ha, h' a ha⟩

theorem Yields.gives {x : Checked α} (h : Yields x P) : Gives x P := by
  obtain ⟨a, rfl, ha⟩ := h
  rintro _ ⟨⟩
  exact ha

/-- What comes last decides. -/
theorem gives_bind {x : Checked α} {f : α → Checked β} (hf : ∀ a, Gives (f a) Q) :
    Gives (x >>= f) Q :=
  Gives.bind (P := fun _ => True) (fun _ _ => trivial) fun a _ => hf a

theorem gives_mapM {f : α → Checked β} {l : List α} (h : ∀ a ∈ l, Gives (f a) Q) :
    Gives (l.mapM f) fun bs => ∀ b ∈ bs, Q b := by
  induction l with
  | nil => exact gives_pure (by simp)
  | cons a rest ih =>
      rw [List.forall_mem_cons] at h
      rw [List.mapM_cons]
      refine h.1.bind fun b hb => (ih h.2).bind fun bs hbs => gives_pure ?_
      exact List.forall_mem_cons.mpr ⟨hb, hbs⟩

/-- Filtering leaves members out and keeps the others in order. -/
theorem gives_filterM_sublist {f : α → Checked Bool} {l : List α} :
    Gives (l.filterM f) fun kept => kept.Sublist l := by
  have hloop : ∀ rest acc, (acc.reverse ++ rest).Sublist l →
      Gives (List.filterAuxM f rest acc) fun kept => kept.reverse.Sublist l := by
    intro rest
    induction rest with
    | nil => exact fun acc hacc => gives_pure (by simpa using hacc)
    | cons a rest ih =>
        intro acc hacc
        refine gives_bind fun keep => ih _ ?_
        cases keep with
        | false => exact (List.sublist_append_right [a] rest).append_left acc.reverse |>.trans hacc
        | true => simpa using hacc
  exact (hloop l [] (by simp)).bind fun kept hkept => gives_pure hkept

/-- What is left after filtering was there before. -/
theorem gives_filterM {f : α → Checked Bool} {l : List α} :
    Gives (l.filterM f) fun kept => ∀ a ∈ kept, a ∈ l :=
  fun kept hkept _ ha => (gives_filterM_sublist kept hkept).subset ha

theorem gives_filterMapM {f : α → Checked (Option β)} {l : List α}
    (h : ∀ a ∈ l, Gives (f a) fun found => ∀ b, found = some b → Q b) :
    Gives (l.filterMapM f) fun bs => ∀ b ∈ bs, Q b := by
  induction l with
  | nil => exact gives_pure (by simp)
  | cons a rest ih =>
      rw [List.forall_mem_cons] at h
      rw [List.filterMapM_cons]
      refine h.1.bind fun found hfound => ?_
      cases found with
      | none => exact ih h.2
      | some b =>
          refine (ih h.2).bind fun bs hbs => gives_pure ?_
          exact List.forall_mem_cons.mpr ⟨hfound b rfl, hbs⟩

section

variable {R : α → α → Prop} {T : α → β → Prop} {S : β → β → Prop} {l : List α}

/-- What the members of a list yield stands in a relation if the members do. -/
theorem gives_mapM_pairwise {f : α → Checked β} (hf : ∀ a, Gives (f a) (T a))
    (hS : ∀ {a a' b b'}, R a a' → T a b → T a' b' → S b b') (h : l.Pairwise R) :
    Gives (l.mapM f) (List.Pairwise S) := by
  induction h with
  | nil => exact gives_pure .nil
  | @cons a rest ha _ ih =>
      rw [List.mapM_cons]
      refine (hf a).bind fun b hb => ?_
      have hlater : Gives (rest.mapM f) fun bs => ∀ b' ∈ bs, S b b' :=
        gives_mapM fun a' ha' b' hb' => hS (ha a' ha') hb (hf a' b' hb')
      exact (hlater.and ih).bind fun bs hbs => gives_pure (.cons hbs.1 hbs.2)

@[inherit_doc gives_mapM_pairwise]
theorem gives_filterMapM_pairwise {f : α → Checked (Option β)}
    (hf : ∀ a, Gives (f a) fun found => ∀ b, found = some b → T a b)
    (hS : ∀ {a a' b b'}, R a a' → T a b → T a' b' → S b b') (h : l.Pairwise R) :
    Gives (l.filterMapM f) (List.Pairwise S) := by
  induction h with
  | nil => exact gives_pure .nil
  | @cons a rest ha _ ih =>
      rw [List.filterMapM_cons]
      refine (hf a).bind fun found hfound => ?_
      cases found with
      | none => exact ih
      | some b =>
          have hlater : Gives (rest.filterMapM f) fun bs => ∀ b' ∈ bs, S b b' :=
            gives_filterMapM fun a' ha' found' hfound' b' hb' =>
              hS (ha a' ha') (hfound b rfl) (hf a' found' hfound' b' hb')
          exact (hlater.and ih).bind fun bs hbs => gives_pure (.cons hbs.1 hbs.2)

end

end

end SnippetLint
