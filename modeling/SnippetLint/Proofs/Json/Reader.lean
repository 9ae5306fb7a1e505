/-
A written value is read back.

The reader keeps what is open in a stack of frames.  Behind the tokens of a value it stands where it
stands behind that value, whatever is open and whatever follows (`ReadAs`); the induction over the
value needs both left free, since the parts of an array are read with that array open and the rest of
its parts to come.  With nothing open and nothing to follow this says that a value is read as itself.
-/
import SnippetLint.Json.Reader
import SnippetLint.Proofs.Json.Tokens

namespace SnippetLint.Json

open Token ReaderState

/-- Tokens that are read as a value wherever one may stand. -/
def ReadAs (found : List Token) (v : Json) : Prop :=
  ∀ expected frames more, expected = .value ∨ expected = .firstItem →
    (found ++ more).foldlM step ⟨frames, expected⟩ =
      (complete v frames).bind (more.foldlM step)

/-- A token that cannot end an array is taken alike where an item may follow and where one must. -/
theorem step_of_ne {token : Token} {frames : List Frame} {expected : Expected}
    (h : token ≠ .closeArray) (hexpected : expected = .value ∨ expected = .firstItem) :
    step ⟨frames, expected⟩ token = beginValue frames token := by
  rcases hexpected with rfl | rfl
  · rfl
  · cases token with
    | closeArray => exact absurd rfl h
    | _ => rfl

theorem readAs_leaf {token : Token} {v : Json} (h : token ≠ .closeArray)
    (hbegin : ∀ frames, beginValue frames token = complete v frames) : ReadAs [token] v := by
  intro expected frames more hexpected
  rw [List.singleton_append, List.foldlM_cons, step_of_ne h hexpected, hbegin]
  rfl

/-! ### Parts of what is open -/

section

variable (frames : List Frame) (more : List Token)

theorem foldlM_itemTokens {items : List Json} (h : ∀ item ∈ items, ReadAs (tokens item) item)
    (seen : List Json) :
    (itemTokens items ++ more).foldlM step ⟨.array seen :: frames, .separator⟩ =
      more.foldlM step ⟨.array (items.reverse ++ seen) :: frames, .separator⟩ := by
  induction items generalizing seen with
  | nil => rfl
  | cons item items ih =>
      obtain ⟨hitem, hitems⟩ := List.forall_mem_cons.mp h
      have hread := hitem .value (.array seen :: frames) (itemTokens items ++ more) (.inl rfl)
      rw [itemTokens, List.cons_append, List.append_assoc, List.foldlM_cons]
      refine hread.trans ((ih hitems (item :: seen)).trans ?_)
      rw [List.reverse_cons, List.append_assoc]
      rfl

theorem foldlM_memberTokens {members : List (String × Json)}
    (h : ∀ member ∈ members, ReadAs (tokens member.2) member.2) (seen : List (String × Json)) :
    (memberTokens members ++ more).foldlM step ⟨.object seen :: frames, .separator⟩ =
      more.foldlM step ⟨.object (members.reverse ++ seen) :: frames, .separator⟩ := by
  induction members generalizing seen with
  | nil => rfl
  | cons member members ih =>
      obtain ⟨hmember, hmembers⟩ := List.forall_mem_cons.mp h
      obtain ⟨name, value⟩ := member
      have hread := hmember .value (.member name :: .object seen :: frames)
        (memberTokens members ++ more) (.inl rfl)
      rw [memberTokens, List.cons_append, List.cons_append, List.cons_append, List.append_assoc]
      refine hread.trans ((ih hmembers ((name, value) :: seen)).trans ?_)
      rw [List.reverse_cons, List.append_assoc]
      rfl

end

/-! ### Values -/

theorem readAs_array {items : List Json} (h : ∀ item ∈ items, ReadAs (tokens item) item) :
    ReadAs (tokens (.array items)) (.array items) := by
  intro expected frames more hexpected
  cases items with
  | nil =>
      rw [tokens, List.cons_append, List.foldlM_cons, step_of_ne (by simp) hexpected]
      rfl
  | cons item items =>
      obtain ⟨hitem, hitems⟩ := List.forall_mem_cons.mp h
      -- The first item stands where the array could also have ended.
      have hfirst := hitem .firstItem (.array [] :: frames)
        (itemTokens items ++ ([.closeArray] ++ more)) (.inr rfl)
      have hrest := foldlM_itemTokens frames ([.closeArray] ++ more) hitems [item]
      have hclose : step ⟨.array (items.reverse ++ [item]) :: frames, .separator⟩ .closeArray =
          complete (.array (items.reverse ++ [item]).reverse) frames := rfl
      rw [tokens, List.cons_append, List.append_assoc, List.append_assoc, List.foldlM_cons,
        step_of_ne (by simp) hexpected]
      refine hfirst.trans (hrest.trans ?_)
      rw [List.singleton_append, List.foldlM_cons, hclose, List.reverse_append,
        List.reverse_reverse]
      rfl

theorem readAs_object {members : List (String × Json)}
    (h : ∀ member ∈ members, ReadAs (tokens member.2) member.2) :
    ReadAs (tokens (.object members)) (.object members) := by
  intro expected frames more hexpected
  cases members with
  | nil =>
      rw [tokens, List.cons_append, List.foldlM_cons, step_of_ne (by simp) hexpected]
      rfl
  | cons member members =>
      obtain ⟨name, value⟩ := member
      obtain ⟨hvalue, hmembers⟩ := List.forall_mem_cons.mp h
      have hfirst := hvalue .value (.member name :: .object [] :: frames)
        (memberTokens members ++ ([.closeObject] ++ more)) (.inl rfl)
      have hrest := foldlM_memberTokens frames ([.closeObject] ++ more) hmembers [(name, value)]
      have hclose : step ⟨.object (members.reverse ++ [(name, value)]) :: frames, .separator⟩
          .closeObject = complete (.object (members.reverse ++ [(name, value)]).reverse) frames :=
        rfl
      rw [tokens, List.cons_append, List.cons_append, List.cons_append, List.append_assoc,
        List.append_assoc, List.foldlM_cons, step_of_ne (by simp) hexpected]
      refine hfirst.trans (hrest.trans ?_)
      rw [List.singleton_append, List.foldlM_cons, hclose, List.reverse_append,
        List.reverse_reverse]
      rfl

/-- The tokens of a value are read as that value. -/
theorem readAs_tokens {v : Json} (h : Plain v) : ReadAs (tokens v) v := by
  induction h with
  | null => exact readAs_leaf (by simp) fun _ => rfl
  | flag b => exact readAs_leaf (by simp) fun _ => rfl
  | count n => exact readAs_leaf (by simp) fun _ => rfl
  | text s => exact readAs_leaf (by simp) fun _ => rfl
  | array _ ih => exact readAs_array ih
  | object _ ih => exact readAs_object ih

/-- **A value is read back from what it is written as, in either layout.** -/
theorem read?_render (layout : Layout) {v : Json} (h : Plain v) :
    read? (render layout v) = some v := by
  have hread := readAs_tokens h .value [] [] (.inl rfl)
  rw [List.append_nil] at hread
  rw [read?, scan?_render layout h]
  show ofTokens? (tokens v) = some v
  rw [ofTokens?, start, hread]
  rfl

end SnippetLint.Json
