/-
Characters that a string does not hold.

What is shown to people and what is printed line by line is put together from words, numbers and parts
of texts.  Whether a character can get in is decided part by part: digits are the only characters of
a number, and what is joined holds no more than its parts and the separator.
-/
import SnippetLint.Text.Basic

namespace SnippetLint

section

variable {c : Char}

theorem notMem_toList_of_eq {s : String} (l : List Char) (h : s = String.ofList l)
    (hc : c ∉ l) : c ∉ s.toList := by
  rw [h, String.toList_ofList]
  exact hc

theorem notMem_toList_append {a b : String} (ha : c ∉ a.toList) (hb : c ∉ b.toList) :
    c ∉ (a ++ b).toList := by
  rw [String.toList_append, List.mem_append, not_or]
  exact ⟨ha, hb⟩

theorem notMem_toList_toString (hc : c.isDigit = false) (n : Nat) : c ∉ (toString n).toList := by
  refine notMem_toList_of_eq _ rfl fun h => ?_
  have hdigit := Nat.isDigit_of_mem_toDigits (by decide) (by decide) h
  rw [hc] at hdigit
  exact Bool.false_ne_true hdigit

theorem notMem_toList_join {separator : String} {parts : List String} (hs : c ∉ separator.toList)
    (h : ∀ part ∈ parts, c ∉ part.toList) : c ∉ (Text.join separator parts).toList := by
  induction parts with
  | nil => exact fun h => List.not_mem_nil h
  | cons first rest ih =>
      rw [List.forall_mem_cons] at h
      cases rest with
      | nil =>
          rw [Text.join, String.intercalate_singleton]
          exact h.1
      | cons next more =>
          rw [Text.join, String.intercalate_cons_cons]
          exact notMem_toList_append (notMem_toList_append h.1 hs) (ih h.2)

end

end SnippetLint
