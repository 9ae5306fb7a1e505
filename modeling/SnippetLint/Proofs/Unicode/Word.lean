/-
Word characters and blanks have no character in common, and the letters that names begin with are
word characters.
-/
import SnippetLint.Pattern.Basic

namespace SnippetLint.Unicode

/-- The code points of the blanks. -/
def blankCodes : List Nat :=
  List.range' 9 5 ++ [0x20, 0x85, 0xA0, 0x1680] ++ List.range' 0x2000 11
    ++ [0x2028, 0x2029, 0x202F, 0x205F, 0x3000]

theorem toNat_mem_blankCodes {c : Char} (h : isBlank c = true) : c.toNat ∈ blankCodes := by
  simp only [isBlank, Bool.or_eq_true, Bool.and_eq_true, decide_eq_true_eq, beq_iff_eq] at h
  simp only [blankCodes, List.mem_append, List.mem_range'_1, List.mem_cons, List.not_mem_nil,
    or_false]
  omega

theorem isWord_eq_false_of_isBlank {c : Char} (h : isBlank c = true) : isWord c = false := by
  have hall : ∀ n ∈ blankCodes, isWord (Char.ofNat n) = false := by decide +kernel
  have hc := hall c.toNat (toNat_mem_blankCodes h)
  rwa [Char.ofNat_toNat] at hc

theorem isWord_lineFeed : isWord '\n' = false := isWord_eq_false_of_isBlank rfl

theorem isWord_carriageReturn : isWord '\r' = false := isWord_eq_false_of_isBlank rfl

theorem isWord_of_latin {c : Char} (h : Pattern.latin c = true) : isWord c = true := by
  have hletter : c.isAlpha = true := h
  have hascii : c.toNat < 0x80 := by
    rcases Bool.or_eq_true_iff.mp hletter with hupper | hlower
    · have hcodes : 65 ≤ c.toNat ∧ c.toNat ≤ 90 := of_decide_eq_true hupper
      omega
    · obtain ⟨-, hle⟩ := Bool.and_eq_true_iff.mp hlower
      have hcode : c.toNat ≤ 122 := of_decide_eq_true hle
      omega
  rw [isWord, isLetter, if_pos hascii, hletter]
  rfl

theorem isDigit_of_ascii {c : Char} (h : c.isDigit = true) : isDigit c = true := by
  have hle : c.val ≤ 57 := by simpa [Char.isDigit] using (Bool.and_eq_true_iff.mp h).2
  have hascii : c.toNat < 0x80 := Nat.lt_of_le_of_lt (UInt32.le_iff_toNat_le.mp hle) (by decide)
  rw [isDigit, if_pos hascii]
  exact h

end SnippetLint.Unicode
