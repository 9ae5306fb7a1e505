/-
White space: the twenty-five characters that trimming removes, that indentation is made of, and
that the class of blanks in patterns stands for. All three are the same set.
-/
namespace SnippetLint.Unicode

/-- A white-space character of any script. -/
def isBlank (c : Char) : Bool :=
  let n := c.toNat
  (9 ≤ n && n ≤ 13) || n == 0x20 || n == 0x85 || n == 0xA0 || n == 0x1680
    || (0x2000 ≤ n && n ≤ 0x200A) || n == 0x2028 || n == 0x2029 || n == 0x202F
    || n == 0x205F || n == 0x3000

end SnippetLint.Unicode
