/-
Membership of a code point in a sorted table of ranges.

Character classes that reach beyond ASCII are tables of a few hundred ranges, so membership is a
binary search. The bound on the number of steps is the table's own size, which the search never
uses up: each step at least halves what is left.
-/
namespace SnippetLint.Unicode

/-- Binary search for `n` among the ranges numbered from `low` up to, but not including, `high`. -/
def searchRanges (table : Array (Nat × Nat)) (n : Nat) : Nat → Nat → Nat → Bool
  | 0, _, _ => false
  | steps + 1, low, high =>
    if low < high then
      let middle := (low + high) / 2
      match table[middle]? with
      | none => false
      | some (first, last) =>
        if n < first then searchRanges table n steps low middle
        else if last < n then searchRanges table n steps (middle + 1) high
        else true
    else false

/-- Whether one of the ranges of a sorted table holds `n`. -/
def inRanges (table : Array (Nat × Nat)) (n : Nat) : Bool :=
  searchRanges table n (table.size + 1) 0 table.size

end SnippetLint.Unicode
