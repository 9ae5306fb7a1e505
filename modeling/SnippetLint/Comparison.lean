/-
Loose comparison operators.

A loose operator is two equals signs, or an exclamation mark and one equals sign, that are not part
of a longer operator. They are looked for in the bytes of a text: both signs take up one byte, and
no byte of a longer character is like either.
-/
import SnippetLint.Text.Basic

namespace SnippetLint

/-- A comparison operator that converts its operands first. -/
inductive LooseOperator where
  | equal
  | unequal
  deriving DecidableEq, Repr

namespace LooseOperator

/-- The byte of an equals sign. -/
def equalsSign : UInt8 := '='.toUInt8

/-- The byte of an exclamation mark. -/
def exclamationMark : UInt8 := '!'.toUInt8

/-- The signs that turn the equals signs behind them into another operator. -/
def joinsEquals (b : UInt8) : Bool :=
  b == equalsSign || b == exclamationMark || b == '<'.toUInt8 || b == '>'.toUInt8

/-- The first index, from one on, at which no equals sign stands. -/
def skipEquals (bytes : Array UInt8) (i : Nat) : Nat :=
  if h : bytes[i]? = some equalsSign then
    have : i < bytes.size := (Array.getElem?_eq_some_iff.mp h).1
    skipEquals bytes (i + 1)
  else i
termination_by bytes.size - i

theorem le_skipEquals (bytes : Array UInt8) (i : Nat) : i ≤ skipEquals bytes i := by
  fun_induction skipEquals bytes i with
  | case1 i h hlt ih => omega
  | case2 i h => exact Nat.le_refl i

/-- The byte before an index, or a blank where there is none. -/
def byteBefore (bytes : Array UInt8) (i : Nat) : Checked UInt8 := do
  if 0 < i then byteAt bytes (← difference i 1) else return ' '.toUInt8

/-- The operators from an index on, each with its offset. -/
def scanFrom (bytes : Array UInt8) (i : Nat) : Checked (List (Nat × LooseOperator)) := do
  if h : i + 1 < bytes.size then
    let first ← byteAt bytes i
    let second ← byteAt bytes (i + 1)
    let isLonger := bytes[i + 2]? == some equalsSign
    if first == equalsSign && second == equalsSign then
      if isLonger || joinsEquals (← byteBefore bytes i) then
        -- The signs at hand are equals signs too, so the whole run is left behind.
        have : i < skipEquals bytes (i + 2) := by have := le_skipEquals bytes (i + 2); omega
        scanFrom bytes (skipEquals bytes (i + 2))
      else return (i, equal) :: (← scanFrom bytes (i + 2))
    else if first == exclamationMark && second == equalsSign then
      if isLonger then scanFrom bytes (i + 3)
      else return (i, unequal) :: (← scanFrom bytes (i + 2))
    else scanFrom bytes (i + 1)
  else return []
termination_by bytes.size - i

/-- The loose operators of a text, each with its offset. -/
def findAll (t : Text) : Checked (List (Nat × LooseOperator)) := scanFrom (Text.bytes t) 0

end LooseOperator

end SnippetLint
