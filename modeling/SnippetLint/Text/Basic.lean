/-
Texts, and places in them.

A text is a list of characters. A place in it is an offset: the number of UTF-8 bytes before it.
Not every number is a place, since a character may take up several bytes and a text ends somewhere,
so cutting a text at an offset can fail. It then fails with a `Fault`, which is what a check that
computes a wrong offset runs into; `Checked` is the type of what may end so.
-/
import SnippetLint.Unicode.Blank

namespace SnippetLint

/-- What is linted: a sequence of Unicode characters. -/
abbrev Text := List Char

/-- Why a check could not finish. -/
inductive Fault where
  /-- The offset lies behind the end of the text. -/
  | outOfRange (offset : Nat)
  /-- The offset lies between two bytes of one character. -/
  | insideCharacter (offset : Nat)
  /-- More was taken away than there was. -/
  | belowZero
  /-- The match has no such group. -/
  | missingGroup (index : Nat)
  /-- The check gave up of its own accord. -/
  | abandoned
  deriving DecidableEq, Repr

/-- A computation that may run into a fault. -/
abbrev Checked := Except Fault

/-- Subtraction that faults where the difference would be negative. -/
def difference (a b : Nat) : Checked Nat :=
  if b ≤ a then .ok (a - b) else .error .belowZero

/-- The byte at an index. -/
def byteAt (bytes : Array UInt8) (i : Nat) : Checked UInt8 :=
  match bytes[i]? with
  | some b => .ok b
  | none => .error (.outOfRange i)

namespace Text

/-- The bytes of a text. -/
def bytes (t : Text) : Array UInt8 := (t.flatMap String.utf8EncodeChar).toArray

/-- The number of bytes a text takes up. -/
def size : Text → Nat
  | [] => 0
  | c :: rest => c.utf8Size + size rest

/-- Cuts a text at an offset. -/
def splitAt : Text → Nat → Checked (Text × Text)
  | t, 0 => .ok ([], t)
  | [], n + 1 => .error (.outOfRange (n + 1))
  | c :: rest, n + 1 =>
    if c.utf8Size ≤ n + 1 then do
      let (before, after) ← splitAt rest (n + 1 - c.utf8Size)
      return (c :: before, after)
    else .error (.insideCharacter (n + 1))

/-- What lies before an offset. -/
def before (t : Text) (offset : Nat) : Checked Text := do
  let (head, _) ← splitAt t offset
  return head

/-- What lies behind an offset. -/
def after (t : Text) (offset : Nat) : Checked Text := do
  let (_, tail) ← splitAt t offset
  return tail

/-- What lies between two offsets. -/
def slice (t : Text) (start stop : Nat) : Checked Text := do
  let length ← difference stop start
  before (← after t start) length

/-! ### White space -/

/-- Without the white space at its front. -/
def trimStart (t : Text) : Text := t.dropWhile Unicode.isBlank

/-- Without the white space at its end. -/
def trimEnd (t : Text) : Text := (t.reverse.dropWhile Unicode.isBlank).reverse

/-- Without the white space at both ends. -/
def trim (t : Text) : Text := trimEnd (trimStart t)

/-- Whether a text holds white space only. -/
def isBlank (t : Text) : Bool := t.all Unicode.isBlank

/-! ### Parts -/

/-- Whether a text begins with a word. -/
def startsWith (t : Text) (word : String) : Bool := word.toList.isPrefixOf t

/-- Whether a text ends with a word. -/
def endsWith (t : Text) (word : String) : Bool := word.toList.isSuffixOf t

/-- The offset of the first place where `part` occurs. -/
def find? (part : Text) : Text → Option Nat
  | [] => if part.isEmpty then some 0 else none
  | c :: rest =>
    if part.isPrefixOf (c :: rest) then some 0 else (find? part rest).map (· + c.utf8Size)

/-- The offset of the last place where `part` occurs. -/
def findLast? (part : Text) : Text → Option Nat
  | [] => if part.isEmpty then some 0 else none
  | c :: rest =>
    match findLast? part rest with
    | some offset => some (offset + c.utf8Size)
    | none => if part.isPrefixOf (c :: rest) then some 0 else none

/-- Whether a word occurs in a text. -/
def has (t : Text) (word : String) : Bool := (find? word.toList t).isSome

/-- The pieces between separators; one more than there are separators. -/
def pieces (isSeparator : Char → Bool) : Text → List Text
  | [] => [[]]
  | c :: rest =>
    if isSeparator c then [] :: pieces isSeparator rest
    else match pieces isSeparator rest with
      | [] => [[c]]
      | piece :: more => (c :: piece) :: more

/-- Parts joined with a separator. -/
def join (separator : String) (parts : List String) : String := separator.intercalate parts

end Text

end SnippetLint
