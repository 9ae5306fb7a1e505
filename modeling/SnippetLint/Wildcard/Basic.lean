/-
Wildcards: patterns of files on the command line.

A question mark stands for any character of a name, a star for any number of them, brackets for one of
several. Two stars, which have to stand alone between slashes, stand for any directories.
-/
import SnippetLint.Pattern.Match

namespace SnippetLint.Wildcard

inductive Part where
  | literal (c : Char)
  /-- One character. -/
  | any
  /-- Any characters. -/
  | star
  /-- Any directories. -/
  | directories
  | oneOf (negated : Bool) (ranges : List (Char × Char))
  deriving DecidableEq, Repr

/-- Ways in which a text is no wildcard. -/
inductive Fault where
  | tooManyStars
  | crowdedStars
  | malformedClass
  deriving DecidableEq, Repr

/-- Why a text is no wildcard, and after how many characters that shows. -/
structure Error where
  position : Nat
  fault : Fault
  deriving DecidableEq, Repr

/-- What is wrong with a wildcard. -/
def Fault.reason : Fault → String
  | tooManyStars => "wildcards are either regular `*` or recursive `**`"
  | crowdedStars => "recursive wildcards must form a single path component"
  | malformedClass => "invalid range pattern"

/-- What a user is told about a text that is no wildcard. -/
def Error.message (e : Error) : String :=
  "Pattern syntax error near position " ++ toString e.position ++ ": " ++ e.fault.reason

/-! ### Reading -/

/-- The ranges of characters in brackets. -/
def classRanges : List Char → List (Char × Char)
  | first :: '-' :: last :: rest => (first, last) :: classRanges rest
  | c :: rest => (c, c) :: classRanges rest
  | [] => []

/-- Brackets that are open. -/
structure OpenClass where
  position : Nat
  negated : Bool
  /-- The characters so far, in reverse. -/
  inside : List Char

/-- The part that brackets are when they are closed. -/
def OpenClass.close (k : OpenClass) : Part := .oneOf k.negated (classRanges k.inside.reverse)

/--
Reads on at a position, given the brackets that are open, the parts so far in reverse, and the
character before. A closing bracket right behind an opening one closes nothing.
-/
def readFrom (opened : Option OpenClass) (parts : List Part) (position : Nat) (prior : Option Char) :
    List Char → Except Error (List Part)
  | [] =>
    match opened with
    | some k => .error ⟨k.position, .malformedClass⟩
    | none => .ok parts.reverse
  | c :: rest =>
    match opened with
    | some k =>
      if c = ']' then readFrom none (k.close :: parts) (position + 1) (some c) rest
      else readFrom (some { k with inside := c :: k.inside }) parts (position + 1) (some c) rest
    | none =>
      if c = '?' then readFrom none (.any :: parts) (position + 1) (some c) rest
      else if c = '*' then
        match rest with
        | '*' :: '*' :: _ => .error ⟨position + 2, .tooManyStars⟩
        | '*' :: rest' =>
          if prior.any (· != '/') then .error ⟨position - 1, .crowdedStars⟩
          else match rest' with
            | [] => .ok (.directories :: parts).reverse
            | '/' :: rest'' =>
              readFrom none (.directories :: parts) (position + 3) (some '/') rest''
            | _ => .error ⟨position + 2, .crowdedStars⟩
        | rest => readFrom none (.star :: parts) (position + 1) (some c) rest
      else if c = '[' then
        match rest with
        | ['!'] => .error ⟨position, .malformedClass⟩
        | '!' :: d :: rest' => readFrom (some ⟨position, true, [d]⟩) parts (position + 3) (some d) rest'
        | d :: rest' => readFrom (some ⟨position, false, [d]⟩) parts (position + 2) (some d) rest'
        | [] => .error ⟨position, .malformedClass⟩
      else readFrom none (.literal c :: parts) (position + 1) (some c) rest

/-- The parts of a wildcard. -/
def parse (t : List Char) : Except Error (List Part) := readFrom none [] 0 none t

/-! ### Matching names -/

/-- The names that a part stands for. -/
def Part.toPattern : Part → Pattern
  | literal c => .one (· == c)
  | any => .one Pattern.anything
  | star => .many Pattern.anything
  | directories => .many Pattern.anything
  | oneOf negated ranges =>
    .one fun c => (ranges.any fun (first, last) => first ≤ c && c ≤ last) != negated

/-- The names that parts stand for. -/
def namePattern : List Part → Pattern
  | [] => .textEnd
  | p :: rest => p.toPattern ++ namePattern rest

/-- Whether parts stand for a name as a whole. -/
def matchesName (parts : List Part) (name : String) : Bool :=
  ((namePattern parts).matchAt (.start name.toList)).isSome

/-- The name that parts spell out, if they leave nothing open. -/
def literalName? (parts : List Part) : Option String := do
  let characters ← parts.mapM fun
    | Part.literal c => some c
    | _ => none
  return String.ofList characters

/-- Whether parts stand for any directories. -/
def isRecursive (parts : List Part) : Bool := parts.contains .directories

end SnippetLint.Wildcard
