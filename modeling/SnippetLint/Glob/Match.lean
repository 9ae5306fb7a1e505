/-
Which paths a glob matches.

Paths are compared byte by byte: a question mark stands for one byte, and a class that holds
characters of several bytes holds each of their bytes. The whole path has to match.

Several globs are made one set, and the set is compiled as a whole: a glob whose braces are nested too
deeply to be compiled is read without complaint, but then the set it is put into matches nothing.
-/
import SnippetLint.Glob.Basic
import SnippetLint.Pattern.Match

namespace SnippetLint.Glob

/-- A text as its bytes, each of them a character. -/
def bytes (s : String) : Text := s.toUTF8.toList.map fun b => Char.ofNat b.toNat

/-- The bytes of a character. -/
def bytesOf (c : Char) : Text := bytes c.toString

/-- The ranges of bytes that a range of characters stands for. -/
def byteRanges (range : Char × Char) : List (Char × Char) :=
  let first := bytesOf range.1
  let single := fun b => (b, b)
  if range.1 = range.2 then first.map single
  else match first.reverse, bytesOf range.2 with
    | b :: before, c :: after => before.reverse.map single ++ (b, c) :: after.map single
    | _, _ => []

/-- Whether a byte is in one of several ranges. -/
def inClass (ranges : List (Char × Char)) (b : Char) : Bool :=
  (ranges.flatMap byteRanges).any fun (first, last) => first ≤ b && b ≤ last

/-- One of several patterns. -/
def anyOf : List Pattern → Pattern
  | [] => .nothing
  | [p] => p
  | p :: more => p ||| anyOf more

mutual

/-- A group without anything in it, which the pattern leaves out. -/
def Part.isVacuous : Part → Bool
  | .alternatives branches => allVacuous branches
  | _ => false

/-- Several parts that the pattern leaves out. -/
def partsVacuous : List Part → Bool
  | [] => true
  | p :: rest => p.isVacuous && partsVacuous rest

/-- Branches that are all left out. -/
def allVacuous : List (List Part) → Bool
  | [] => true
  | branch :: rest => partsVacuous branch && allVacuous rest

end

mutual

/-- The paths that a part of a glob stands for. -/
def Part.toPattern : Part → Pattern
  | .literal c => .exactly (bytesOf c)
  | .any => .one Pattern.anything
  | .star => .many Pattern.anything
  | .leadingDirectories =>
    Pattern.perhaps (.text "/") ||| (.many Pattern.anything ++ .text "/")
  | .inside => .text "/" ++ .many Pattern.anything
  | .innerDirectories => .text "/" ||| (.text "/" ++ .many Pattern.anything ++ .text "/")
  | .oneOf negated ranges => .one fun b => inClass ranges b != negated
  | .alternatives branches => anyOf (branchPatterns branches)

/-- The paths that parts of a glob stand for together. -/
def partsPattern : List Part → Pattern
  | [] => .nothing
  | p :: rest => p.toPattern ++ partsPattern rest

/-- The patterns of the branches of a group; those with nothing in them are left out. -/
def branchPatterns : List (List Part) → List Pattern
  | [] => []
  | branch :: rest =>
    if partsVacuous branch then branchPatterns rest
    else partsPattern branch :: branchPatterns rest

end

/-- The pattern of whole paths; two stars alone stand for every path. -/
def pathPattern (parts : List Part) : Pattern :=
  match parts with
  | [.leadingDirectories] => .nothing
  | parts => .textStart ++ partsPattern parts ++ .textEnd

/-! ### Globs that look at the file name -/

/-- Characters that all stand for themselves, none of them excepted. -/
def areLiterals (exceptions : String) (parts : List Part) : Bool :=
  parts.all fun
    | .literal c => !exceptions.toList.contains c
    | _ => false

/-- Without the part at the front that a test holds of, if it does. -/
def dropLeading (isOne : Part → Bool) : List Part → List Part
  | p :: rest => if isOne p then rest else p :: rest
  | [] => []

def Part.isLeadingDirectories : Part → Bool
  | .leadingDirectories => true
  | _ => false

def Part.isStar : Part → Bool
  | .star => true
  | _ => false

/-- A file name in any directory. -/
def isNameGlob : List Part → Bool
  | .leadingDirectories :: p :: rest => areLiterals "/" (p :: rest)
  | _ => false

/-- Any file with an extension. -/
def isExtensionGlob (parts : List Part) : Bool :=
  match dropLeading Part.isLeadingDirectories parts with
  | .star :: .literal '.' :: rest => areLiterals "./" rest
  | _ => false

/-- A fixed end, behind anything. -/
def isEndGlob (parts : List Part) : Bool :=
  areLiterals "" (dropLeading Part.isStar (dropLeading Part.isLeadingDirectories parts))

/-- Whether a glob, given in reverse, ends with an extension. -/
def endsWithExtension : List Part → Bool
  | .literal c :: rest => c == '.' || (c != '/' && endsWithExtension rest)
  | _ => false

/-- Whether a glob is about the file name or its extension. -/
def looksAtName (parts : List Part) : Bool :=
  isNameGlob parts || isExtensionGlob parts
    || (!isEndGlob parts && endsWithExtension parts.reverse)

/-- Whether a path leads upwards at its end and so has no file name. -/
def leadsUpwards (path : String) : Bool :=
  (path.toList.reverse.takeWhile (· != '/')) == ['.', '.']

/-- Whether a glob matches a path. One about the file name matches no path without one. -/
def matchesPath (parts : List Part) (path : String) : Bool :=
  !(leadsUpwards path && looksAtName parts) && (pathPattern parts).occursIn (bytes path)

/-! ### Globs that are nested too deeply -/

/-- How many levels the pattern of a glob may have. -/
def maxDepth : Nat := 250

/-- One level more if there are several of what stands side by side. -/
def levelOf (count : Nat) : Nat := if count ≤ 1 then 0 else 1

/-- How many items a part is in the sequence in which it stands. -/
def Part.items : Part → Nat
  | .literal c => (bytesOf c).length
  | .inside => 2
  | .alternatives branches => if allVacuous branches then 0 else 1
  | _ => 1

/-- How many items several parts are together. -/
def partsItems : List Part → Nat
  | [] => 0
  | p :: rest => p.items + partsItems rest

mutual

/--
The levels of a part. A repetition, a class and a group are a level each, and so are several items of
a class, several branches of a group and several items of a sequence.
-/
def Part.depth : Part → Nat
  | .literal _ => 0
  | .any => 0
  | .star => 1
  | .inside => 1
  -- a group, its branches, the sequence in one of them, and a repetition in that
  | .leadingDirectories => 4
  | .innerDirectories => 4
  | .oneOf _ ranges => 1 + levelOf (ranges.flatMap byteRanges).length
  | .alternatives branches =>
    if allVacuous branches then 0
    else 1 + levelOf (branches.countP (!partsVacuous ·)) + branchesDepth branches

/-- The levels below the sequence of several parts. -/
def partsDepth : List Part → Nat
  | [] => 0
  | p :: rest => max p.depth (partsDepth rest)

/-- The levels below the branches of a group. -/
def branchesDepth : List (List Part) → Nat
  | [] => 0
  | branch :: rest =>
    max (levelOf (partsItems branch) + partsDepth branch) (branchesDepth rest)

end

/--
Whether the pattern of whole paths can be compiled: its marks for both ends make it a sequence. What it
is compiled to has a greatest size, too; no glob of less than some hundred thousand characters comes
near it, and it is not looked at here.
-/
def compiles (parts : List Part) : Bool := 1 + partsDepth parts ≤ maxDepth

/-! ### Several globs -/

/-- The globs among several texts; what is none is passed over. -/
def readable (globs : List String) : List (List Part) :=
  globs.filterMap fun glob => (parse glob).toOption

/-- Whether several globs can be compiled together. -/
def builds (globs : List String) : Bool := (readable globs).all compiles

/-- The set of several globs. One that cannot be compiled leaves nothing in it. -/
def set (globs : List String) : List (List Part) := if builds globs then readable globs else []

/-- Whether a path is matched by the set of several globs. -/
def anyMatches (globs : List String) (path : String) : Bool := (set globs).any (matchesPath · path)

end SnippetLint.Glob
