/-
Globs: patterns of file paths in configurations.

A glob is read into parts in one pass. A star stands for any characters, slashes among them; two stars
between slashes stand for any directories. Braces hold alternatives, which may be nested.
-/
import SnippetLint.Text.Basic

namespace SnippetLint.Glob

inductive Part where
  | literal (c : Char)
  /-- One byte. -/
  | any
  /-- Any bytes. -/
  | star
  /-- Any directories at the front, or nothing. -/
  | leadingDirectories
  /-- Anything inside a directory. -/
  | inside
  /-- A slash, with any directories behind it. -/
  | innerDirectories
  | oneOf (negated : Bool) (ranges : List (Char × Char))
  | alternatives (branches : List (List Part))

/-- Why a text is no glob. -/
inductive Error where
  | unclosedClass
  | invalidRange (first last : Char)
  | unopenedAlternatives
  | unclosedAlternatives
  | danglingBackslash
  deriving DecidableEq, Repr

/-- What is wrong with a glob. -/
def Error.reason : Error → String
  | unclosedClass => "unclosed character class; missing ']'"
  | invalidRange first last => "invalid range; '" ++ first.toString ++ "' > '" ++ last.toString ++ "'"
  | unopenedAlternatives =>
    "unopened alternate group; missing '\x7b' (maybe escape '\x7d' with '[\x7d]'?)"
  | unclosedAlternatives =>
    "unclosed alternate group; missing '\x7d' (maybe escape '\x7b' with '[\x7b]'?)"
  | danglingBackslash => "dangling '\\'"

/-- What a user is told about a text that is no glob. -/
def Error.message (glob : String) (e : Error) : String :=
  "error parsing glob '" ++ glob ++ "': " ++ e.reason

/-! ### Reading -/

/-- A group that is open: the parts before it, and its finished branches, all in reverse. -/
structure Group where
  before : List Part
  branches : List (List Part)

/-- What has been read: the parts of the branch being read, in reverse, and the groups around it. -/
structure Progress where
  parts : List Part
  groups : List Group

namespace Progress

def start : Progress := ⟨[], []⟩

def push (s : Progress) (p : Part) : Progress := { s with parts := p :: s.parts }

/-- Begins a group. -/
def openGroup (s : Progress) : Progress := ⟨[], ⟨s.parts, []⟩ :: s.groups⟩

/-- At a comma, which separates branches in a group and is itself elsewhere. -/
def comma (s : Progress) : Progress :=
  match s.groups with
  | [] => s.push (.literal ',')
  | g :: outer => ⟨[], { g with branches := s.parts.reverse :: g.branches } :: outer⟩

/-- Ends a group. -/
def closeGroup (s : Progress) : Except Error Progress :=
  match s.groups with
  | [] => .error .unopenedAlternatives
  | g :: outer =>
    .ok ⟨.alternatives (s.parts.reverse :: g.branches).reverse :: g.before, outer⟩

/-- The parts of the whole glob. -/
def finish (s : Progress) : Except Error (List Part) :=
  match s.groups with
  | [] => .ok s.parts.reverse
  | _ => .error .unclosedAlternatives

/-- Two stars that mean no more than one. -/
def twoStars (s : Progress) : Progress := (s.push .star).push .star

/-- Puts directories in place of the slash that was read last. -/
def directories (s : Progress) (p : Part) : Progress :=
  match s.parts with
  | .leadingDirectories :: _ => s
  | .inside :: _ => s
  | _ :: parts => { s with parts := p :: parts }
  | [] => s.push p

/--
At two stars, between the character before them and the rest. The result says whether the slash at
the front of the rest has been used up.
-/
def doubleStar (s : Progress) (prior : Option Char) (rest : List Char) : Progress × Bool :=
  if s.parts.isEmpty then
    match rest with
    | [] => (s.push .leadingDirectories, false)
    | '/' :: _ => (s.push .leadingDirectories, true)
    | _ => (s.twoStars, false)
  else if prior ≠ some '/' ∧ (s.groups.isEmpty ∨ (prior ≠ some ',' ∧ prior ≠ some '\x7b')) then
    (s.twoStars, false)
  else match rest with
    | [] => (s.directories .inside, false)
    | '/' :: _ => (s.directories .innerDirectories, true)
    | c :: _ =>
      if !s.groups.isEmpty ∧ (c = ',' ∨ c = '\x7d') then (s.directories .inside, false)
      else (s.twoStars, false)

end Progress

/-- A character class that is being read; the ranges are in reverse. -/
structure ClassProgress where
  negated : Bool
  ranges : List (Char × Char)
  /-- Whether nothing has been read yet. -/
  isFirst : Bool
  /-- Whether a hyphen was read last that may begin the second half of a range. -/
  inRange : Bool

namespace ClassProgress

def start (negated : Bool) : ClassProgress := ⟨negated, [], true, false⟩

def single (s : ClassProgress) (c : Char) : ClassProgress :=
  { s with ranges := (c, c) :: s.ranges, isFirst := false, inRange := false }

/-- Ends the range whose first half was read last. -/
def endRange (s : ClassProgress) (c : Char) : Except Error ClassProgress :=
  match s.ranges with
  | (first, _) :: ranges =>
    if c < first then .error (.invalidRange first c)
    else .ok { s with ranges := (first, c) :: ranges, isFirst := false, inRange := false }
  | [] => .ok (s.single c)

/-- At a character other than the closing bracket. -/
def read (s : ClassProgress) (c : Char) : Except Error ClassProgress :=
  if c = '-' ∧ !s.isFirst ∧ !s.inRange then .ok { s with inRange := true }
  else if s.inRange then s.endRange c
  else .ok (s.single c)

/-- The part that the class is. -/
def finish (s : ClassProgress) : Part :=
  .oneOf s.negated (if s.inRange then ('-', '-') :: s.ranges else s.ranges).reverse

end ClassProgress

/--
Reads on, given the class that is being read, if there is one, and the character before. Where two
stars use up a slash, `skip` says that the next character is that slash.
-/
def readFrom (class_ : Option ClassProgress) (s : Progress) (prior : Option Char) (skip : Bool) :
    List Char → Except Error Progress
  | [] => if class_.isSome then .error .unclosedClass else .ok s
  | c :: rest =>
    if skip then readFrom class_ s (some c) false rest
    else match class_ with
      | some k =>
        if c = ']' ∧ !k.isFirst then readFrom none (s.push k.finish) (some c) false rest
        else do readFrom (some (← k.read c)) s (some c) false rest
      | none =>
        if c = '?' then readFrom none (s.push .any) (some c) false rest
        else if c = '*' then
          match rest with
          | '*' :: rest' =>
            let (s, slash) := s.doubleStar prior rest'
            readFrom none s (some '*') slash rest'
          | rest => readFrom none (s.push .star) (some c) false rest
        else if c = '[' then
          match rest with
          | '!' :: rest' => readFrom (some (.start true)) s (some '!') false rest'
          | '^' :: rest' => readFrom (some (.start true)) s (some '^') false rest'
          | rest => readFrom (some (.start false)) s (some c) false rest
        else if c = '\x7b' then readFrom none s.openGroup (some c) false rest
        else if c = '\x7d' then do readFrom none (← s.closeGroup) (some c) false rest
        else if c = ',' then readFrom none s.comma (some c) false rest
        else if c = '\\' then
          match rest with
          | [] => .error .danglingBackslash
          | c' :: rest' => readFrom none (s.push (.literal c')) (some c') false rest'
        else readFrom none (s.push (.literal c)) (some c) false rest

/-- The parts of a glob. -/
def parse (glob : String) : Except Error (List Part) := do
  (← readFrom none .start none false glob.toList).finish

end SnippetLint.Glob
