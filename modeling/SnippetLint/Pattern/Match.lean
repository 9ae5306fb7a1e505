/-
Matching patterns.

`Pattern.run` tries the ways in which a pattern can match at a place, in the order of preference,
and hands each to what follows until one succeeds. Of all matches of a text the one that begins
first counts, and of those that begin there the first in the order of preference.

Successive matches do not overlap. A match that takes up no text counts only where it does not
touch the match before it.
-/
import SnippetLint.Pattern.Basic

namespace SnippetLint

/-- A place in a text that is being matched: the character before it, its offset, what follows. -/
structure Cursor where
  before : Option Char
  offset : Nat
  ahead : Text

namespace Cursor

/-- The place before a text. -/
def start (t : Text) : Cursor := ⟨none, 0, t⟩

/-- The place behind a character that stands at this one. -/
def step (here : Cursor) (c : Char) (rest : Text) : Cursor :=
  ⟨some c, here.offset + c.utf8Size, rest⟩

/-- A word character on one side only. -/
def atWordEdge (here : Cursor) : Bool :=
  here.before.any Unicode.isWord != here.ahead.head?.any Unicode.isWord

end Cursor

/-- A part of a text: its offset and its characters. -/
structure Span where
  start : Nat
  text : Text
  deriving DecidableEq, Repr

namespace Span

/-- The offset behind a span. -/
def stop (s : Span) : Nat := s.start + Text.size s.text

/-- The characters of a span as a string. -/
def string (s : Span) : String := String.ofList s.text

/-- The characters of a text that begin within the next `bytes` bytes. -/
def take : Nat → Text → Text
  | _, [] => []
  | bytes, c :: rest => if bytes = 0 then [] else c :: take (bytes - c.utf8Size) rest

/-- The span between two places of one text. -/
def between (a b : Cursor) : Span := ⟨a.offset, take (b.offset - a.offset) a.ahead⟩

end Span

/-- The groups that have matched so far, the latest first, each with its two ends. -/
abbrev Groups := List (Nat × Cursor × Cursor)

/-- One match of a pattern: its extent, and that of each group that took part in it. -/
structure Found where
  whole : Span
  groups : List (Nat × Span)
  deriving DecidableEq, Repr

namespace Found

/-- The extent of a group; group 0 is the whole match. -/
def group? (m : Found) (index : Nat) : Option Span :=
  if index = 0 then some m.whole else m.groups.lookup index

/-- The extent of a group that is relied on to have taken part. -/
def group (m : Found) (index : Nat) : Checked Span :=
  match m.group? index with
  | some span => .ok span
  | none => .error (.missingGroup index)

/-- The match that leads from one place to another and remembers some groups. -/
def between (here stop : Cursor) (groups : Groups) : Found :=
  ⟨Span.between here stop, groups.map fun (index, a, b) => (index, Span.between a b)⟩

/-- What a group matched, or the empty text. -/
def textOf (m : Found) (index : Nat) : Text := ((m.group? index).map Span.text).getD []

end Found

namespace Pattern

section

variable {α : Type}

/-- Passes characters of a class, as many as lead to success. -/
def passMany (f : Char → Bool) (k : Cursor → Option α) : Option Char → Nat → Text → Option α
  | before, offset, [] => k ⟨before, offset, []⟩
  | before, offset, c :: rest =>
    if f c then
      match passMany f k (some c) (offset + c.utf8Size) rest with
      | some result => some result
      | none => k ⟨before, offset, c :: rest⟩
    else k ⟨before, offset, c :: rest⟩

/-- Passes characters of a class, as few as lead to success. -/
def passFew (f : Char → Bool) (k : Cursor → Option α) : Option Char → Nat → Text → Option α
  | before, offset, [] => k ⟨before, offset, []⟩
  | before, offset, c :: rest =>
    match k ⟨before, offset, c :: rest⟩ with
    | some result => some result
    | none => if f c then passFew f k (some c) (offset + c.utf8Size) rest else none

/-- Rounds of a step that takes up text, as many as lead to success, at most `limit`. -/
def rounds (round : Cursor → Groups → (Cursor → Groups → Option α) → Option α)
    (k : Cursor → Groups → Option α) : Nat → Cursor → Groups → Option α
  | 0, here, groups => k here groups
  | limit + 1, here, groups =>
    match round here groups fun next groups' =>
        if here.offset < next.offset then rounds round k limit next groups' else none with
    | some result => some result
    | none => k here groups

/-- Tries the ways to match at a place in the order of preference, until `k` accepts one. -/
def run : Pattern → Cursor → Groups → (Cursor → Groups → Option α) → Option α
  | nothing, here, groups, k => k here groups
  | one f, here, groups, k =>
    match here.ahead with
    | [] => none
    | c :: rest => if f c then k (here.step c rest) groups else none
  | many f, here, groups, k => passMany f (k · groups) here.before here.offset here.ahead
  | few f, here, groups, k => passFew f (k · groups) here.before here.offset here.ahead
  | wordEdge, here, groups, k => if here.atWordEdge then k here groups else none
  | textStart, here, groups, k => if here.before.isNone then k here groups else none
  | textEnd, here, groups, k => if here.ahead.isEmpty then k here groups else none
  | lineStart, here, groups, k =>
    if here.before.all (· == '\n') then k here groups else none
  | lineEnd, here, groups, k =>
    if here.ahead.head?.all (· == '\n') then k here groups else none
  | both p q, here, groups, k => run p here groups fun next groups' => run q next groups' k
  | either p q, here, groups, k =>
    match run p here groups k with
    | some result => some result
    | none => run q here groups k
  | repeated p, here, groups, k =>
    rounds (fun next groups' k' => run p next groups' k') k here.ahead.length here groups
  | group index p, here, groups, k =>
    run p here groups fun next groups' => k next ((index, here, next) :: groups')

end

/-- The preferred match at a place. -/
def matchAt (p : Pattern) (here : Cursor) : Option Found :=
  run p here [] fun stop groups => some (Found.between here stop groups)

/-- The first match at or behind a place. -/
def search (p : Pattern) : Option Char → Nat → Text → Option Found
  | before, offset, [] => matchAt p ⟨before, offset, []⟩
  | before, offset, c :: rest =>
    match matchAt p ⟨before, offset, c :: rest⟩ with
    | some found => some found
    | none => search p (some c) (offset + c.utf8Size) rest

/-- The first match of a text. -/
def find? (p : Pattern) (t : Text) : Option Found := search p none 0 t

/-- Whether a text has a match. -/
def occursIn (p : Pattern) (t : Text) : Bool := (p.find? t).isSome

/--
Whether a match at a place counts, given where the match before it stopped: it lies behind that
stop, or at it and takes up text.
-/
def counts (last : Option Nat) (found : Found) : Bool :=
  match last with
  | none => true
  | some stop => stop < found.whole.start || (stop = found.whole.start && !found.whole.text.isEmpty)

/-- The successive matches at or behind a place, given where the match before them stopped. -/
def scan (p : Pattern) : Option Char → Nat → Text → Option Nat → List Found
  | before, offset, [], last =>
    if last.any (offset < ·) then []
    else match matchAt p ⟨before, offset, []⟩ with
      | some found => if counts last found then [found] else []
      | none => []
  | before, offset, c :: rest, last =>
    if last.any (offset < ·) then scan p (some c) (offset + c.utf8Size) rest last
    else match matchAt p ⟨before, offset, c :: rest⟩ with
      | some found =>
        if counts last found then
          found :: scan p (some c) (offset + c.utf8Size) rest (some found.whole.stop)
        else scan p (some c) (offset + c.utf8Size) rest last
      | none => scan p (some c) (offset + c.utf8Size) rest last

/-- The successive matches of a text. -/
def findAll (p : Pattern) (t : Text) : List Found := scan p none 0 t none

/-- What one group of each successive match covers, where it took part. -/
def findGroups (p : Pattern) (index : Nat) (t : Text) : List Span :=
  (p.findAll t).filterMap (·.group? index)

/-- The extents of the successive matches. -/
def findSpans (p : Pattern) (t : Text) : List Span := (p.findAll t).map (·.whole)

end Pattern

end SnippetLint
