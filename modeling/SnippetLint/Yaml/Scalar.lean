/-
Scalars: the texts in a YAML document.

A scalar is plain, quoted or a block. Line breaks inside the first two are folded: one break becomes a
space, and of several the first is dropped. In a block they are kept or folded as the block says.
-/
import SnippetLint.Yaml.Place

namespace SnippetLint.Yaml

/-- How a scalar is written, as far as it tells what the scalar may stand for. -/
inductive ScalarStyle where
  | plain
  /-- A block whose line breaks are kept. -/
  | literal
  /-- In quotes, or a folded block. -/
  | other
  deriving DecidableEq, Repr

/-! ### Gaps -/

/-- Blanks and line breaks inside a scalar; the characters are in reverse. -/
structure Gap where
  blanks : List Char := []
  /-- Whether a line has ended. -/
  broken : Bool := false
  /-- The first line break, unless a backslash took it away. -/
  first : List Char := []
  further : List Char := []

namespace Gap

/-- What a gap stands for. -/
def fold (g : Gap) : List Char :=
  if g.broken then
    if g.first = ['\n'] then if g.further.isEmpty then [' '] else g.further.reverse
    else g.first ++ g.further.reverse
  else g.blanks.reverse

/-- With a blank. -/
def addBlank (g : Gap) (c : Char) : Gap := if g.broken then g else { g with blanks := c :: g.blanks }

/-- With a line break. -/
def addBreak (g : Gap) (c : Char) : Gap :=
  if g.broken then { g with further := c :: g.further } else { broken := true, first := [c] }

/-- Passes over a gap. A tab may not stand where a line has to be indented up to a column. -/
def pass (indent : Nat) (g : Gap) (line column index : Nat) : List Char → Option (Gap × Place)
  | [] => some (g, ⟨[], line, column, index⟩)
  | c :: rest =>
    if isBlank c then
      if g.broken && column < indent && c == '\t' then none
      else pass indent (g.addBlank c) line (column + 1) (index + 1) rest
    else if isBreak c then pass indent (g.addBreak c) (line + 1) 0 (index + 1) rest
    else some (g, ⟨c :: rest, line, column, index⟩)

/-- Passes over the gap at a place. -/
def passAt (indent : Nat) (g : Gap) (p : Place) : Option (Gap × Place) :=
  g.pass indent p.line p.column p.index p.rest

end Gap

/-! ### Plain scalars -/

/-- Characters that end a plain scalar between brackets. -/
def isFlowMark (c : Char) : Bool := c == ',' || c == '[' || c == ']' || c == '\x7b' || c == '\x7d'

/-- How many characters of a plain scalar follow without a gap; there may be a misplaced colon. -/
def plainRun (inFlow : Bool) : List Char → Option Nat
  | [] => some 0
  | c :: rest =>
    if isBlank c || isBreak c then some 0
    else if c == ':' && inFlow && rest.head?.any fun d => isFlowMark d || d == '?' then none
    else if c == ':' && isGap rest.head? then some 0
    else if inFlow && isFlowMark c then some 0
    else (plainRun inFlow rest).map (· + 1)

/-- Whether a gap ends a plain scalar: behind it nothing that belongs to it can stand. -/
def endsPlain (inFlow : Bool) (indent : Nat) (p : Place) : Bool :=
  (!inFlow && p.column < indent) || p.atDocumentMark || p.peek == some '#'

/--
The rest of a plain scalar, whose characters so far are in reverse, with the gap before the rest. The
result says whether a line has ended behind the scalar.
-/
def plainFrom (inFlow : Bool) (indent : Nat) :
    Nat → List Char → Gap → Place → Option (List Char × Bool × Place)
  | 0, _, _, _ => none
  | steps + 1, seen, gap, p => do
    let length ← plainRun inFlow p.rest
    if length = 0 then return (seen.reverse, gap.broken, p)
    let seen := (p.rest.take length).reverse ++ gap.fold.reverse ++ seen
    let (gap, next) ← Gap.passAt indent {} (p.skipMany length)
    if endsPlain inFlow indent next then return (seen.reverse, gap.broken, next)
    plainFrom inFlow indent steps seen gap next

/-- A plain scalar. -/
def plain (inFlow : Bool) (indent : Nat) (p : Place) : Option (List Char × Bool × Place) :=
  plainFrom inFlow indent (p.rest.length + 1) [] {} p

/-! ### Quoted scalars -/

/-- The character that a letter stands for behind a backslash. -/
def escapedChar? : Char → Option Char
  | '0' => some '\x00'
  | 'a' => some '\x07'
  | 'b' => some '\x08'
  | 't' => some '\t'
  | '\t' => some '\t'
  | 'n' => some '\n'
  | 'v' => some '\x0b'
  | 'f' => some '\x0c'
  | 'r' => some '\r'
  | 'e' => some '\x1b'
  | ' ' => some ' '
  | '"' => some '"'
  | '/' => some '/'
  | '\\' => some '\\'
  | 'N' => some '\u0085'
  | '_' => some '\u00a0'
  | 'L' => some '\u2028'
  | 'P' => some '\u2029'
  | _ => none

/-- How many hexadecimal digits follow a letter behind a backslash. -/
def codeLength? : Char → Option Nat
  | 'x' => some 2
  | 'u' => some 4
  | 'U' => some 8
  | _ => none

/-- The value of a hexadecimal digit. -/
def hexDigit? (c : Char) : Option Nat :=
  if '0' ≤ c && c ≤ '9' then some (c.toNat - '0'.toNat)
  else if 'a' ≤ c && c ≤ 'f' then some (c.toNat - 'a'.toNat + 10)
  else if 'A' ≤ c && c ≤ 'F' then some (c.toNat - 'A'.toNat + 10)
  else none

/-- The number that hexadecimal digits stand for. -/
def hexValue? (digits : List Char) : Option Nat :=
  digits.foldlM (fun n c => (hexDigit? c).map (n * 16 + ·)) 0

/-- The character with a number that as many digits give as there have to be. -/
def coded? (length : Nat) (digits : List Char) : Option Char := do
  if digits.length < length then none
  let n ← hexValue? digits
  if n.isValidChar then some (Char.ofNat n) else none

/-- What follows in a quoted scalar without a gap: characters in reverse, and what ends them. -/
inductive QuotedEnd where
  | quote
  | gap
  /-- A line break that a backslash takes away. -/
  | joined

/-- The characters of a quoted scalar up to a gap or the closing quote. -/
def quotedRun (single : Bool) : Nat → List Char → Place → Option (List Char × QuotedEnd × Place)
  | 0, _, _ => none
  | steps + 1, seen, p =>
    match p.rest with
    | [] => some (seen, .gap, p)
    | c :: rest =>
      if isBlank c || isBreak c then some (seen, .gap, p)
      else if single then
        if c == '\'' then
          if rest.head? == some '\'' then quotedRun single steps ('\'' :: seen) (p.skipMany 2)
          else some (seen, .quote, p.skip)
        else quotedRun single steps (c :: seen) p.skip
      else if c == '"' then some (seen, .quote, p.skip)
      else if c == '\\' then
        match rest with
        | [] => none
        | d :: digits =>
          if isBreak d then some (seen, .joined, p.skip.skipBreak)
          else match codeLength? d with
            | some length => do
              let coded ← coded? length (digits.take length)
              quotedRun single steps (coded :: seen) (p.skipMany (2 + length))
            | none => do
              let escaped ← escapedChar? d
              quotedRun single steps (escaped :: seen) (p.skipMany 2)
      else quotedRun single steps (c :: seen) p.skip

/-- The rest of a quoted scalar behind its opening quote; the characters so far are in reverse. -/
def quotedFrom (single : Bool) : Nat → List Char → Place → Option (List Char × Place)
  | 0, _, _ => none
  | steps + 1, seen, p => do
    if p.atDocumentMark || p.peek.isNone then none
    let (seen, ending, next) ← quotedRun single (p.rest.length + 1) seen p
    match ending with
    | .quote => return (seen.reverse, next)
    | .gap =>
      let (gap, next) ← Gap.passAt 0 {} next
      quotedFrom single steps (gap.fold.reverse ++ seen) next
    | .joined =>
      let (gap, next) ← Gap.passAt 0 { broken := true } next
      quotedFrom single steps (gap.fold.reverse ++ seen) next

/-- A quoted scalar. -/
def quoted (single : Bool) (p : Place) : Option (List Char × Place) :=
  quotedFrom single (p.rest.length + 1) [] p.skip

/-! ### Blocks -/

/-- What becomes of the line breaks at the end of a block. -/
inductive Chomping where
  | strip
  | clip
  | keep
  deriving DecidableEq, Repr

/-- The chomping that a sign asks for. -/
def chomping? : Option Char → Option Chomping
  | some '+' => some .keep
  | some '-' => some .strip
  | _ => none

/-- The number that a digit stands for; zero is none. -/
def indentDigit? (c : Option Char) : Option Nat :=
  c.bind fun c => if c.isDigit then some (c.toNat - '0'.toNat) else none

/-- The signs behind the mark of a block: the chomping and the number of spaces to indent by. -/
def blockHeader (p : Place) : Option (Chomping × Nat × Place) :=
  match chomping? p.peek with
  | some chomping =>
    match indentDigit? p.skip.peek with
    | some n => if n = 0 then none else some (chomping, n, p.skipMany 2)
    | none => some (chomping, 0, p.skip)
  | none =>
    match indentDigit? p.peek with
    | some n =>
      if n = 0 then none
      else match chomping? p.skip.peek with
        | some chomping => some (chomping, n, p.skipMany 2)
        | none => some (.clip, n, p.skip)
    | none => some (.clip, 0, p)

/--
Passes over the blank lines of a block and the indentation behind them. The column to indent to is
zero while it is not known; then the greatest column is told, too.
-/
def blockBreaks (indent : Nat) : Nat → Nat → List Char → Place → Option (Nat × List Char × Place)
  | 0, _, _, _ => none
  | steps + 1, widest, breaks, p =>
    let spaces := p.rest.takeWhile (· == ' ')
    let taken := if indent = 0 then spaces.length else min spaces.length (indent - p.column)
    let p := p.skipMany taken
    let widest := max widest p.column
    if (indent = 0 || p.column < indent) && p.peek == some '\t' then none
    else match p.peek with
      | some c =>
        if isBreak c then blockBreaks indent steps widest (c :: breaks) p.skipBreak
        else some (widest, breaks.reverse, p)
      | none => some (widest, breaks.reverse, p)

/-- The lines of a block from its first line that is not blank. -/
def blockLines (literal : Bool) (indent : Nat) :
    Nat → List Char → List Char → List Char → Bool → Place →
      Option (List Char × List Char × List Char × Place)
  | 0, _, _, _, _, _ => none
  | steps + 1, seen, ending, breaks, afterBlank, p =>
    if p.column = indent && p.peek.isSome then do
      let blank := p.peek.any isBlank
      let joint :=
        if !literal && ending == ['\n'] && !afterBlank && !blank then
          if breaks.isEmpty then [' '] else breaks
        else ending ++ breaks
      let (line, next) := p.skipWhile fun c => !isBreak c
      let seen := line.reverse ++ joint.reverse ++ seen
      let (ending, next) := match next.peek with
        | some c => ([c], next.skipBreak)
        | none => ([], next)
      let (_, breaks, next) ← blockBreaks indent (next.rest.length + 1) 0 [] next
      blockLines literal indent steps seen ending breaks blank next
    else some (seen, ending, breaks, p)

/-- A block, given the column of what it belongs to, if that is indented at all. -/
def block (literal : Bool) (parent : Option Nat) (p : Place) : Option (List Char × Place) := do
  let (chomping, increment, p) ← blockHeader p.skip
  let p := p.skipBlanks.skipComment
  if !isLineEnd p.peek then none
  let p := if p.peek.isSome then p.skipBreak else p
  let given := if increment = 0 then 0 else parent.getD 0 + increment
  let (widest, breaks, p) ← blockBreaks given (p.rest.length + 1) 0 [] p
  let least := match parent with
    | some n => n + 1
    | none => 1
  let indent := if given = 0 then max widest least else given
  let (seen, ending, breaks, p) ←
    blockLines literal indent (p.rest.length + 1) [] [] breaks false p
  let tail := match chomping with
    | .strip => []
    | .clip => ending
    | .keep => ending ++ breaks
  return (seen.reverse ++ tail, p)

end SnippetLint.Yaml
