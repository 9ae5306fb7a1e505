/-
The layout of a YAML text: its tokens, with those that indentation stands for.

A block begins where a column is first indented to, and ends where a token stands further left. That a
block is a mapping shows only at the colon behind its first key; so a place where a key may begin is
remembered, and at the colon a token is put in before those that came since.
-/
import SnippetLint.Yaml.Token

namespace SnippetLint.Yaml

/-- A place where a key may have begun. -/
structure KeyStart where
  /-- Nothing but a key can stand here. -/
  required : Bool
  /-- How many tokens came before. -/
  before : Nat
  line : Nat
  column : Nat
  index : Nat

/-- The greatest length of a key without a mark of its own. -/
def maxKeyLength : Nat := 1024

/-- Whether the key has to be over: it may neither span lines nor be too long. -/
def KeyStart.isOver (k : KeyStart) (p : Place) : Bool :=
  k.line < p.line || k.index + maxKeyLength < p.index

structure Layout where
  place : Place
  /-- The tokens so far, in reverse. -/
  tokens : List Token
  /-- The columns of the open blocks, the innermost first. -/
  indents : List Nat
  /-- Whether a key without a mark of its own may begin here. -/
  keyAllowed : Bool
  /-- A key that may have begun inside the innermost brackets. -/
  keyStart : Option KeyStart
  /-- The same for what is around each of the open brackets, the innermost first. -/
  outerKeyStarts : List (Option KeyStart)

namespace Layout

def start (p : Place) : Layout := ⟨p, [], [], true, none, []⟩

/-- Whether brackets are open; between them indentation has no meaning. -/
def inFlow (s : Layout) : Bool := !s.outerKeyStarts.isEmpty

/-- With a further token. -/
def push (s : Layout) (t : Token) : Layout := { s with tokens := t :: s.tokens }

/-- With a further token, given the place behind it. -/
def emit (s : Layout) (t : Token) (p : Place) : Layout := { s with place := p, tokens := t :: s.tokens }

/-- With tokens put in behind a number of others. -/
def insertTokens (s : Layout) (before : Nat) (tokens : List Token) : Layout :=
  let since := s.tokens.length - before
  { s with tokens := s.tokens.take since ++ tokens.reverse ++ s.tokens.drop since }

/-! ### Gaps -/

/--
Passes over blanks, comments and line ends, and tells whether a key may begin behind them. A tab may
not indent what may be a key.
-/
def passGap (inFlow keyAllowed inComment : Bool) (line column index : Nat) :
    List Char → Bool × Place
  | [] => (keyAllowed, ⟨[], line, column, index⟩)
  | c :: rest =>
    if isBreak c then passGap inFlow (keyAllowed || !inFlow) false (line + 1) 0 (index + 1) rest
    else if inComment || c == ' ' || (c == '\t' && (inFlow || !keyAllowed)) then
      passGap inFlow keyAllowed inComment line (column + 1) (index + 1) rest
    else if c == '#' then passGap inFlow keyAllowed true line (column + 1) (index + 1) rest
    else (keyAllowed, ⟨c :: rest, line, column, index⟩)

/-- Before the next token. -/
def skipGap (s : Layout) : Layout :=
  let p := s.place
  let (keyAllowed, place) := passGap s.inFlow s.keyAllowed false p.line p.column p.index p.rest
  { s with place, keyAllowed }

/-! ### Blocks -/

/-- Whether a column is further right than the innermost block. -/
def indentsFurther (s : Layout) (column : Nat) : Bool := s.indents.head?.all (· < column)

/-- Begins a block at a column, if it is a new one; the token goes behind a number of others. -/
def openBlock (s : Layout) (before column : Nat) (t : Token) : Layout :=
  if s.inFlow || !s.indentsFurther column then s
  else { s.insertTokens before [t] with indents := column :: s.indents }

/-- Ends the blocks to the right of a column. -/
def closeBlocks (s : Layout) (column : Nat) : Layout :=
  if s.inFlow then s
  else
    let closed := s.indents.takeWhile (column < ·)
    { s with
      indents := s.indents.drop closed.length
      tokens := closed.map (fun _ => Token.blockEnd) ++ s.tokens }

/-- Ends all blocks. -/
def closeAllBlocks (s : Layout) : Layout :=
  if s.inFlow then s
  else { s with indents := [], tokens := s.indents.map (fun _ => Token.blockEnd) ++ s.tokens }

/-! ### Keys -/

/-- What is left of a place where a key may have begun; a key that has to stand there is not over. -/
def stillOpen (p : Place) (k : Option KeyStart) : Option (Option KeyStart) :=
  match k with
  | none => some none
  | some k => if !k.isOver p then some (some k) else if k.required then none else some none

/-- Without the keys that have to be over. -/
def dropOver (s : Layout) : Option Layout := do
  let keyStart ← stillOpen s.place s.keyStart
  let outerKeyStarts ← s.outerKeyStarts.mapM (stillOpen s.place)
  return { s with keyStart, outerKeyStarts }

/-- Without a key inside the innermost brackets; one that has to stand there may not be given up. -/
def dropKey (s : Layout) : Option Layout :=
  if s.keyStart.any (·.required) then none else some { s with keyStart := none }

/-- With a key that may begin here. -/
def markKey (s : Layout) : Option Layout := do
  if !s.keyAllowed then return s
  let required := !s.inFlow && s.indents.head? == some s.place.column
  let p := s.place
  let s ← s.dropKey
  return { s with keyStart := some ⟨required, s.tokens.length, p.line, p.column, p.index⟩ }

/-- With or without the permission to begin a key. -/
def allowKey (s : Layout) (keyAllowed : Bool) : Layout := { s with keyAllowed }

/-! ### Tokens -/

/-- A mark that begins or ends a document. -/
def readDocumentMark (s : Layout) (t : Token) : Option Layout := do
  let s ← s.closeAllBlocks.dropKey
  return (s.allowKey false).emit t (s.place.skipMany 3)

def readDirective (s : Layout) : Option Layout := do
  let s ← s.closeAllBlocks.dropKey
  let (t, p) ← Token.readDirective s.place
  return (s.allowKey false).emit t p

def openBracket (s : Layout) (t : Token) : Option Layout := do
  let s ← s.markKey
  let s := { s with keyStart := none, outerKeyStarts := s.keyStart :: s.outerKeyStarts }
  return (s.allowKey true).emit t s.place.skip

def closeBracket (s : Layout) (t : Token) : Option Layout := do
  let s ← s.dropKey
  let s := match s.outerKeyStarts with
    | k :: outer => { s with keyStart := k, outerKeyStarts := outer }
    | [] => s
  return (s.allowKey false).emit t s.place.skip

def readComma (s : Layout) : Option Layout := do
  let s ← s.dropKey
  return (s.allowKey true).emit .flowEntry s.place.skip

def readHyphen (s : Layout) : Option Layout := do
  if !s.inFlow && !s.keyAllowed then none
  let s ← (s.openBlock s.tokens.length s.place.column .blockSequence).dropKey
  return (s.allowKey true).emit .blockEntry s.place.skip

/-- The mark of a key. -/
def readQuestionMark (s : Layout) : Option Layout := do
  if !s.inFlow && !s.keyAllowed then none
  let s ← (s.openBlock s.tokens.length s.place.column .blockMapping).dropKey
  return (s.allowKey !s.inFlow).emit .key s.place.skip

/-- The mark of a value, behind a key with or without a mark of its own. -/
def readColon (s : Layout) : Option Layout :=
  match s.keyStart with
  | some k =>
    let s := (s.insertTokens k.before [.key]).openBlock k.before k.column .blockMapping
    some (({ s with keyStart := none }.allowKey false).emit .value s.place.skip)
  | none =>
    if !s.inFlow && !s.keyAllowed then none
    else
      let s := s.openBlock s.tokens.length s.place.column .blockMapping
      some ((s.allowKey !s.inFlow).emit .value s.place.skip)

/-- What may begin a key: a token that a reader finds at the place. -/
def readPart (s : Layout) (read : Place → Option (Token × Place)) : Option Layout := do
  let s ← s.markKey
  let (t, p) ← read s.place
  return (s.allowKey false).emit t p

def readQuoted (s : Layout) (single : Bool) : Option Layout :=
  s.readPart fun p => do
    let (text, p) ← quoted single p
    return (.scalar .other (String.ofList text), p)

def readPlain (s : Layout) : Option Layout := do
  let s ← s.markKey
  let least := match s.indents with
    | [] => 0
    | n :: _ => n + 1
  let (text, broken, p) ← plain s.inFlow least s.place
  return (s.allowKey broken).emit (.scalar .plain (String.ofList text)) p

def readBlock (s : Layout) (literal : Bool) : Option Layout := do
  let s ← s.dropKey
  let (text, p) ← block literal s.indents.head? s.place
  let style := if literal then ScalarStyle.literal else .other
  return (s.allowKey true).emit (.scalar style (String.ofList text)) p

/-- Characters that have a meaning of their own at the front of a token. -/
def isIndicator (c : Char) : Bool := "-?:,[]\x7b\x7d#&*!|>'\"%@`".contains c

/--
Whether a plain scalar may begin with a character, given the next one. No gap begins it: a tab that is
left where a key may stand begins nothing at all.
-/
def beginsPlain (inFlow : Bool) (c : Char) (next : Option Char) : Bool :=
  !(isGap (some c) || isIndicator c) || (c == '-' && !next.any isBlank)
    || (!inFlow && (c == '?' || c == ':') && !isGap next)

/-- Reads the token that begins with a character. -/
def readToken (s : Layout) (c : Char) : Option Layout :=
  let p := s.place
  let next := p.peekAt 1
  if p.column == 0 && c == '%' then s.readDirective
  else if p.atMark '-' then s.readDocumentMark .documentStart
  else if p.atMark '.' then s.readDocumentMark .documentEnd
  else if c == '[' then s.openBracket .openSequence
  else if c == '\x7b' then s.openBracket .openMapping
  else if c == ']' then s.closeBracket .closeSequence
  else if c == '\x7d' then s.closeBracket .closeMapping
  else if c == ',' then s.readComma
  else if c == '-' && isGap next then s.readHyphen
  else if c == '?' && (s.inFlow || isGap next) then s.readQuestionMark
  else if c == ':' && (s.inFlow || isGap next) then s.readColon
  else if c == '*' then
    s.readPart fun p => do
      let (name, p) ← Token.anchorName p
      return (.reference name, p)
  else if c == '&' then
    s.readPart fun p => do
      let (name, p) ← Token.anchorName p
      return (.anchor name, p)
  else if c == '!' then s.readPart (Token.readTag s.inFlow)
  else if c == '|' && !s.inFlow then s.readBlock true
  else if c == '>' && !s.inFlow then s.readBlock false
  else if c == '\'' then s.readQuoted true
  else if c == '"' then s.readQuoted false
  else if beginsPlain s.inFlow c next then s.readPlain
  else none

/-- All tokens, in order. -/
def finish (s : Layout) : Option (List Token) := do
  let s ← s.closeAllBlocks.dropKey
  return s.tokens.reverse

/-- Reads on to the end of the text; each step takes at least one character. -/
def readAll : Nat → Layout → Option (List Token)
  | 0, _ => none
  | steps + 1, s => do
    let s ← s.skipGap.dropOver
    let s := s.closeBlocks s.place.column
    match s.place.peek with
    | none => s.finish
    | some c => readAll steps (← s.readToken c)

end Layout

/-- A mark at the front of a text that tells how it is encoded. -/
def byteOrderMark : Char := '\uFEFF'

/-- The tokens of a text. -/
def tokens (text : List Char) : Option (List Token) := do
  let text := if text.head? = some byteOrderMark then text.tail else text
  if !text.all isAllowed then none
  let p := Place.start (unifyLineEnds text)
  let p := if p.peek = some byteOrderMark then p.skip else p
  Layout.readAll (p.rest.length + 1) (.start p)

end SnippetLint.Yaml
