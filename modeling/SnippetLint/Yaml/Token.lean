/-
The tokens of YAML, and how those with names in them are written.

A tag is a handle with a suffix; a directive says what a handle stands for, or which version of YAML a
document is written in.
-/
import SnippetLint.Yaml.Scalar

namespace SnippetLint.Yaml

inductive Token where
  | version (major minor : Nat)
  /-- What a handle of tags stands for. -/
  | tagHandle (handle start : String)
  | documentStart
  | documentEnd
  | blockSequence
  | blockMapping
  | blockEnd
  | openSequence
  | closeSequence
  | openMapping
  | closeMapping
  | blockEntry
  | flowEntry
  | key
  | value
  | reference (name : String)
  | anchor (name : String)
  | tag (handle suffix : String)
  | scalar (style : ScalarStyle) (text : String)
  deriving DecidableEq, Repr

namespace Token

/-! ### Names -/

/-- Characters of the names of anchors, handles and directives. -/
def isNameChar (c : Char) : Bool := c.isAlphanum || c == '_' || c == '-'

/-- The name at a place. -/
def name (p : Place) : String × Place :=
  let (name, p) := p.skipWhile isNameChar
  (String.ofList name, p)

/-- Characters that may follow the name of an anchor without a gap. -/
def endsAnchor (c : Char) : Bool := "?:,]\x7d%@`".contains c

/-- The name behind the sign of an anchor or of a reference to one. -/
def anchorName (p : Place) : Option (String × Place) :=
  let (name, p) := name p.skip
  if name.isEmpty then none
  else if isGap p.peek || p.peek.any endsAnchor then some (name, p)
  else none

/-! ### Tags -/

/-- Characters of the suffix of a tag; between angle brackets there are more. -/
def isTagChar (quoted : Bool) (c : Char) : Bool :=
  isNameChar c || ";/?:@&=+$.%!~*'()".contains c || (quoted && ",[]".contains c)

/-- Bytes in place of what is written with percent signs. -/
def percentDecoded : List Char → Option (List UInt8)
  | [] => some []
  | '%' :: a :: b :: rest => do
    let high ← hexDigit? a
    let low ← hexDigit? b
    return UInt8.ofNat (high * 16 + low) :: (← percentDecoded rest)
  | c :: rest => do
    if c == '%' then none
    return UInt8.ofNat c.toNat :: (← percentDecoded rest)

/-- The suffix of a tag. -/
def tagSuffix (quoted : Bool) (p : Place) : Option (String × Place) := do
  let (suffix, p) := p.skipWhile (isTagChar quoted)
  let bytes ← percentDecoded suffix
  return (← String.fromUTF8? (ByteArray.mk bytes.toArray), p)

/-- The handle at a place with an exclamation mark, which is closed by another one or is not. -/
def handle (p : Place) : String × Place :=
  let (name, p) := name p.skip
  if p.peek == some '!' then ("!" ++ name ++ "!", p.skip) else ("!" ++ name, p)

/-- Whether a handle has a mark at each end. -/
def isClosed (handle : String) : Bool := handle != "!" && handle.endsWith "!"

/-- The tag at a place with an exclamation mark. -/
def tagAt (p : Place) : Option (Token × Place) := do
  if p.peekAt 1 == some '<' then
    let (suffix, p) ← tagSuffix true (p.skipMany 2)
    if suffix.isEmpty || p.peek != some '>' then none
    return (tag "" suffix, p.skip)
  else
    let (handle, p) := handle p
    let (suffix, p) ← tagSuffix false p
    if isClosed handle then
      if suffix.isEmpty then none
      return (tag handle suffix, p)
    else
      let suffix := (handle.drop 1).toString ++ suffix
      return (if suffix.isEmpty then tag "" "!" else tag "!" suffix, p)

/-- The tag at a place, with what has to follow it. -/
def readTag (inFlow : Bool) (p : Place) : Option (Token × Place) := do
  let (found, p) ← tagAt p
  if isGap p.peek || (inFlow && p.peek == some ',') then return (found, p)
  none

/-! ### Directives -/

/-- The greatest number of digits in a number of a version. -/
def maxVersionDigits : Nat := 9

/-- A number of a version. -/
def versionNumber (p : Place) : Option (Nat × Place) :=
  let (digits, p) := p.skipWhile Char.isDigit
  if digits.isEmpty || maxVersionDigits < digits.length then none
  else some (digits.foldl (fun n c => n * 10 + (c.toNat - '0'.toNat)) 0, p)

/-- The version in a directive. -/
def versionAt (p : Place) : Option (Token × Place) := do
  let (major, p) ← versionNumber p.skipBlanks
  if p.peek != some '.' then none
  let (minor, p) ← versionNumber p.skip
  return (version major minor, p)

/-- The handle in a directive, and what it stands for. -/
def tagHandleAt (p : Place) : Option (Token × Place) := do
  let p := p.skipBlanks
  if p.peek != some '!' then none
  let (handle, p) := handle p
  if handle != "!" && !isClosed handle then none
  if !p.peek.any isBlank then none
  let (start, p) ← tagSuffix true p.skipBlanks
  if start.isEmpty || !isGap p.peek then none
  return (tagHandle handle start, p)

/-- The directive at a place with a percent sign, up to the end of its line. -/
def readDirective (p : Place) : Option (Token × Place) := do
  let (name, p) := name p.skip
  if !isGap p.peek then none
  let (directive, p) ← match name with
    | "YAML" => versionAt p
    | "TAG" => tagHandleAt p
    | _ => none
  let p := p.skipBlanks.skipComment
  if !isLineEnd p.peek then none
  return (directive, if p.peek.isSome then p.skipBreak else p)

end Token

end SnippetLint.Yaml
