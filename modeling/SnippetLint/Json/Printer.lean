/-
Writing JSON values.

There are two layouts, with line breaks and without. They differ in blanks between tokens only.
-/
import SnippetLint.Json.Basic

namespace SnippetLint.Json

inductive Layout where
  | compact
  | pretty
  deriving DecidableEq, Repr

/-- A hexadecimal digit. -/
def hexDigit (n : Nat) : Char := if n < 10 then Char.ofNat (48 + n) else Char.ofNat (87 + n)

/-- A character as it is written in a string. -/
def escape (c : Char) : List Char :=
  if c = '"' then ['\\', '"']
  else if c = '\\' then ['\\', '\\']
  else if c = '\n' then ['\\', 'n']
  else if c = '\r' then ['\\', 'r']
  else if c = '\t' then ['\\', 't']
  else if c = '\x08' then ['\\', 'b']
  else if c = '\x0c' then ['\\', 'f']
  else if c.toNat < 0x20 then
    ['\\', 'u', '0', '0', hexDigit (c.toNat / 16), hexDigit (c.toNat % 16)]
  else [c]

/-- A text as a string. -/
def quote (s : String) : List Char := '"' :: s.toList.flatMap escape ++ ['"']

namespace Layout

/-- What stands before a part at a depth of nesting. -/
def lineBreak (layout : Layout) (depth : Nat) : List Char :=
  match layout with
  | compact => []
  | pretty => '\n' :: List.replicate (2 * depth) ' '

/-- What stands between a name and its value. -/
def colon : Layout → List Char
  | compact => [':']
  | pretty => [':', ' ']

end Layout

mutual

/-- A value, nested in a number of others. -/
def renderAt (layout : Layout) (depth : Nat) : Json → List Char
  | null => "null".toList
  | flag true => "true".toList
  | flag false => "false".toList
  | count n => (toString n).toList
  | text s => quote s
  | other written => written.toList
  | array [] => ['[', ']']
  | array (item :: items) =>
    '[' :: layout.lineBreak (depth + 1) ++ renderAt layout (depth + 1) item
      ++ renderItems layout (depth + 1) items ++ layout.lineBreak depth ++ [']']
  | object [] => ['\x7b', '\x7d']
  | object ((name, value) :: members) =>
    '\x7b' :: layout.lineBreak (depth + 1) ++ quote name ++ layout.colon
      ++ renderAt layout (depth + 1) value ++ renderMembers layout (depth + 1) members
      ++ layout.lineBreak depth ++ ['\x7d']

/-- The items of an array behind the first. -/
def renderItems (layout : Layout) (depth : Nat) : List Json → List Char
  | [] => []
  | item :: items =>
    ',' :: layout.lineBreak depth ++ renderAt layout depth item ++ renderItems layout depth items

/-- The members of an object behind the first. -/
def renderMembers (layout : Layout) (depth : Nat) : List (String × Json) → List Char
  | [] => []
  | (name, value) :: members =>
    ',' :: layout.lineBreak depth ++ quote name ++ layout.colon ++ renderAt layout depth value
      ++ renderMembers layout depth members

end

/-- A value as a text. -/
def render (layout : Layout) (value : Json) : String := String.ofList (renderAt layout 0 value)

end SnippetLint.Json
