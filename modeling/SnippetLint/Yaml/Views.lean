/-
How YAML documents can be taken.

What a scalar stands for is told by its text: only plain ones are flags, counts or nothing at all, or
those in blocks with a tag that says so. Any scalar is a text.
-/
import SnippetLint.Document
import SnippetLint.Yaml.Reader

namespace SnippetLint.Yaml

/-! ### Scalars -/

/-- Texts that stand for nothing. -/
def nullTexts : List String := ["null", "Null", "NULL", "~"]

def flagOfText? : String → Option Bool
  | "true" => some true
  | "True" => some true
  | "TRUE" => some true
  | "false" => some false
  | "False" => some false
  | "FALSE" => some false
  | _ => none

/-- The number that digits to a base of at most sixteen stand for. -/
def digitsValue? (base : Nat) (digits : List Char) : Option Nat := do
  if digits.isEmpty then none
  digits.foldlM (fun n c => do
    let digit ← hexDigit? c
    if digit < base then some (n * base + digit) else none) 0

/-- The number that a text without a sign stands for; ones to the base ten begin with no zero. -/
def unsignedValue? : List Char → Option Nat
  | '0' :: 'x' :: digits => digitsValue? 16 digits
  | '0' :: 'o' :: digits => digitsValue? 8 digits
  | '0' :: 'b' :: digits => digitsValue? 2 digits
  | ['0'] => some 0
  | '0' :: _ => none
  | digits => digitsValue? 10 digits

/-- The count that a text stands for, within the limit. -/
def countOfText? (text : String) : Option Nat := do
  let unsigned := match text.toList with
    | '+' :: rest => rest
    | rest => rest
  let n ← unsignedValue? unsigned
  if n < Document.countLimit then some n else none

/-- What the tags of YAML's own kinds begin with. -/
def kindStart : String := "tag:yaml.org,2002:"

/-- Whether a scalar can be more than a text: it is plain, or a block tagged with its kind. -/
def isOfKind (kind : String) (tag : Option String) : ScalarStyle → Bool
  | .plain => true
  | .literal => tag == some (kindStart ++ kind)
  | .other => false

/-- Whether a plain scalar stands for nothing. -/
def isNullScalar (tag : Option String) (text : String) : Bool :=
  match tag with
  | none => text.isEmpty || nullTexts.contains text
  | some tag => tag == kindStart ++ "null" && nullTexts.contains text

/-- The word of a tag, which may have an exclamation mark in front. -/
def tagWord (tag : String) : String :=
  match tag.toList with
  | '!' :: rest => String.ofList rest
  | rest => String.ofList rest

/-! ### Nodes -/

namespace Node

def isNull : Node → Bool
  | scalar tag .plain text => isNullScalar tag text
  | missing => true
  | _ => false

/-- A plain scalar without characters, or nothing at all: it can be taken for anything empty. -/
def isBlank : Node → Bool
  | scalar _ .plain text => text.isEmpty
  | missing => true
  | _ => false

def text? : Node → Option String
  | scalar _ _ text => some text
  | _ => none

def flag? : Node → Option Bool
  | scalar tag style text => if isOfKind "bool" tag style then flagOfText? text else none
  | _ => none

def count? : Node → Option Nat
  | scalar tag style text => if isOfKind "int" tag style then countOfText? text else none
  | _ => none

/-- A word is a scalar without a tag, or the tag of one that stands for nothing. -/
def word? : Node → Option String
  | scalar none _ text => some text
  | scalar (some tag) .plain text =>
    if text.isEmpty || nullTexts.contains text then some (tagWord tag) else none
  | _ => none

end Node

namespace Value

def list? (v : Value) : Option (List Value) :=
  match v.target with
  | .sequence items => some (items.map v.withNode)
  | node => if node.isBlank then some [] else none

/-- The entries of a mapping, whose keys have to be texts. -/
def table? (v : Value) : Option (List (String × Value)) :=
  match v.target with
  | .mapping entries => entries.mapM fun (key, node) => do
      return (← (v.withNode key).target.text?, v.withNode node)
  | node => if node.isBlank then some [] else none

end Value

instance : Document Value where
  isNull v := v.target.isNull
  text? v := v.target.text?
  flag? v := v.target.flag?
  count? v := v.target.count?
  word? v := v.target.word?
  list? := Value.list?
  table? := Value.table?
  record? _ := Value.table?

end SnippetLint.Yaml
