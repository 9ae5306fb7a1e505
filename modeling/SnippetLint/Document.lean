/-
Documents that settings and diagnostics are read from.

Such a document may be written in more than one notation. What a notation has to offer is a handful
of views of a document: whether it can be taken for a text, for a list, for a record with certain
fields, and so on. Everything else is said once, for every notation.
-/
import SnippetLint.Json.Basic

namespace SnippetLint

/-- Views of a document; each is `none` if the document cannot be taken so. -/
class Document (δ : Type) where
  /-- Nothing was given. -/
  isNull : δ → Bool
  text? : δ → Option String
  flag? : δ → Option Bool
  count? : δ → Option Nat
  /-- One of several words. -/
  word? : δ → Option String
  list? : δ → Option (List δ)
  /-- Entries under texts, in order, with repeats. -/
  table? : δ → Option (List (String × δ))
  /-- Entries under names of which the given ones, in that order, are those of the fields. -/
  record? : List String → δ → Option (List (String × δ))

namespace Document

section

variable {δ α : Type} [Document δ]

/-- The one member of a list that has at most one. -/
def single? : List α → Option (Option α)
  | [] => some none
  | [a] => some (some a)
  | _ => none

/-- The document of a field; there is no result if the field is given twice. -/
def field? (entries : List (String × δ)) (name : String) : Option (Option δ) :=
  single? ((entries.filter fun (n, _) => n == name).map Prod.snd)

/-- The value of a field that has to be given. -/
def required (read : δ → Option α) (entries : List (String × δ)) (name : String) : Option α := do
  read (← ← field? entries name)

/-- The value of a field, or a default if it is not given. -/
def optional (read : δ → Option α) (default : α) (entries : List (String × δ)) (name : String) :
    Option α := do
  match ← field? entries name with
  | none => return default
  | some d => read d

/-- A value that may be nothing. -/
def nullable (read : δ → Option α) (d : δ) : Option (Option α) :=
  if isNull d then some none else (read d).map some

/-- One of several words, given what they stand for. -/
def choice (ofId? : String → Option α) (d : δ) : Option α := do ofId? (← word? d)

/-- A list of texts. -/
def texts (d : δ) : Option (List String) := do (← list? d).mapM text?

end

/-- The largest count that is read, and one. -/
def countLimit : Nat := Nat.pow 2 64

/-! ### JSON -/

/-- A count within the limit. -/
def jsonCount? : Json → Option Nat
  | .count n => if n < countLimit then some n else none
  | _ => none

/-- A word: a string, or an object with nothing under its only name. -/
def jsonWord? : Json → Option String
  | .text s => some s
  | .object [(name, .null)] => some name
  | _ => none

/-- The members of an object, or the items of an array under the names of the fields. -/
def jsonRecord? (names : List String) : Json → Option (List (String × Json))
  | .object members => some members
  | .array items => if items.length ≤ names.length then some (names.zip items) else none
  | _ => none

instance : Document Json where
  isNull
    | .null => true
    | _ => false
  text?
    | .text s => some s
    | _ => none
  flag?
    | .flag b => some b
    | _ => none
  count? := jsonCount?
  word? := jsonWord?
  list?
    | .array items => some items
    | _ => none
  table?
    | .object members => some members
    | _ => none
  record? := jsonRecord?

end Document

end SnippetLint
