/-
Reading JSON values from tokens.

The reader is a machine that takes one token at a time. It keeps what has been opened and not yet
closed, and knows what may follow.
-/
import SnippetLint.Json.Token

namespace SnippetLint.Json

/-- Something opened: an array or object with its parts so far in reverse, or a member's name. -/
inductive Frame where
  | array (items : List Json)
  | object (members : List (String × Json))
  | member (name : String)

/-- What may follow. -/
inductive Expected where
  /-- A value. -/
  | value
  /-- A value, or the end of the array that has just begun. -/
  | firstItem
  /-- A name, or the end of the object that has just begun. -/
  | firstName
  /-- A name. -/
  | name
  /-- A colon. -/
  | colon
  /-- A comma, or the end of what is open. -/
  | separator
  /-- Nothing; the value is complete. -/
  | nothing (value : Json)

/-- The state of the machine; what was opened last comes first. -/
structure ReaderState where
  frames : List Frame
  expected : Expected

namespace ReaderState

/-- Before the first token. -/
def start : ReaderState := ⟨[], .value⟩

/-- Behind a value. -/
def complete (value : Json) : List Frame → Option ReaderState
  | [] => some ⟨[], .nothing value⟩
  | .array items :: frames => some ⟨.array (value :: items) :: frames, .separator⟩
  | .member name :: .object members :: frames =>
    some ⟨.object ((name, value) :: members) :: frames, .separator⟩
  | _ => none

/-- Behind a token where a value may stand. -/
def beginValue (frames : List Frame) : Token → Option ReaderState
  | .openObject => some ⟨.object [] :: frames, .firstName⟩
  | .openArray => some ⟨.array [] :: frames, .firstItem⟩
  | .text s => complete (.text s) frames
  | .scalar value => complete value frames
  | _ => none

/-- Behind the end of what was opened last. -/
def close : List Frame → Token → Option ReaderState
  | .array items :: frames, .closeArray => complete (.array items.reverse) frames
  | .object members :: frames, .closeObject => complete (.object members.reverse) frames
  | _, _ => none

/-- Behind a token. -/
def step (s : ReaderState) (token : Token) : Option ReaderState :=
  match s.expected with
  | .value => beginValue s.frames token
  | .firstItem =>
    match token with
    | .closeArray => close s.frames token
    | _ => beginValue s.frames token
  | .firstName =>
    match token with
    | .closeObject => close s.frames token
    | .text name => some ⟨.member name :: s.frames, .colon⟩
    | _ => none
  | .name =>
    match token with
    | .text name => some ⟨.member name :: s.frames, .colon⟩
    | _ => none
  | .colon =>
    match token with
    | .colon => some ⟨s.frames, .value⟩
    | _ => none
  | .separator =>
    match token, s.frames with
    | .comma, .array _ :: _ => some ⟨s.frames, .value⟩
    | .comma, .object _ :: _ => some ⟨s.frames, .name⟩
    | _, _ => close s.frames token
  | .nothing _ => none

/-- The value that has been read, if it is complete. -/
def value? (s : ReaderState) : Option Json :=
  match s.expected with
  | .nothing value => some value
  | _ => none

end ReaderState

/-- The value that tokens stand for, if they are those of one value. -/
def ofTokens? (tokens : List Token) : Option Json := do
  (← tokens.foldlM ReaderState.step .start).value?

/-- The value that a text stands for, if it is that of one value. -/
def read? (t : String) : Option Json := do
  ofTokens? (← Token.scan? t.toList)

end SnippetLint.Json
