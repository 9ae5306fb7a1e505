/-
Reading YAML nodes from tokens.

One token tells what comes next, so each kind of node is read by a function of its own. They call each
other; a number of steps, more than there can be, bounds how often.
-/
import SnippetLint.Yaml.Layout
import SnippetLint.Yaml.Node

namespace SnippetLint.Yaml

/-- The tokens that are left, and what has been said about handles of tags and about anchors. -/
structure Progress where
  tokens : List Token
  handles : List (String × String) := []
  /-- The numbers of the anchored nodes, under their names, the latest first. -/
  names : List (String × Nat) := []
  anchored : List (Nat × Node) := []

/-- Something that reads tokens and may fail. -/
abbrev Reader := StateT Progress Option

namespace Reader

/-! ### Tokens -/

/-- The token that follows. -/
def peek : Reader (Option Token) := do return (← get).tokens.head?

/-- Passes over a token. -/
def skip : Reader Unit := modify fun s => { s with tokens := s.tokens.tail }

/-- Passes over a token that has to follow. -/
def expect (t : Token) : Reader Unit := do
  if (← peek) = some t then skip else failure

/-- Passes over a token, and tells whether it followed. -/
def accept (t : Token) : Reader Bool := do
  if (← peek) = some t then
    skip
    return true
  return false

/-- A node that is left out if one of certain tokens follows. -/
def unlessAt (ends : List Token) (read : Reader Node) : Reader Node := do
  if (← peek).any ends.contains then return .empty
  read

/-! ### Anchors and tags -/

/-- The anchor that follows, if there is one. -/
def anchor? : Reader (Option String) := do
  let some (.anchor name) ← peek | return none
  skip
  return some name

/-- What a handle stands for. -/
def handleStart (handle : String) : Reader String := do
  if handle.isEmpty then return ""
  match (← get).handles.lookup handle with
  | some start => return start
  | none =>
    match handle with
    | "!" => return "!"
    | "!!" => return "tag:yaml.org,2002:"
    | _ => failure

/-- The tag that follows, if there is one. -/
def tag? : Reader (Option String) := do
  let some (.tag handle suffix) ← peek | return none
  skip
  return some ((← handleStart handle) ++ suffix)

/-- An anchor and a tag, in either order. -/
def properties : Reader (Option String × Option String) := do
  match ← anchor? with
  | some name => return (some name, ← tag?)
  | none =>
    let tag ← tag?
    return (← anchor?, tag)

/-- The number of a new anchored node, which its name stands for from now on. -/
def declare (name : String) : Reader Nat := do
  let number := (← get).names.length
  modify fun s => { s with names := (name, number) :: s.names }
  return number

/-- Keeps an anchored node. -/
def keep (number : Nat) (node : Node) : Reader Unit :=
  modify fun s => { s with anchored := (number, node) :: s.anchored }

/-- The node that an anchor's name stands for. -/
def refer (name : String) : Reader Node := do
  let some number := (← get).names.lookup name | failure
  return .reference number

/-- The tag of a scalar: a lone exclamation mark is none. -/
def scalarTag (tag : Option String) : Option String := if tag = some "!" then none else tag

/-! ### Nodes -/

mutual

/-- A node. One outside brackets may be a block; `bare` items need no indentation of their own. -/
def node : Nat → (inBlock bare : Bool) → Reader Node
  | 0, _, _ => failure
  | steps + 1, inBlock, bare => do
    if let some (.reference name) ← peek then
      skip
      refer name
    else
      let (anchor, tag) ← properties
      match anchor with
      | none => content steps inBlock bare tag.isSome tag
      | some name =>
        let number ← declare name
        let node ← content steps inBlock bare true tag
        keep number node
        return node

/-- A node behind its anchor and tag; it may be left out if there is one of them. -/
def content : Nat → (inBlock bare optional : Bool) → Option String → Reader Node
  | 0, _, _, _, _ => failure
  | steps + 1, inBlock, bare, optional, tag => do
    match ← peek with
    | some (.scalar style text) =>
      skip
      return .scalar (scalarTag tag) style text
    | some .openSequence =>
      skip
      return .sequence (← flowItems steps true)
    | some .openMapping =>
      skip
      return .mapping (← flowEntries steps true)
    | t =>
      if bare && t = some .blockEntry then return .sequence (← bareItems steps)
      else if inBlock && t = some .blockSequence then
        skip
        return .sequence (← blockItems steps)
      else if inBlock && t = some .blockMapping then
        skip
        return .mapping (← blockEntries steps)
      else if optional then return .scalar tag .plain ""
      else failure

/-- The items of an indented block. -/
def blockItems : Nat → Reader (List Node)
  | 0 => failure
  | steps + 1 => do
    if ← accept .blockEntry then
      let item ← unlessAt [.blockEntry, .blockEnd] (node steps true false)
      return item :: (← blockItems steps)
    expect .blockEnd
    return []

/-- Items that are indented no further than the key before them. -/
def bareItems : Nat → Reader (List Node)
  | 0 => failure
  | steps + 1 => do
    if ← accept .blockEntry then
      let item ← unlessAt [.blockEntry, .key, .value, .blockEnd] (node steps true false)
      return item :: (← bareItems steps)
    return []

/-- The entries of an indented block. -/
def blockEntries : Nat → Reader (List (Node × Node))
  | 0 => failure
  | steps + 1 => do
    if ← accept .key then
      let key ← unlessAt [.key, .value, .blockEnd] (node steps true true)
      let value ← blockValue steps
      return (key, value) :: (← blockEntries steps)
    expect .blockEnd
    return []

def blockValue : Nat → Reader Node
  | 0 => failure
  | steps + 1 => do
    if ← accept .value then unlessAt [.key, .value, .blockEnd] (node steps true true)
    else return .empty

/-- The items up to a closing bracket; `first` if none came before. -/
def flowItems : Nat → (first : Bool) → Reader (List Node)
  | 0, _ => failure
  | steps + 1, first => do
    if ← accept .closeSequence then return []
    if !first then expect .flowEntry
    if ← accept .closeSequence then return []
    let item ← flowItem steps
    return item :: (← flowItems steps false)

/-- An item between brackets, which may be a single entry of a mapping. -/
def flowItem : Nat → Reader Node
  | 0 => failure
  | steps + 1 => do
    if ← accept .key then
      let key ← flowItemKey steps
      return .mapping [(key, ← flowValue steps .closeSequence)]
    node steps false false

/-- The key of a single entry; where it is left out, so is the token behind it. -/
def flowItemKey : Nat → Reader Node
  | 0 => failure
  | steps + 1 => do
    if (← peek).any [Token.value, .flowEntry, .closeSequence].contains then
      skip
      return .empty
    node steps false false

/-- The entries up to a closing brace; `first` if none came before. -/
def flowEntries : Nat → (first : Bool) → Reader (List (Node × Node))
  | 0, _ => failure
  | steps + 1, first => do
    if ← accept .closeMapping then return []
    if !first then expect .flowEntry
    if ← accept .closeMapping then return []
    let entry ← flowEntry steps
    return entry :: (← flowEntries steps false)

/-- An entry between braces; its value may be left out. -/
def flowEntry : Nat → Reader (Node × Node)
  | 0 => failure
  | steps + 1 => do
    if ← accept .key then
      let key ← unlessAt [.value, .flowEntry, .closeMapping] (node steps false false)
      return (key, ← flowValue steps .closeMapping)
    return (← node steps false false, .empty)

/-- The value behind a key between brackets that a token closes. -/
def flowValue : Nat → Token → Reader Node
  | 0, _ => failure
  | steps + 1, close => do
    if ← accept .value then unlessAt [.flowEntry, close] (node steps false false)
    else return .empty

end

/-! ### Documents -/

/-- The directives in front of a document; none may be given twice. -/
def directives : Nat → (hasVersion : Bool) → Reader Unit
  | 0, _ => failure
  | steps + 1, hasVersion => do
    match ← peek with
    | some (.version major minor) =>
      if hasVersion || major != 1 || (minor != 1 && minor != 2) then failure
      skip
      directives steps true
    | some (.tagHandle handle start) =>
      if ((← get).handles.lookup handle).isSome then failure
      skip
      modify fun s => { s with handles := (handle, start) :: s.handles }
      directives steps hasVersion
    | _ => return

/-- Whether a token shows that a document has begun without any content. -/
def isOutsideDocument : Token → Bool
  | .version _ _ => true
  | .tagHandle _ _ => true
  | .documentStart => true
  | .documentEnd => true
  | _ => false

/-- A document that begins with a directive or a mark. -/
def markedDocument (steps : Nat) : Reader Node := do
  directives steps false
  expect .documentStart
  if (← peek).all isOutsideDocument then return .empty
  node steps true false

/-- Passes over marks of the end of a document. -/
def documentEnds : Reader Unit :=
  modify fun s => { s with tokens := s.tokens.dropWhile (· = .documentEnd) }

/-- All of the tokens, which have to be those of at most one document. -/
def document (steps : Nat) : Reader Node := do
  match ← peek with
  | none => return .missing
  | some t =>
    let root ←
      if isOutsideDocument t && t != .documentEnd then markedDocument steps
      else node steps true false
    documentEnds
    if (← peek).isSome then failure
    return root

end Reader

/-- More steps than reading so many tokens takes. -/
def maxSteps (tokens : List Token) : Nat := 4 * tokens.length + 16

/-- The document that tokens stand for. -/
def ofTokens? (tokens : List Token) : Option Value := do
  let (node, s) ← (Reader.document (maxSteps tokens)).run { tokens }
  return ⟨s.anchored, node⟩

/-- The document that a text stands for. -/
def read? (text : String) : Option Value := do ofTokens? (← tokens text.toList)

end SnippetLint.Yaml
