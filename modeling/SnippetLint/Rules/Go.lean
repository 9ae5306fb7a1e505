/-
Rules for Go.
-/
import SnippetLint.Repeats
import SnippetLint.Rule

namespace SnippetLint.Go

open Pattern

/-! ### Patterns -/

def packageClause : Pattern := lineStart ++ blanks ++ text "package" ++ gap ++ wordRun

def noParameters : Pattern := text "(" ++ blanks ++ text ")"

def mainFunction : Pattern := keyword "func" ++ gap ++ text "main" ++ blanks ++ noParameters

def forHeader : Pattern := textStart ++ blanks ++ text "for" ++ one blank

def errorAssignment : Pattern :=
  keyword "err" ++ blanks ++ perhaps (text ":") ++ text "=" ++ one (except "=")

def errorCheck : Pattern :=
  keyword "err" ++ blanks ++ text "!=" ++ blanks ++ text "nil" ++ wordEdge

def panicCall : Pattern := keyword "panic" ++ blanks ++ text "("

/-- A parenthesised import; group 1 is what stands between the parentheses. -/
def importBlock : Pattern :=
  keyword "import" ++ blanks ++ text "(" ++ group 1 (many (except ")")) ++ text ")"

/-- A single import: group 1 is its alias, if it has one, and group 2 its quoted path. -/
def importLine : Pattern :=
  lineStart ++ blanks ++ text "import" ++ gap ++ perhaps (group 1 (wordRun ++ gap))
    ++ group 2 (text "\"" ++ several (except "\"") ++ text "\"")

def emptyMain : Pattern := mainFunction ++ blanks ++ text "\x7b" ++ blanks ++ text "\x7d"

/-- A function or method, which is group 1, up to its parameters. -/
def functionHeader : Pattern :=
  keyword "func" ++ gap ++ perhaps (text "(" ++ many (except ")") ++ text ")" ++ blanks)
    ++ group 1 name ++ blanks ++ perhaps (text "[" ++ many (except "]") ++ text "]") ++ text "("

def ifHeader : Pattern :=
  textStart ++ blanks ++ perhaps (text "\x7d" ++ blanks ++ text "else" ++ gap) ++ text "if"
    ++ one blank

def resource : Pattern :=
  wordEdge ++ (text "os." ++ oneOf ["Open", "OpenFile", "Create"] ||| text "sql.Open"
    ||| text "net.Dial") ++ blanks ++ text "("

def deferredClose : Pattern :=
  keyword "defer" ++ gap ++ many (union word (among ".")) ++ perhaps (text ".") ++ text "Close"
    ++ blanks ++ text "("

/-! ### Checks -/

def packageDeclaration : Check := fun t =>
  Finding.ifMissing (packageClause.occursIn t) "Go programs should start with a package declaration."

def funcMain : Check := fun t =>
  Finding.ifMissing (mainFunction.occursIn t) "Go programs usually have a \"func main()\" function."

/-- Semicolons outside comment lines and loop headers. -/
def noSemicolons : Check := fun t =>
  let suspects := (Text.numberedLines t).filter fun (line, _) =>
    Text.has line ";" && !forHeader.occursIn line && !Text.startsWith (Text.trimStart line) "//"
  return suspects.map fun (line, number) =>
    .onLine number line ("Unnecessary semicolon at line " ++ toString number ++ ": \""
      ++ String.ofList (Text.trim line) ++ "\"")

def uncheckedError : Check := fun t =>
  let first := if errorCheck.occursIn t then none else errorAssignment.find? t
  Finding.atSpans t (first.map (·.whole)).toList fun _ =>
    "Missing error handling. Check \"err != nil\" after calls that return an error."

def noPanic : Check := fun t =>
  Finding.atSpans t (panicCall.findSpans t) fun _ =>
    "Avoid using `panic()` unless absolutely necessary."

/--
Lines whose indentation holds a character other than `style`, which is the first character of the
first indentation there is.
-/
def mixedFrom (style : Option Char) : List (Text × Nat) → List Finding
  | [] => []
  | (line, number) :: rest =>
    let indent := if Text.isBlank line then [] else line.takeWhile spaceOrTab
    match indent.head? with
    | none => mixedFrom style rest
    | some first =>
      let expected := style.getD first
      let here := if indent.all (· == expected) then [] else
        [.onLine number line ("Mixed tabs and spaces in indentation at line " ++ toString number
          ++ ": \"" ++ String.ofList (Text.trim line) ++ "\"")]
      here ++ mixedFrom (some expected) rest

def mixedIndentation : Check := fun t => return mixedFrom none (Text.numberedLines t)

/-- An import: the alias and the path as they are written, and where they are reported. -/
abbrev Import := Span

/-- The imports on the lines of a block, of which the first begins at an offset. -/
def importsOnLines (offset : Nat) : List Text → List Import
  | [] => []
  | line :: rest =>
    let spec := Text.trim line
    let here := if spec.isEmpty || Text.startsWith spec "//" then []
      else [⟨offset + (Text.find? spec line).getD 0, spec⟩]
    here ++ importsOnLines (offset + Text.size line) rest

/-- Without the word `import`, as often as it stands at the front. -/
def dropImportWords : Text → Text
  | 'i' :: 'm' :: 'p' :: 'o' :: 'r' :: 't' :: rest => dropImportWords rest
  | t => t

/-- The single import of a match, reported where its path begins. -/
def singleImport? (t : Text) (m : Found) : Checked (Option Import) :=
  match m.group? 2 with
  | none => return none
  | some path => do
    let written ← Text.slice t m.whole.start path.stop
    return some ⟨path.start, Text.trim (dropImportWords (Text.trimStart written))⟩

/-- All imports of a text in the order of their places. -/
def imports (t : Text) : Checked (List Import) := do
  let inBlocks := (importBlock.findGroups 1 t).flatMap fun block =>
    importsOnLines block.start (Text.linesWithEnds block.text)
  let single ← (importLine.findAll t).filterMapM (singleImport? t)
  return (inBlocks ++ single).mergeSort fun a b => a.start ≤ b.start

def redundantImport : Check := fun t => do
  Finding.atSpans t (repeats Span.text (← imports t)) fun spec =>
    "Redundant import detected: " ++ spec.string

def emptyMainBody : Check := fun t =>
  Finding.atSpans t (emptyMain.findSpans t) fun _ =>
    "The \"main\" function is empty. Ensure it has a meaningful body."

def functionNaming : Check := fun t =>
  let names := (functionHeader.findGroups 1 t).filter fun s => s.text.contains '_' && s.text != ['_']
  Finding.atSpans t names fun s =>
    "Function \"" ++ s.string ++ "\" should use MixedCaps instead of underscores."

/-- The open braces behind a character, the innermost first, each with what kind of line opened it. -/
def frameAfter (isIf : Bool) (frames : List Bool) (c : Char) : List Bool :=
  if c = '\x7b' then isIf :: frames else if c = '\x7d' then frames.tail else frames

/-- How deep conditions may nest. -/
def maxIfDepth : Nat := 3

/-- The first line with a condition nested too deeply, given the braces open before it. -/
def tooDeepFrom (frames : List Bool) : List (Text × Nat) → List Finding
  | [] => []
  | (line, number) :: rest =>
    let isIf := ifHeader.occursIn line
    let frames := line.foldl (frameAfter isIf) frames
    let depth := frames.count true
    if isIf && maxIfDepth < depth then
      [.onLine number line ("Too many nested `if` statements (depth " ++ toString depth
        ++ "). Consider refactoring.")]
    else tooDeepFrom frames rest

def nestedIf : Check := fun t => return tooDeepFrom [] (Text.numberedLines t)

def deferClose : Check := fun t =>
  let resources := if deferredClose.occursIn t then [] else resource.findSpans t
  Finding.atSpans t resources fun _ =>
    "Use `defer` to close resources (files, connections) after opening them."

/-! ### The rule set -/

def ruleSet : RuleSet where
  language := .go
  rules := [
    { id := "package-declaration"
      description := "Files start with a package clause"
      check := packageDeclaration
      severity := .error
      category := .correctness },
    { id := "func-main"
      description := "Programs define func main()"
      check := funcMain },
    { id := "no-semicolons"
      description := "Go inserts semicolons itself"
      check := noSemicolons },
    { id := "unchecked-error"
      description := "Errors should be compared against nil"
      check := uncheckedError
      severity := .error
      category := .correctness },
    { id := "no-panic"
      description := "Return errors instead of panicking"
      check := noPanic },
    { id := "mixed-indentation"
      description := "Do not mix tabs and spaces for indentation"
      check := mixedIndentation
      category := .convention },
    { id := "redundant-import"
      description := "Import each package once"
      check := redundantImport },
    { id := "empty-main"
      description := "main should do something"
      check := emptyMainBody },
    { id := "function-naming"
      description := "Use MixedCaps for function names"
      check := functionNaming
      category := .convention },
    { id := "nested-if"
      description := "Limit if nesting depth"
      check := nestedIf
      severity := .info },
    { id := "defer-close"
      description := "Defer Close() on opened resources"
      check := deferClose
      category := .suspicious }]

end SnippetLint.Go
