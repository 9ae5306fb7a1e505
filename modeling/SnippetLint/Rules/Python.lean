/-
Rules for Python.
-/
import SnippetLint.Indentation
import SnippetLint.Naming
import SnippetLint.Rule
import SnippetLint.Words

namespace SnippetLint.Python

open Pattern

/-! ### Patterns -/

def printCall : Pattern := keyword "print(" ++ several inLine ++ text ")"

/-- A line with a function header: group 1 is its name and group 2 its parameters. -/
def defHeader : Pattern :=
  textStart ++ blanks ++ perhaps (text "async" ++ gap) ++ text "def" ++ gap ++ group 1 wordRun
    ++ blanks ++ text "(" ++ group 2 (many inLine) ++ text ")" ++ blanks
    ++ perhaps (text "->" ++ blanks ++ several (except ":")) ++ text ":" ++ blanks ++ textEnd

/-- An import that fills a line: group 1 is the module and group 2 its alias, if it has one. -/
def importLine : Pattern :=
  lineStart ++ many spaceOrTab ++ text "import" ++ several spaceOrTab
    ++ group 1 (several (union word (among ".")))
    ++ perhaps (several spaceOrTab ++ text "as" ++ several spaceOrTab ++ group 2 wordRun)
    ++ many spaceOrTab ++ lineEnd

/-- An import of names from a module; group 1 is the list of names. -/
def fromImport : Pattern :=
  lineStart ++ many spaceOrTab ++ text "from" ++ several spaceOrTab
    ++ several (union word (among ".")) ++ several spaceOrTab ++ text "import"
    ++ several spaceOrTab ++ group 1 (several (union word (among " \t,"))) ++ lineEnd

/-- A line that imports more than one module. -/
def multipleImport : Pattern :=
  textStart ++ blanks ++ text "import" ++ gap ++ several (union word (among ".")) ++ blanks
    ++ text ","

/-- A line that assigns to a variable, which is group 1, at its very start. -/
def globalAssignment : Pattern :=
  textStart ++ group 1 wordRun ++ blanks ++ perhaps (text ":" ++ several (except "=")) ++ text "="
    ++ one (except "=")

def parenthesisedReturn : Pattern :=
  textStart ++ blanks ++ text "return" ++ gap ++ text "(" ++ many inLine ++ text ")" ++ blanks
    ++ textEnd

def parenthesisedIf : Pattern :=
  textStart ++ blanks ++ perhaps (text "el") ++ text "if" ++ blanks ++ text "(" ++ many inLine
    ++ text ")" ++ blanks ++ text ":"

/-! ### Checks -/

def noPrint : Check := fun t =>
  Finding.ifPresent (printCall.occursIn t)
    "Avoid print statements. Use the logging module instead."

/-- Whether the first of several lines that is not blank begins with a docstring. -/
def opensDocstring (lines : List Text) : Bool :=
  ((lines.map Text.trim).find? fun line => !line.isEmpty).any fun line =>
    Text.startsWith line "\"\"\"" || Text.startsWith line "'''"

/-- The findings for several lines of which the first has a number. -/
def undocumentedFrom (number : Nat) : List Text → Checked (List Finding)
  | [] => return []
  | line :: rest => do
    let later ← undocumentedFrom (number + 1) rest
    match defHeader.find? line with
    | none => return later
    | some m =>
      if opensDocstring rest then return later
      let function ← m.group 1
      return .onLine number line ("Function \"" ++ function.string ++ "\" should have a docstring.")
        :: later

def missingDocstring : Check := fun t => undocumentedFrom 1 (Text.lines t)

/-- The name of a parameter that is written with stars, a type or a default. -/
def parameterName (written : Text) : Text :=
  (Text.trim (written.takeWhile fun c => !(c == ':' || c == '='))).dropWhile (· == '*')

/-- The parameter names of a function header that are not in snake case. -/
def misnamedParameters (list : Text) : List Text :=
  ((Text.pieces (· == ',') list).map parameterName).filter fun name =>
    !name.isEmpty && !Naming.isSnakeCase name

def argumentNaming : Check := fun t => do
  let findings ← (Text.numberedLines t).mapM fun (line, number) => do
    match defHeader.find? line with
    | none => return []
    | some m =>
      let list ← m.group 2
      return (misnamedParameters list.text).map fun name =>
        .onLine number line ("Function argument \"" ++ String.ofList name
          ++ "\" should follow snake_case convention.")
  return findings.flatten

/-- How many characters a line may have. -/
def maxLineLength : Nat := 79

def lineTooLong : Check := fun t =>
  let long := (Text.numberedLines t).filter fun (line, _) => maxLineLength < line.length
  return long.map fun (line, number) =>
    .onLine number line ("Line " ++ toString number ++ " exceeds " ++ toString maxLineLength
      ++ " characters. Please limit line length: \"" ++ String.ofList (Text.trim line) ++ "\"")

/-- A name that an import binds: where it is written, and what is reported as imported. -/
structure Binding where
  name : Span
  imported : Text

/-- The binding of a plain import: its alias, or else the first part of the module's path. -/
def plainBinding? (m : Found) : Option Binding := do
  let module_ ← m.group? 1
  let bound := (m.group? 2).getD module_
  return ⟨⟨bound.start, bound.text.takeWhile (· != '.')⟩, module_.text⟩

/-- The last of the words that blanks separate, or the empty text. -/
def lastWord (t : Text) : Text :=
  ((Text.pieces Unicode.isBlank t).filter fun w => !w.isEmpty).getLast?.getD []

/-- The binding of an entry that begins at an offset: its last word, if it has one. -/
def entryBinding? (offset : Nat) (entry : Text) : Option Binding :=
  let bound := lastWord entry
  if bound.isEmpty then none
  else some ⟨⟨offset + (Text.findLast? bound entry).getD 0, bound⟩, bound⟩

/-- The bindings of the entries of a list of names, of which the first begins at an offset. -/
def bindingsFrom (offset : Nat) : List Text → List Binding
  | [] => []
  | entry :: rest =>
    (entryBinding? offset entry).toList ++ bindingsFrom (offset + Text.size entry + 1) rest

/-- The names that the imports of a text bind, those of plain imports first. -/
def bindings (t : Text) : List Binding :=
  (importLine.findAll t).filterMap plainBinding?
    ++ (fromImport.findGroups 1 t).flatMap fun names =>
      bindingsFrom names.start (Text.pieces (· == ',') names.text)

def unusedImport : Check := fun t =>
  let unused := (bindings t).filter fun b => !Words.isUsed t b.name
  unused.mapM fun b =>
    Finding.atOffset t b.name.start ("Unused import detected: " ++ String.ofList b.imported ++ ".")

def multipleImports : Check := fun t =>
  let lines := (Text.numberedLines t).filter fun (line, _) => multipleImport.occursIn line
  return lines.map fun (line, number) =>
    .onLine number line ("Avoid multiple imports on a single line at line " ++ toString number
      ++ ": \"" ++ String.ofList (Text.trim line) ++ "\". Use separate lines for each import.")

/-- How many spaces one level of indentation has. -/
def indentUnit : Nat := 4

def isIndentedBadly (line : Text) : Bool :=
  (Indentation.indent line).contains '\t' || Indentation.width line % indentUnit != 0

def indentationWidth : Check := fun t =>
  let lines := (Text.numberedLines t).filter fun (line, _) =>
    !Text.isBlank line && isIndentedBadly line
  return lines.map fun (line, number) =>
    .onLine number line ("Use 4 spaces for indentation at line " ++ toString number ++ ": \""
      ++ String.ofList (Text.trim line) ++ "\"")

/-- The finding for a line that assigns to a name neither of a variable nor of a constant. -/
def misnamedGlobal? (line : Text) (number : Nat) : Option Finding := do
  let m ← globalAssignment.find? line
  let variable_ ← m.group? 1
  if Naming.isSnakeCase variable_.text || Naming.isConstantCase variable_.text then none
  else some <| .onLine number line ("Global variable \"" ++ variable_.string
    ++ "\" should follow snake_case convention at line " ++ toString number ++ ": \""
    ++ String.ofList (Text.trim line) ++ "\"")

def variableNaming : Check := fun t =>
  return (Text.numberedLines t).filterMap fun (line, number) => misnamedGlobal? line number

/-- What a line puts in parentheses without need, if it does. -/
def parenthesised? (line : Text) : Option String :=
  if parenthesisedReturn.occursIn line then some "return statements"
  else if parenthesisedIf.occursIn line then some "if conditions"
  else none

def superfluousParens : Check := fun t =>
  return (Text.numberedLines t).filterMap fun (line, number) =>
    (parenthesised? line).map fun construct =>
      .onLine number line ("Avoid unnecessary parentheses in " ++ construct ++ " at line "
        ++ toString number ++ ": \"" ++ String.ofList (Text.trim line) ++ "\"")

/-! ### The rule set -/

def ruleSet : RuleSet where
  language := .python
  rules := [
    { id := "no-print"
      description := "Use logging instead of print"
      check := noPrint },
    { id := "missing-docstring"
      description := "Functions should have docstrings"
      check := missingDocstring
      severity := .info
      category := .convention },
    { id := "argument-naming"
      description := "Arguments should be snake_case"
      check := argumentNaming
      category := .convention },
    { id := "line-too-long"
      description := "Lines should not exceed 79 characters"
      check := lineTooLong
      severity := .info },
    { id := "unused-import"
      description := "Imported names should be used"
      check := unusedImport
      category := .suspicious },
    { id := "multiple-imports"
      description := "One import per line"
      check := multipleImports
      severity := .info },
    { id := "indentation-width"
      description := "Indent with multiples of four spaces"
      check := indentationWidth
      category := .convention },
    { id := "variable-naming"
      description := "Module-level variables should be snake_case"
      check := variableNaming
      category := .convention },
    { id := "superfluous-parens"
      description := "Avoid parentheses around return values and conditions"
      check := superfluousParens
      severity := .info }]

end SnippetLint.Python
