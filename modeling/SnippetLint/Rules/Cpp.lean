/-
Rules for C++.
-/
import SnippetLint.Braces
import SnippetLint.Indentation
import SnippetLint.Repeats
import SnippetLint.Returns
import SnippetLint.Words

namespace SnippetLint.Cpp

open Pattern

/-! ### Names and patterns -/

def valueTypes : List String := ["int", "long", "float", "double", "char", "bool"]

/-- A parameter list without parentheses inside. -/
def parameters : Pattern := text "(" ++ many (except ")") ++ text ")"

def constSuffix : Pattern := perhaps (text "const" ++ blanks)

def usingStd : Pattern :=
  keyword "using" ++ gap ++ text "namespace" ++ gap ++ text "std" ++ blanks ++ text ";"

/-- A function with a value type: group 1 is its name and group 2 its body up to the first brace. -/
def valueFunction : Pattern :=
  wordEdge ++ oneOf valueTypes ++ gap ++ group 1 wordRun ++ blanks ++ parameters ++ blanks
    ++ constSuffix ++ text "\x7b" ++ group 2 (many (except "\x7d")) ++ text "\x7d"

def returnWord : Pattern := wholeWord "return"

/-- A line that begins like a declaration. -/
def declarationLine : Pattern :=
  textStart ++ blanks ++ repeated ((text "const" ++ gap) ||| (text "static" ++ gap))
    ++ oneOf (valueTypes ++ ["string", "auto"]) ++ gap ++ wordRun

def controlWord : Pattern := wordEdge ++ oneOf ["if", "for", "while", "switch"] ++ wordEdge

/-- A line that declares a variable, which is group 1, and does nothing else. -/
def globalDeclaration : Pattern :=
  textStart ++ blanks ++ perhaps (text "static" ++ gap) ++ oneOf (valueTypes ++ ["string"]) ++ gap
    ++ group 1 wordRun ++ blanks ++ perhaps (text "=" ++ many (except ";(")) ++ text ";"

/-- A variable, which is group 1, that is declared without a value. -/
def uninitialized : Pattern :=
  wordEdge ++ oneOf (valueTypes ++ ["string"]) ++ gap ++ group 1 wordRun ++ blanks ++ text ";"

def includeDirective : Pattern := text "#include" ++ blanks ++ one (among "<\"")

/-- A variable, which is group 1, that is declared with or without a value, or as an array. -/
def variableDeclaration : Pattern :=
  wordEdge ++ oneOf (valueTypes ++ ["string", "auto"]) ++ gap ++ group 1 name ++ blanks
    ++ oneOf ["=", ";", "["]

def emptyBlock : Pattern := text "\x7b" ++ blanks ++ text "\x7d"

def emptyCatch : Pattern := keyword "catch" ++ blanks ++ parameters ++ blanks ++ emptyBlock

def allocation : Pattern := keyword "new" ++ gap ++ one word

def release : Pattern := wholeWord "delete"

/-- A function, which is group 1, without anything in its body. -/
def emptyFunction : Pattern :=
  wordEdge ++ wordRun ++ gap ++ group 1 wordRun ++ blanks ++ parameters ++ blanks ++ constSuffix
    ++ emptyBlock

/-- A constant, which is group 1, that is declared without a value. -/
def constWithoutValue : Pattern :=
  keyword "const" ++ gap ++ wordRun ++ gap ++ group 1 wordRun ++ blanks ++ text ";"

/-! ### Checks -/

def usingNamespaceStd : Check := fun t =>
  Finding.atSpans t (usingStd.findSpans t) fun _ =>
    "Avoid using `using namespace std;` in the global scope."

/-- The functions that ought to return a value and hold no return. -/
def missingReturn : Check := fun t => do
  let names ← (valueFunction.findAll t).filterMapM fun m => do
    let function ← m.group 1
    let body ← m.group 2
    return if function.string != "main" && !returnWord.occursIn body.text then some function
      else none
  Finding.atSpans t names fun function =>
    "Function \"" ++ function.string ++ "\" is missing a return statement."

/-- Whether a line ends as a declaration may; one with a comment on it is let pass. -/
def endsProperly (line : Text) : Bool :=
  let line := Text.trimEnd line
  [";", "\x7b", "\x7d", ",", ")"].any (Text.endsWith line) || Text.has line "//"

def missingSemicolon : Check := fun t =>
  let suspects := (Text.numberedLines t).filter fun (line, _) =>
    declarationLine.occursIn line && !controlWord.occursIn line && !endsProperly line
  return suspects.map fun (line, number) =>
    .onLine number line ("Possible missing semicolon at line " ++ toString number ++ ": \""
      ++ String.ofList (Text.trim line) ++ "\"")

/-- Variables that are declared outside all braces. -/
def globalVariable : Check := fun t =>
  let outer := ((Text.numberedLines t).zip (Braces.lineDepths t)).filter fun (_, depth) => depth == 0
  outer.filterMapM fun ((line, number), _) => do
    match globalDeclaration.find? line with
    | none => return none
    | some m =>
      let variable_ ← m.group 1
      return some <| .onLine number line ("Avoid using global variables: " ++ variable_.string
        ++ " at line " ++ toString number ++ ": \"" ++ String.ofList (Text.trim line) ++ "\"")

def uninitializedVariable : Check := fun t =>
  Finding.atSpans t (uninitialized.findGroups 1 t) fun variable_ =>
    "Uninitialized variable detected: " ++ variable_.string

/-- Preprocessor lines are where constants get their names. -/
def isPreprocessor (line : Text) : Bool := Text.startsWith (Text.trimStart line) "#"

/-- The numerals of several lines, of which the first begins at an offset. -/
def numeralsFrom (offset : Nat) : List Text → List Span
  | [] => []
  | line :: rest =>
    let here := if isPreprocessor line then [] else
      (Words.numerals line).map fun s => ⟨offset + s.start, s.text⟩
    here ++ numeralsFrom (offset + Text.size line) rest

/-- Each number once, where it first occurs outside the preprocessor's lines. -/
def magicNumber : Check := fun t =>
  Finding.atSpans t (firsts Span.text (numeralsFrom 0 (Text.linesWithEnds t))) fun literal =>
    "Avoid using magic number `" ++ literal.string ++ "`. Use a named constant instead."

def missingInclude : Check := fun t =>
  Finding.ifMissing (includeDirective.occursIn t)
    "Missing standard library includes. Ensure all required headers are included."

def unusedVariable : Check := fun t =>
  let unused := (variableDeclaration.findGroups 1 t).filter fun s => !Words.isUsed t s
  Finding.atSpans t unused fun s => "Unused variable: " ++ s.string

def emptyCatchBlock : Check := fun t =>
  Finding.atSpans t (emptyCatch.findSpans t) fun _ => "Empty catch block swallows the exception."

/-- More allocations than releases. -/
def memoryLeak : Check := fun t =>
  let allocations := (allocation.findAll t).length
  let releases := (release.findAll t).length
  Finding.ifPresent (releases < allocations)
    ("Potential memory leak detected: " ++ toString allocations ++ " `new` but "
      ++ toString releases ++ " `delete`.")

/-- Words that stand before a list in parentheses but name no function. -/
def controlNames : List String := ["if", "for", "while", "switch", "catch"]

def emptyFunctionBody : Check := fun t =>
  let functions := (emptyFunction.findGroups 1 t).filter fun s => !controlNames.contains s.string
  Finding.atSpans t functions fun s => "Empty function detected: " ++ s.string

def unreachableCode : Check := fun t => do
  (← Returns.unreachable t).mapM fun offset =>
    Finding.atOffset t offset "Unreachable code detected after return statement."

def braceBalance : Check := fun t =>
  let (opening, closing) := Braces.counts t
  Finding.ifPresent (opening != closing)
    ("Braces mismatch detected: " ++ toString opening ++ " opening and " ++ toString closing
      ++ " closing.")

def constInitialization : Check := fun t =>
  Finding.atSpans t (constWithoutValue.findGroups 1 t) fun s =>
    "const variable \"" ++ s.string ++ "\" must be initialized."

/-! ### The rule set -/

def ruleSet : RuleSet where
  language := .cpp
  rules := [
    { id := "using-namespace-std"
      description := "Avoid importing all of std into the global namespace"
      check := usingNamespaceStd },
    { id := "missing-return"
      description := "Value-returning functions should return a value"
      check := missingReturn
      severity := .error
      category := .correctness },
    { id := "missing-semicolon"
      description := "Declarations should end with a semicolon"
      check := missingSemicolon },
    { id := "global-variable"
      description := "Avoid mutable global state"
      check := globalVariable
      category := .suspicious },
    { id := "uninitialized-variable"
      description := "Initialize variables where they are declared"
      check := uninitializedVariable
      category := .suspicious },
    { id := "magic-number"
      description := "Use named constants for numeric literals"
      check := magicNumber
      category := .pedantic },
    { id := "missing-include"
      description := "Include the headers you depend on"
      check := missingInclude
      severity := .info },
    { id := "unused-variable"
      description := "Declared variables should be used"
      check := unusedVariable
      category := .suspicious },
    { id := "inconsistent-indentation"
      description := "Lines should share the first line's indentation"
      check := Indentation.inconsistent
      category := .convention },
    { id := "empty-catch"
      description := "Do not swallow exceptions"
      check := emptyCatchBlock
      category := .suspicious },
    { id := "memory-leak"
      description := "Every new needs a matching delete"
      check := memoryLeak
      category := .correctness },
    { id := "empty-function"
      description := "Functions should have a body"
      check := emptyFunctionBody },
    { id := "unreachable-code"
      description := "Code after return never runs"
      check := unreachableCode
      category := .correctness },
    { id := "brace-balance"
      description := "Opening and closing braces should match"
      check := braceBalance
      severity := .error
      category := .correctness },
    { id := "const-initialization"
      description := "const variables must be initialized"
      check := constInitialization
      category := .correctness }]

end SnippetLint.Cpp
