/-
Rules for C#.
-/
import SnippetLint.Repeats
import SnippetLint.Rule
import SnippetLint.Words

namespace SnippetLint.CSharp

open Pattern

/-! ### Patterns -/

def namespaceDeclaration : Pattern :=
  keyword "namespace" ++ gap ++ several (union word (among "."))

def usingDirective : Pattern :=
  lineStart ++ many spaceOrTab ++ text "using" ++ gap ++ perhaps (text "static" ++ gap)
    ++ several (union word (among ".")) ++ blanks ++ text ";"

def mainMethod : Pattern := keyword "Main" ++ blanks ++ text "("

/-- A variable, which is group 1, that is declared with or without a value. -/
def variableDeclaration : Pattern :=
  wordEdge ++ oneOf ["var", "int", "long", "float", "double", "decimal", "string", "bool"] ++ gap
    ++ group 1 name ++ blanks ++ oneOf ["=", ";"]

def parameters : Pattern := text "(" ++ many (except ")") ++ text ")"

/-- The characters of a type's name. -/
def inType : Char → Bool := union word (among "<>[],")

/-- An asynchronous method: group 1 is its name and group 2 its body up to the first brace. -/
def asyncMethod : Pattern :=
  keyword "async" ++ gap ++ several inType ++ gap ++ group 1 wordRun ++ blanks ++ parameters
    ++ blanks ++ text "\x7b" ++ group 2 (many (except "\x7d")) ++ text "\x7d"

def awaitWord : Pattern := wholeWord "await"

def emptyBlock : Pattern := text "\x7b" ++ blanks ++ text "\x7d"

/-- A method, which is group 1, without anything in its body. -/
def emptyMethod : Pattern :=
  wordEdge ++ oneOf ["void", "int", "bool", "string", "float", "double", "Task"] ++ gap
    ++ group 1 wordRun ++ blanks ++ parameters ++ blanks ++ emptyBlock

/-- A line that begins with the head of a control statement. -/
def controlHeader : Pattern :=
  textStart ++ blanks ++ perhaps (text "else" ++ gap) ++ oneOf ["if", "for", "foreach", "while"]
    ++ blanks ++ text "("

/-- What looks like a method on a line of its own: modifiers, result type and name. -/
def methodDeclaration : Pattern :=
  lineStart ++ many spaceOrTab
    ++ group 1 (repeated (oneOf ["public", "private", "protected", "internal", "static", "async",
      "override", "virtual", "abstract", "sealed", "new"] ++ several spaceOrTab))
    ++ group 2 (several (union inType (among ".?"))) ++ several spaceOrTab ++ group 3 wordRun
    ++ many spaceOrTab ++ text "(" ++ many (except ")\n") ++ text ")" ++ many spaceOrTab
    ++ perhaps (text "\x7b" ++ many inLine) ++ lineEnd

def accessModifier : Pattern :=
  wordEdge ++ oneOf ["public", "private", "protected", "internal"] ++ wordEdge

/-- A class, which is group 1, without members. -/
def emptyClass : Pattern :=
  keyword "class" ++ gap ++ group 1 wordRun ++ many (except "\x7b;") ++ emptyBlock

/-- A handler: group 1 is the variable for the exception, and group 2 the body. -/
def catchBlock : Pattern :=
  keyword "catch" ++ blanks ++ text "(" ++ blanks ++ several (union word (among ".")) ++ gap
    ++ group 1 wordRun ++ blanks ++ text ")" ++ blanks ++ text "\x7b"
    ++ group 2 (many (except "\x7d")) ++ text "\x7d"

/-! ### Checks -/

def requireNamespace : Check := fun t =>
  Finding.ifMissing (namespaceDeclaration.occursIn t) "C# programs should be inside a namespace."

def requireUsing : Check := fun t =>
  Finding.ifMissing (usingDirective.occursIn t)
    "Consider importing necessary namespaces using \"using\" statements."

def requireMain : Check := fun t =>
  Finding.ifMissing (mainMethod.occursIn t)
    "C# applications should have a \"static void Main\" method."

def unusedVariable : Check := fun t =>
  let unused := (variableDeclaration.findGroups 1 t).filter fun s => !Words.isUsed t s
  Finding.atSpans t unused fun s => "Unused variable detected: " ++ s.string

def asyncWithoutAwait : Check := fun t =>
  let idle := (asyncMethod.findAll t).filter fun m => !awaitWord.occursIn (m.textOf 2)
  Finding.atSpans t (idle.filterMap (·.group? 1)) fun s =>
    "Async method \"" ++ s.string ++ "\" has no await statement."

/-- One finding that lists each number once. -/
def magicNumber : Check := fun t =>
  let literals := (firsts Span.text (Words.numerals t)).map Span.string
  Finding.ifPresent (!literals.isEmpty)
    ("Avoid using magic numbers (" ++ Text.join ", " literals ++ "). Use named constants instead.")

def emptyMethodBody : Check := fun t =>
  Finding.atSpans t (emptyMethod.findGroups 1 t) fun s => "Empty method detected: " ++ s.string

/-- Whether the first of several lines that is not blank begins with a brace. -/
def opensBlock (lines : List Text) : Bool :=
  ((lines.map Text.trim).find? fun line => !line.isEmpty).any (Text.startsWith · "\x7b")

/-- The findings for several lines of which the first has a number. -/
def bracelessFrom (number : Nat) : List Text → List Finding
  | [] => []
  | line :: rest =>
    let here := if controlHeader.occursIn line && !Text.has line "\x7b" && !opensBlock rest then
      [.onLine number line
        ("Missing curly braces for control structure at line " ++ toString number ++ ".")]
      else []
    here ++ bracelessFrom (number + 1) rest

def controlBraces : Check := fun t => return bracelessFrom 1 (Text.lines t)

/-- Words that stand before a name in calls and statements, but are no result type. -/
def notTypes : List String :=
  ["public", "private", "protected", "internal", "new", "return", "else", "await", "throw"]

/-- Words that look like a method's name but begin a statement. -/
def notMethods : List String :=
  ["if", "for", "foreach", "while", "switch", "catch", "using", "lock"]

def methodAccess : Check := fun t =>
  let open_ := (methodDeclaration.findAll t).filter fun m =>
    !notTypes.contains (String.ofList (m.textOf 2)) && !notMethods.contains (String.ofList (m.textOf 3))
      && !accessModifier.occursIn (m.textOf 1)
  Finding.atSpans t (open_.filterMap (·.group? 3)) fun s =>
    "Method \"" ++ s.string ++ "\" should declare an access modifier."

def emptyClassBody : Check := fun t =>
  Finding.atSpans t (emptyClass.findGroups 1 t) fun s => "Empty class detected: " ++ s.string

/-- Exceptions that are given a name which the handler does not mention. -/
def unusedException : Check := fun t => do
  let unused ← (catchBlock.findAll t).filterM fun m => do
    let variable_ ← m.group 1
    return !Words.usedOutside (m.textOf 2) variable_.text 0 0
  Finding.atSpans t (unused.filterMap (·.group? 1)) fun s =>
    "Unused exception variable in catch block: " ++ s.string

/-! ### The rule set -/

def ruleSet : RuleSet where
  language := .csharp
  rules := [
    { id := "require-namespace"
      description := "Code belongs in a namespace"
      check := requireNamespace },
    { id := "require-using"
      description := "Import namespaces with using"
      check := requireUsing
      severity := .info },
    { id := "require-main"
      description := "Applications need a Main method"
      check := requireMain
      severity := .error
      category := .correctness },
    { id := "unused-variable"
      description := "Declared variables should be used"
      check := unusedVariable
      category := .suspicious },
    { id := "async-without-await"
      description := "async methods should await something"
      check := asyncWithoutAwait
      category := .suspicious },
    { id := "magic-number"
      description := "Use named constants for numeric literals"
      check := magicNumber
      severity := .info
      category := .pedantic },
    { id := "empty-method"
      description := "Methods should have a body"
      check := emptyMethodBody },
    { id := "control-braces"
      description := "Control statements should use braces"
      check := controlBraces },
    { id := "method-access-modifier"
      description := "Methods should declare their accessibility"
      check := methodAccess
      severity := .info
      category := .convention },
    { id := "empty-class"
      description := "Classes should have members"
      check := emptyClassBody },
    { id := "unused-exception-variable"
      description := "Caught exceptions should be used or unnamed"
      check := unusedException
      category := .suspicious }]

end SnippetLint.CSharp
