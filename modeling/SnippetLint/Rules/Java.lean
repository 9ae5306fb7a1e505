/-
Rules for Java.
-/
import SnippetLint.Naming
import SnippetLint.Repeats
import SnippetLint.Rule
import SnippetLint.Words

namespace SnippetLint.Java

open Pattern

/-! ### Patterns -/

def typeDeclaration : Pattern :=
  wordEdge ++ oneOf ["class", "interface", "enum", "record"] ++ gap ++ one word

def mainMethod : Pattern :=
  keyword "public" ++ gap ++ text "static" ++ gap ++ text "void" ++ gap ++ text "main" ++ blanks
    ++ text "("

/-- A class at the start of a line: group 1 holds its modifiers and group 2 its name. -/
def classDeclaration : Pattern :=
  lineStart ++ many spaceOrTab ++ group 1 (repeated (wordRun ++ several spaceOrTab))
    ++ text "class" ++ gap ++ group 2 wordRun

/-- What looks like a method at the start of a line: modifiers, result type and name. -/
def methodDeclaration : Pattern :=
  lineStart ++ many spaceOrTab
    ++ group 1 (repeated (oneOf ["public", "private", "protected", "static", "final", "abstract",
      "synchronized", "native"] ++ gap))
    ++ group 2 (several (union word (among "<>[],."))) ++ gap ++ group 3 wordRun ++ blanks
    ++ text "(" ++ many (except ")") ++ text ")" ++ blanks
    ++ perhaps (text "throws" ++ gap ++ several (union word (union (among ".,") blank)))
    ++ text "\x7b"

def accessModifier : Pattern := wordEdge ++ oneOf ["public", "private", "protected"] ++ wordEdge

/-- An import at the start of a line; group 1 is what is imported. -/
def importLine : Pattern :=
  lineStart ++ many spaceOrTab ++ text "import" ++ gap ++ perhaps (text "static" ++ gap)
    ++ group 1 (several (union word (among "."))) ++ blanks ++ text ";"

def tryBlock : Pattern := keyword "try" ++ blanks ++ one (among "(\x7b")

def handler : Pattern :=
  (keyword "catch" ++ blanks ++ text "(") ||| (keyword "finally" ++ blanks ++ text "\x7b")

def tryWithResources : Pattern := keyword "try" ++ blanks ++ text "("

/-- A resource that is opened; group 1 is its type. -/
def resource : Pattern :=
  keyword "new" ++ gap
    ++ group 1 (oneOf ["FileReader", "FileWriter", "FileInputStream", "FileOutputStream",
      "BufferedReader", "BufferedWriter", "Scanner"])
    ++ blanks ++ text "("

def closeCall : Pattern := text ".close" ++ blanks ++ text "(" ++ blanks ++ text ")"

/-! ### Methods -/

/-- A method header: what stands before the result type, and the name. -/
structure Method where
  modifiers : Text
  name : Span

/-- Words that stand before a name in calls and statements, but are no result type. -/
def notTypes : List String := ["public", "private", "protected", "new", "return", "else", "throw"]

/-- Words that look like a method's name but begin a statement. -/
def notMethods : List String := ["if", "for", "while", "switch", "catch", "synchronized"]

/-- The method headers of a text; constructors and control statements are left out. -/
def methods (t : Text) : List Method :=
  let classes := (classDeclaration.findGroups 2 t).map Span.text
  (methodDeclaration.findAll t).filterMap fun m => do
    let type ← m.group? 2
    let name ← m.group? 3
    if notTypes.contains type.string || notMethods.contains name.string
        || classes.contains name.text then none
    else some ⟨m.textOf 1, name⟩

/-! ### Checks -/

def requireClass : Check := fun t =>
  Finding.ifMissing (typeDeclaration.occursIn t)
    "Java files should contain at least one class definition."

def requireMain : Check := fun t =>
  Finding.ifMissing (mainMethod.occursIn t)
    "Java programs usually have a \"public static void main\" method."

def requireSemicolon : Check := fun t =>
  Finding.ifMissing (Text.has t ";") "Java statements should end with a semicolon."

def classNaming : Check := fun t =>
  let names := (classDeclaration.findGroups 2 t).filter fun s => !Naming.startsUpper s.text
  Finding.atSpans t names fun s =>
    "Class name \"" ++ s.string ++ "\" should follow Pascal case convention."

def methodNaming : Check := fun t =>
  let named := (methods t).filter fun m =>
    Naming.startsUpper m.name.text || m.name.text.contains '_'
  Finding.atSpans t (named.map (·.name)) fun s =>
    "Method name \"" ++ s.string ++ "\" should follow camel case convention."

def classAccess : Check := fun t =>
  let open_ := (classDeclaration.findAll t).filter fun m => !accessModifier.occursIn (m.textOf 1)
  Finding.atSpans t (open_.filterMap (·.group? 2)) fun s =>
    "Class \"" ++ s.string ++ "\" lacks an access modifier."

def methodAccess : Check := fun t =>
  let open_ := (methods t).filter fun m => !accessModifier.occursIn m.modifiers
  Finding.atSpans t (open_.map (·.name)) fun s =>
    "Method \"" ++ s.string ++ "\" should have an access modifier (public/private/protected)."

/-- The last part of an imported path. -/
def simpleName (path : Text) : Text := (path.reverse.takeWhile (· != '.')).reverse

/-- Whether the last part of an import, which is the name it binds, is used elsewhere. -/
def isImportUsed (t : Text) (path : Span) : Checked Bool := do
  let name := simpleName path.text
  let start ← difference path.stop (Text.size name)
  return name.isEmpty || Words.usedOutside t name start (start + Text.size name)

def unusedImport : Check := fun t => do
  let unused ← (importLine.findGroups 1 t).filterM fun path => return !(← isImportUsed t path)
  Finding.atSpans t unused fun path => "Unused import: " ++ path.string

def duplicateImport : Check := fun t =>
  Finding.atSpans t (repeats Span.text (importLine.findGroups 1 t)) fun path =>
    "Duplicate import: " ++ path.string

def tryWithoutCatch : Check := fun t =>
  let first := if handler.occursIn t then none else tryBlock.find? t
  Finding.atSpans t (first.map (·.whole)).toList fun _ =>
    "Missing catch block after try block. Ensure error handling."

/-- A number as a word of 32 bits, if it fits. -/
def fitting? (n : Nat) : Option UInt32 := if n < UInt32.size then some (.ofNat n) else none

/-- Appends an ASCII digit to a value; each of the two steps has to fit. -/
def appendDigit? (value : UInt32) (c : Char) : Option UInt32 :=
  if c.isDigit then do
    let tens ← fitting? (value.toNat * 10)
    fitting? (tens.toNat + (c.toNat - '0'.toNat))
  else none

/-- The value of a numeral of ASCII digits, if it fits into 32 bits. -/
def value? (literal : Text) : Option UInt32 :=
  if literal.isEmpty then none else literal.foldlM appendDigit? 0

/-- Numbers from 1 to 99 ought to have a name. -/
def isMagic (literal : Text) : Bool := (value? literal).any fun n => 1 ≤ n && n ≤ 99

def magicNumber : Check := fun t =>
  let magic := (Words.numerals t).filter fun s => isMagic s.text
  Finding.atSpans t magic fun s =>
    "Consider replacing magic number \"" ++ s.string ++ "\" with a named constant."

def resourceLeak : Check := fun t =>
  let resources := if closeCall.occursIn t || tryWithResources.occursIn t then []
    else resource.findGroups 1 t
  Finding.atSpans t resources fun s => "Ensure the " ++ s.string ++ " is closed after use."

/-! ### The rule set -/

def ruleSet : RuleSet where
  language := .java
  rules := [
    { id := "require-class"
      description := "Java sources declare at least one class"
      check := requireClass
      severity := .error
      category := .correctness },
    { id := "require-main"
      description := "Programs need a main method"
      check := requireMain },
    { id := "require-semicolon"
      description := "Statements end with semicolons"
      check := requireSemicolon },
    { id := "class-naming"
      description := "Class names are PascalCase"
      check := classNaming
      category := .convention },
    { id := "method-naming"
      description := "Method names are camelCase"
      check := methodNaming
      category := .convention },
    { id := "class-access-modifier"
      description := "Classes should declare their accessibility"
      check := classAccess
      severity := .info
      category := .convention },
    { id := "method-access-modifier"
      description := "Methods should declare their accessibility"
      check := methodAccess
      severity := .info
      category := .convention },
    { id := "unused-import"
      description := "Imported types should be used"
      check := unusedImport
      category := .suspicious },
    { id := "duplicate-import"
      description := "Import each type once"
      check := duplicateImport },
    { id := "try-without-catch"
      description := "try blocks need error handling"
      check := tryWithoutCatch
      category := .suspicious },
    { id := "magic-number"
      description := "Use named constants for numeric literals"
      check := magicNumber
      severity := .info
      category := .pedantic },
    { id := "resource-leak"
      description := "Close the resources you open"
      check := resourceLeak
      category := .correctness }]

end SnippetLint.Java
