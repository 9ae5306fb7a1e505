/-
Rules for TypeScript.
-/
import SnippetLint.Rule
import SnippetLint.Words

namespace SnippetLint.TypeScript

open Pattern

/-! ### Patterns -/

def varDeclaration : Pattern := keyword "var" ++ gap ++ one word

/-- A block-scoped variable, which is group 1. -/
def blockDeclaration : Pattern :=
  wordEdge ++ oneOf ["let", "const"] ++ gap ++ group 1 name

def resultType : Pattern := perhaps (text ":" ++ many (except "\x7b"))

def functionDeclaration : Pattern :=
  keyword "function" ++ gap ++ wordRun ++ blanks ++ text "(" ++ many inLine ++ text ")" ++ blanks
    ++ resultType ++ text "\x7b"

def explicitAny : Pattern :=
  (text ":" ++ blanks ++ text "any" ++ wordEdge) ||| text "<any>"
    ||| (keyword "as" ++ gap ++ text "any" ++ wordEdge)

/-- A class: group 1 is its name and group 2 its body up to the first brace. -/
def classBody : Pattern :=
  keyword "class" ++ gap ++ group 1 wordRun ++ many (except "\x7b") ++ text "\x7b"
    ++ group 2 (many (except "\x7d")) ++ text "\x7d"

/-- What looks like a method, which is group 1, at the start of a line. -/
def methodHeader : Pattern :=
  lineStart ++ blanks ++ group 1 wordRun ++ blanks ++ text "(" ++ many (except ")") ++ text ")"
    ++ blanks ++ resultType ++ text "\x7b"

def modifiedMethod : Pattern :=
  wordEdge ++ oneOf ["public", "private", "protected"] ++ gap
    ++ repeated (oneOf ["static", "async", "readonly"] ++ gap) ++ wordRun ++ blanks ++ text "("

/-! ### Checks -/

def requireExport : Check := fun t =>
  Finding.ifMissing (Text.has t "export ")
    "TypeScript modules should use \"export\" to expose functionality."

def noVar : Check := fun t =>
  Finding.atSpans t (varDeclaration.findSpans t) fun _ =>
    "Avoid \"var\", use \"let\" or \"const\" instead."

def typeAnnotations : Check := fun t =>
  Finding.ifMissing (Text.has t ":")
    "TypeScript supports explicit type annotations. Consider adding them."

def noUnusedVars : Check := fun t =>
  let unused := (blockDeclaration.findGroups 1 t).filter fun s => !Words.isUsed t s
  Finding.atSpans t unused fun s => "Variable \"" ++ s.string ++ "\" is declared but not used."

def preferArrowFunctions : Check := fun t =>
  Finding.atSpans t (functionDeclaration.findSpans t) fun _ =>
    "Use arrow functions instead of traditional function expressions."

def noExplicitAny : Check := fun t =>
  Finding.atSpans t (explicitAny.findSpans t) fun _ =>
    "Avoid using the \"any\" type. Use more specific types."

def strictMode : Check := fun t =>
  Finding.ifMissing (Text.has t "\"strict\": true")
    "Enable \"strict\" mode in your tsconfig.json for better type checking."

/-- Words that stand before a list in parentheses but name no method. -/
def controlNames : List String := ["if", "for", "while", "switch", "catch"]

/-- Whether the body of a class has a method. -/
def hasMethods (body : Text) : Bool :=
  (methodHeader.findGroups 1 body).any fun s => !controlNames.contains s.string

/-- Classes with methods, none of which says who may call it. -/
def memberAccess : Check := fun t =>
  let open_ := (classBody.findAll t).filter fun m =>
    hasMethods (m.textOf 2) && !modifiedMethod.occursIn (m.textOf 2)
  Finding.atSpans t (open_.filterMap (·.group? 1)) fun s =>
    "Class \"" ++ s.string
      ++ "\" methods should have appropriate access modifiers (public, private, protected)."

/-! ### The rule set -/

def ruleSet : RuleSet where
  language := .typescript
  rules := [
    { id := "require-export"
      description := "Modules should export something"
      check := requireExport
      severity := .info },
    { id := "no-var"
      description := "Prefer let/const over var"
      check := noVar },
    { id := "type-annotations"
      description := "Use explicit type annotations"
      check := typeAnnotations
      severity := .info
      category := .pedantic },
    { id := "no-unused-vars"
      description := "Declared variables should be used"
      check := noUnusedVars
      category := .suspicious },
    { id := "prefer-arrow-functions"
      description := "Prefer arrow functions to function declarations"
      check := preferArrowFunctions },
    { id := "no-explicit-any"
      description := "Avoid the any type"
      check := noExplicitAny
      severity := .error },
    { id := "strict-mode"
      description := "Enable strict compiler checks"
      check := strictMode
      severity := .info
      category := .pedantic },
    { id := "member-access"
      description := "Class methods should declare their accessibility"
      check := memberAccess
      category := .convention }]

end SnippetLint.TypeScript
