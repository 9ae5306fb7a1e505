/-
Rules for JavaScript.
-/
import SnippetLint.Braces
import SnippetLint.Comparison
import SnippetLint.Indentation
import SnippetLint.Repeats
import SnippetLint.Returns
import SnippetLint.Words

namespace SnippetLint.JavaScript

open Pattern

/-! ### Patterns -/

def varDeclaration : Pattern := keyword "var" ++ gap ++ one (union word (among "$"))

def strictDirective : Pattern := one (among "'\"") ++ text "use strict" ++ one (among "'\"")

def consoleLog : Pattern := wholeWord "console.log"

/-- A variable, which is group 1. -/
def declaration : Pattern := wordEdge ++ oneOf ["let", "const", "var"] ++ gap ++ group 1 name

/-- A name with a list in parentheses, which is group 1 and holds no parentheses. -/
def callOrSignature : Pattern :=
  wordEdge ++ wordRun ++ blanks ++ text "(" ++ group 1 (many (except "()")) ++ text ")"

/-- An import; group 1 is the module's name. -/
def importFrom : Pattern :=
  lineStart ++ blanks ++ text "import" ++ gap ++ few inLine ++ gap ++ text "from" ++ gap
    ++ one (among "'\"") ++ group 1 (several (except "'\"")) ++ one (among "'\"")

def evalCall : Pattern := keyword "eval" ++ blanks ++ text "("

def bareReturn : Pattern := keyword "return" ++ blanks ++ text ";"

def valueReturn : Pattern :=
  keyword "return" ++ gap ++ one fun c => !(c == ';' || c == '\x7d' || blank c)

/-! ### Checks -/

def noVar : Check := fun t =>
  Finding.ifPresent (varDeclaration.occursIn t)
    "Avoid using `var`. Use `let` or `const` instead."

/-- Whether a snippet ends as one does whose author writes semicolons. -/
def endsWell (t : Text) : Bool :=
  t.isEmpty || Text.startsWith t "//" || Text.startsWith t "/*" || Text.endsWith t ";"
    || Text.endsWith t "\x7d"

def semicolon : Check := fun t =>
  Finding.ifMissing (endsWell (Text.trim t)) "Consider adding semicolons for consistency."

def useStrict : Check := fun t =>
  Finding.ifMissing (strictDirective.occursIn t)
    "Consider adding \"use strict\" at the beginning of your code."

def noConsole : Check := fun t =>
  Finding.atSpans t (consoleLog.findSpans t) fun _ =>
    "Avoid using `console.log` in production code."

def noUnusedVars : Check := fun t =>
  let unused := (declaration.findGroups 1 t).filter fun s => !Words.isUsed t s
  Finding.atSpans t unused fun s => "Unused variable detected: " ++ s.string

def strictMessage : LooseOperator → String
  | .equal => "Avoid using `==` for equality check. Use `===` for strict equality."
  | .unequal => "Avoid using `!=` for inequality check. Use `!==` for strict inequality."

def strictEquality : Check := fun t => do
  (← LooseOperator.findAll t).mapM fun (offset, op) => Finding.atOffset t offset (strictMessage op)

def noUnreachable : Check := fun t => do
  (← Returns.unreachable t).mapM fun offset =>
    Finding.atOffset t offset "Unreachable code detected after return statement."

/-- How many parameters a function may take. -/
def maxParameters : Nat := 5

/-- The number of entries of a list that are not blank. -/
def parameterCount (list : Text) : Nat :=
  ((Text.pieces (· == ',') list).filter fun p => !Text.isBlank p).length

/-- The first characters of a text, with dots behind them if there are more. -/
def excerpt (t : Text) (length : Nat) : String :=
  String.ofList (t.take length) ++ if length < t.length then "..." else ""

def maxParams : Check := fun t =>
  let long := (callOrSignature.findAll t).filter fun m =>
    maxParameters < parameterCount (m.textOf 1)
  Finding.atSpans t (long.map (·.whole)) fun s =>
    "Function has too many parameters: " ++ excerpt s.text 30

def noDuplicateImports : Check := fun t =>
  Finding.atSpans t (repeats Span.text (importFrom.findGroups 1 t)) fun s =>
    "Duplicate import detected: '" ++ s.string ++ "'"

/-- How deep blocks may nest. -/
def maxNesting : Nat := 3

def maxNestedBlocks : Check := fun t =>
  let depth := Braces.peak t
  Finding.ifPresent (maxNesting < depth)
    ("Too many nested blocks (depth " ++ toString depth ++ "). Consider simplifying.")

def noEval : Check := fun t =>
  Finding.atSpans t (evalCall.findSpans t) fun _ =>
    "Avoid using `eval()`. It can introduce security risks."

def consistentReturn : Check := fun t =>
  Finding.ifPresent (bareReturn.occursIn t && valueReturn.occursIn t)
    "Inconsistent return: some paths return a value and others return nothing."

/-! ### The rule set -/

def ruleSet : RuleSet where
  language := .javascript
  rules := [
    { id := "no-var"
      description := "Prefer let/const over var"
      check := noVar },
    { id := "semicolon"
      description := "Statements should end with a semicolon"
      check := semicolon
      severity := .info },
    { id := "use-strict"
      description := "Scripts should opt into strict mode"
      check := useStrict
      severity := .info
      category := .pedantic },
    { id := "no-console"
      description := "console.log left in code"
      check := noConsole },
    { id := "no-unused-vars"
      description := "Declared variables should be used"
      check := noUnusedVars
      category := .suspicious },
    { id := "inconsistent-indentation"
      description := "Lines should share the first line's indentation"
      check := Indentation.inconsistent
      category := .convention },
    { id := "eqeqeq"
      description := "Use strict equality operators"
      check := strictEquality
      category := .suspicious },
    { id := "no-unreachable"
      description := "Code after return never runs"
      check := noUnreachable
      severity := .error
      category := .correctness },
    { id := "max-params"
      description := "Functions should take at most five parameters"
      check := maxParams },
    { id := "no-duplicate-imports"
      description := "Import each module once"
      check := noDuplicateImports },
    { id := "max-nested-blocks"
      description := "Limit block nesting depth"
      check := maxNestedBlocks
      severity := .info },
    { id := "no-eval"
      description := "eval() executes arbitrary code"
      check := noEval
      severity := .error
      category := .correctness },
    { id := "consistent-return"
      description := "Either always or never return a value"
      check := consistentReturn
      category := .suspicious }]

end SnippetLint.JavaScript
