/-
Rules for PHP.
-/
import SnippetLint.Comparison
import SnippetLint.Naming
import SnippetLint.Repeats
import SnippetLint.Rule

namespace SnippetLint.Php

open Pattern

/-! ### Patterns -/

def openTag : Pattern := text "<?php" ++ wordEdge

def echoWord : Pattern := wholeWord "echo"

/-- A function, which is group 1, up to its parameters. -/
def functionHeader : Pattern :=
  keyword "function" ++ gap ++ perhaps (text "&") ++ blanks ++ group 1 wordRun ++ blanks ++ text "("

/-- A variable; group 1 is its name without the dollar sign. -/
def variable_ : Pattern := text "$" ++ group 1 name

def comment : Pattern :=
  (text "//" ++ many (except "\n")) ||| (text "/*" ++ few anything ++ text "*/")

def todoMarker : Pattern := wordEdge ++ oneOf ["TODO", "FIXME"] ++ wordEdge

def arrayCall : Pattern := keyword "array" ++ blanks ++ text "("

def anyOpenTag : Pattern := text "<?"

/-! ### Checks -/

/-- Variables that the language itself names. -/
def superglobals : List String :=
  ["GLOBALS", "_SERVER", "_GET", "_POST", "_FILES", "_COOKIE", "_SESSION", "_REQUEST", "_ENV"]

def requireOpenTag : Check := fun t =>
  Finding.ifMissing (openTag.occursIn t) "PHP scripts should start with \"<?php\"."

def requireSemicolon : Check := fun t =>
  Finding.ifMissing (Text.has t ";") "PHP statements should end with a semicolon."

def echoOutput : Check := fun t =>
  Finding.ifMissing (echoWord.occursIn t) "Consider using \"echo\" for output in PHP."

def functionNaming : Check := fun t =>
  let names := (functionHeader.findGroups 1 t).filter fun s => !Naming.isSnakeCase s.text
  Finding.atSpans t names fun s =>
    "Function name \"" ++ s.string ++ "\" should follow snake_case convention."

/-- A variable whose name its author chose, and not in snake case. -/
def isMisnamed (s : Span) : Bool :=
  s.string != "this" && !superglobals.contains s.string && !Naming.isSnakeCase s.text

/-- Each name once, where it first occurs. -/
def variableNaming : Check := fun t =>
  let names := firsts Span.text ((variable_.findGroups 1 t).filter isMisnamed)
  Finding.atSpans t names fun s =>
    "Variable name \"$" ++ s.string ++ "\" should follow snake_case convention."

def strictMessage : LooseOperator → String
  | .equal => "Use strict comparison (===) instead of loose comparison (==)."
  | .unequal => "Use strict comparison (!==) instead of loose comparison (!=)."

def strictComparison : Check := fun t => do
  (← LooseOperator.findAll t).mapM fun (offset, op) => Finding.atOffset t offset (strictMessage op)

/-- Whether what follows `<?` makes a complete tag of it. -/
def completesTag (rest : Text) : Bool := ["php", "=", "xml"].any (Text.startsWith rest)

def shortOpenTag : Check := fun t => do
  let tags ← (anyOpenTag.findSpans t).filterM fun s => return !completesTag (← Text.after t s.stop)
  Finding.atSpans t tags fun _ => "Avoid using PHP short tags (\"<?\"). Always use \"<?php\"."

/-- A closing tag that nothing but white space follows. -/
def closingTag : Check := fun t => do
  let written := Text.trimEnd t
  if Text.endsWith written "?>" then
    let offset ← difference (Text.size written) 2
    return [← Finding.atOffset t offset "PHP files should omit the closing tag (?>)."]
  else return []

def todoComment : Check := fun t =>
  let comments := (comment.findSpans t).filter fun s => todoMarker.occursIn s.text
  Finding.atSpans t comments fun _ => "Resolve or remove TODO/FIXME comments before shipping."

def shortArraySyntax : Check := fun t =>
  Finding.atSpans t (arrayCall.findSpans t) fun _ =>
    "Use \"[]\" instead of \"array()\" for array declarations in PHP."

/-! ### The rule set -/

def ruleSet : RuleSet where
  language := .php
  rules := [
    { id := "open-tag"
      description := "Scripts open with <?php"
      check := requireOpenTag
      severity := .error
      category := .correctness },
    { id := "require-semicolon"
      description := "Statements end with semicolons"
      check := requireSemicolon },
    { id := "echo-output"
      description := "Use echo for output"
      check := echoOutput
      severity := .info
      category := .pedantic },
    { id := "function-naming"
      description := "Function names are snake_case"
      check := functionNaming
      category := .convention },
    { id := "variable-naming"
      description := "Variable names are snake_case"
      check := variableNaming
      category := .convention },
    { id := "strict-comparison"
      description := "Compare with === and !=="
      check := strictComparison
      category := .suspicious },
    { id := "short-open-tag"
      description := "Do not use short open tags"
      check := shortOpenTag },
    { id := "closing-tag"
      description := "Omit the trailing ?> tag"
      check := closingTag
      severity := .info },
    { id := "todo-comment"
      description := "Resolve TODO and FIXME comments"
      check := todoComment
      severity := .info },
    { id := "short-array-syntax"
      description := "Use [] instead of array()"
      check := shortArraySyntax }]

end SnippetLint.Php
