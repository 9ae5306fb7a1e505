/-
Which rule set lints which language.

There is at most one rule set for each language, and none for `unknown`.
-/
import SnippetLint.Rules.CSharp
import SnippetLint.Rules.Cpp
import SnippetLint.Rules.Go
import SnippetLint.Rules.Html
import SnippetLint.Rules.Java
import SnippetLint.Rules.JavaScript
import SnippetLint.Rules.Php
import SnippetLint.Rules.Python
import SnippetLint.Rules.TypeScript

namespace SnippetLint

/-- Rule sets under their languages. -/
structure Registry where
  ruleSets : List RuleSet

namespace Registry

/-- No rule sets. -/
def empty : Registry := ⟨[]⟩

/-- The rule set for a language. -/
def resolve? (r : Registry) (language : Language) : Option RuleSet :=
  r.ruleSets.find? (·.language = language)

/-- With one more rule set, which replaces the one for its language. -/
def register (r : Registry) (rules : RuleSet) : Registry :=
  if rules.language = .unknown then r
  else ⟨rules :: r.ruleSets.filter (·.language ≠ rules.language)⟩

/-- The rule set that registering another one displaces. -/
def displaced? (r : Registry) (rules : RuleSet) : Option RuleSet :=
  if rules.language = .unknown then none else r.resolve? rules.language

/-- The languages with a rule set, in order. -/
def languages (r : Registry) : List Language := Language.sort (r.ruleSets.map (·.language))

def size (r : Registry) : Nat := r.ruleSets.length

def isEmpty (r : Registry) : Bool := r.ruleSets.isEmpty

/-- A line that lists the languages. -/
def display (r : Registry) : String :=
  "ParserRegistry \x7b languages: [" ++ Text.join ", " (r.languages.map Language.label) ++ "] \x7d"

/-- The rule sets of this library. -/
def builtinRuleSets : List RuleSet :=
  [Cpp.ruleSet, Java.ruleSet, CSharp.ruleSet, Go.ruleSet, Php.ruleSet, TypeScript.ruleSet,
    JavaScript.ruleSet, Python.ruleSet, Html.ruleSet]

/-- The registry of the rule sets of this library. -/
def builtin : Registry := builtinRuleSets.foldl register empty

end Registry

end SnippetLint
