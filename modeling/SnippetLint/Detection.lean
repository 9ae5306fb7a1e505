/-
Telling the language of a snippet.

Each language has signatures: patterns that hardly occur in a snippet of another language. They are
tried in a fixed order and the first that occurs decides, so a snippet with the signatures of several
languages goes to the earliest. Markup has no signature; it is known by its file extension only.
-/
import SnippetLint.Language
import SnippetLint.Path
import SnippetLint.Pattern.Match

namespace SnippetLint

/-- A pattern that tells a language, with the words in which the decision is reported. -/
structure Signature where
  language : Language
  pattern : Pattern
  reason : String

namespace Signature

open Pattern

def functionDeclaration : Signature where
  language := .javascript
  pattern := keyword "function" ++ gap ++ wordRun ++ blanks ++ text "(" ++ many inLine ++ text ")"
    ++ blanks ++ text "\x7b"
  reason := "JavaScript function declaration"

def variableDeclaration : Signature where
  language := .javascript
  pattern := wordEdge ++ oneOf ["const", "let", "var"] ++ gap ++ one (union word (among "$[\x7b"))
  reason := "JavaScript variable declaration"

def defHeader : Signature where
  language := .python
  pattern := keyword "def" ++ gap ++ wordRun ++ blanks ++ text "(" ++ many inLine ++ text ")"
    ++ blanks ++ perhaps (text "->" ++ blanks ++ several (except ":")) ++ text ":"
  reason := "Python def header"

def printCall : Signature where
  language := .python
  pattern := keyword "print(" ++ several inLine ++ text ")"
  reason := "Python print call"

def systemInclude : Signature where
  language := .cpp
  pattern := text "#include" ++ blanks ++ text "<" ++ several inLine ++ text ">"
  reason := "C++ system include"

def intMain : Signature where
  language := .cpp
  pattern := keyword "int" ++ gap ++ text "main" ++ blanks ++ text "(" ++ many inLine ++ text ")"
    ++ blanks ++ text "\x7b"
  reason := "C++ int main signature"

def publicClass : Signature where
  language := .java
  pattern := keyword "public" ++ gap ++ text "class" ++ gap ++ wordRun
  reason := "Java public class"

def consolePrint : Signature where
  language := .java
  pattern := text "System.out.println"
  reason := "Java console print"

def usingSystem : Signature where
  language := .csharp
  pattern := keyword "using" ++ gap ++ text "System" ++ wordEdge
  reason := "C# using System"

def namespaceDeclaration : Signature where
  language := .csharp
  pattern := keyword "namespace" ++ gap ++ wordRun
  reason := "C# namespace declaration"

def packageMain : Signature where
  language := .go
  pattern := keyword "package" ++ gap ++ text "main" ++ wordEdge
  reason := "Go package main"

def printlnCall : Signature where
  language := .go
  pattern := wholeWord "fmt.Println"
  reason := "Go fmt.Println call"

def openTag : Signature where
  language := .php
  pattern := text "<?php"
  reason := "PHP open tag"

def echoStatement : Signature where
  language := .php
  pattern := keyword "echo" ++ gap ++ one (among "\"'") ++ many inLine ++ one (among "\"'") ++ blanks
    ++ text ";"
  reason := "PHP echo statement"

def moduleImport : Signature where
  language := .typescript
  pattern := keyword "import" ++ gap ++ several (union word (union blank (among "\x7b\x7d,*"))) ++ gap
    ++ text "from" ++ gap ++ one (among "'\"") ++ several inLine ++ one (among "'\"")
  reason := "ES module import"

def exportedDeclaration : Signature where
  language := .typescript
  pattern := keyword "export" ++ gap ++ oneOf ["const", "let", "var"] ++ wordEdge
  reason := "Exported declaration"

/-- All signatures in the order in which they are tried. -/
def all : List Signature :=
  [functionDeclaration, variableDeclaration, defHeader, printCall, systemInclude, intMain,
    publicClass, consolePrint, usingSystem, namespaceDeclaration, packageMain, printlnCall, openTag,
    echoStatement, moduleImport, exportedDeclaration]

/-- Whether a signature occurs in a text. -/
def occursIn (s : Signature) (t : Text) : Bool := s.pattern.occursIn t

end Signature

/-- The language of a snippet and why it was chosen. -/
structure Detection where
  language : Language
  reason : String
  deriving DecidableEq, Repr

namespace Detection

/-- What is said of a text without any signature. -/
def none : Detection := ⟨.unknown, "No signature matched"⟩

/-- The language of a text by the first signature that occurs in it. -/
def ofText (t : Text) : Detection :=
  match Signature.all.find? (·.occursIn t) with
  | some s => ⟨s.language, s.reason⟩
  | .none => none

/-- The language of a file: by its text, or else by its extension. -/
def ofFile (path : String) (t : Text) : Detection :=
  let byText := ofText t
  if byText.language = .unknown then
    match (Path.extension? path).map Language.ofExtension with
    | .none | some .unknown => byText
    | some language => ⟨language, "File extension"⟩
  else byText

end Detection

end SnippetLint
