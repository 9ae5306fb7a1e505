/-
The languages that snippets are written in.

Every language has one identifier, which is what output and configuration files use, and some have
further names under which a user may ask for them. `unknown` stands for "no language could be told".
-/
import SnippetLint.Text.Basic
import SnippetLint.Unicode.Case

namespace SnippetLint

inductive Language where
  | cpp | java | csharp | go | php | typescript | javascript | python | html | unknown
  deriving DecidableEq, Repr

namespace Language

/-- Every language in the order in which they sort, `unknown` last. -/
def all : List Language :=
  [cpp, java, csharp, go, php, typescript, javascript, python, html, unknown]

/-- The place of a language in that order. -/
def rank : Language → Nat
  | cpp => 0
  | java => 1
  | csharp => 2
  | go => 3
  | php => 4
  | typescript => 5
  | javascript => 6
  | python => 7
  | html => 8
  | unknown => 9

/-- Languages in ascending order. -/
def sort (languages : List Language) : List Language :=
  languages.mergeSort fun a b => a.rank ≤ b.rank

/-- The identifier. -/
def id : Language → String
  | cpp => "cpp"
  | java => "java"
  | csharp => "csharp"
  | go => "go"
  | php => "php"
  | typescript => "typescript"
  | javascript => "javascript"
  | python => "python"
  | html => "html"
  | unknown => "unknown"

/-- The name that is shown to people. -/
def display : Language → String
  | cpp => "C++"
  | java => "Java"
  | csharp => "C#"
  | go => "Go"
  | php => "PHP"
  | typescript => "TypeScript"
  | javascript => "JavaScript"
  | python => "Python"
  | html => "HTML"
  | unknown => "Unknown"

/-- The name of the constructor in a listing of a registry's contents. -/
def label : Language → String
  | cpp => "Cpp"
  | java => "Java"
  | csharp => "CSharp"
  | go => "Go"
  | php => "Php"
  | typescript => "TypeScript"
  | javascript => "JavaScript"
  | python => "Python"
  | html => "Html"
  | unknown => "Unknown"

/-- The language with an identifier. -/
def ofId? (s : String) : Option Language := all.find? fun l => l.id == s

@[simp] theorem ofId?_id (l : Language) : ofId? l.id = some l := by cases l <;> decide

/-- The names under which a language can be asked for, its identifier first. -/
def names : Language → List String
  | cpp => ["cpp", "c++", "cxx", "cc"]
  | java => ["java"]
  | csharp => ["csharp", "c#", "cs"]
  | go => ["go", "golang"]
  | php => ["php"]
  | typescript => ["typescript", "ts"]
  | javascript => ["javascript", "js"]
  | python => ["python", "py"]
  | html => ["html", "htm"]
  | unknown => ["unknown"]

/-- The language asked for by a name, in any letter case and between any blanks. -/
def ofName? (s : String) : Option Language :=
  let name := String.ofList (Unicode.lower (Text.trim s.toList))
  all.find? fun l => l.names.contains name

/-- What a user is told who asks for a language that there is not. -/
def unknownNameMessage (name : String) : String := "unknown language: " ++ name

/-- The usual file extensions, without the dot. -/
def extensions : Language → List String
  | cpp => ["cpp", "cc", "cxx", "hpp", "hxx", "h"]
  | java => ["java"]
  | csharp => ["cs"]
  | go => ["go"]
  | php => ["php", "phtml"]
  | typescript => ["ts", "mts", "cts", "tsx"]
  | javascript => ["js", "mjs", "cjs", "jsx"]
  | python => ["py", "pyw", "pyi"]
  | html => ["html", "htm", "xhtml"]
  | unknown => []

/-- The language of files with an extension, in any letter case. -/
def ofExtension (extension : String) : Language :=
  let extension := String.ofList (Unicode.lower extension.toList)
  (all.find? fun l => l.extensions.contains extension).getD unknown

end Language

end SnippetLint
