/-
Naming conventions, by letter case alone.
-/
import SnippetLint.Text.Basic
import SnippetLint.Unicode.Case

namespace SnippetLint.Naming

/-- Without any letter that has another lower-case form. -/
def isSnakeCase (name : Text) : Bool := name == Unicode.lower name

/-- Without any letter that has another upper-case form. -/
def isConstantCase (name : Text) : Bool := name == Unicode.upper name

/-- With an upper-case letter at the front. -/
def startsUpper (name : Text) : Bool := name.head?.any Unicode.isUpper

end SnippetLint.Naming
