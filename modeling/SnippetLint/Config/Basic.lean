/-
Configuration: what a user may set.
-/
import SnippetLint.Language
import SnippetLint.SeverityTable

namespace SnippetLint

/-- The forms in which results are written. -/
inductive OutputFormat where
  | text | json | compact | plain
  deriving DecidableEq, Repr

namespace OutputFormat

def all : List OutputFormat := [text, json, compact, plain]

def id : OutputFormat → String
  | text => "text"
  | json => "json"
  | compact => "compact"
  | plain => "plain"

/-- The format with an identifier. -/
def ofId? (s : String) : Option OutputFormat := all.find? fun f => f.id == s

@[simp] theorem ofId?_id (f : OutputFormat) : ofId? f.id = some f := by cases f <;> decide

/-- The format asked for by a name in any letter case. -/
def ofName? (s : String) : Option OutputFormat := ofId? (String.ofList (Unicode.lower s.toList))

/-- What a user is told who asks for a format that there is not. -/
def unknownNameMessage (name : String) : String := "Unknown output format: " ++ name

end OutputFormat

/-- When output is coloured. -/
inductive ColorMode where
  | auto | always | never
  deriving DecidableEq, Repr

namespace ColorMode

def all : List ColorMode := [auto, always, never]

def id : ColorMode → String
  | auto => "auto"
  | always => "always"
  | never => "never"

/-- The mode with an identifier. -/
def ofId? (s : String) : Option ColorMode := all.find? fun m => m.id == s

@[simp] theorem ofId?_id (m : ColorMode) : ofId? m.id = some m := by cases m <;> decide

end ColorMode

structure EngineConfig where
  /-- Whether files are linted at the same time. -/
  parallel : Bool := true
  /-- How many at the same time; zero leaves the choice to the program. -/
  jobs : UInt64 := 0
  deriving DecidableEq, Repr

structure OutputConfig where
  format : OutputFormat := .text
  color : ColorMode := .auto
  /-- Whether a summary is written. -/
  statistics : Bool := true
  deriving DecidableEq, Repr

structure FilesConfig where
  /-- Patterns of files that are passed over. -/
  exclude : List String :=
    ["**/node_modules/**", "**/target/**", "**/vendor/**", "**/*.min.js"]
  deriving DecidableEq, Repr

structure RulesConfig where
  /-- Rules that do not run. -/
  disabled : List String := []
  /-- Severities that replace those of the rules. -/
  severity : SeverityTable := .empty

structure Config where
  engine : EngineConfig := {}
  output : OutputConfig := {}
  files : FilesConfig := {}
  rules : RulesConfig := {}
  /-- The language of every input, if it is not to be told from the input. -/
  language : Option Language := none

end SnippetLint
