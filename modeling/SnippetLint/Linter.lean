/-
Linting inputs.

A linter knows the rule sets and the configuration. The language of an input is the one asked for,
or else the configured one, or else the one its text or its file's name tells; nothing on the way
fails, since an input that cannot be linted is reported on too.
-/
import SnippetLint.Config.Basic
import SnippetLint.Detection
import SnippetLint.FileTree
import SnippetLint.Registry
import SnippetLint.Report
import SnippetLint.RuleRun

namespace SnippetLint

structure Linter where
  registry : Registry
  config : Config

namespace Linter

/-- The rule sets of this library with the default configuration. -/
def default : Linter := ⟨.builtin, {}⟩

/-- What the configuration says about rules. -/
def filter (l : Linter) : RuleFilter := ⟨l.config.rules.disabled, l.config.rules.severity⟩

/-- Lints a text as one of a given language. -/
def lintAs (l : Linter) (language : Language) (text : Text) : Report :=
  match l.registry.resolve? language with
  | none => .unsupported language
  | some rules =>
    let run := RuleRun.ofRuleSet rules l.filter text
    ⟨language, run.diagnostics, true, run.faulted⟩

/-- Lints a text as one of the configured language, or of the one its signatures tell. -/
def lint (l : Linter) (text : Text) : Report :=
  l.lintAs (l.config.language.getD (Detection.ofText text).language) text

/-- The rule id under which an unreadable file is reported. -/
def unreadableId : String := "file-read-error"

/-- The report on a file that cannot be read. -/
def unreadable (language : Language) (error : FileError) : Report :=
  ⟨language, [⟨unreadableId, .error, "Failed to read file: " ++ error.message, none⟩], false, []⟩

/-- Lints what reading a file gave. -/
def lintContent (l : Linter) (path : String) (forced : Option Language)
    (content : Except FileError String) : FileReport :=
  match content with
  | .error e => ⟨path, unreadable (forced.getD .unknown) e⟩
  | .ok content =>
    let language := (forced <|> l.config.language).getD
      (Detection.ofFile path content.toList).language
    ⟨path, l.lintAs language content.toList⟩

/-- Lints a file. -/
def lintFile (l : Linter) (files : FileSystem) (forced : Option Language) (path : String) :
    FileReport :=
  l.lintContent path forced (files.readText path)

/-- Lints several files. The reports stand in the order of the paths. -/
def lintFiles (l : Linter) (files : FileSystem) (forced : Option Language) (paths : List String)
    (milliseconds : Nat) : Batch :=
  ⟨paths.map (l.lintFile files forced), milliseconds⟩

end Linter

end SnippetLint
