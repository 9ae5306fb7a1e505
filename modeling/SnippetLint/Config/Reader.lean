/-
Reading a configuration from a document.

Every section and every setting may be left out and then has its default. Names that are no settings
are passed over.
-/
import SnippetLint.Config.Basic
import SnippetLint.Document

namespace SnippetLint

open Document

section

variable {δ : Type} [Document δ]

namespace EngineConfig

def fieldNames : List String := ["parallel", "jobs"]

def ofDocument? (d : δ) : Option EngineConfig := do
  let fields ← record? fieldNames d
  let parallel ← optional flag? true fields "parallel"
  let jobs ← optional count? 0 fields "jobs"
  return ⟨parallel, UInt64.ofNat jobs⟩

end EngineConfig

namespace OutputConfig

def fieldNames : List String := ["format", "color", "statistics"]

def ofDocument? (d : δ) : Option OutputConfig := do
  let fields ← record? fieldNames d
  let format ← optional (choice OutputFormat.ofId?) .text fields "format"
  let color ← optional (choice ColorMode.ofId?) .auto fields "color"
  let statistics ← optional flag? true fields "statistics"
  return ⟨format, color, statistics⟩

end OutputConfig

namespace FilesConfig

def fieldNames : List String := ["exclude"]

def ofDocument? (d : δ) : Option FilesConfig := do
  let fields ← record? fieldNames d
  let exclude ← optional texts (FilesConfig.exclude {}) fields "exclude"
  return ⟨exclude⟩

end FilesConfig

namespace SeverityTable

/-- Of two entries under one name the later counts. -/
def ofDocument? (d : δ) : Option SeverityTable := do
  let entries ← (← table? d).mapM fun (id, d) => return (id, ← choice Severity.ofId? d)
  return ofList entries

end SeverityTable

namespace RulesConfig

def fieldNames : List String := ["disabled", "severity"]

def ofDocument? (d : δ) : Option RulesConfig := do
  let fields ← record? fieldNames d
  let disabled ← optional texts [] fields "disabled"
  let severity ← optional SeverityTable.ofDocument? .empty fields "severity"
  return ⟨disabled, severity⟩

end RulesConfig

namespace Config

def fieldNames : List String := ["engine", "output", "files", "rules", "language"]

def ofDocument? (d : δ) : Option Config := do
  let fields ← record? fieldNames d
  let engine ← optional EngineConfig.ofDocument? {} fields "engine"
  let output ← optional OutputConfig.ofDocument? {} fields "output"
  let files ← optional FilesConfig.ofDocument? {} fields "files"
  let rules ← optional RulesConfig.ofDocument? {} fields "rules"
  let language ← optional (nullable (choice Language.ofId?)) none fields "language"
  return ⟨engine, output, files, rules, language⟩

end Config

end

end SnippetLint
