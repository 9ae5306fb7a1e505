/-
Writing a configuration as JSON, with every setting in it.
-/
import SnippetLint.Config.Basic
import SnippetLint.Json.Basic

namespace SnippetLint

def EngineConfig.toJson (c : EngineConfig) : Json :=
  .object [("parallel", .flag c.parallel), ("jobs", .count c.jobs.toNat)]

def OutputConfig.toJson (c : OutputConfig) : Json :=
  .object [("format", .text c.format.id), ("color", .text c.color.id),
    ("statistics", .flag c.statistics)]

def FilesConfig.toJson (c : FilesConfig) : Json :=
  .object [("exclude", .array (c.exclude.map .text))]

def SeverityTable.toJson (table : SeverityTable) : Json :=
  .object (table.entries.map fun (id, severity) => (id, .text severity.id))

def RulesConfig.toJson (c : RulesConfig) : Json :=
  .object [("disabled", .array (c.disabled.map .text)), ("severity", c.severity.toJson)]

def Config.toJson (c : Config) : Json :=
  .object [("engine", c.engine.toJson), ("output", c.output.toJson), ("files", c.files.toJson),
    ("rules", c.rules.toJson),
    ("language", match c.language with
      | none => .null
      | some language => .text language.id)]

end SnippetLint
