/-
Layering configurations.

A later layer speaks where it differs from the defaults. Lists grow, severities are replaced entry by
entry, and a setting can be switched off by a later layer but not on again.
-/
import SnippetLint.Config.Basic

namespace SnippetLint

/-- With a member at the end, unless it is there. -/
def addMissing (l : List String) (s : String) : List String := if l.contains s then l else l ++ [s]

namespace Config

/-- A configuration with another laid over it. -/
def merge (base layer : Config) : Config where
  engine :=
    { parallel := base.engine.parallel && layer.engine.parallel
      jobs := if layer.engine.jobs ≠ 0 then layer.engine.jobs else base.engine.jobs }
  output :=
    { format := if layer.output.format ≠ .text then layer.output.format else base.output.format
      color := if layer.output.color ≠ .auto then layer.output.color else base.output.color
      statistics := base.output.statistics && layer.output.statistics }
  files := { exclude := layer.files.exclude.foldl addMissing base.files.exclude }
  rules :=
    { disabled := base.rules.disabled ++ layer.rules.disabled
      severity := base.rules.severity.insertAll layer.rules.severity.entries }
  language := layer.language <|> base.language

/-- What the command line may say about the configuration. -/
structure Overrides where
  format : Option OutputFormat := none
  color : Option ColorMode := none
  jobs : Option UInt64 := none
  disabled : Option (List String) := none
  language : Option Language := none

/-- A configuration with the command line's say. -/
def override (c : Config) (o : Overrides) : Config :=
  { c with
    engine := { c.engine with jobs := o.jobs.getD c.engine.jobs }
    output :=
      { c.output with format := o.format.getD c.output.format, color := o.color.getD c.output.color }
    rules := { c.rules with disabled := c.rules.disabled ++ o.disabled.getD [] }
    language := o.language <|> c.language }

end Config

end SnippetLint
