/-
Configurations survive being written as JSON.

A configuration is written with every setting in it and read with every setting optional.  A field
that is left out leaves the others as they are, since a field is looked up by its name alone
(`optional_without`).  So for each section there is one lemma, for any set of settings left out of it,
and the whole configuration is a section of sections.
-/
import SnippetLint.Config.Reader
import SnippetLint.Config.Writer
import SnippetLint.Proofs.Config.Merge
import SnippetLint.Proofs.Json.Reader

namespace SnippetLint

open Document

/-! ### Leaving out -/

namespace Json

/-- An object without the members of some names. -/
def without (omitted : String → Bool) : Json → Json
  | .object members => .object (members.filter fun (name, _) => !omitted name)
  | v => v

/-- An object whose members are changed, each in the way that its name tells. -/
def mapMembers (change : String → Json → Json) : Json → Json
  | .object members => .object (members.map fun (name, v) => (name, change name v))
  | v => v

theorem Plain.without {v : Json} (h : v.Plain) (omitted : String → Bool) :
    (v.without omitted).Plain := by
  cases h with
  | object hmembers => exact .object fun member hmem => hmembers member (List.mem_filter.mp hmem).1
  | null => exact .null
  | flag b => exact .flag b
  | count n => exact .count n
  | text s => exact .text s
  | array hitems => exact .array hitems

theorem Plain.mapMembers {v : Json} (h : v.Plain) {change : String → Json → Json}
    (hchange : ∀ name {w : Json}, w.Plain → (change name w).Plain) : (v.mapMembers change).Plain := by
  cases h with
  | object hmembers =>
      refine .object fun member hmem => ?_
      obtain ⟨⟨name, w⟩, hw, rfl⟩ := List.mem_map.mp hmem
      exact hchange name (hmembers _ hw)
  | null => exact .null
  | flag b => exact .flag b
  | count n => exact .count n
  | text s => exact .text s
  | array hitems => exact .array hitems

end Json

section

variable {δ α : Type} {entries : List (String × δ)} {name : String}

theorem filter_named_without (omitted : String → Bool) :
    (entries.filter fun (n, _) => !omitted n).filter (fun (n, _) => n == name) =
      if omitted name then [] else entries.filter fun (n, _) => n == name := by
  rw [List.filter_filter]
  split
  · rename_i homitted
    refine List.filter_eq_nil_iff.mpr fun entry _ => ?_
    by_cases hn : entry.1 = name
    · simp [hn, homitted]
    · simp [hn]
  · rename_i hkept
    refine List.filter_congr fun entry _ => ?_
    by_cases hn : entry.1 = name
    · simp [hn, hkept]
    · simp [hn]

/-- An optional field that is left out has its default, and any other is what it was. -/
theorem Document.optional_without [Document δ] {read : δ → Option α} {default value : α}
    (h : optional read default entries name = some value) (omitted : String → Bool) :
    optional read default (entries.filter fun (n, _) => !omitted n) name =
      some (if omitted name then default else value) := by
  rw [optional, field?, filter_named_without]
  split
  · rfl
  · exact h

end

/-! ### Sections -/

section

variable (omitted : String → Bool)

/-- The settings of a section, but for some that have their defaults. -/
def EngineConfig.reset (c : EngineConfig) : EngineConfig where
  parallel := if omitted "parallel" then ({} : EngineConfig).parallel else c.parallel
  jobs := if omitted "jobs" then ({} : EngineConfig).jobs else c.jobs

@[inherit_doc EngineConfig.reset]
def OutputConfig.reset (c : OutputConfig) : OutputConfig where
  format := if omitted "format" then ({} : OutputConfig).format else c.format
  color := if omitted "color" then ({} : OutputConfig).color else c.color
  statistics := if omitted "statistics" then ({} : OutputConfig).statistics else c.statistics

@[inherit_doc EngineConfig.reset]
def FilesConfig.reset (c : FilesConfig) : FilesConfig where
  exclude := if omitted "exclude" then ({} : FilesConfig).exclude else c.exclude

@[inherit_doc EngineConfig.reset]
def RulesConfig.reset (c : RulesConfig) : RulesConfig where
  disabled := if omitted "disabled" then ({} : RulesConfig).disabled else c.disabled
  severity := if omitted "severity" then ({} : RulesConfig).severity else c.severity

theorem Document.texts_map (l : List String) : texts (Json.array (l.map .text)) = some l := by
  show (l.map Json.text).mapM text? = some l
  exact Json.mapM_map_eq_some fun _ _ => rfl

theorem EngineConfig.ofDocument?_without (c : EngineConfig) :
    ofDocument? (c.toJson.without omitted) = some (c.reset omitted) := by
  have hfields : record? fieldNames (c.toJson.without omitted) =
      some (c.toJson.members.filter fun (name, _) => !omitted name) := rfl
  have hparallel : Document.optional flag? true c.toJson.members "parallel" = some c.parallel :=
    rfl
  have hjobs : Document.optional count? 0 c.toJson.members "jobs" = some c.jobs.toNat :=
    if_pos (show c.jobs.toNat < countLimit from c.jobs.toNat_lt)
  simp only [ofDocument?, hfields, Option.bind_eq_bind, Option.bind_some,
    optional_without hparallel, optional_without hjobs, apply_ite UInt64.ofNat, UInt64.ofNat_toNat]
  rfl

theorem OutputConfig.ofDocument?_without (c : OutputConfig) :
    ofDocument? (c.toJson.without omitted) = some (c.reset omitted) := by
  have hfields : record? fieldNames (c.toJson.without omitted) =
      some (c.toJson.members.filter fun (name, _) => !omitted name) := rfl
  have hformat : Document.optional (choice OutputFormat.ofId?) .text c.toJson.members "format" =
      some c.format := OutputFormat.ofId?_id c.format
  have hcolor : Document.optional (choice ColorMode.ofId?) .auto c.toJson.members "color" =
      some c.color := ColorMode.ofId?_id c.color
  have hstatistics : Document.optional flag? true c.toJson.members "statistics" =
      some c.statistics := rfl
  simp only [ofDocument?, hfields, Option.bind_eq_bind, Option.bind_some,
    optional_without hformat, optional_without hcolor, optional_without hstatistics]
  rfl

theorem FilesConfig.ofDocument?_without (c : FilesConfig) :
    ofDocument? (c.toJson.without omitted) = some (c.reset omitted) := by
  have hfields : record? fieldNames (c.toJson.without omitted) =
      some (c.toJson.members.filter fun (name, _) => !omitted name) := rfl
  have hexclude : Document.optional texts (FilesConfig.exclude {}) c.toJson.members "exclude" =
      some c.exclude := texts_map c.exclude
  simp only [ofDocument?, hfields, Option.bind_eq_bind, Option.bind_some, optional_without hexclude]
  rfl

/-- An entry of a table as it is written. -/
def SeverityTable.entryJson (entry : String × Severity) : String × Json :=
  (entry.1, .text entry.2.id)

theorem SeverityTable.ofDocument?_toJson (table : SeverityTable) :
    ofDocument? table.toJson = some table := by
  have hentries : (table.entries.map entryJson).mapM
      (fun (id, d) => do return (id, ← choice Severity.ofId? d)) = some table.entries := by
    refine Json.mapM_map_eq_some fun entry _ => ?_
    show (Severity.ofId? entry.2.id).bind (fun severity => some (entry.1, severity)) = some entry
    rw [Severity.ofId?_id, Option.bind_some]
  have hlist : table? table.toJson = some (table.entries.map entryJson) := rfl
  rw [ofDocument?, hlist, Option.bind_eq_bind, Option.bind_some, hentries, Option.bind_eq_bind,
    Option.bind_some, ofList, empty_insertAll]
  rfl

theorem RulesConfig.ofDocument?_without (c : RulesConfig) :
    ofDocument? (c.toJson.without omitted) = some (c.reset omitted) := by
  have hfields : record? fieldNames (c.toJson.without omitted) =
      some (c.toJson.members.filter fun (name, _) => !omitted name) := rfl
  have hdisabled : Document.optional texts [] c.toJson.members "disabled" = some c.disabled :=
    texts_map c.disabled
  have hseverity : Document.optional SeverityTable.ofDocument? .empty c.toJson.members "severity" =
      some c.severity := c.severity.ofDocument?_toJson
  simp only [ofDocument?, hfields, Option.bind_eq_bind, Option.bind_some,
    optional_without hdisabled, optional_without hseverity]
  rfl

end

/-! ### Whole configurations -/

/-- Settings that are left out of a configuration. -/
structure Omission where
  /-- The sections and settings that are left out as a whole. -/
  whole : String → Bool
  /-- The settings that are left out of the section of a name. -/
  inside : String → String → Bool

/-- A document without some settings. -/
def Json.cut (o : Omission) (v : Json) : Json :=
  (v.mapMembers fun name w => w.without (o.inside name)).without o.whole

/-- Nothing is left out. -/
def Omission.nothing : Omission := ⟨fun _ => false, fun _ _ => false⟩

theorem Json.cut_nothing (v : Json) : v.cut .nothing = v := by
  have hwithout : ∀ w : Json, w.without (fun _ => false) = w := by
    intro w
    cases w <;> simp [without]
  have hmap : v.mapMembers (fun _ w => w) = v := by
    cases v <;> simp [mapMembers]
  simp only [cut, Omission.nothing, hwithout, hmap]

namespace Config

/-- The settings of a configuration, but for some that have their defaults. -/
def reset (o : Omission) (c : Config) : Config where
  engine := if o.whole "engine" then ({} : Config).engine else c.engine.reset (o.inside "engine")
  output := if o.whole "output" then ({} : Config).output else c.output.reset (o.inside "output")
  files := if o.whole "files" then ({} : Config).files else c.files.reset (o.inside "files")
  rules := if o.whole "rules" then ({} : Config).rules else c.rules.reset (o.inside "rules")
  language := if o.whole "language" then ({} : Config).language else c.language

theorem plain_toJson (c : Config) : c.toJson.Plain := by
  have hengine : c.engine.toJson.Plain := .object (by simp [Json.Plain.flag, Json.Plain.count])
  have houtput : c.output.toJson.Plain := .object (by simp [Json.Plain.text, Json.Plain.flag])
  have hfiles : c.files.toJson.Plain := .object (by simp [Json.Plain.array_map Json.Plain.text])
  have hseverity : c.rules.severity.toJson.Plain := by
    refine .object fun member hmember => ?_
    obtain ⟨entry, -, rfl⟩ := List.mem_map.mp hmember
    exact .text _
  have hrules : c.rules.toJson.Plain :=
    .object (by simp [Json.Plain.array_map Json.Plain.text, hseverity])
  refine .object ?_
  cases c.language <;>
    simp [hengine, houtput, hfiles, hrules, Json.Plain.null, Json.Plain.text]

theorem ofDocument?_cut (c : Config) (o : Omission) :
    ofDocument? (c.toJson.cut o) = some (c.reset o) := by
  let sections := c.toJson.mapMembers fun name w => w.without (o.inside name)
  have hfields : record? fieldNames (c.toJson.cut o) =
      some (sections.members.filter fun (name, _) => !o.whole name) := rfl
  have hengine : Document.optional EngineConfig.ofDocument? {} sections.members "engine" =
      some (c.engine.reset (o.inside "engine")) := c.engine.ofDocument?_without _
  have houtput : Document.optional OutputConfig.ofDocument? {} sections.members "output" =
      some (c.output.reset (o.inside "output")) := c.output.ofDocument?_without _
  have hfiles : Document.optional FilesConfig.ofDocument? {} sections.members "files" =
      some (c.files.reset (o.inside "files")) := c.files.ofDocument?_without _
  have hrules : Document.optional RulesConfig.ofDocument? {} sections.members "rules" =
      some (c.rules.reset (o.inside "rules")) := c.rules.ofDocument?_without _
  have hlanguage : Document.optional (nullable (choice Language.ofId?)) none sections.members
      "language" = some c.language := by
    obtain ⟨engine, output, files, rules, language⟩ := c
    cases language with
    | none => rfl
    | some l => exact congrArg (Option.map some) (Language.ofId?_id l)
  simp only [ofDocument?, hfields, Option.bind_eq_bind, Option.bind_some, optional_without hengine,
    optional_without houtput, optional_without hfiles, optional_without hrules,
    optional_without hlanguage]
  rfl

theorem plain_cut (c : Config) (o : Omission) : (c.toJson.cut o).Plain :=
  (c.plain_toJson.mapMembers fun name _ h => h.without (o.inside name)).without o.whole

/-- **A configuration survives being written as JSON.**  It is read back as it was from what it is
written as, in either layout, whatever patterns, rules and severities it lists.  And where any sections
and any settings are left out of what is written, it is read back with just these at their defaults. -/
theorem read?_toJson (c : Config) (layout : Json.Layout) (o : Omission) :
    (Json.read? (Json.render layout c.toJson)).bind ofDocument? = some c ∧
      (Json.read? (Json.render layout (c.toJson.cut o))).bind ofDocument? = some (c.reset o) := by
  have hall := c.ofDocument?_cut .nothing
  rw [Json.cut_nothing] at hall
  rw [Json.read?_render layout c.plain_toJson, Json.read?_render layout (c.plain_cut o)]
  exact ⟨hall, c.ofDocument?_cut o⟩

end Config

end SnippetLint
