/-
Which layer decides a setting.

A configuration file writes some settings and leaves out others, but what is laid over the layer below
is a whole configuration, in which a setting that was left out has its default.  So a layer cannot tell
"not written" from "written, and the default", and in both cases the layer below decides.  Anything
else that is written decides.

`Config.Scalar` names the settings with a single value.  For each of them there are three facts: a file
is read to what it writes or else the default (`get_load`), a layer that differs from the default wins
(`get_merge_of_ne`), and one that does not changes nothing (`get_merge_of_eq`).
-/
import SnippetLint.Proofs.Config.Validity

namespace SnippetLint

/-! ### Fields of a record -/

namespace Document

section

variable {δ α σ : Type} [Document δ]

/-- What a document gives for a field, if it is a record that has the field once. -/
def given? (names : List String) (name : String) (d : δ) : Option δ :=
  (record? names d).bind fun entries => (field? entries name).join

theorem given?_eq {names : List String} {name : String} {d : δ} {entries : List (String × δ)}
    (h : record? names d = some entries) : given? names name d = (field? entries name).join := by
  rw [given?, h, Option.bind_some]

omit [Document δ] in
theorem optional_eq_some {read : δ → Option α} {default value : α} {entries : List (String × δ)}
    {name : String} (h : optional read default entries name = some value) :
    (field? entries name = some none ∧ value = default) ∨
      ∃ d, field? entries name = some (some d) ∧ read d = some value := by
  rw [optional] at h
  cases hfield : field? entries name with
  | none => simp [hfield] at h
  | some given =>
      cases given with
      | none => exact .inl ⟨rfl, by simpa [hfield] using h.symm⟩
      | some d => exact .inr ⟨d, rfl, by simpa [hfield] using h⟩

/-- A setting that is told from an optional field: what the field gives for it, or else its default. -/
theorem get_optional (get : σ → α) {read : δ → Option σ} {default value : σ}
    {entries : List (String × δ)} {names : List String} {name : String} {d : δ}
    {written? : δ → Option α}
    (hread : ∀ {inner c}, read inner = some c → get c = (written? inner).getD (get default))
    (hentries : record? names d = some entries)
    (h : optional read default entries name = some value) :
    get value = ((given? names name d).bind written?).getD (get default) := by
  rw [given?_eq hentries]
  rcases optional_eq_some h with ⟨hfield, rfl⟩ | ⟨inner, hfield, hinner⟩
  · rw [hfield]
    rfl
  · rw [hfield, Option.join_some, Option.bind_some]
    exact hread hinner

/-- A setting that is the value of an optional field. -/
theorem value_optional {read : δ → Option α} {default value : α} {entries : List (String × δ)}
    {names : List String} {name : String} {d : δ} (hentries : record? names d = some entries)
    (h : optional read default entries name = some value) :
    value = ((given? names name d).bind read).getD default :=
  get_optional id (fun hinner => by rw [hinner]; rfl) hentries h

end

end Document

open Document

section

variable {δ : Type} [Document δ] {d : δ}

/-- The number of jobs that a document stands for. -/
def EngineConfig.jobs? (d : δ) : Option UInt64 := (count? d).map UInt64.ofNat

theorem EngineConfig.settings_of_ofDocument? {c : EngineConfig}
    (h : EngineConfig.ofDocument? d = some c) :
    c.parallel = ((given? fieldNames "parallel" d).bind flag?).getD true ∧
      c.jobs = ((given? fieldNames "jobs" d).bind jobs?).getD 0 := by
  simp only [EngineConfig.ofDocument?, Option.bind_eq_bind, Option.bind_eq_some_iff] at h
  obtain ⟨fields, hfields, parallel, hparallel, jobs, hjobs, hc⟩ := h
  obtain rfl := Option.some.inj hc
  refine ⟨value_optional hfields hparallel, ?_⟩
  rw [value_optional hfields hjobs]
  cases given? fieldNames "jobs" d with
  | none => rfl
  | some inner => cases hcount : count? inner <;> simp [jobs?, hcount]

theorem OutputConfig.settings_of_ofDocument? {c : OutputConfig}
    (h : OutputConfig.ofDocument? d = some c) :
    c.format = ((given? fieldNames "format" d).bind (choice OutputFormat.ofId?)).getD .text ∧
      c.color = ((given? fieldNames "color" d).bind (choice ColorMode.ofId?)).getD .auto ∧
      c.statistics = ((given? fieldNames "statistics" d).bind flag?).getD true := by
  simp only [OutputConfig.ofDocument?, Option.bind_eq_bind, Option.bind_eq_some_iff] at h
  obtain ⟨fields, hfields, format, hformat, color, hcolor, statistics, hstatistics, hc⟩ := h
  obtain rfl := Option.some.inj hc
  exact ⟨value_optional hfields hformat, value_optional hfields hcolor,
    value_optional hfields hstatistics⟩

end

namespace Config

/-- The settings that have a single value. -/
inductive Scalar where
  | parallel | jobs | format | color | statistics | language
  deriving DecidableEq, Repr

namespace Scalar

/-- The values of a setting. -/
abbrev Value : Scalar → Type
  | parallel => Bool
  | jobs => UInt64
  | format => OutputFormat
  | color => ColorMode
  | statistics => Bool
  | language => Option Language

/-- The value in a configuration. -/
def get : (s : Scalar) → Config → s.Value
  | parallel, c => c.engine.parallel
  | jobs, c => c.engine.jobs
  | format, c => c.output.format
  | color, c => c.output.color
  | statistics, c => c.output.statistics
  | language, c => c.language

/-- The value where nothing is said of a setting. -/
def default (s : Scalar) : s.Value := s.get {}

/-! ### What is written, and what is read -/

section

variable {δ : Type} [Document δ]

/-- What a document writes for a setting of the section on linting. -/
def inEngine? {α : Type} (name : String) (read : δ → Option α) (d : δ) : Option α :=
  (given? fieldNames "engine" d).bind fun inner =>
    (given? EngineConfig.fieldNames name inner).bind read

/-- What a document writes for a setting of the section on output. -/
def inOutput? {α : Type} (name : String) (read : δ → Option α) (d : δ) : Option α :=
  (given? fieldNames "output" d).bind fun inner =>
    (given? OutputConfig.fieldNames name inner).bind read

/-- The value that a document writes for a setting, if it writes one. -/
def written? : (s : Scalar) → δ → Option s.Value
  | parallel, d => inEngine? "parallel" flag? d
  | jobs, d => inEngine? "jobs" EngineConfig.jobs? d
  | format, d => inOutput? "format" (choice OutputFormat.ofId?) d
  | color, d => inOutput? "color" (choice ColorMode.ofId?) d
  | statistics, d => inOutput? "statistics" flag? d
  | language, d => (given? fieldNames "language" d).bind (nullable (choice Language.ofId?))

/-- A document is read to what it writes, and to the default of what it does not. -/
theorem get_ofDocument? {d : δ} {c : Config} (h : Config.ofDocument? d = some c) (s : Scalar) :
    s.get c = (s.written? d).getD s.default := by
  simp only [Config.ofDocument?, Option.bind_eq_bind, Option.bind_eq_some_iff] at h
  obtain ⟨fields, hfields, engine, hengine, output, houtput, files, -, rules, -, language, hlanguage,
    hc⟩ := h
  obtain rfl := Option.some.inj hc
  cases s with
  | parallel =>
      exact get_optional EngineConfig.parallel
        (fun hread => (EngineConfig.settings_of_ofDocument? hread).1) hfields hengine
  | jobs =>
      exact get_optional EngineConfig.jobs
        (fun hread => (EngineConfig.settings_of_ofDocument? hread).2) hfields hengine
  | format =>
      exact get_optional OutputConfig.format
        (fun hread => (OutputConfig.settings_of_ofDocument? hread).1) hfields houtput
  | color =>
      exact get_optional OutputConfig.color
        (fun hread => (OutputConfig.settings_of_ofDocument? hread).2.1) hfields houtput
  | statistics =>
      exact get_optional OutputConfig.statistics
        (fun hread => (OutputConfig.settings_of_ofDocument? hread).2.2) hfields houtput
  | language => exact value_optional hfields hlanguage

end

/-- What a text in the notation of an extension writes for a setting. -/
def inText? (s : Scalar) (extension text : String) : Option s.Value :=
  if extension = "yaml" ∨ extension = "yml" then (Yaml.read? text).bind s.written?
  else if extension = "json" then (Json.read? text).bind s.written?
  else none

/-- What a file writes for a setting. -/
def inFile? (s : Scalar) (files : FileSystem) (path : String) : Option s.Value :=
  match files.readText path with
  | .ok text => s.inText? ((Path.extension? path).getD "") text
  | .error _ => none

/-- What the configuration file in a directory writes for a setting. -/
def inDirectory? (s : Scalar) (files : FileSystem) (directory : String) : Option s.Value :=
  (findIn files directory).bind (s.inFile? files)

section

variable {c : Config}

theorem get_ofRead {δ : Type} [Document δ] {document : Option δ} {error : ConfigError}
    (h : (match document >>= Config.ofDocument? with
      | some c => Except.ok c
      | none => .error error) = .ok c) (s : Scalar) :
    s.get c = (document.bind s.written?).getD s.default := by
  cases document with
  | none => simp at h
  | some d =>
      rw [Option.bind_eq_bind, Option.bind_some] at h
      cases hd : Config.ofDocument? d with
      | none => simp [hd] at h
      | some read =>
          rw [hd] at h
          exact Except.ok.inj h ▸ get_ofDocument? hd s

theorem get_ofText {extension text : String} (h : ofText extension text = .ok c) (s : Scalar) :
    s.get c = (s.inText? extension text).getD s.default := by
  unfold ofText at h
  unfold inText?
  by_cases hyaml : extension = "yaml" ∨ extension = "yml"
  · rw [if_pos hyaml] at h ⊢
    exact get_ofRead h s
  · rw [if_neg hyaml] at h ⊢
    by_cases hjson : extension = "json"
    · rw [if_pos hjson] at h ⊢
      exact get_ofRead h s
    · simp [hjson] at h

theorem get_load {files : FileSystem} {path : String} (h : load files path = .ok c) (s : Scalar) :
    s.get c = (s.inFile? files path).getD s.default := by
  obtain ⟨text, htext, hread, -⟩ := load_eq_ok_iff.mp h
  rw [inFile?, htext]
  exact get_ofText hread s

end

/-! ### Layers -/

section

variable {s : Scalar} {below layer : Config}

/-- A layer decides where it differs from the default. -/
theorem get_merge_of_ne (h : s.get layer ≠ s.default) : s.get (below.merge layer) = s.get layer := by
  cases s with
  | parallel =>
      have hoff : layer.engine.parallel = false := eq_false_of_ne_true h
      change (below.engine.parallel && layer.engine.parallel) = layer.engine.parallel
      rw [hoff, Bool.and_false]
  | jobs => exact if_pos h
  | format => exact if_pos h
  | color => exact if_pos h
  | statistics =>
      have hoff : layer.output.statistics = false := eq_false_of_ne_true h
      change (below.output.statistics && layer.output.statistics) = layer.output.statistics
      rw [hoff, Bool.and_false]
  | language =>
      obtain ⟨language, hlanguage⟩ : ∃ l, layer.language = some l := Option.ne_none_iff_exists'.mp h
      change (layer.language <|> below.language) = layer.language
      rw [hlanguage]
      rfl

/-- Where a layer has the default, it leaves the decision to the layer below. -/
theorem get_merge_of_eq (h : s.get layer = s.default) : s.get (below.merge layer) = s.get below := by
  cases s with
  | parallel =>
      have hon : layer.engine.parallel = true := h
      change (below.engine.parallel && layer.engine.parallel) = below.engine.parallel
      rw [hon, Bool.and_true]
  | jobs => exact if_neg (fun hne => hne h)
  | format => exact if_neg (fun hne => hne h)
  | color => exact if_neg (fun hne => hne h)
  | statistics =>
      have hon : layer.output.statistics = true := h
      change (below.output.statistics && layer.output.statistics) = below.output.statistics
      rw [hon, Bool.and_true]
  | language =>
      have hnone : layer.language = none := h
      change (layer.language <|> below.language) = below.language
      rw [hnone]
      rfl

end

section

variable {files : FileSystem} {s : Scalar}

/-- A directory decides a setting if its file writes something else than the default for it. -/
theorem get_layer {base c : Config} {directory : String} (h : layer files base directory = .ok c) :
    (∀ v, s.inDirectory? files directory = some v → v ≠ s.default → s.get c = v) ∧
      ((s.inDirectory? files directory).getD s.default = s.default → s.get c = s.get base) := by
  unfold layer at h
  unfold inDirectory?
  cases hpath : findIn files directory with
  | none =>
      simp only [hpath] at h
      obtain rfl := Except.ok.inj h
      exact ⟨by simp, fun _ => rfl⟩
  | some path =>
      simp only [hpath] at h
      obtain ⟨read, hread, hmerge⟩ := bind_eq_ok_iff.mp h
      obtain rfl := Except.ok.inj hmerge
      rw [Option.bind_some]
      have hget := get_load hread s
      refine ⟨fun v hv hne => ?_, fun heq => get_merge_of_eq (hget.trans heq)⟩
      rw [hv, Option.getD_some] at hget
      rw [get_merge_of_ne (hget ▸ hne), hget]

/-- What the first layer over the defaults says. -/
theorem get_layer_default {c : Config} {directory : String} (h : layer files {} directory = .ok c) :
    s.get c = (s.inDirectory? files directory).getD s.default := by
  obtain ⟨hdecides, hleaves⟩ := get_layer (s := s) h
  by_cases hdefault : (s.inDirectory? files directory).getD s.default = s.default
  · rw [hdefault]
    exact hleaves hdefault
  · cases hwritten : s.inDirectory? files directory with
    | none => simp [hwritten] at hdefault
    | some v =>
        rw [hwritten, Option.getD_some] at hdefault
        exact hdecides v hwritten hdefault

/-- What the layers below that of the project say. -/
theorem get_layers_home {c : Config} {home : Option String}
    (h : home.toList.foldlM (layer files) {} = .ok c) :
    s.get c = (home.bind (s.inDirectory? files)).getD s.default := by
  cases home with
  | none => exact Except.ok.inj h ▸ rfl
  | some directory =>
      obtain ⟨next, hnext, hc⟩ := bind_eq_ok_iff.mp h
      exact Except.ok.inj hc ▸ get_layer_default hnext

end

end Scalar

/-! ### Two files -/

section

variable {files : FileSystem} {home : Option String} {project : String}

/-- Directories whose configuration files can all be used have a configuration together. -/
theorem exists_loadLayered
    (hvalid : ∀ directory ∈ layerDirectories home project, ∀ path ∈ findIn files directory,
      (load files path).isOk = true) :
    ∃ c, loadLayered files home project = .ok c := by
  refine exists_foldlM (fun base directory hdirectory => ?_) _
  unfold layer
  cases hpath : findIn files directory with
  | none => exact ⟨base, rfl⟩
  | some path =>
      obtain ⟨read, hread⟩ := isOk_iff.mp (hvalid directory hdirectory path hpath)
      exact ⟨base.merge read, bind_eq_ok_iff.mpr ⟨read, hread, rfl⟩⟩

/-- **Of two files the later decides, where it does not write a default.**  If the configuration files
that there are can be used, then a setting has the value that the project's file writes for it, unless
it writes none or the default; then it has the value that the user's file writes, or else the default. -/
theorem loadLayered_scalar
    (hvalid : ∀ directory ∈ layerDirectories home project, ∀ path ∈ findIn files directory,
      (load files path).isOk = true) :
    ∃ c, loadLayered files home project = .ok c ∧ ∀ s : Scalar,
      (∀ v, s.inDirectory? files project = some v → v ≠ s.default → s.get c = v) ∧
        (s.inDirectory? files project = none ∨ s.inDirectory? files project = some s.default →
          s.get c = (home.bind (s.inDirectory? files)).getD s.default) := by
  obtain ⟨c, hc⟩ := exists_loadLayered hvalid
  refine ⟨c, hc, fun s => ?_⟩
  have hdefault : s.inDirectory? files project = none ∨
      s.inDirectory? files project = some s.default →
        (s.inDirectory? files project).getD s.default = s.default := by
    rintro (h | h) <;> rw [h] <;> rfl
  unfold loadLayered layerDirectories at hc
  split at hc
  · rename_i hsame
    obtain ⟨next, hnext, hc⟩ := bind_eq_ok_iff.mp hc
    obtain rfl := Except.ok.inj hc
    obtain ⟨hdecides, -⟩ := Scalar.get_layer (s := s) hnext
    refine ⟨hdecides, fun h => ?_⟩
    rw [Scalar.get_layer_default hnext, hsame, Option.bind_some]
  · rw [List.foldlM_append] at hc
    obtain ⟨base, hbase, hc⟩ := bind_eq_ok_iff.mp hc
    obtain ⟨next, hnext, hc⟩ := bind_eq_ok_iff.mp hc
    obtain rfl := Except.ok.inj hc
    obtain ⟨hdecides, hleaves⟩ := Scalar.get_layer (s := s) hnext
    exact ⟨hdecides, fun h => (hleaves (hdefault h)).trans (Scalar.get_layers_home hbase)⟩

end

theorem loadLayered_scalar_two_files :
    let files := diskWith
      (.object [("engine", .object [("parallel", .flag false), ("jobs", .count 4)]),
        ("language", .text "php")])
      (.object [("engine", .object [("parallel", .flag true)]), ("language", .text "go")])
    (∀ directory ∈ layerDirectories (some "/home") "/work", ∀ path ∈ findIn files directory,
        (load files path).isOk = true) ∧
      ∃ c, loadLayered files (some "/home") "/work" = .ok c ∧ c.language = some .go ∧
        c.engine.parallel = false ∧ c.engine.jobs = 4 := by
  intro files
  obtain ⟨hvalid, hlanguage, hparallel, hjobs, hhome⟩ :
      (∀ directory ∈ layerDirectories (some "/home") "/work", ∀ path ∈ findIn files directory,
        (load files path).isOk = true) ∧
      Scalar.language.inDirectory? files "/work" = some (some .go) ∧
      Scalar.parallel.inDirectory? files "/work" = some true ∧
      Scalar.jobs.inDirectory? files "/work" = none ∧
      Scalar.parallel.inDirectory? files "/home" = some false ∧
      Scalar.jobs.inDirectory? files "/home" = some 4 := by decide +kernel
  obtain ⟨c, hc, hscalar⟩ := loadLayered_scalar hvalid
  refine ⟨hvalid, c, hc, (hscalar .language).1 _ hlanguage (by decide), ?_, ?_⟩
  · exact ((hscalar .parallel).2 (.inr hparallel)).trans (congrArg (Option.getD · true) hhome.1)
  · exact ((hscalar .jobs).2 (.inl hjobs)).trans (congrArg (Option.getD · 0) hhome.2)

/-- A project cannot turn on again what the user has turned off: the default that it writes is taken
for nothing. -/
theorem loadLayered_written_default :
    let files := diskWith (.object [("engine", .object [("parallel", .flag false)])])
      (.object [("engine", .object [("parallel", .flag true)])])
    (∀ directory ∈ layerDirectories (some "/home") "/work", ∀ path ∈ findIn files directory,
        (load files path).isOk = true) ∧
      Scalar.parallel.inDirectory? files "/work" = some true ∧
      ∃ c, loadLayered files (some "/home") "/work" = .ok c ∧ Scalar.parallel.get c = false := by
  intro files
  obtain ⟨hvalid, hwritten, hread⟩ :
      (∀ directory ∈ layerDirectories (some "/home") "/work", ∀ path ∈ findIn files directory,
        (load files path).isOk = true) ∧
      Scalar.parallel.inDirectory? files "/work" = some true ∧
      (loadLayered files (some "/home") "/work").toOption.map Scalar.parallel.get = some false := by
    decide +kernel
  exact ⟨hvalid, hwritten, exists_of_toOption_map hread⟩

end Config

end SnippetLint
