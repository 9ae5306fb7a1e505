/-
Configurations that nothing is wrong with.

Only files are checked, each by itself, right after it has been read; what a run lints with is put
together afterwards and not checked again.  It need not be: a merged list of patterns holds patterns of
the two lists only, a merged language is one of the two, the defaults are valid, and the one thing that
the command line could spoil, the language, is checked where the command line is read.  So validity is
kept on every way from a file to a run, and each pattern of a run's configuration is a glob.  Whether
the globs can be compiled together is asked of no configuration: it shows only when paths are matched.
-/
import SnippetLint.CommandLine.Run
import SnippetLint.Json.Printer
import SnippetLint.Proofs.Config.Union
import SnippetLint.Proofs.Except

namespace SnippetLint

namespace Config

/-- Every pattern is a glob, and the language is a known one. -/
structure Valid (c : Config) : Prop where
  exclude : ∀ glob ∈ c.files.exclude, (Glob.parse glob).isOk = true
  language : c.language ≠ some .unknown

/-! ### Checks -/

theorem excludeFault?_eq_none_iff {glob : String} :
    excludeFault? glob = none ↔ (Glob.parse glob).isOk = true := by
  unfold excludeFault?
  cases Glob.parse glob with
  | ok parts => simp [Except.isOk, Except.toBool]
  | error e => simp [Except.isOk, Except.toBool]

theorem fault?_eq_none_iff {c : Config} : c.fault? = none ↔ c.Valid := by
  have hlanguage : (if c.language = some .unknown then some ConfigFault.unknownLanguage else none) =
      none ↔ c.language ≠ some .unknown := by
    split <;> simp [*]
  rw [fault?, Option.orElse_eq_orElse, Option.orElse_eq_or, Option.or_eq_none_iff, hlanguage,
    List.findSome?_eq_none_iff]
  simp only [excludeFault?_eq_none_iff]
  exact ⟨fun ⟨hexclude, hlanguage⟩ => ⟨hexclude, hlanguage⟩,
    fun ⟨hexclude, hlanguage⟩ => ⟨hexclude, hlanguage⟩⟩

theorem checked_eq_ok_iff {c read : Config} : read.checked = .ok c ↔ read.Valid ∧ read = c := by
  rw [← fault?_eq_none_iff, checked]
  cases read.fault? <;> simp

/-- A file is read as a whole, and what has been read is valid. -/
theorem load_eq_ok_iff {files : FileSystem} {path : String} {c : Config} :
    load files path = .ok c ↔
      ∃ text, files.readText path = .ok text ∧
        ofText ((Path.extension? path).getD "") text = .ok c ∧ c.Valid := by
  unfold load
  cases files.readText path with
  | error e => simp
  | ok text =>
      simp only [bind_eq_ok_iff, checked_eq_ok_iff, Except.ok.injEq, exists_eq_left']
      refine ⟨?_, fun ⟨hread, hvalid⟩ => ⟨c, hread, hvalid, rfl⟩⟩
      rintro ⟨read, hread, hvalid, rfl⟩
      exact ⟨hread, hvalid⟩

/-! ### Putting configurations together -/

theorem orElse_ne_some {α : Type} {x y : Option α} {a : α} (hx : x ≠ some a) (hy : y ≠ some a) :
    (x <|> y) ≠ some a := by
  cases x with
  | none => exact hy
  | some b => exact hx

theorem valid_default : Valid {} := ⟨by decide +kernel, by decide⟩

theorem Valid.merge {a b : Config} (ha : a.Valid) (hb : b.Valid) : (a.merge b).Valid where
  exclude glob hglob := by
    rcases mem_foldl_addMissing_iff.mp hglob with h | h
    · exact ha.exclude glob h
    · exact hb.exclude glob h
  language := orElse_ne_some hb.language ha.language

theorem Valid.override {c : Config} {o : Overrides} (hc : c.Valid)
    (ho : o.language ≠ some .unknown) : (c.override o).Valid where
  exclude := hc.exclude
  language := orElse_ne_some ho hc.language

/-- One more layer. -/
theorem valid_layer {files : FileSystem} {base c : Config} {directory : String} (hbase : base.Valid)
    (h : layer files base directory = .ok c) : c.Valid := by
  unfold layer at h
  split at h
  · exact Except.ok.inj h ▸ hbase
  · obtain ⟨read, hread, hmerge⟩ := bind_eq_ok_iff.mp h
    obtain ⟨-, -, -, hvalid⟩ := load_eq_ok_iff.mp hread
    exact Except.ok.inj hmerge ▸ hbase.merge hvalid

theorem valid_loadLayered {files : FileSystem} {home : Option String} {project : String} {c : Config}
    (h : loadLayered files home project = .ok c) : c.Valid :=
  foldlM_keeps (fun _ hbase _ _ _ hlayer => valid_layer hbase hlayer) valid_default h

/-- No pattern of a valid configuration is skipped, and a path is passed over if one of the globs that
they are read as matches it, given that the globs can be compiled together. -/
theorem Valid.exists_globs {c : Config} (hc : c.Valid) :
    ∃ globs, c.files.exclude.mapM Glob.parse = .ok globs ∧
      ∀ path, Glob.anyMatches c.files.exclude path = true ↔
        Glob.builds c.files.exclude = true ∧
          ∃ parts ∈ globs, Glob.matchesPath parts path = true := by
  obtain ⟨globs, hglobs⟩ := exists_mapM_iff.mpr fun glob hglob => isOk_iff.mp (hc.exclude glob hglob)
  have hreadable : ∀ parts, parts ∈ Glob.readable c.files.exclude ↔ parts ∈ globs := fun parts => by
    rw [Glob.mem_readable_iff, mem_mapM_iff hglobs]
  refine ⟨globs, hglobs, fun path => ?_⟩
  simp only [Glob.anyMatches_iff, hreadable]

/-- A disk with a configuration of the user and one of the project. -/
def diskWith (home project : Json) : FileSystem where
  root := .directory [("home", directoryWith home), ("work", directoryWith project)]
  working := ["work"]
where
  directoryWith (config : Json) : FileTree :=
    .directory [(".polylintrc.json", .file (config.render .compact).toUTF8)]

end Config

/-! ### Runs -/

namespace CommandLine.Options

variable {o : Options} {env : Environment} {c : Config}

theorem valid_loadConfig (h : o.loadConfig env = .ok c) : c.Valid := by
  unfold loadConfig at h
  split at h
  · obtain ⟨-, -, -, hvalid⟩ := Config.load_eq_ok_iff.mp (mapError_eq_ok_iff.mp h)
    exact hvalid
  · exact Config.valid_loadLayered (mapError_eq_ok_iff.mp h)

theorem effectiveConfig_eq_ok_iff :
    o.effectiveConfig env = .ok c ↔
      ∃ loaded, o.loadConfig env = .ok loaded ∧ o.language ≠ some .unknown ∧
        loaded.override o.overrides = c := by
  rw [effectiveConfig, bind_eq_ok_iff]
  refine exists_congr fun loaded => and_congr_right fun _ => ?_
  by_cases h : o.language = some .unknown
  · simp [h, throw, throwThe, MonadExceptOf.throw, bind, Except.bind]
  · simp [h, pure, Except.pure]

theorem valid_of_effectiveConfig (h : o.effectiveConfig env = .ok c) : c.Valid := by
  obtain ⟨loaded, hloaded, hlanguage, rfl⟩ := effectiveConfig_eq_ok_iff.mp h
  exact (valid_loadConfig hloaded).override hlanguage

/-- A job lints with the configuration of its run. -/
theorem effectiveConfig_of_plan {job : Job} (h : o.plan env = .lint job) :
    o.effectiveConfig env = .ok job.linter.config := by
  unfold plan at h
  split at h
  · simp at h
  · rename_i c hc
    dsimp only at h
    split at h
    · simp at h
    · split at h
      · simp at h
      · split at h
        · simp at h
        · obtain rfl := Plan.lint.inj h
          exact hc

/-- **What a run lints with is valid.**  The configuration that the files and the command line give, if
they give one, has a known language or none, and none of its patterns is skipped, so that a path is
passed over if one of their globs matches it, given that the globs can be compiled together; every job
lints with it.  Merging keeps valid configurations valid, and so does the command line if the language
that it names is not the unknown one. -/
theorem effectiveConfig_valid (o : Options) (env : Environment) :
    (∀ c, o.effectiveConfig env = .ok c →
        c.language ≠ some .unknown ∧
          ∃ globs, c.files.exclude.mapM Glob.parse = .ok globs ∧
            ∀ path, Glob.anyMatches c.files.exclude path = true ↔
              Glob.builds c.files.exclude = true ∧
                ∃ parts ∈ globs, Glob.matchesPath parts path = true) ∧
      (∀ job, o.plan env = .lint job → o.effectiveConfig env = .ok job.linter.config) ∧
      (∀ a b : Config, a.Valid → b.Valid → (a.merge b).Valid) ∧
      ∀ (c : Config) (overrides : Config.Overrides),
        c.Valid → overrides.language ≠ some .unknown → (c.override overrides).Valid := by
  refine ⟨fun c hc => ?_, fun job => effectiveConfig_of_plan, fun a b => .merge,
    fun c overrides => .override⟩
  have hvalid := valid_of_effectiveConfig hc
  exact ⟨hvalid.language, hvalid.exists_globs⟩

theorem effectiveConfig_valid_two_files :
    let o : Options := { source := some "x", language := some .go }
    let env : Environment :=
      { files := Config.diskWith (.object [("files", .object [("exclude", .array [.text "gen/**"])])])
          (.object [("files", .object [("exclude", .array [.text "*.pb.go", .text "gen/**"])]),
            ("language", .text "php")])
        home := some "/home"
        input := .empty }
    ∃ c, o.effectiveConfig env = .ok c ∧ c.language = some .go ∧
      ∃ globs, c.files.exclude.mapM Glob.parse = .ok globs ∧
        Glob.builds c.files.exclude = true ∧
          ∃ parts ∈ globs, Glob.matchesPath parts "api/a.pb.go" = true := by
  intro o env
  have hrun : (o.effectiveConfig env).toOption.map (fun c => (c.language, c.files.exclude)) =
      some (some .go, ({} : FilesConfig).exclude ++ ["gen/**", "*.pb.go"]) := by decide +kernel
  obtain ⟨c, hc, hcontents⟩ := exists_of_toOption_map hrun
  obtain ⟨hlanguage, hexclude⟩ := Prod.mk.inj hcontents
  obtain ⟨-, globs, hglobs, hmatches⟩ := (effectiveConfig_valid o env).1 c hc
  refine ⟨c, hc, hlanguage, globs, hglobs, (hmatches _).mp ?_⟩
  rw [hexclude]
  decide +kernel

end CommandLine.Options

end SnippetLint
