/-
What decides the exit code.

A run that lints has succeeded, whatever it finds, so a run fails only before it lints: it has no
configuration, or nothing to lint.  Whether there is a configuration depends on the contents of the
configuration files and of no others; whether there is something to lint depends on the names of files
and on the patterns of the configuration.  `Options.Succeeds` says so in full, and it is the same for
two runs that see the same names and the same configuration files (`Options.SeesSame`).
-/
import SnippetLint.Proofs.Config.Validity
import SnippetLint.Proofs.FileTree

namespace SnippetLint.CommandLine

/-- A wildcard stands for a file that the configuration does not exclude. -/
def Finds (files : FileSystem) (c : Config) (wildcard path : String) : Prop :=
  ∃ paths, Wildcard.expand files wildcard = .ok paths ∧ path ∈ paths ∧
    files.isFile path = true ∧ ¬ Glob.anyMatches c.files.exclude path = true

/-- What comes in without a name is a text. -/
def Environment.HasText (env : Environment) : Prop := env.inputText.isOk = true

instance (env : Environment) : Decidable env.HasText := inferInstanceAs (Decidable (_ = true))

namespace Options

/-- There is something to lint: a text, or at least one file. -/
def HasInput (o : Options) (files : FileSystem) (c : Config) : Prop :=
  o.source.isSome = true ∨ o.files = [] ∨
    (∀ wildcard ∈ o.files, Wildcard.IsValid wildcard) ∧
      ∃ wildcard ∈ o.files, ∃ path, Finds files c wildcard path

/-- There is a configuration, the language that is asked for is a known one, and there is something to
lint unless the rules are to be listed. -/
def Succeeds (o : Options) (env : Environment) : Prop :=
  ∃ c, o.loadConfig env = .ok c ∧ o.language ≠ some .unknown ∧
    (o.listRules = true ∨ o.HasInput env.files c)

section

variable {o : Options} {env : Environment} {c : Config}

/-! ### Something to lint -/

theorem exists_wildcardFiles_iff (env : Environment) (c : Config) {wildcard : String} :
    (∃ paths, wildcardFiles env c wildcard = .ok paths) ↔ Wildcard.IsValid wildcard := by
  rw [← Wildcard.exists_expand_iff env.files]
  unfold wildcardFiles
  simp only [bind_eq_ok_iff, mapError_eq_ok_iff]
  constructor
  · rintro ⟨-, paths, hpaths, -⟩
    exact ⟨paths, hpaths⟩
  · rintro ⟨paths, hpaths⟩
    exact ⟨_, paths, hpaths, rfl⟩

theorem mem_wildcardFiles_iff {wildcard path : String} {paths : List String}
    (h : wildcardFiles env c wildcard = .ok paths) :
    path ∈ paths ↔ Finds env.files c wildcard path := by
  obtain ⟨all, hall, hkept⟩ := bind_eq_ok_iff.mp h
  obtain rfl := Except.ok.inj hkept
  rw [mapError_eq_ok_iff] at hall
  simp [Finds, hall, List.mem_filter]

/-- Several wildcards are followed if each can be read, and then what they find is put together. -/
theorem exists_paths_iff :
    (∃ lists, o.files.mapM (wildcardFiles env c) = .ok lists ∧ lists.flatten ≠ []) ↔
      (∀ wildcard ∈ o.files, Wildcard.IsValid wildcard) ∧
        ∃ wildcard ∈ o.files, ∃ path, Finds env.files c wildcard path := by
  simp only [← exists_wildcardFiles_iff env c]
  constructor
  · rintro ⟨lists, hlists, hne⟩
    obtain ⟨path, hpath⟩ := List.exists_mem_of_ne_nil _ hne
    obtain ⟨paths, hpaths, hmem⟩ := List.mem_flatten.mp hpath
    obtain ⟨wildcard, hwildcard, heq⟩ := (mem_mapM_iff hlists).mp hpaths
    exact ⟨exists_mapM_iff.mp ⟨lists, hlists⟩, wildcard, hwildcard, path,
      (mem_wildcardFiles_iff heq).mp hmem⟩
  · rintro ⟨hall, wildcard, hwildcard, path, hpath⟩
    obtain ⟨lists, hlists⟩ := exists_mapM_iff.mpr hall
    obtain ⟨paths, hpaths⟩ := hall wildcard hwildcard
    have hmem : path ∈ lists.flatten := List.mem_flatten.mpr
      ⟨paths, (mem_mapM_iff hlists).mpr ⟨wildcard, hwildcard, hpaths⟩,
        (mem_wildcardFiles_iff hpaths).mpr hpath⟩
    exact ⟨lists, hlists, List.ne_nil_of_mem hmem⟩

theorem collectInput_files (hsource : o.source = none) (hfiles : o.files ≠ []) :
    o.collectInput env c = o.files.mapM (wildcardFiles env c) >>= fun lists =>
      if lists.flatten = [] then .error .noFiles else .ok (.files lists.flatten) := by
  have hmore : o.files.isEmpty = false := by simpa using hfiles
  simp only [collectInput, hsource, hmore, Bool.false_eq_true, if_false]
  refine congrArg (o.files.mapM (wildcardFiles env c) >>= ·) (funext fun lists => ?_)
  by_cases hnone : lists.flatten = []
  · rw [if_pos hnone, hnone]
    rfl
  · rw [if_neg hnone, if_neg (by simpa using hnone)]
    rfl

theorem exists_collectInput_iff (hinput : env.HasText) :
    (∃ input, o.collectInput env c = .ok input) ↔ o.HasInput env.files c := by
  unfold HasInput
  cases hsource : o.source with
  | some t => simp [collectInput, hsource]
  | none =>
      by_cases hfiles : o.files = []
      · obtain ⟨t, ht⟩ := isOk_iff.mp hinput
        simp [collectInput, hsource, hfiles, ht, bind, Except.bind, pure, Except.pure]
      · have hnot : ¬ (Option.isSome (none : Option String) = true) := by decide
        rw [collectInput_files hsource hfiles, or_iff_right hnot, or_iff_right hfiles,
          ← exists_paths_iff]
        simp only [bind_eq_ok_iff]
        constructor
        · rintro ⟨input, lists, hlists, hinput⟩
          refine ⟨lists, hlists, fun hnone => ?_⟩
          simp [hnone] at hinput
        · rintro ⟨lists, hlists, hne⟩
          exact ⟨_, lists, hlists, if_neg hne⟩

/-! ### One run -/

theorem succeeds_iff (hinput : env.HasText) :
    o.Succeeds env ↔ ∃ c, o.effectiveConfig env = .ok c ∧
      (o.listRules = true ∨ ∃ input, o.collectInput env c = .ok input) := by
  simp only [Succeeds, effectiveConfig_eq_ok_iff, exists_collectInput_iff hinput]
  constructor
  · rintro ⟨loaded, hloaded, hlanguage, h⟩
    exact ⟨loaded.override o.overrides, ⟨loaded, hloaded, hlanguage, rfl⟩, h⟩
  · rintro ⟨c, ⟨loaded, hloaded, hlanguage, rfl⟩, h⟩
    exact ⟨loaded, hloaded, hlanguage, h⟩

/-- A run that does more than tell languages succeeds if it gets as far as having something to do. -/
theorem exitCode_run (hdetect : o.detect = false) (hinput : env.HasText) (milliseconds : Nat) :
    o.Succeeds env ∧ (o.run env milliseconds).exitCode = 0 ∨
      ¬ o.Succeeds env ∧ (o.run env milliseconds).exitCode = 1 := by
  rw [succeeds_iff hinput]
  unfold run plan
  cases hconfig : o.effectiveConfig env with
  | error e => exact .inr ⟨by simp, rfl⟩
  | ok c =>
      cases hlist : o.listRules with
      | true => exact .inl ⟨⟨c, rfl, .inl rfl⟩, rfl⟩
      | false =>
          cases hcollected : o.collectInput env c with
          | error e => exact .inr ⟨by simp [hcollected], by simp [hcollected, failed]⟩
          | ok input =>
              exact .inl ⟨⟨c, rfl, .inr ⟨input, hcollected⟩⟩,
                by simp [hcollected, hdetect, Job.outcome]⟩

theorem exitCode_eq_zero_iff (hdetect : o.detect = false) (hinput : env.HasText)
    (milliseconds : Nat) : (o.run env milliseconds).exitCode = 0 ↔ o.Succeeds env := by
  rcases exitCode_run hdetect hinput milliseconds with ⟨h, hcode⟩ | ⟨h, hcode⟩
  · exact iff_of_true hcode h
  · exact iff_of_false (by rw [hcode]; decide) h

theorem exitCode_eq_one_iff (hdetect : o.detect = false) (hinput : env.HasText)
    (milliseconds : Nat) : (o.run env milliseconds).exitCode = 1 ↔ ¬ o.Succeeds env := by
  rcases exitCode_run hdetect hinput milliseconds with ⟨h, hcode⟩ | ⟨h, hcode⟩
  · exact iff_of_false (by rw [hcode]; decide) (not_not_intro h)
  · exact iff_of_true hcode h

end

/-! ### Two runs -/

/-- The configuration files that a run reads. -/
def configPaths (o : Options) (env : Environment) : List String :=
  match o.config with
  | some path => [path]
  | none => (Config.layerDirectories env.home env.working).filterMap (Config.findIn env.files)

/-- Two runs see the same files and directories, and the same in the configuration files. -/
structure SeesSame (o : Options) (env env' : Environment) : Prop where
  home : env.home = env'.home
  outline : env.files.outline = env'.files.outline
  configs : ∀ path ∈ o.configPaths env, env.files.readText path = env'.files.readText path

section

variable {o : Options} {env env' : Environment}

theorem SeesSame.working (h : o.SeesSame env env') : env.working = env'.working := by
  have hworking : env.files.outline.working = env'.files.outline.working := by rw [h.outline]
  change env.files.working = env'.files.working at hworking
  rw [Environment.working, Environment.working, hworking]

theorem SeesSame.findIn (h : o.SeesSame env env') (directory : String) :
    Config.findIn env.files directory = Config.findIn env'.files directory := by
  rw [← Config.findIn_outline, h.outline, Config.findIn_outline]

theorem load_congr {files files' : FileSystem} {path : String}
    (h : files.readText path = files'.readText path) :
    Config.load files path = Config.load files' path := by
  rw [Config.load, Config.load, h]

/-- The configuration depends on the configuration files alone. -/
theorem SeesSame.loadConfig (h : o.SeesSame env env') : o.loadConfig env = o.loadConfig env' := by
  unfold Options.loadConfig
  cases hconfig : o.config with
  | some path =>
      have hpath : path ∈ o.configPaths env := by simp [configPaths, hconfig]
      dsimp only
      rw [load_congr (h.configs path hpath)]
  | none =>
      dsimp only
      rw [Config.loadLayered, Config.loadLayered, ← h.home, ← h.working]
      congr 1
      refine foldlM_congr (fun base directory hdirectory => ?_) _
      rw [Config.layer, Config.layer, ← h.findIn]
      cases hpath : Config.findIn env.files directory with
      | none => rfl
      | some path =>
          have hmem : path ∈ o.configPaths env := by
            simp only [configPaths, hconfig, List.mem_filterMap]
            exact ⟨directory, hdirectory, hpath⟩
          dsimp only
          rw [load_congr (h.configs path hmem)]

/-- What there is to lint depends on names alone. -/
theorem SeesSame.finds_iff (h : o.SeesSame env env') (c : Config) (wildcard path : String) :
    Finds env.files c wildcard path ↔ Finds env'.files c wildcard path := by
  have hexpand : Wildcard.expand env.files wildcard = Wildcard.expand env'.files wildcard := by
    rw [← Wildcard.expand_outline, h.outline, Wildcard.expand_outline]
  have hfile : env.files.isFile path = env'.files.isFile path := by
    rw [← FileSystem.isFile_outline, h.outline, FileSystem.isFile_outline]
  rw [Finds, Finds, hexpand, hfile]

theorem SeesSame.succeeds_iff (h : o.SeesSame env env') : o.Succeeds env ↔ o.Succeeds env' := by
  simp only [Succeeds, HasInput, h.loadConfig, h.finds_iff]

end

end Options

/-- **Nothing that is linted decides the exit code.**  Two runs with the same arguments, not only to
tell languages, that see the same names of files and the same configuration files end with the same
exit code, whatever is in the other files and in the text that comes in without a name.  The exit code
is 0 if there is a configuration, a known language and something to lint, and 1 if not. -/
theorem run_exitCode {arguments : List String} {o : Options}
    (harguments : Options.ofArguments arguments = .ok o) (hdetect : o.detect = false)
    {env env' : Environment} (hsame : o.SeesSame env env') (hinput : env.HasText)
    (hinput' : env'.HasText) (milliseconds milliseconds' : Nat) :
    (run arguments env milliseconds).exitCode = (run arguments env' milliseconds').exitCode ∧
      ((run arguments env milliseconds).exitCode = 0 ↔ o.Succeeds env) ∧
      ((run arguments env milliseconds).exitCode = 1 ↔ ¬ o.Succeeds env) := by
  have hrun : ∀ env milliseconds, run arguments env milliseconds = o.run env milliseconds := by
    intro env milliseconds
    rw [run, harguments]
  rw [hrun, hrun]
  refine ⟨?_, Options.exitCode_eq_zero_iff hdetect hinput milliseconds,
    Options.exitCode_eq_one_iff hdetect hinput milliseconds⟩
  by_cases h : o.Succeeds env
  · have h' : o.Succeeds env' := hsame.succeeds_iff.mp h
    rw [(Options.exitCode_eq_zero_iff hdetect hinput milliseconds).mpr h,
      (Options.exitCode_eq_zero_iff hdetect hinput' milliseconds').mpr h']
  · have h' : ¬ o.Succeeds env' := fun h' => h (hsame.succeeds_iff.mpr h')
    rw [(Options.exitCode_eq_one_iff hdetect hinput milliseconds).mpr h,
      (Options.exitCode_eq_one_iff hdetect hinput' milliseconds').mpr h']

/-- What a run in a directory with a configuration and a file of some content sees. -/
def environmentWith (content input : ByteArray) : Environment where
  files :=
    ⟨.directory [("work", .directory [(".polylintrc.json", .file "\x7b\x7d".toUTF8),
      ("a.py", .file content)])], ["work"]⟩
  home := none
  input := input

theorem run_exitCode_unreadable :
    let arguments := ["-j2", "--file", "a.py"]
    let o : Options := { files := ["a.py"], jobs := some 2 }
    let env := environmentWith "import os\n".toUTF8 "x".toUTF8
    let env' := environmentWith ⟨#[0xff]⟩ .empty
    Options.ofArguments arguments = .ok o ∧ o.detect = false ∧ o.SeesSame env env' ∧ env.HasText ∧
      env'.HasText ∧ (run arguments env 1).exitCode = (run arguments env' 2).exitCode ∧
      o.Succeeds env := by
  intro arguments o env env'
  have harguments : Options.ofArguments arguments = .ok o := by rfl
  have hsame : o.SeesSame env env' := ⟨rfl, rfl, by decide +kernel⟩
  have hinput : env.HasText := by decide +kernel
  have hinput' : env'.HasText := by decide +kernel
  obtain ⟨hcodes, hsuccess, -⟩ := run_exitCode harguments rfl hsame hinput hinput' 1 2
  exact ⟨harguments, rfl, hsame, hinput, hinput', hcodes, hsuccess.mp (by decide +kernel)⟩

end SnippetLint.CommandLine
