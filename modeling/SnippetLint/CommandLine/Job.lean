/-
From options to a job: a configuration, and the texts or files to lint with it.

All that a run can see is given as data, so a run is a function. What can go wrong before anything is
linted is a failure of the run; linting itself has none.
-/
import SnippetLint.CommandLine.Options
import SnippetLint.Config.Files
import SnippetLint.Glob.Match
import SnippetLint.Linter
import SnippetLint.Wildcard.Expand

namespace SnippetLint.CommandLine

/-- What a run can see. -/
structure Environment where
  files : FileSystem
  /-- The directory of the user. -/
  home : Option String
  /-- What comes in without a name. -/
  input : ByteArray
  /-- Whether the place that is written to shows styles. -/
  showsStyles : Bool := false

/-- The path of the working directory. -/
def Environment.working (env : Environment) : String := "/" ++ Text.join "/" env.files.working

/-- Why a run fails. -/
inductive RunError where
  /-- No configuration, from the file that was asked for or from the usual ones. -/
  | config (path : Option String) (error : ConfigError)
  | unknownLanguage
  | unreadableInput (error : FileError)
  | badWildcard (text : String) (error : Wildcard.Error)
  | noFiles
  | unreadableFile (path : String) (error : FileError)
  deriving DecidableEq, Repr

namespace RunError

/-- What is wrong with a configuration; where a file cannot be read, the cause follows again. -/
def configMessage (e : ConfigError) : String :=
  match e with
  | .unreadable cause => e.message ++ ": " ++ cause.message
  | e => e.message

def message : RunError → String
  | config none e => "Failed to load config: " ++ configMessage e
  | config (some path) e => "Failed to load config " ++ path ++ ": " ++ configMessage e
  | unknownLanguage => "--language cannot be 'unknown'"
  | unreadableInput e => "Failed to read stdin: " ++ e.message
  | badWildcard text e => "Invalid pattern '" ++ text ++ "': " ++ e.message
  | noFiles => "No files found to lint"
  | unreadableFile path e => "Failed to read " ++ path ++ ": " ++ e.message

end RunError

/-! ### Configuration -/

/-- What the options say about the configuration. -/
def Options.overrides (o : Options) : Config.Overrides where
  format := o.format
  color := if o.noColor then some .never else none
  jobs := o.jobs
  disabled := o.disabled
  language := o.language

/-- The configuration in the file that was asked for, or in the usual ones. -/
def Options.loadConfig (o : Options) (env : Environment) : Except RunError Config :=
  match o.config with
  | some path => (Config.load env.files path).mapError (.config (some path))
  | none => (Config.loadLayered env.files env.home env.working).mapError (.config none)

/-- The configuration that a run lints with. -/
def Options.effectiveConfig (o : Options) (env : Environment) : Except RunError Config := do
  let c ← o.loadConfig env
  if o.language = some .unknown then throw .unknownLanguage
  return c.override o.overrides

/-! ### Input -/

/-- What is linted. -/
inductive Input where
  /-- A text, under a label in place of a path. -/
  | text (label : String) (text : Text)
  | files (paths : List String)

/-- Whether the text to lint comes in without a name. -/
def Options.readsInput (o : Options) : Bool := o.source.isNone && o.files.isEmpty

/-- The files that a wildcard stands for, without those that the configuration excludes. -/
def wildcardFiles (env : Environment) (c : Config) (wildcard : String) :
    Except RunError (List String) := do
  let paths ← (Wildcard.expand env.files wildcard).mapError (.badWildcard wildcard)
  return paths.filter fun path => env.files.isFile path && !Glob.anyMatches c.files.exclude path

/-- The text that comes in without a name. -/
def Environment.inputText (env : Environment) : Except RunError String :=
  match String.fromUTF8? env.input with
  | some t => .ok t
  | none => .error (.unreadableInput .notText)

/-- What the options ask to be linted. -/
def Options.collectInput (o : Options) (env : Environment) (c : Config) : Except RunError Input :=
  match o.source with
  | some t => .ok (.text "<input>" t.toList)
  | none =>
    if o.files.isEmpty then do return .text "<stdin>" (← env.inputText).toList
    else do
      let paths := (← o.files.mapM (wildcardFiles env c)).flatten
      if paths.isEmpty then throw .noFiles
      return .files paths

/-- The files that the options name or whose languages or findings they ask for. -/
def Options.inputPaths (o : Options) (env : Environment) : List String :=
  match o.effectiveConfig env >>= o.collectInput env with
  | .ok (.files paths) => paths
  | _ => []

/-! ### Jobs -/

structure Job where
  linter : Linter
  input : Input

namespace Job

/-- The report on each text or file, in order. -/
def reports (job : Job) (env : Environment) : List FileReport :=
  match job.input with
  | .text label t => [⟨label, job.linter.lint t⟩]
  | .files paths => paths.map (job.linter.lintFile env.files none)

/-- Whether files are linted, whose paths tell reports apart. -/
def hasPaths (job : Job) : Bool :=
  match job.input with
  | .text _ _ => false
  | .files _ => true

end Job

end SnippetLint.CommandLine
