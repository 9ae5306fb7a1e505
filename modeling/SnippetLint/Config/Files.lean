/-
Configuration files.

A file's extension tells its notation. What has been read is checked before it is used: every pattern
of files has to be a glob, and the configured language has to be a known one. Two files may speak, one
of the user and one of the project, and the project has the last word.
-/
import SnippetLint.Config.Merge
import SnippetLint.Config.Reader
import SnippetLint.FileTree
import SnippetLint.Glob.Basic
import SnippetLint.Json.Reader
import SnippetLint.Yaml.Views

namespace SnippetLint

/-- Why a configuration cannot be used although it could be read. -/
inductive ConfigFault where
  | unknownNotation (extension : String)
  | badExclude (glob : String) (error : Glob.Error)
  | unknownLanguage
  deriving DecidableEq, Repr

/-- What is wrong with a configuration. -/
def ConfigFault.reason : ConfigFault → String
  | unknownNotation extension => "Unknown config file format: " ++ extension
  | badExclude glob error => "bad exclude pattern '" ++ glob ++ "': " ++ error.message glob
  | unknownLanguage => "language cannot be 'unknown'"

/-- Why there is no configuration. -/
inductive ConfigError where
  | unreadable (error : FileError)
  | malformedYaml
  | malformedJson
  | invalid (fault : ConfigFault)
  deriving DecidableEq, Repr

/-- What a user is told who has no configuration. -/
def ConfigError.message : ConfigError → String
  | unreadable error => "IO error: " ++ error.message
  | malformedYaml => "YAML parse error"
  | malformedJson => "JSON parse error"
  | invalid fault => "Invalid configuration: " ++ fault.reason

namespace Config

/-! ### Checks -/

/-- What is wrong with a pattern of files, if anything is. -/
def excludeFault? (glob : String) : Option ConfigFault :=
  match Glob.parse glob with
  | .ok _ => none
  | .error e => some (.badExclude glob e)

/-- The first thing that is wrong with a configuration. -/
def fault? (c : Config) : Option ConfigFault :=
  c.files.exclude.findSome? excludeFault?
    <|> if c.language = some .unknown then some .unknownLanguage else none

/-- A configuration that nothing is wrong with. -/
def checked (c : Config) : Except ConfigError Config :=
  match c.fault? with
  | none => .ok c
  | some fault => .error (.invalid fault)

/-! ### One file -/

/-- The configuration that a text in the notation of an extension stands for. -/
def ofText (extension text : String) : Except ConfigError Config :=
  if extension = "yaml" ∨ extension = "yml" then
    match Yaml.read? text >>= Config.ofDocument? with
    | some c => .ok c
    | none => .error .malformedYaml
  else if extension = "json" then
    match Json.read? text >>= Config.ofDocument? with
    | some c => .ok c
    | none => .error .malformedJson
  else .error (.invalid (.unknownNotation extension))

/-- The configuration in a file. -/
def load (files : FileSystem) (path : String) : Except ConfigError Config :=
  match files.readText path with
  | .error e => .error (.unreadable e)
  | .ok text => do (← ofText ((Path.extension? path).getD "") text).checked

/-! ### Layers -/

/-- Names of configuration files; of several in a directory the first counts. -/
def fileNames : List String := [".polylintrc.yaml", ".polylintrc.yml", ".polylintrc.json"]

/-- The configuration file in a directory. -/
def findIn (files : FileSystem) (directory : String) : Option String :=
  (fileNames.map (Path.join directory)).find? files.isFile

/-- A configuration with that of a directory laid over it, if there is one. -/
def layer (files : FileSystem) (base : Config) (directory : String) : Except ConfigError Config :=
  match findIn files directory with
  | none => .ok base
  | some path => do return base.merge (← load files path)

/-- The directories whose configurations count, the last of them most. -/
def layerDirectories (home : Option String) (project : String) : List String :=
  if home = some project then [project] else home.toList ++ [project]

/-- The defaults with the configurations of the user and of the project laid over them. -/
def loadLayered (files : FileSystem) (home : Option String) (project : String) :
    Except ConfigError Config :=
  (layerDirectories home project).foldlM (layer files) {}

end Config

end SnippetLint
