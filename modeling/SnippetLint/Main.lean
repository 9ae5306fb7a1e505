/-
The program on a real disk.

A run is a function of what it can see, so that is gathered first: the names of the files below the
working directory and below what the wildcards name, then the configurations, and last the contents of
the files that the run is about. Only then it is known what is written.
-/
import SnippetLint.CommandLine.Run

namespace SnippetLint

/-- How deep directories are searched. -/
def maxDepth : Nat := 40

/-- The entry that a path leads to from a directory. -/
def entryAt (directory : IO.FS.DirEntry) (path : String) : IO.FS.DirEntry := ⟨directory.path, path⟩

/-- The names of what an entry holds; the files are left empty. -/
def readNames : Nat → IO.FS.DirEntry → IO FileTree
  | 0, _ => return .directory []
  | depth + 1, entry => do
    if ← entry.path.isDir then
      let entries ← try entry.path.readDir catch _ => pure #[]
      return .directory (← entries.toList.mapM fun e => return (e.fileName, ← readNames depth e))
    return .file .empty

/-- The names that lead to a path from the outermost directory. -/
def absoluteNames (working : List String) (path : String) : List String :=
  let names := if path.startsWith "/" then Path.parts path else working ++ Path.parts path
  names.foldl (fun above name => if name = ".." then above.dropLast else above ++ [name]) []

/-- The front of a wildcard that leaves nothing open. -/
def literalFront (wildcard : String) : String :=
  let fixed := (Path.parts wildcard).takeWhile fun name => name.toList.all (!"*?[".contains ·)
  (if wildcard.startsWith "/" then "/" else "") ++ Text.join "/" fixed

/-- What a run sees of a disk, with the directory that it works in. -/
structure View where
  directory : IO.FS.DirEntry
  files : FileSystem

namespace View

/-- With something where a path leads to. -/
def put (v : View) (path : String) (t : FileTree) : View :=
  { v with files.root := v.files.root.put (absoluteNames v.files.working path) t }

/-- With the names of what a path leads to, if it leads anywhere. -/
def withNames (v : View) (path : String) : IO View := do
  let entry := entryAt v.directory path
  if ← entry.path.pathExists then return v.put path (← readNames maxDepth entry)
  return v

/-- With the contents of a file, if it can be read. -/
def withContents (v : View) (path : String) : IO View := do
  let contents ← try some <$> IO.FS.readBinFile (entryAt v.directory path).path catch _ => pure none
  return match contents with
    | some contents => v.put path (.file contents)
    | none => v

end View

/-- Everything that comes in without a name. -/
def readInput : IO ByteArray := do (← IO.getStdin).readBinToEnd

/-- What a run with options can see. -/
def gather (o : CommandLine.Options) : IO CommandLine.Environment := do
  let here ← IO.currentDir
  let home ← IO.getEnv "HOME"
  let start : View := ⟨⟨here, ""⟩, .directory [], Path.parts here.toString⟩
  let start := start.put "." (.directory [])
  let named ← (o.files.map literalFront).foldlM View.withNames start
  let places := [some ".", home].filterMap id
  let configs := o.config.toList ++ places.flatMap fun place => Config.fileNames.map (Path.join place)
  let configured ← configs.foldlM View.withContents named
  let input ← if o.readsInput && !o.listRules then readInput else pure .empty
  let showsStyles ← (← IO.getStdout).isTty
  let seen : CommandLine.Environment := { files := configured.files, home, input, showsStyles }
  let complete ← (o.inputPaths seen).foldlM View.withContents configured
  return { seen with files := complete.files }

/-- Lints, and tells how many milliseconds that took. -/
def timed (job : CommandLine.Job) (env : CommandLine.Environment) : IO Batch := do
  let start ← IO.monoMsNow
  let reports := job.reports env
  let stop ← if reports.all (·.report.diagnostics.isEmpty) then pure start else IO.monoMsNow
  return ⟨reports, stop - start⟩

/-- The end of a run with options. -/
def finish (o : CommandLine.Options) : IO CommandLine.Outcome := do
  let env ← gather o
  match o.plan env with
  | .finished outcome => return outcome
  | .lint job => return job.outcome env (← timed job env)

end SnippetLint

open SnippetLint in
/-- Runs the program. -/
def main (arguments : List String) : IO UInt32 := do
  let outcome ← match CommandLine.Options.ofArguments arguments with
    | .error stop => pure (CommandLine.stopped stop)
    | .ok o => finish o
  IO.print outcome.output
  IO.eprint outcome.errors
  return UInt32.ofNat outcome.exitCode
