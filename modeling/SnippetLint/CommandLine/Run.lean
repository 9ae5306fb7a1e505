/-
A run of the program, from its arguments to what it writes.

A run ends in one of three ways: it has done what was asked for, it has failed, or its arguments make
no sense. What was found in the linted texts has no say in that.
-/
import SnippetLint.CommandLine.Job
import SnippetLint.Output.Lines
import SnippetLint.Output.Structured
import SnippetLint.Output.Terminal

namespace SnippetLint.CommandLine

/-- What a run leaves behind. -/
structure Outcome where
  exitCode : Nat
  output : String
  errors : String := ""
  deriving DecidableEq, Repr

/-- What is left to be done once the options are known. -/
inductive Plan where
  | finished (o : Outcome)
  | lint (job : Job)

/-! ### Styles -/

/-- Whether styles are written. -/
def showsStyles (env : Environment) (c : Config) : Bool :=
  match c.output.color with
  | .always => true
  | .never => false
  | .auto => env.showsStyles

/-- A text in a style, if styles are written. -/
def paint (styles : Bool) (style : Style) (t : String) : String := if styles then style.apply t else t

/-- The end of a run that fails, behind what it has written. -/
def failed (styles : Bool) (output : String) (e : RunError) : Outcome :=
  ⟨1, output, paint styles .redBold "error" ++ ": " ++ e.message ++ "\n"⟩

/-! ### The rules -/

/-- The style of the word for a rule's severity. -/
def severityStyle : Severity → Style
  | .error => .red
  | .warning => .yellow
  | .info => .blue

/-- A rule, with what it looks for. -/
def ruleLines (styles : Bool) (language : Language) (r : Rule) : String :=
  "    " ++ paint styles .cyan (language.id ++ "/" ++ r.id) ++ " ["
    ++ paint styles (severityStyle r.severity) r.severity.id ++ "] (" ++ r.category.id ++ ")\n"
    ++ "      " ++ r.description ++ "\n"

/-- The rules for a language. -/
def ruleSetLines (styles : Bool) (set : RuleSet) : String :=
  paint styles .bold set.language.display ++ " (" ++ toString set.rules.length ++ " rules)\n"
    ++ String.join (set.rules.map (ruleLines styles set.language)) ++ "\n"

/-- All rules, language by language. -/
def ruleList (styles : Bool) (r : Registry) : String :=
  String.join ((r.languages.filterMap r.resolve?).map (ruleSetLines styles))

/-! ### Detection -/

/-- A language, and what it was told by. -/
def detectionText (d : Detection) : String := d.language.id ++ " (" ++ d.reason ++ ")\n"

/-- The languages of files; the first file that cannot be read ends the run. -/
def detectFiles (env : Environment) (styles : Bool) (output : String) : List String → Outcome
  | [] => ⟨0, output, ""⟩
  | path :: rest =>
    match env.files.readText path with
    | .error e => failed styles output (.unreadableFile path e)
    | .ok t =>
      let line := path ++ ": " ++ detectionText (.ofFile path t.toList)
      detectFiles env styles (output ++ line) rest

/-- The language of each input. -/
def detectInput (env : Environment) (styles : Bool) : Input → Outcome
  | .text _ t => ⟨0, detectionText (.ofText t), ""⟩
  | .files paths => detectFiles env styles "" paths

/-! ### Results -/

/-- The results in the configured format. -/
def formatted (c : Config) (styles hasPaths : Bool) (b : Batch) : String :=
  match c.output.format with
  | .text =>
    let o : Terminal :=
      { colored := c.output.color ≠ .never
        showStatistics := c.output.statistics
        ansi := styles }
    o.batchLines b
  | .json => Json.render .pretty b.toJson
  | .compact => Compact.batchLines b
  | .plain => Plain.batchLines ⟨hasPaths⟩ b

/-- With a line break at the end, unless there is one. -/
def endLine (t : String) : String := if t.endsWith "\n" then t else t ++ "\n"

/-- The end of a run that has linted. -/
def Job.outcome (job : Job) (env : Environment) (b : Batch) : Outcome :=
  let c := job.linter.config
  ⟨0, endLine (formatted c (showsStyles env c) job.hasPaths b), ""⟩

/-! ### Runs -/

/-- What the options ask for, as far as it can be told without linting. -/
def Options.plan (o : Options) (env : Environment) : Plan :=
  match o.effectiveConfig env with
  | .error e => .finished (failed env.showsStyles "" e)
  | .ok c =>
    let styles := showsStyles env c
    if o.listRules then .finished ⟨0, ruleList styles .builtin, ""⟩
    else match o.collectInput env c with
      | .error e => .finished (failed styles "" e)
      | .ok input =>
        if o.detect then .finished (detectInput env styles input)
        else .lint ⟨⟨.builtin, c⟩, input⟩

/-- A run with options, which lints for some time. -/
def Options.run (o : Options) (env : Environment) (milliseconds : Nat) : Outcome :=
  match o.plan env with
  | .finished outcome => outcome
  | .lint job => job.outcome env ⟨job.reports env, milliseconds⟩

/-- The name and version of the program. -/
def versionLine : String := "polylint 0.1.0\n"

/-- How the program is used. -/
def usageText : String :=
  "Heuristic multi-language linter\n\nUsage: polylint [OPTIONS] [SOURCE]\n\nOptions:\n"
    ++ String.join (Flag.all.map fun f =>
      "  " ++ (match f.short? with
        | some letter => "-" ++ letter.toString ++ ", "
        | none => "    ") ++ f.display ++ "\n")

/-- The end of a run whose arguments are not read to their end. -/
def stopped : Stop → Outcome
  | .mistake e => ⟨2, "", "error: " ++ e.message ++ "\n"⟩
  | .version => ⟨0, versionLine, ""⟩
  | .help => ⟨0, usageText, ""⟩

/-- A run with arguments, which lints for some time. -/
def run (arguments : List String) (env : Environment) (milliseconds : Nat) : Outcome :=
  match Options.ofArguments arguments with
  | .error stop => stopped stop
  | .ok o => o.run env milliseconds

end SnippetLint.CommandLine
