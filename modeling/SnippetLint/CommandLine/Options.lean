/-
What a user asks for on the command line.

Words that begin with a hyphen are flags; some of them take a value, which stands behind them or is
attached. Everything else is the text to lint, of which there may be one. Behind two lone hyphens
nothing is a flag.
-/
import SnippetLint.Config.Basic
import SnippetLint.Document

namespace SnippetLint.CommandLine

structure Options where
  /-- The text to lint. -/
  source : Option String := none
  /-- Wildcards of the files to lint. -/
  files : List String := []
  language : Option Language := none
  format : Option OutputFormat := none
  /-- The configuration file. -/
  config : Option String := none
  /-- Rules that do not run. -/
  disabled : Option (List String) := none
  jobs : Option UInt64 := none
  noColor : Bool := false
  /-- Whether the rules are listed, and nothing else. -/
  listRules : Bool := false
  /-- Whether the language is told, and nothing else. -/
  detect : Bool := false
  verbose : Bool := false

/-! ### Flags -/

/-- Flags with a value. -/
inductive Setting where
  | files | language | format | config | disable | jobs
  deriving DecidableEq, Repr

/-- Flags without a value. -/
inductive Switch where
  | noColor | listRules | detect | verbose | version | help
  deriving DecidableEq, Repr

inductive Flag where
  | setting (s : Setting)
  | switch (s : Switch)
  deriving DecidableEq, Repr

namespace Flag

def all : List Flag :=
  [.setting .files, .setting .language, .setting .format, .setting .config, .setting .disable,
    .setting .jobs, .switch .noColor, .switch .listRules, .switch .detect, .switch .verbose,
    .switch .version, .switch .help]

/-- The word behind two hyphens. -/
def long : Flag → String
  | setting .files => "file"
  | setting .language => "language"
  | setting .format => "format"
  | setting .config => "config"
  | setting .disable => "disable"
  | setting .jobs => "jobs"
  | switch .noColor => "no-color"
  | switch .listRules => "list-rules"
  | switch .detect => "detect"
  | switch .verbose => "verbose"
  | switch .version => "version"
  | switch .help => "help"

/-- The letter behind one hyphen. -/
def short? : Flag → Option Char
  | setting .files => some 'f'
  | setting .language => some 'l'
  | setting .config => some 'c'
  | setting .jobs => some 'j'
  | switch .verbose => some 'v'
  | switch .version => some 'V'
  | switch .help => some 'h'
  | _ => none

def ofLong? (word : String) : Option Flag := all.find? fun f => f.long == word

def ofShort? (letter : Char) : Option Flag := all.find? fun f => f.short? == some letter

/-- A flag as a user writes it. -/
def display (f : Flag) : String := "--" ++ f.long

end Flag

/-! ### Mistakes -/

/-- What can be wrong with a command line. -/
inductive UsageError where
  | unknownFlag (word : String)
  | missingValue (flag : Flag)
  | invalidValue (flag : Flag) (value : String)
  | needlessValue (flag : Flag)
  | repeatedFlag (flag : Flag)
  | secondSource (text : String)
  deriving DecidableEq, Repr

/-- What a user is told about a mistake. -/
def UsageError.message : UsageError → String
  | unknownFlag word => "unexpected argument '" ++ word ++ "' found"
  | missingValue flag => "a value is required for '" ++ flag.display ++ "'"
  | invalidValue flag value => "invalid value '" ++ value ++ "' for '" ++ flag.display ++ "'"
  | needlessValue flag => "'" ++ flag.display ++ "' takes no value"
  | repeatedFlag flag => "the argument '" ++ flag.display ++ "' cannot be used multiple times"
  | secondSource text => "unexpected argument '" ++ text ++ "' found"

/-- Why a command line is not read to its end. -/
inductive Stop where
  | mistake (e : UsageError)
  | version
  | help
  deriving DecidableEq, Repr

/-! ### Values -/

/-- The number of jobs that a value stands for. -/
def jobs? (value : String) : Option UInt64 :=
  let digits := match value.toList with
    | '+' :: rest => rest
    | rest => rest
  if digits.isEmpty || !digits.all Char.isDigit then none
  else
    let n := digits.foldl (fun n c => n * 10 + (c.toNat - '0'.toNat)) 0
    if n < Document.countLimit then some (UInt64.ofNat n) else none

/-- The texts between commas. -/
def betweenCommas (value : String) : List String :=
  (Text.pieces (· == ',') value.toList).map String.ofList

namespace Options

/-- The value of a flag that may be given once. -/
def once {α : Type} (s : Setting) (value : String) (old new : Option α) : Except Stop (Option α) :=
  if old.isSome then .error (.mistake (.repeatedFlag (.setting s)))
  else if new.isNone then .error (.mistake (.invalidValue (.setting s) value))
  else .ok new

/-- With the value of a setting. -/
def give (o : Options) (s : Setting) (value : String) : Except Stop Options :=
  match s with
  | .files => .ok { o with files := o.files ++ [value] }
  | .language => do return { o with language := ← once s value o.language (Language.ofName? value) }
  | .format => do return { o with format := ← once s value o.format (OutputFormat.ofId? value) }
  | .config => do
    return { o with config := ← once s value o.config (if value.isEmpty then none else some value) }
  | .disable => .ok { o with disabled := some (o.disabled.getD [] ++ betweenCommas value) }
  | .jobs => do return { o with jobs := ← once s value o.jobs (jobs? value) }

/-- A switch that has been turned on, once. -/
def turn (s : Switch) (old : Bool) : Except Stop Bool :=
  if old then .error (.mistake (.repeatedFlag (.switch s))) else .ok true

/-- With a switch turned on. -/
def turnOn (o : Options) (s : Switch) : Except Stop Options :=
  match s with
  | .noColor => do return { o with noColor := ← turn s o.noColor }
  | .listRules => do return { o with listRules := ← turn s o.listRules }
  | .detect => do return { o with detect := ← turn s o.detect }
  | .verbose => do return { o with verbose := ← turn s o.verbose }
  | .version => .error .version
  | .help => .error .help

/-- With the text to lint. -/
def addSource (o : Options) (text : String) : Except Stop Options :=
  if o.source.isSome then .error (.mistake (.secondSource text)) else .ok { o with source := some text }

end Options

/-! ### Reading -/

/-- A setting whose values may follow. -/
structure Awaited where
  setting : Setting
  /-- Whether it has had a value. -/
  served : Bool

/-- What has been read of a command line. -/
structure Progress where
  options : Options
  awaited : Option Awaited

namespace Progress

/-- The options, where no further value follows. -/
def settle (p : Progress) : Except Stop Options :=
  match p.awaited with
  | some ⟨s, false⟩ => .error (.mistake (.missingValue (.setting s)))
  | _ => .ok p.options

/-- At a setting, with its value if that is attached. -/
def readSetting (p : Progress) (s : Setting) (value : Option String) : Except Stop Progress := do
  let o ← p.settle
  match value with
  | some value => return ⟨← o.give s value, none⟩
  | none => return ⟨o, some ⟨s, false⟩⟩

def readSwitch (p : Progress) (s : Switch) : Except Stop Progress := do
  return ⟨← (← p.settle).turnOn s, none⟩

/-- At a word behind two hyphens; a value is attached with an equals sign. -/
def readLong (p : Progress) (word : List Char) : Except Stop Progress :=
  let name := String.ofList (word.takeWhile (· != '='))
  let value := match word.dropWhile (· != '=') with
    | [] => none
    | _ :: value => some (String.ofList value)
  match Flag.ofLong? name, value with
  | none, _ => .error (.mistake (.unknownFlag ("--" ++ name)))
  | some (.setting s), value => p.readSetting s value
  | some (.switch s), none => p.readSwitch s
  | some (.switch s), some _ => .error (.mistake (.needlessValue (.switch s)))

/-- What is attached to a letter, which may have an equals sign in front. -/
def attached : List Char → Option String
  | [] => none
  | '=' :: value => some (String.ofList value)
  | value => some (String.ofList value)

/-- At letters behind one hyphen; the first one that takes a value ends them. -/
def readShort (p : Progress) : List Char → Except Stop Progress
  | [] => .ok p
  | letter :: rest =>
    match Flag.ofShort? letter with
    | none => .error (.mistake (.unknownFlag ("-" ++ letter.toString)))
    | some (.setting s) => p.readSetting s (attached rest)
    | some (.switch s) => do readShort (← p.readSwitch s) rest

/-- At a word that is no flag: a value if one may follow, or else the text to lint. -/
def readWord (p : Progress) (word : String) : Except Stop Progress :=
  match p.awaited with
  | some a => do
    let o ← p.options.give a.setting word
    return ⟨o, if a.setting = .files then some ⟨.files, true⟩ else none⟩
  | none => do return ⟨← p.options.addSource word, none⟩

def readArgument (p : Progress) (argument : String) : Except Stop Progress :=
  match argument.toList with
  | '-' :: '-' :: word => p.readLong word
  | '-' :: letter :: rest => p.readShort (letter :: rest)
  | _ => p.readWord argument

def readAll (p : Progress) : List String → Except Stop Options
  | [] => p.settle
  | "--" :: rest => do rest.foldlM Options.addSource (← p.settle)
  | argument :: rest => do readAll (← p.readArgument argument) rest

end Progress

/-- The options that the arguments of a command line stand for. -/
def Options.ofArguments (arguments : List String) : Except Stop Options :=
  Progress.readAll ⟨{}, none⟩ arguments

end SnippetLint.CommandLine
