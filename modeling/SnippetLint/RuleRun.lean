/-
Running the rules of one language over a text.

A filter says which rules to leave out and which severities to change; it is made of rule ids, each
either plain, for every language, or qualified with one language. Rules run in their order and know
nothing of each other: a rule whose check faults loses its own findings only.
-/
import SnippetLint.Rule
import SnippetLint.SeverityTable

namespace SnippetLint

/-- The id of a rule of one language, told from the rules of that name in other languages. -/
def qualifiedId (language : Language) (ruleId : String) : String := language.id ++ "/" ++ ruleId

structure RuleFilter where
  disabled : List String
  severity : SeverityTable

namespace RuleFilter

/-- Leaves out nothing and changes nothing. -/
def empty : RuleFilter := ⟨[], .empty⟩

/-- Leaves out one more rule. -/
def disable (f : RuleFilter) (id : String) : RuleFilter := { f with disabled := id :: f.disabled }

/-- Changes the severity of one more rule. -/
def withSeverity (f : RuleFilter) (id : String) (severity : Severity) : RuleFilter :=
  { f with severity := f.severity.insert id severity }

/-- Whether a rule of a language is to run. -/
def isEnabled (f : RuleFilter) (language : Language) (ruleId : String) : Bool :=
  !f.disabled.contains ruleId && !f.disabled.contains (qualifiedId language ruleId)

/-- The severity of what a rule finds; an entry for one language wins over one for all. -/
def severityOf (f : RuleFilter) (language : Language) (rule : Rule) : Severity :=
  match f.severity.get? (qualifiedId language rule.id) with
  | some severity => severity
  | none => (f.severity.get? rule.id).getD rule.severity

end RuleFilter

/-- What a run of rules yields: diagnostics in rule order, and the ids of the rules that faulted. -/
structure RuleRun where
  diagnostics : List Diagnostic
  faulted : List String
  deriving DecidableEq, Repr

namespace RuleRun

/-- What nothing contributes. -/
def empty : RuleRun := ⟨[], []⟩

instance : Append RuleRun where
  append a b := ⟨a.diagnostics ++ b.diagnostics, a.faulted ++ b.faulted⟩

/-- A finding as a diagnostic of a rule. A snippet without a line is dropped. -/
def diagnose (ruleId : String) (severity : Severity) (finding : Finding) : Diagnostic where
  ruleId := ruleId
  severity := severity
  message := finding.message
  location := finding.line.map fun line => ⟨line, finding.snippet.getD ""⟩

/-- A run after one more rule. -/
def step (language : Language) (filter : RuleFilter) (text : Text) (run : RuleRun) (rule : Rule) :
    RuleRun :=
  if filter.isEnabled language rule.id then
    match rule.check text with
    | .ok findings =>
      let severity := filter.severityOf language rule
      { run with diagnostics := run.diagnostics ++ findings.map (diagnose rule.id severity) }
    | .error _ => { run with faulted := run.faulted ++ [rule.id] }
  else run

/-- What several rules contribute, one after another. -/
def contributions (language : Language) (filter : RuleFilter) (text : Text) (rules : List Rule) :
    RuleRun :=
  rules.foldl (step language filter text) empty

/-- A run to which, if no rule found anything, one diagnostic is added that says so. -/
def finish (run : RuleRun) (cleanMessage : String) : RuleRun :=
  if run.diagnostics.isEmpty then
    { run with diagnostics := run.diagnostics ++ [.clean cleanMessage] }
  else run

/-- Runs a rule set. -/
def ofRuleSet (rules : RuleSet) (filter : RuleFilter) (text : Text) : RuleRun :=
  (contributions rules.language filter text rules.rules).finish rules.cleanMessage

end RuleRun

end SnippetLint
