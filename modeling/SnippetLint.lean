import SnippetLint.Braces
import SnippetLint.CommandLine.Job
import SnippetLint.CommandLine.Options
import SnippetLint.CommandLine.Run
import SnippetLint.Comparison
import SnippetLint.Config.Basic
import SnippetLint.Config.Files
import SnippetLint.Config.Merge
import SnippetLint.Config.Reader
import SnippetLint.Config.Writer
import SnippetLint.Detection
import SnippetLint.Diagnostic
import SnippetLint.Document
import SnippetLint.FileTree
import SnippetLint.Glob.Basic
import SnippetLint.Glob.Match
import SnippetLint.Indentation
import SnippetLint.Json.Basic
import SnippetLint.Json.Printer
import SnippetLint.Json.Reader
import SnippetLint.Json.Token
import SnippetLint.Language
import SnippetLint.Linter
import SnippetLint.Naming
import SnippetLint.Output.Lines
import SnippetLint.Output.Seconds
import SnippetLint.Output.Structured
import SnippetLint.Output.Style
import SnippetLint.Output.Terminal
import SnippetLint.Path
import SnippetLint.Pattern.Basic
import SnippetLint.Pattern.Match
import SnippetLint.Registry
import SnippetLint.Repeats
import SnippetLint.Report
import SnippetLint.Returns
import SnippetLint.Rule
import SnippetLint.RuleRun
import SnippetLint.Rules.CSharp
import SnippetLint.Rules.Cpp
import SnippetLint.Rules.Go
import SnippetLint.Rules.Html
import SnippetLint.Rules.Java
import SnippetLint.Rules.JavaScript
import SnippetLint.Rules.Php
import SnippetLint.Rules.Python
import SnippetLint.Rules.TypeScript
import SnippetLint.SeverityTable
import SnippetLint.Text.Basic
import SnippetLint.Text.Lines
import SnippetLint.Unicode.Blank
import SnippetLint.Unicode.Case
import SnippetLint.Unicode.Ranges
import SnippetLint.Unicode.Word
import SnippetLint.Wildcard.Basic
import SnippetLint.Wildcard.Expand
import SnippetLint.Words
import SnippetLint.Yaml.Layout
import SnippetLint.Yaml.Node
import SnippetLint.Yaml.Place
import SnippetLint.Yaml.Reader
import SnippetLint.Yaml.Scalar
import SnippetLint.Yaml.Token
import SnippetLint.Yaml.Views
import SnippetLint.Main
import SnippetLint.Proofs.Text.Lines
import SnippetLint.Proofs.Checked
import SnippetLint.Proofs.Pattern.Extent
import SnippetLint.Proofs.Placement
import SnippetLint.Proofs.Comparison
import SnippetLint.Proofs.Indentation
import SnippetLint.Proofs.Repeats
import SnippetLint.Proofs.Returns
import SnippetLint.Proofs.Rules.Cpp
import SnippetLint.Proofs.Rules.CSharp
import SnippetLint.Proofs.Rules.Java
import SnippetLint.Proofs.Rules.JavaScript
import SnippetLint.Proofs.Rules.TypeScript
import SnippetLint.Proofs.Rules.Go
import SnippetLint.Proofs.Rules.Html
import SnippetLint.Proofs.Rules.Php
import SnippetLint.Proofs.Rules.Python
import SnippetLint.Proofs.RuleRun
import SnippetLint.Proofs.Lint
import SnippetLint.Proofs.Unused
import SnippetLint.Proofs.Unicode.Word
import SnippetLint.Proofs.Pattern.Run
import SnippetLint.Proofs.Words
import SnippetLint.Proofs.Names
import SnippetLint.Proofs.Findings
import SnippetLint.Proofs.Settings
import SnippetLint.Proofs.Wording
import SnippetLint.Proofs.Reports
import SnippetLint.Proofs.Detection
import SnippetLint.Proofs.Json.Leaves
import SnippetLint.Proofs.Json.Tokens
import SnippetLint.Proofs.Json.Reader
import SnippetLint.Proofs.Output.Structured
import SnippetLint.Proofs.Globs
import SnippetLint.Proofs.Config.Merge
import SnippetLint.Proofs.Config.Union
import SnippetLint.Proofs.Except
import SnippetLint.Proofs.Config.Validity
import SnippetLint.Proofs.Config.Layers
import SnippetLint.Proofs.FileTree
import SnippetLint.Proofs.CommandLine.Exit
import SnippetLint.Proofs.Output.Lines
import SnippetLint.Proofs.LineEndings.Text
import SnippetLint.Proofs.LineEndings.Pattern
import SnippetLint.Proofs.LineEndings.Detection
import SnippetLint.Proofs.LineEndings.Checks
import SnippetLint.Proofs.LineEndings.Inside
import SnippetLint.Proofs.LineEndings.Report
import SnippetLint.Proofs.Config.RoundTrip
import SnippetLint.Proofs.Output.Counts
import SnippetLint.Proofs.Output.Terminal
import SnippetLint.Proofs.Pattern.Order
import SnippetLint.Proofs.Order.Checks
import SnippetLint.Proofs.Order.Imports
import SnippetLint.Proofs.Order.Report
import SnippetLint.Proofs.Braces
import SnippetLint.Proofs.StrictComparison
import SnippetLint.Proofs.Nesting
import SnippetLint.Proofs.Numerals
import SnippetLint.Proofs.MagicNumbers
import SnippetLint.Proofs.Markup
import SnippetLint.Proofs.ClosingTags
import SnippetLint.Proofs.QuotedAttributes
import SnippetLint.Proofs.Bodies
import SnippetLint.Proofs.Parameters
import SnippetLint.Proofs.ImportDeclarations
import SnippetLint.Proofs.RedundantImports
import SnippetLint.Proofs.FileLanguage
import SnippetLint.Proofs.CommandLine.Printed
import SnippetLint.Proofs.Locality
import SnippetLint.Proofs.StraightLine
import SnippetLint.Proofs.Text.LineAt
import SnippetLint.Proofs.RelativeIndentation
import SnippetLint.Proofs.Pattern.Containment
import SnippetLint.Proofs.DecidingConstruct
