import HanaInsights.Text.Blank
import HanaInsights.Text.Letter
import HanaInsights.Text.Utf8
import HanaInsights.Binary64
import HanaInsights.Binary64.Operand
import HanaInsights.Binary64.Scaled
import HanaInsights.Binary64.Shortest
import HanaInsights.Json.Basic
import HanaInsights.Json.Quoted
import HanaInsights.Json.Reader
import HanaInsights.Json.Printer
import HanaInsights.Keyed
import HanaInsights.Trigger.Operation
import HanaInsights.Trigger.Basic
import HanaInsights.Trigger.Shape
import HanaInsights.Trigger.Operand
import HanaInsights.Trigger.Document
import HanaInsights.Logged
import HanaInsights.InsightError
import HanaInsights.Rule.Basic
import HanaInsights.KnowledgeBase
import HanaInsights.Trigger.Comparison
import HanaInsights.Trigger.Evaluation
import HanaInsights.Rule.Validation
import HanaInsights.Insights
import HanaInsights.Json.Record
import HanaInsights.Wording
import HanaInsights.Rule.Document
import HanaInsights.Client.Output
import HanaInsights.Client.SqlError
import HanaInsights.Rule.BuiltIn
import HanaInsights.Toml.Basic
import HanaInsights.Toml.Lexeme
import HanaInsights.Toml.Number
import HanaInsights.Toml.Reader
import HanaInsights.Command.Error
import HanaInsights.Query.Error
import HanaInsights.DomainError
import HanaInsights.Files.Tree
import HanaInsights.Rule.Files
import HanaInsights.Query.Recording
import HanaInsights.Cycle
import HanaInsights.Toml.Printer
import HanaInsights.Run.Basic
import HanaInsights.Config.Basic
import HanaInsights.Config.Provider
import HanaInsights.Publish.File
import HanaInsights.Publish.Basic
import HanaInsights.Command.Basic
import HanaInsights.Command.Retry
import HanaInsights.Command.Execution
import HanaInsights.Client.Basic
import HanaInsights.Service
import HanaInsights.Schedule
import HanaInsights.Shell.Syntax
import HanaInsights.Shell.Pattern
import HanaInsights.Shell.Reader
import HanaInsights.Shell.Process
import HanaInsights.Shell.Format
import HanaInsights.Shell.Arithmetic
import HanaInsights.Shell.Program
import HanaInsights.Shell.Expansion
import HanaInsights.Shell.Utility
import HanaInsights.Shell.Evaluation
import HanaInsights.Host
import HanaInsights.Service.Connected
import HanaInsights.CommandLine.Arguments
import HanaInsights.CommandLine.Outcome
import HanaInsights.CommandLine.Surroundings
import HanaInsights.Main
import HanaInsights.Proofs.Keyed
import HanaInsights.Proofs.KnowledgeBase
import HanaInsights.Proofs.Collection
import HanaInsights.Proofs.Evaluation
import HanaInsights.Proofs.Selection
import HanaInsights.Proofs.Size
import HanaInsights.Proofs.Insights
import HanaInsights.Proofs.Strictness
import HanaInsights.Proofs.WellFormed
import HanaInsights.Proofs.Diagnostics
import HanaInsights.Proofs.Joined
import HanaInsights.Proofs.Printed
import HanaInsights.Proofs.Merging
import HanaInsights.Proofs.Dependence
import HanaInsights.Proofs.Reordering
import HanaInsights.Proofs.Record
import HanaInsights.Proofs.Spelling
import HanaInsights.Proofs.Documents
import HanaInsights.Proofs.Wrapped
import HanaInsights.Proofs.Decimal
import HanaInsights.Proofs.Layout
import HanaInsights.Proofs.Masking
import HanaInsights.Proofs.Interleaving
import HanaInsights.Proofs.Replay
import HanaInsights.Proofs.Utf8
import HanaInsights.Proofs.Files
import HanaInsights.Proofs.TomlText
import HanaInsights.Proofs.TomlValue
import HanaInsights.Proofs.TomlLines
import HanaInsights.Proofs.TomlDocument
import HanaInsights.Proofs.TomlIntegers
import HanaInsights.Proofs.Saved
import HanaInsights.Proofs.Ingestion
import HanaInsights.Proofs.Numeral
import HanaInsights.Proofs.Presence
import HanaInsights.Proofs.Quoting
import HanaInsights.Proofs.Reported
import HanaInsights.Proofs.Causes
import HanaInsights.Proofs.Retry
import HanaInsights.Proofs.Counts
import HanaInsights.Proofs.Listing
import HanaInsights.Proofs.Samples
import HanaInsights.Proofs.Credentials
import HanaInsights.Proofs.Settings
import HanaInsights.Proofs.Token
import HanaInsights.Proofs.Address
import HanaInsights.Proofs.RunFiles
import HanaInsights.Proofs.Publishing
