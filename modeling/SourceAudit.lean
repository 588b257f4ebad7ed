import SourceAudit.Association
import SourceAudit.Audit.Evaluation
import SourceAudit.Audit.Run
import SourceAudit.Catalogue.Authentication
import SourceAudit.Catalogue.Authorization
import SourceAudit.Catalogue.Cors
import SourceAudit.Catalogue.Sanitization
import SourceAudit.CommandLine.Option
import SourceAudit.CommandLine.Parse
import SourceAudit.CommandLine.Session
import SourceAudit.CommandLine.Text
import SourceAudit.Concern
import SourceAudit.Config
import SourceAudit.Datum
import SourceAudit.Disk.Basic
import SourceAudit.Disk.Change
import SourceAudit.Disk.Listing
import SourceAudit.Disk.Lookup
import SourceAudit.FileFilter
import SourceAudit.Finding
import SourceAudit.Json.Basic
import SourceAudit.Json.Display
import SourceAudit.Json.Reader
import SourceAudit.Json.Writer
import SourceAudit.Language
import SourceAudit.Linter.Basic
import SourceAudit.Linter.EsLint
import SourceAudit.Linter.Fault
import SourceAudit.Log
import SourceAudit.Main
import SourceAudit.Number.Binary64
import SourceAudit.Number.Decimal
import SourceAudit.Number.Numeral
import SourceAudit.Path
import SourceAudit.Pattern.Basic
import SourceAudit.Profile
import SourceAudit.Proofs.Association
import SourceAudit.Proofs.Audit.Accounting
import SourceAudit.Proofs.Audit.Delegation
import SourceAudit.Proofs.Audit.Disruption
import SourceAudit.Proofs.Audit.EntryOrder
import SourceAudit.Proofs.Audit.Evidence
import SourceAudit.Proofs.Audit.Files
import SourceAudit.Proofs.Audit.LinterFailure
import SourceAudit.Proofs.Audit.Lossless
import SourceAudit.Proofs.Audit.Outcome
import SourceAudit.Proofs.Audit.Provenance
import SourceAudit.Proofs.Audit.Rescan
import SourceAudit.Proofs.Audit.Verdict
import SourceAudit.Proofs.CommandLine.Frame
import SourceAudit.Proofs.Config.HiddenDirectories
import SourceAudit.Proofs.Config.ReportDirectory
import SourceAudit.Proofs.Disk.Candidates
import SourceAudit.Proofs.Disk.Effect
import SourceAudit.Proofs.Disk.Growth
import SourceAudit.Proofs.Disk.Linkless
import SourceAudit.Proofs.Disk.Order
import SourceAudit.Proofs.Disk.Resolve
import SourceAudit.Proofs.Disk.Tree
import SourceAudit.Proofs.Disk.Visible
import SourceAudit.Proofs.Disk.Writing
import SourceAudit.Proofs.Fallible
import SourceAudit.Proofs.Json.RoundTrip
import SourceAudit.Proofs.Linter.Answer
import SourceAudit.Proofs.Linter.Batching
import SourceAudit.Proofs.Linter.Breakage
import SourceAudit.Proofs.Linter.Translation
import SourceAudit.Proofs.Path
import SourceAudit.Proofs.Pattern.LineEnds
import SourceAudit.Proofs.Pattern.Lines
import SourceAudit.Proofs.Pattern.Pieces
import SourceAudit.Proofs.Report.Assembly
import SourceAudit.Proofs.Report.Counts
import SourceAudit.Proofs.Report.Page
import SourceAudit.Proofs.Report.Requests
import SourceAudit.Proofs.Rule.Emission
import SourceAudit.Proofs.Rule.LineEnds
import SourceAudit.Proofs.Rule.LineNumbers
import SourceAudit.Proofs.Rule.LineVerdicts
import SourceAudit.Proofs.Rule.MarkerDistance
import SourceAudit.Proofs.Rule.ScopeGate
import SourceAudit.Proofs.Rule.SensitiveRoutes
import SourceAudit.Proofs.Text.Markup
import SourceAudit.Proofs.Text.Utf8
import SourceAudit.Report.Basic
import SourceAudit.Report.Document
import SourceAudit.Report.Files
import SourceAudit.Report.Page
import SourceAudit.Report.Summary
import SourceAudit.Report.Terminal
import SourceAudit.Result
import SourceAudit.Rule.AdjacentMarkers
import SourceAudit.Rule.Basic
import SourceAudit.Rule.LineCheck
import SourceAudit.SourceText
import SourceAudit.Text.Blank
import SourceAudit.Text.Cased
import SourceAudit.Text.CharTable
import SourceAudit.Text.DecimalDigit
import SourceAudit.Text.Lines
import SourceAudit.Text.Lowercase
import SourceAudit.Text.Markup
import SourceAudit.Text.Percent
import SourceAudit.Text.Printable
import SourceAudit.Text.Quoted
import SourceAudit.Text.Utf8
import SourceAudit.Text.WordChar
import SourceAudit.Yaml.Cursor
import SourceAudit.Yaml.Error
import SourceAudit.Yaml.Node
import SourceAudit.Yaml.Scalar
import SourceAudit.Yaml.ScalarValue
import SourceAudit.Yaml.Scan
import SourceAudit.Yaml.Tag
import SourceAudit.Yaml.Token
import SourceAudit.Yaml.Value
import SourceAudit.Proofs.Rule.LiteralMarkers
import SourceAudit.Proofs.Audit.Assignment
import SourceAudit.Proofs.Config.Overrides
import SourceAudit.Proofs.Report.Ranking
import SourceAudit.Proofs.Number.Rounding
import SourceAudit.Proofs.Number.Shortest
import SourceAudit.Proofs.Config.Loading
