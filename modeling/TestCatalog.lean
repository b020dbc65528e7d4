import TestCatalog.Assembly.Basic
import TestCatalog.Assembly.Body
import TestCatalog.Backend.Error
import TestCatalog.Backend.Execution
import TestCatalog.Backend.Push
import TestCatalog.Batch.Discovery
import TestCatalog.Batch.Error
import TestCatalog.Batch.Results
import TestCatalog.Batch.Run
import TestCatalog.Calendar
import TestCatalog.Case.Basic
import TestCatalog.Case.Json
import TestCatalog.Config.Preferences
import TestCatalog.Config.Read
import TestCatalog.Config.Sync
import TestCatalog.Decimal
import TestCatalog.Diagnostics.Buffer
import TestCatalog.Diagnostics.Code
import TestCatalog.Diagnostics.Collector
import TestCatalog.Diagnostics.Event
import TestCatalog.Diagnostics.Journal
import TestCatalog.Diagnostics.Log
import TestCatalog.Dialect.Basic
import TestCatalog.Dialect.Filter
import TestCatalog.Dialect.Name
import TestCatalog.Dialect.Opening
import TestCatalog.Document.Cursor
import TestCatalog.Document.Error
import TestCatalog.Document.Escape
import TestCatalog.Document.Projects
import TestCatalog.Document.Reader
import TestCatalog.Document.Section
import TestCatalog.Document.Steps
import TestCatalog.Document.Table
import TestCatalog.Json
import TestCatalog.Limits
import TestCatalog.Path
import TestCatalog.Proofs.Acceptance
import TestCatalog.Proofs.Blanks
import TestCatalog.Proofs.Buckets
import TestCatalog.Proofs.ByteSizes
import TestCatalog.Proofs.CaseLines
import TestCatalog.Proofs.CaseSections
import TestCatalog.Proofs.CaseUpdates
import TestCatalog.Proofs.CollectedFindings
import TestCatalog.Proofs.Composition
import TestCatalog.Proofs.ContentLines
import TestCatalog.Proofs.ContentReading
import TestCatalog.Proofs.Contents
import TestCatalog.Proofs.Continuations
import TestCatalog.Proofs.CutMessages
import TestCatalog.Proofs.DeclaredNames
import TestCatalog.Proofs.DeclaringLines
import TestCatalog.Proofs.DiscoveredFiles
import TestCatalog.Proofs.DraftHeaders
import TestCatalog.Proofs.DraftReading
import TestCatalog.Proofs.Drafts
import TestCatalog.Proofs.DrawnWarnings
import TestCatalog.Proofs.EscapedCases
import TestCatalog.Proofs.EscapedText
import TestCatalog.Proofs.ExecutedNames
import TestCatalog.Proofs.Extensions
import TestCatalog.Proofs.FailFast
import TestCatalog.Proofs.FailedFiles
import TestCatalog.Proofs.FileAttribution
import TestCatalog.Proofs.FileContexts
import TestCatalog.Proofs.FileLogs
import TestCatalog.Proofs.FileTrees
import TestCatalog.Proofs.FilteredBlocks
import TestCatalog.Proofs.FoundFolders
import TestCatalog.Proofs.Headers
import TestCatalog.Proofs.InjectedLines
import TestCatalog.Proofs.InjectedNames
import TestCatalog.Proofs.IssuedHeaders
import TestCatalog.Proofs.IssuedLines
import TestCatalog.Proofs.IssuedNames
import TestCatalog.Proofs.IssuedRuns
import TestCatalog.Proofs.Journals
import TestCatalog.Proofs.KeptText
import TestCatalog.Proofs.Lines
import TestCatalog.Proofs.ListedFindings
import TestCatalog.Proofs.Locality
import TestCatalog.Proofs.Lossless
import TestCatalog.Proofs.Maps
import TestCatalog.Proofs.ModePartition
import TestCatalog.Proofs.NameSpans
import TestCatalog.Proofs.NearMatches
import TestCatalog.Proofs.OtherNames
import TestCatalog.Proofs.Passages
import TestCatalog.Proofs.PathOrder
import TestCatalog.Proofs.Payloads
import TestCatalog.Proofs.PendingRenames
import TestCatalog.Proofs.PendingReports
import TestCatalog.Proofs.PlainTables
import TestCatalog.Proofs.PrefixCodes
import TestCatalog.Proofs.ProjectScopes
import TestCatalog.Proofs.PushedResults
import TestCatalog.Proofs.ReaderReports
import TestCatalog.Proofs.Reading
import TestCatalog.Proofs.RecentEvents
import TestCatalog.Proofs.RecoveredIds
import TestCatalog.Proofs.ReissuedTexts
import TestCatalog.Proofs.RepeatedInjection
import TestCatalog.Proofs.Replacement
import TestCatalog.Proofs.ReportReading
import TestCatalog.Proofs.ReportedFailures
import TestCatalog.Proofs.ReportedLines
import TestCatalog.Proofs.RootFolders
import TestCatalog.Proofs.Runs
import TestCatalog.Proofs.SectionGrammar
import TestCatalog.Proofs.SharedBatches
import TestCatalog.Proofs.SharedPlaces
import TestCatalog.Proofs.Signatures
import TestCatalog.Proofs.Spelling
import TestCatalog.Proofs.StageTraces
import TestCatalog.Proofs.StepGrammar
import TestCatalog.Proofs.TableShapes
import TestCatalog.Proofs.TakenLines
import TestCatalog.Proofs.ValidCases
import TestCatalog.Proofs.WalkLimits
import TestCatalog.Proofs.Walks
import TestCatalog.Proofs.WriteBack
import TestCatalog.Proofs.WrittenFiles
import TestCatalog.Reconcile.Basic
import TestCatalog.Reconcile.Extract
import TestCatalog.Reconcile.Json
import TestCatalog.Reconcile.Report
import TestCatalog.Reconcile.Write
import TestCatalog.Rename.Files
import TestCatalog.Rename.Inject
import TestCatalog.Rename.Map
import TestCatalog.SortedMap
import TestCatalog.Source.Extract
import TestCatalog.Source.File
import TestCatalog.Source.FileTree
import TestCatalog.Text.Basic
import TestCatalog.Text.CaseTable
import TestCatalog.Text.Lowercase
import TestCatalog.Text.PrintTable
import TestCatalog.Text.Quoted
import TestCatalog.Text.Utf8
import TestCatalog.Toml.Basic
import TestCatalog.Toml.Document
import TestCatalog.Toml.Scan
