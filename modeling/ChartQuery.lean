import ChartQuery.Text.Blank
import ChartQuery.Text.Uppercase
import ChartQuery.Text.WordChar
import ChartQuery.Text.Printable
import ChartQuery.Number.Decimal
import ChartQuery.Number.ExactSum
import ChartQuery.Number.Whole
import ChartQuery.Calendar.Written
import ChartQuery.Value.Compare
import ChartQuery.Json.Reader
import ChartQuery.Name
import ChartQuery.Sql.Validation
import ChartQuery.Spec.Request
import ChartQuery.Plan.Complexity
import ChartQuery.Plan.Label
import ChartQuery.Sql.Prepare
import ChartQuery.Sql.Token
import ChartQuery.Sql.Words
import ChartQuery.Sql.Lexeme
import ChartQuery.Local.Records
import ChartQuery.Local.Filter
import ChartQuery.Local.Bucket
import ChartQuery.Local.Column
import ChartQuery.Local.Total
import ChartQuery.Local.Chart
import ChartQuery.Service.RateLimiter
import ChartQuery.Service.Logging
import ChartQuery.Service.Settings
import ChartQuery.Service.Batch
import ChartQuery.Database.Evaluation
import ChartQuery.Database.Execution
import ChartQuery.Service.Sources
import ChartQuery.Http.Server
import ChartQuery.Sql.Grammar.Basic
import ChartQuery.Sql.Grammar.Select
import ChartQuery.Proofs.Chart.Agreement
import ChartQuery.Proofs.Sql.HiddenCode
import ChartQuery.Proofs.Sql.MaskedText
import ChartQuery.Proofs.Sql.TwoReadings
import ChartQuery.Proofs.Pool.History
import ChartQuery.Proofs.Pool.OpenPools
import ChartQuery.Proofs.Pool.RetiredPools
import ChartQuery.Proofs.Service.Admissions
import ChartQuery.Proofs.Service.RemainingRequests
import ChartQuery.Proofs.Service.BatchMaps
import ChartQuery.Proofs.Service.Addresses
import ChartQuery.Proofs.Service.Conversations
import ChartQuery.Proofs.Service.WorkerThreads
import ChartQuery.Proofs.Chart.DateRanges
import ChartQuery.Proofs.Chart.Failures
import ChartQuery.Proofs.Chart.Counting
import ChartQuery.Proofs.Chart.ReorderedRecords
import ChartQuery.Proofs.Chart.WordSums
import ChartQuery.Proofs.Spec.Rereading
import ChartQuery.Proofs.Sql.ExecutingWords
import ChartQuery.Proofs.Sql.FilteredText
import ChartQuery.Proofs.Sql.ReplacementScans
import ChartQuery.Proofs.Sql.SegmentedText
import ChartQuery.Proofs.Service.Endpoints
import ChartQuery.Proofs.Number.NearestWhole
import ChartQuery.Proofs.Number.WholeTexts
import ChartQuery.Proofs.Local.NumberTexts
import ChartQuery.Proofs.Local.Comparisons
import ChartQuery.Proofs.Local.KeptRecords
import ChartQuery.Proofs.Local.Patterns
import ChartQuery.Proofs.Local.CleanedRecords
import ChartQuery.Proofs.Sql.Placeholders
import ChartQuery.Proofs.Chart.ResultPositions
import ChartQuery.Proofs.Chart.ScalarKinds
import ChartQuery.Proofs.Chart.Extremes
import ChartQuery.Proofs.Plan.KeptParts
import ChartQuery.Proofs.Plan.ResolvedAgain
import ChartQuery.Proofs.Sql.Procedures
import ChartQuery.Proofs.Chart.OrderedRows
import ChartQuery.Proofs.Calendar.WrittenMoments
import ChartQuery.Proofs.Calendar.Buckets
import ChartQuery.Proofs.Number.ExactSums
import ChartQuery.Proofs.Chart.ReorderedSums
import ChartQuery.Proofs.Chart.TimeCharts
import ChartQuery.Proofs.Chart.RolledUp
import ChartQuery.Proofs.Chart.MentionedColumns
