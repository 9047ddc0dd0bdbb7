import SeismicIngest.Transaction.Program
import SeismicIngest.Transaction.Local
import SeismicIngest.Transaction.Interleaving
import SeismicIngest.Transaction.Serializability
import SeismicIngest.Transaction.Observers
import SeismicIngest.Transaction.Masking
import SeismicIngest.Transaction.Sending
import SeismicIngest.Transaction.Crashes
import SeismicIngest.Transaction.Progress
import SeismicIngest.Transaction.RealTime
import SeismicIngest.Transaction.Interference
import SeismicIngest.Spans.Window
import SeismicIngest.Spans.Tiling
import SeismicIngest.Spans.CommonPrefix
import SeismicIngest.Spans.Pages
import SeismicIngest.Text.Pattern
import SeismicIngest.Text.Case
import SeismicIngest.Text.Json
import SeismicIngest.Model.Schema
import SeismicIngest.Model.Database
import SeismicIngest.Model.Upload
import SeismicIngest.Model.Archive
import SeismicIngest.Model.Compaction
import SeismicIngest.Model.Comparison
import SeismicIngest.Model.Routes
import SeismicIngest.Model.Requests
import SeismicIngest.Model.Service
import SeismicIngest.Model.Server
import SeismicIngest.Abstract.AppendLog
import SeismicIngest.Abstract.Catalogue
import SeismicIngest.Verified.Rows
import SeismicIngest.Verified.Walks
import SeismicIngest.Verified.Statements
import SeismicIngest.Verified.Invariant
import SeismicIngest.Verified.PutPlan
import SeismicIngest.Verified.Puts
import SeismicIngest.Verified.PlannedRows
import SeismicIngest.Verified.CompactionPlan
import SeismicIngest.Verified.Compactions
import SeismicIngest.Verified.Writers
import SeismicIngest.Verified.Creations
import SeismicIngest.Verified.StreamWalks
import SeismicIngest.Verified.Reads
import SeismicIngest.Verified.Comparisons
import SeismicIngest.Verified.Steps
import SeismicIngest.Verified.Evolution
import SeismicIngest.Verified.Replays
import SeismicIngest.Verified.RangeHeader
import SeismicIngest.Verified.Clients
import SeismicIngest.Verified.Observing
import SeismicIngest.Verified.Serving
import SeismicIngest.Guarantees.Representation
import SeismicIngest.Guarantees.AppendLogRefinement
import SeismicIngest.Guarantees.Serialisable
import SeismicIngest.Guarantees.Delivery
import SeismicIngest.Guarantees.Retransmission
import SeismicIngest.Guarantees.Immutability
import SeismicIngest.Guarantees.VerifiedReads
import SeismicIngest.Guarantees.CompactionCertificate
import SeismicIngest.Guarantees.CanonicalCompaction
import SeismicIngest.Guarantees.Comparing
import SeismicIngest.Guarantees.RefusedCalls
import SeismicIngest.Guarantees.VerifierAgreement
import SeismicIngest.Guarantees.NoFalseAlarms
import SeismicIngest.Guarantees.RangeParsing
import SeismicIngest.Guarantees.RangeReads
import SeismicIngest.Guarantees.AuditTrail
import SeismicIngest.Guarantees.Isolation
import SeismicIngest.Guarantees.Checkpoints
import SeismicIngest.Guarantees.LockFreeReads
import SeismicIngest.Guarantees.StreamDifference
import SeismicIngest.Guarantees.ArchivedSlices
import SeismicIngest.Guarantees.ColumnRanges
import SeismicIngest.Guarantees.SessionPages
import SeismicIngest.Guarantees.DigestGates
import SeismicIngest.Guarantees.Restarts
import SeismicIngest.Guarantees.Termination
import SeismicIngest.Guarantees.CatalogueRefinement
import SeismicIngest.Guarantees.ErrorBodies
import SeismicIngest.Guarantees.Resumption
import SeismicIngest.Guarantees.ServerFaults
import SeismicIngest.Guarantees.ComparisonRecords
import SeismicIngest.Guarantees.Upgrade
import SeismicIngest.Guarantees.RealTime
import SeismicIngest.Guarantees.CallRules
import SeismicIngest.Guarantees.Coexistence
import SeismicIngest.Guarantees.ReplyBodies
import SeismicIngest.Guarantees.ServerCoexistence
