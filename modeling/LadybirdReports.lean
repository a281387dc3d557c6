import LadybirdReports.Lib.Result
import LadybirdReports.Lib.Str
import LadybirdReports.Lib.StrSearch
import LadybirdReports.Lib.StrChars
import LadybirdReports.Lib.StrRender
import LadybirdReports.Lib.DigitRuns
import LadybirdReports.Lib.Run
import LadybirdReports.Lib.Forest
import LadybirdReports.Lib.Rows
import LadybirdReports.Lib.RowWise
import LadybirdReports.Lib.Newest
import LadybirdReports.Lib.Amortized
import LadybirdReports.Lib.IpAddr
import LadybirdReports.Lib.Ternary
import LadybirdReports.Lib.Regex
import LadybirdReports.Lib.Words
import LadybirdReports.Lib.Keyset
import LadybirdReports.Lib.KeyOrder
import LadybirdReports.Lib.Occurrences
import LadybirdReports.Lib.Uuid
import LadybirdReports.Lib.Base64
import LadybirdReports.Domain.Identifiers
import LadybirdReports.Domain.States
import LadybirdReports.Domain.StackTrace
import LadybirdReports.Domain.StackRows
import LadybirdReports.Domain.ClientStack
import LadybirdReports.Domain.MangledPath
import LadybirdReports.Domain.ReportTitle
import LadybirdReports.Domain.TitleLength
import LadybirdReports.Domain.TitleCharacters
import LadybirdReports.Domain.Configuration
import LadybirdReports.Domain.Field
import LadybirdReports.Domain.ReportSearch
import LadybirdReports.Domain.ReportSignature
import LadybirdReports.Domain.ChangedPaths
import LadybirdReports.Domain.SignatureAgreement
import LadybirdReports.Domain.SignatureSeparation
import LadybirdReports.Domain.SignatureInvariance
import LadybirdReports.Application.DiscordPreview
import LadybirdReports.Application.ReportMessage
import LadybirdReports.Application.StackPreview
import LadybirdReports.Application.StackArithmetic
import LadybirdReports.Application.MessageQuoting
import LadybirdReports.Application.ReportTitles
import LadybirdReports.Ingestion.Attachments
import LadybirdReports.Ingestion.Submission
import LadybirdReports.Ingestion.Uploads
import LadybirdReports.Ingestion.AcceptedFiles
import LadybirdReports.Ingestion.Limits
import LadybirdReports.Ingestion.ReportManifest
import LadybirdReports.Ingestion.ManifestRows
import LadybirdReports.Ingestion.Receiving
import LadybirdReports.Ingestion.StoredConfiguration
import LadybirdReports.Ingestion.UploadLeases
import LadybirdReports.Ingestion.RequestStages
import LadybirdReports.Ingestion.StagingSweep
import LadybirdReports.Ingestion.ChallengeTokens
import LadybirdReports.Ingestion.StoredFiles
import LadybirdReports.Application.MessageLimits
import LadybirdReports.Application.IssueProposal
import LadybirdReports.Public.RateLimit
import LadybirdReports.Public.ClientAddress
import LadybirdReports.Admin.Schema
import LadybirdReports.Admin.Statements
import LadybirdReports.Admin.Reports
import LadybirdReports.Admin.GithubSync
import LadybirdReports.Admin.Issues
import LadybirdReports.Admin.GithubDuplicates
import LadybirdReports.Admin.StackSignatures
import LadybirdReports.Admin.Ingest
import LadybirdReports.Admin.Maintenance
import LadybirdReports.Admin.Operation
import LadybirdReports.Admin.History
import LadybirdReports.Admin.Following
import LadybirdReports.Admin.Change
import LadybirdReports.Admin.Lapses
import LadybirdReports.Admin.WellFormed
import LadybirdReports.Admin.ReportChanges
import LadybirdReports.Admin.IngestChanges
import LadybirdReports.Admin.IssueChanges
import LadybirdReports.Admin.MergeChanges
import LadybirdReports.Admin.Runs
import LadybirdReports.Admin.Transactions
import LadybirdReports.Admin.Constraints
import LadybirdReports.Admin.IssueStates
import LadybirdReports.Admin.Replacement
import LadybirdReports.Admin.Webhooks
import LadybirdReports.Admin.ReportLife
import LadybirdReports.Admin.AuditTrail
import LadybirdReports.Admin.ReportRules
import LadybirdReports.Admin.BulkOperations
import LadybirdReports.Admin.Rejection
import LadybirdReports.Admin.Identities
import LadybirdReports.Admin.Lookups
import LadybirdReports.Admin.Merging
import LadybirdReports.Admin.Interleaving
import LadybirdReports.Admin.Notifications
import LadybirdReports.Admin.Delivery
import LadybirdReports.Admin.ForeignLease
import LadybirdReports.Ingestion.Acceptance
import LadybirdReports.Ingestion.Concurrent
import LadybirdReports.Ingestion.MovedOnce
import LadybirdReports.Ingestion.SubmissionLocks
import LadybirdReports.Ingestion.AcceptedOnce
import LadybirdReports.Admin.Indexing
import LadybirdReports.Admin.MatchedOnce
import LadybirdReports.Admin.IndexedSignatures
import LadybirdReports.Admin.Deduplication
import LadybirdReports.Admin.Sessions
import LadybirdReports.Admin.Memberships
import LadybirdReports.Admin.TokenRotation
import LadybirdReports.Admin.SourceBlocks
import LadybirdReports.Admin.ConfigurationUpdate
import LadybirdReports.Admin.FieldDefinitions
import LadybirdReports.Database.ConfigurationCache
import LadybirdReports.Database.ProxyAddresses
import LadybirdReports.Web.FilterBar
import LadybirdReports.Web.ActivePills
import LadybirdReports.Web.ReportList
