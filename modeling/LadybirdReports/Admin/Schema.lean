import LadybirdReports.Domain.Identifiers
import LadybirdReports.Domain.States
import Mathlib.Data.Int.Notation
import Mathlib.Data.List.Nodup

/-!
# The tables

The rows that reports, issues and what happens to them are kept in, with the check constraints of
the migrations. Columns that no modelled statement reads are left out.
-/

namespace LadybirdReports.Admin

/-- A `timestamptz`, in microseconds. -/
abbrev Timestamp := ℤ

/-- `make_interval(hours => n)`. -/
def hours (n : ℕ) : ℤ := n * 3600000000

/-- `make_interval(days => n)`. -/
def days (n : ℕ) : ℤ := n * 86400000000

inductive AppError
  | invalidRequest (message : String)
  | notFound (message : String)
  | conflict (message : String)
  /-- A statement fails, for the constraint it would break or the row that it does not find. -/
  | database (cause : String)
  deriving DecidableEq, Repr

/-! ## Reports -/

/-- The columns of the fix that resolved a report. -/
structure FixColumns where
  kind : Option ReportFixKind
  reference : Option String
  title : Option String
  url : Option String
  deriving DecidableEq, Repr

def FixColumns.null : FixColumns := ⟨none, none, none, none⟩

def FixColumns.of (fix : ReportFix) : FixColumns :=
  ⟨some fix.kind, some fix.reference, some fix.title, some fix.url⟩

/-- Every column of the fix is set. -/
def FixColumns.Complete (fix : FixColumns) : Prop :=
  fix.kind.isSome ∧ fix.reference.isSome ∧ fix.title.isSome ∧ fix.url.isSome

instance (fix : FixColumns) : Decidable fix.Complete := by
  unfold FixColumns.Complete; infer_instance

structure Report where
  id : ReportId
  submissionId : SubmissionId
  manifestDigest : String
  kind : ReportKind
  clientVersion : String
  build : String
  storageState : StorageState
  stagingId : UploadId
  sourceClientKey : Option String
  issueId : Option IssueId
  createdAt : Timestamp
  expiresAt : Option Timestamp
  autoMatchEligible : Bool
  state : ReportState
  fix : FixColumns
  deriving DecidableEq, Repr

/-- The files of the report are stored. -/
def Report.ready (r : Report) : Bool := r.storageState = .ready

/-! ## Issues -/

structure Issue where
  id : IssueId
  title : String
  description : String
  state : IssueState
  resolvedAt : Option Timestamp
  mergedInto : Option IssueId
  githubRepository : String
  githubNumber : ℤ
  githubIssueId : Option ℤ
  githubUrl : String
  githubState : GithubLinkState
  githubUpdatedAt : Option Timestamp
  githubReportsFieldId : Option ℤ
  githubReportsLinkUrl : Option String
  deriving DecidableEq, Repr

/-- The issue counts for the unique indexes: it is neither merged nor rejected. -/
def Issue.active (i : Issue) : Bool := i.mergedInto.isNone && i.state ≠ .rejected

/-- A GitHub issue as it is looked up: `lower(repository)` and the number. -/
structure GithubIdentity where
  repository : String
  number : ℤ
  deriving DecidableEq, Repr

/-- `lower(value)`. -/
def lower (value : String) : String := String.ofList (value.toList.map Char.toLower)

def GithubIdentity.of (repository : String) (number : ℤ) : GithubIdentity :=
  ⟨lower repository, number⟩

/-- The identity an issue tracks. -/
def Issue.identity (i : Issue) : GithubIdentity := .of i.githubRepository i.githubNumber

/-- A GitHub issue that an issue tracked before. -/
structure GithubAlias where
  issueId : IssueId
  githubRepository : String
  githubNumber : ℤ
  githubIssueId : Option ℤ
  githubUrl : String
  deriving DecidableEq, Repr

def GithubAlias.identity (a : GithubAlias) : GithubIdentity :=
  .of a.githubRepository a.githubNumber

/-! ## Work and its traces -/

/-- A row of `github_duplicate_jobs`. -/
structure DuplicateJob where
  sourceIssueId : IssueId
  githubIssueId : ℤ
  githubRepository : String
  githubNumber : ℤ
  installationId : ℤ
  leaseId : Option LeaseId
  leaseExpiresAt : Option Timestamp
  nextAttemptAt : Timestamp
  attemptCount : ℕ
  deriving DecidableEq, Repr

/-- A row of `report_stack_signatures`. -/
structure StackSignature where
  reportId : ReportId
  algorithmVersion : ℕ
  fingerprint : Option String
  matchedAt : Option Timestamp
  deriving DecidableEq, Repr

/-- A row of `discord_report_notifications`. -/
structure DiscordNotification where
  reportId : ReportId
  deriving DecidableEq, Repr

structure SourceRateLimit where
  clientKey : String
  sourceReportId : Option ReportId
  imposedBy : ℤ
  imposedAt : Timestamp
  expiresAt : Option Timestamp
  liftedBy : Option ℤ
  liftedAt : Option Timestamp
  deriving DecidableEq, Repr

structure Challenge where
  id : ChallengeId
  manifestDigest : String
  tokenHash : String
  reportId : Option ReportId
  expiresAt : Timestamp
  deriving DecidableEq, Repr

/-- What an audit event is about. -/
inductive Entity
  | report (id : ReportId)
  | issue (id : IssueId)
  deriving DecidableEq, Repr

/-- The action of an audit event with its details. -/
inductive AuditDetails
  | reportSubmitted (kind : ReportKind)
  | reportUpdateIssue (previous next : Option IssueId) (source signature : Option String)
  | reportUpdateState (previous next : ReportState) (reason source : Option String)
      (fix : Option ReportFix)
  | submissionSourceUpdateState (previous next : String) (triageReportsRejected : ℕ)
  | issueCreate (source : Option String) (githubNumber : ℤ) (githubUrl : Option String)
      (reportIds : List ReportId)
  | issueUpdateState (previous next : IssueState) (reportAction : IssueReportAction)
      (reportsUpdated mergedSourcesRejected : ℕ)
  | issueUpdateGithubLink (previous next : String × ℤ × String)
  | issueSyncGithub (source : GithubSyncSource) (previous next : GithubLinkState)
      (titleDescriptionUrlChanged : Option (Bool × Bool × Bool))
  | issueMerge (source : String) (target : IssueId) (githubNumber : ℤ)
  deriving DecidableEq, Repr

structure AuditEvent where
  actor : Option ℤ
  entity : Entity
  details : AuditDetails
  createdAt : Timestamp
  deriving DecidableEq, Repr

structure Database where
  reports : List Report
  issues : List Issue
  aliases : List GithubAlias
  jobs : List DuplicateJob
  signatures : List StackSignature
  notifications : List DiscordNotification
  sourceRateLimits : List SourceRateLimit
  challenges : List Challenge
  events : List AuditEvent
  /-- The time of the running transaction, which dates its events. -/
  clock : Timestamp
  deriving DecidableEq, Repr

def Database.empty : Database := ⟨[], [], [], [], [], [], [], [], [], 0⟩

/-! ## Constraints -/

/-- A statement is refused for the first constraint that does not hold. -/
def check (constraints : List (String × Bool)) : Except AppError Unit :=
  match constraints.find? (!·.2) with
  | some (constraint, _) => .error (.database constraint)
  | none => .ok ()

/-- The row that `LIMIT 1` keeps of those that are equally good: which it is depends on the plan. -/
def choose {α : Type} (plan : ℕ) (rows : List α) : Option α := rows[plan % rows.length]?

/-- `value ~ '^[0-9a-f]{64}$'`: these characters take one byte each. -/
def isHexDigest (value : String) : Bool :=
  value.utf8ByteSize = 64 && value.toByteArray.data.toList.all fun b =>
    ('0'.toUInt8 ≤ b && b ≤ '9'.toUInt8) || ('a'.toUInt8 ≤ b && b ≤ 'f'.toUInt8)

/-- `value ~ '^[^/]+/[^/]+$'`. -/
def isRepositoryName (value : String) : Bool :=
  match value.toList.splitOn '/' with
  | [owner, name] => owner ≠ [] && name ≠ []
  | _ => false

/-- `text` has every character but U+0000. -/
def isText (value : String) : Bool := !value.toList.contains '\x00'

/-- A text that may be null has at most a number of characters. -/
def fits (value : Option String) (maximum : ℕ) : Bool := value.all (·.length ≤ maximum)

def Report.constraints (issues : List Issue) (r : Report) : List (String × Bool) :=
  [("text", isText r.clientVersion && isText r.build && r.fix.reference.all isText &&
      r.fix.title.all isText && r.fix.url.all isText),
    ("reports_build_check", r.build.length ≤ 1024),
    ("reports_client_version_check", 1 ≤ r.clientVersion.length && r.clientVersion.length ≤ 256),
    ("reports_manifest_digest_check", isHexDigest r.manifestDigest),
    ("reports_source_client_key_check", r.sourceClientKey.all isHexDigest),
    ("reports_linked_state_valid", r.issueId.isNone || r.state ≠ .triage),
    ("reports_fix_complete", r.fix.kind.isNone = r.fix.reference.isNone ∧
      r.fix.kind.isNone = r.fix.title.isNone ∧ r.fix.kind.isNone = r.fix.url.isNone),
    ("reports_fix_lengths",
      fits r.fix.reference 64 && fits r.fix.title 512 && fits r.fix.url 2048),
    ("reports_fix_resolves_unlinked",
      r.fix.kind.isNone || (r.state = .resolved && r.issueId.isNone)),
    ("reports_issue_id_fkey", r.issueId.all fun issue => issues.any (·.id = issue))]

def Issue.constraints (issues : List Issue) (i : Issue) : List (String × Bool) :=
  [("text", isText i.title && isText i.description && isText i.githubRepository &&
      isText i.githubUrl && i.githubReportsLinkUrl.all isText),
    ("github_repository_name", isRepositoryName i.githubRepository),
    ("issues_check", i.mergedInto ≠ some i.id),
    ("issues_description_check", i.description.length ≤ 262144),
    ("issues_github_number_check", 0 < i.githubNumber),
    ("issues_github_url_check", i.githubUrl.length ≤ 2048),
    ("issues_title_check", 1 ≤ i.title.length && i.title.length ≤ 256),
    ("issues_merged_into_fkey", i.mergedInto.all fun issue => issues.any (·.id = issue))]

/-- The unique indexes on issues that are neither merged nor rejected. -/
def uniqueActive (issues : List Issue) : List (String × Bool) :=
  [("one_active_issue_per_github_id",
      decide ((issues.filter (·.active)).filterMap (·.githubIssueId)).Nodup),
    ("one_active_issue_per_github_issue",
      decide ((issues.filter (·.active)).map (·.identity)).Nodup)]

theorem check_eq_ok {constraints : List (String × Bool)} (h : check constraints = .ok ()) :
    ∀ c ∈ constraints, c.2 = true := by
  unfold check at h
  split at h
  · cases h
  · rename_i hnone
    simpa using hnone

theorem check_of_forall {constraints : List (String × Bool)} (h : ∀ c ∈ constraints, c.2 = true) :
    check constraints = .ok () := by
  unfold check
  rw [List.find?_eq_none.mpr fun c hc => by simp [h c hc]]

end LadybirdReports.Admin
