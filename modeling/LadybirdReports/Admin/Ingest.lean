import LadybirdReports.Admin.StackSignatures

/-!
# Reports come in

The functions of the migrations through which the public service writes reports: a challenge is
issued, the report that answers it is accepted, and its files are stored.
-/

namespace LadybirdReports.Admin

open Rust

/-- What `accept_report` is called with. -/
structure AcceptReportRequest where
  challengeId : ChallengeId
  tokenHash : String
  digest : String
  reportId : ReportId
  submission : SubmissionId
  kind : ReportKind
  version : String
  build : String
  uploadStagingId : UploadId
  sourceClientKey : Option String
  fieldCount : ℕ
  attachmentCount : ℕ
  /-- The fingerprint of the submitted stack trace, if there is one. -/
  stackSignature : Option (Option String)
  retentionDays : ℕ
  deriving DecidableEq, Repr

inductive AcceptReportOutcome
  | accepted (report : ReportId)
  | existing (report : ReportId)
  deriving DecidableEq, Repr

/-- The row a report starts as, with the date to expire that `configure_report_retention` gives it.
-/
def AcceptReportRequest.report (request : AcceptReportRequest) (now : Timestamp) : Report where
  id := request.reportId
  submissionId := request.submission
  manifestDigest := request.digest
  kind := request.kind
  clientVersion := request.version
  build := request.build
  storageState := .pendingFiles
  stagingId := request.uploadStagingId
  sourceClientKey := request.sourceClientKey
  issueId := none
  createdAt := now
  expiresAt := some (now + days request.retentionDays)
  autoMatchEligible := true
  state := .triage
  fix := .null

/-- `configure_report_retention` takes the days. -/
def AcceptReportRequest.retainable (request : AcceptReportRequest) : Bool :=
  30 ≤ request.retentionDays && request.retentionDays ≤ 36500

namespace Database

def issueChallenge (db : Database) (id : ChallengeId) (digest tokenHash : String)
    (expiresAt : Timestamp) : Except AppError Database := do
  check [("challenges_manifest_digest_check", isHexDigest digest),
    ("challenges_token_hash_check", tokenHash.length = 64),
    ("challenges_pkey", db.challenges.all (·.id ≠ id))]
  return { db with challenges := db.challenges ++ [⟨id, digest, tokenHash, none, expiresAt⟩] }

/-- The challenge is open and is the one the request answers. -/
def challengeIsOpen (db : Database) (request : AcceptReportRequest) (now : Timestamp) : Bool :=
  db.challenges.any fun c => c.id = request.challengeId && c.manifestDigest = request.digest &&
    c.tokenHash = request.tokenHash && c.reportId.isNone && now < c.expiresAt

/-- `accept_stack_signature`, of a report that has just been accepted. -/
def acceptStackSignature (db : Database) (reportId : ReportId) (fingerprint : Option String) :
    Except AppError Database := do
  ensure (fingerprint.all isHexDigest) (.database "report_stack_signatures_fingerprint_check")
  ensure (db.signatures.all (·.reportId ≠ reportId)) (.database "report_stack_signatures_pkey")
  return { db with
    signatures := db.signatures ++ [⟨reportId, stackSignatureVersion, fingerprint, none⟩] }

def acceptReport (db : Database) (request : AcceptReportRequest) (now : Timestamp) :
    Except AppError (AcceptReportOutcome × Database) :=
  match db.reports.find? (·.submissionId = request.submission) with
  | some existing =>
    if existing.manifestDigest = request.digest then .ok (.existing existing.id, db)
    else .error (.conflict "Submission ID already used")
  | none => do
    ensure (db.challengeIsOpen request now)
      (.conflict "Challenge expired, invalid, or already consumed")
    ensure (request.fieldCount ≤ 256 && request.attachmentCount ≤ 16)
      (.invalidRequest "Invalid report payload")
    let db ← db.insertReport (request.report now)
    let db := { db with
      challenges := db.challenges.map fun c : Challenge =>
        if c.id = request.challengeId then { c with reportId := some request.reportId } else c }
    let db := db.audit none (.report request.reportId) (.reportSubmitted request.kind)
    ensure request.retainable (.database "invalid report retention")
    let db ← match request.stackSignature with
      | some fingerprint => db.acceptStackSignature request.reportId fingerprint
      | none => .ok db
    return (.accepted request.reportId, db)

/-- `mark_report_storage_ready`, with the trigger that queues the notification. -/
def markStorageReady (db : Database) (reportId : ReportId) (uploadId : UploadId) :
    Bool × Database :=
  let p (r : Report) : Bool := r.id = reportId && r.stagingId = uploadId && !r.ready
  if db.reports.any p then
    (true, { db with
      reports := db.reports.map fun r => if p r then { r with storageState := .ready } else r
      notifications := if db.notifications.any (·.reportId = reportId) then db.notifications
        else db.notifications ++ [⟨reportId⟩] })
  else (false, db)

/-- `sweep_expired_ingestion_state`. -/
def sweepExpiredIngestionState (db : Database) : Database :=
  { db with challenges := db.challenges.filter fun c => !decide (c.expiresAt ≤ db.clock) }

end Database

end LadybirdReports.Admin
