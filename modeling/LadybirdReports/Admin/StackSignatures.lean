import LadybirdReports.Admin.Reports

/-!
# Matching by stack signature

`stack_signatures.rs`: what indexing a stack trace does. A report whose signature is that of
confirmed reports of exactly one open issue joins that issue; a signature seen before needs no
notification.
-/

namespace LadybirdReports.Admin

open Rust

def stackSignatureVersion : ℕ := 2

/-- A stack trace to index, with the fingerprint its text has. -/
structure PendingStackTrace where
  reportId : ReportId
  kind : ReportKind
  fingerprint : Option String
  autoMatchEligible : Bool
  deriving DecidableEq, Repr

/-- Five minutes. -/
def recentTime : Timestamp := 5 * 60 * 1000000

namespace Database

/-- The other ready reports of the kind with the signature. -/
def reportsWithSignature (db : Database) (trace : PendingStackTrace) (fingerprint : String) :
    List Report :=
  db.reports.filter fun r => r.id ≠ trace.reportId && r.kind = trace.kind && r.ready &&
    db.signatures.any fun s => s.reportId = r.id && s.algorithmVersion = stackSignatureVersion &&
      s.fingerprint = some fingerprint

/-- The open issues that confirmed reports with the signature are on. -/
def matchingIssues (db : Database) (trace : PendingStackTrace) (fingerprint : String) :
    List Issue :=
  db.issues.filter fun i => i.active && i.resolvedAt.isNone && i.githubState = .open &&
    (db.reportsWithSignature trace fingerprint).any fun r =>
      r.state = .confirmed && r.issueId = some i.id

/-- A report with the signature came in the five minutes before this one. -/
def recentDuplicate (db : Database) (trace : PendingStackTrace) (fingerprint : String) : Bool :=
  (db.reportsWithSignature trace fingerprint).any fun r => r.state ≠ .rejected &&
    db.reports.any fun incoming => incoming.id = trace.reportId &&
      incoming.createdAt - recentTime ≤ r.createdAt && r.createdAt ≤ incoming.createdAt

def deleteNotification (db : Database) (reportId : ReportId) : Database :=
  { db with notifications := db.notifications.filter (·.reportId ≠ reportId) }

/-- `UPDATE reports SET issue_id … WHERE …`, with its events when it changes the report. -/
def assignMatch (db : Database) (reportId : ReportId) (issue : IssueId) (fingerprint : String) :
    Except AppError Database := do
  let p (r : Report) : Bool := r.id = reportId && r.issueId.isNone && r.state ≠ .rejected && r.ready
  let assigned := db.reports.filter p
  let db ← db.updateReports p fun r => { r with issueId := some issue, state := .confirmed }
  let db := db.auditReports none assigned fun _ =>
    .reportUpdateIssue none (some issue) (some "stack_signature") (some fingerprint)
  return db.auditReports none (assigned.filter (·.state ≠ .confirmed)) fun r =>
    .reportUpdateState r.state .confirmed none (some "stack_signature") none

def matchIndexedReport (db : Database) (trace : PendingStackTrace) (fingerprint : String) :
    Except AppError Database :=
  match db.matchingIssues trace fingerprint with
  | [issue] => do
    let db ← db.assignMatch trace.reportId issue.id fingerprint
    return db.deleteNotification trace.reportId
  | _ :: _ :: _ => .ok db
  | [] => .ok (if db.recentDuplicate trace fingerprint
      then db.deleteNotification trace.reportId else db)

/-- The signature of the report is the one of its trace; when it was matched stays. -/
def upsertSignature (db : Database) (trace : PendingStackTrace) : Database :=
  if db.signatures.any (·.reportId = trace.reportId) then
    { db with
      signatures := db.signatures.map fun s => if s.reportId = trace.reportId then
        { s with
          algorithmVersion := stackSignatureVersion
          fingerprint := trace.fingerprint } else s }
  else
    { db with
      signatures := db.signatures ++
        [⟨trace.reportId, stackSignatureVersion, trace.fingerprint, none⟩] }

def markMatched (db : Database) (reportId : ReportId) (now : Timestamp) : Database :=
  { db with
    signatures := db.signatures.map fun s =>
      if s.reportId = reportId then { s with matchedAt := some now } else s }

/-- `store_stack_signatures`, for one trace. -/
def storeStackSignature (db : Database) (trace : PendingStackTrace) (now : Timestamp) :
    Except AppError Database := do
  let isMatched := db.signatures.any fun s => s.reportId = trace.reportId && s.matchedAt.isSome
  ensure (db.reports.any (·.id = trace.reportId))
    (.database "report_stack_signatures_report_id_fkey")
  ensure (trace.fingerprint.all isHexDigest)
    (.database "report_stack_signatures_fingerprint_check")
  let db := db.upsertSignature trace
  if isMatched then
    return db
  let db ← match trace.autoMatchEligible, trace.fingerprint with
    | true, some fingerprint => db.matchIndexedReport trace fingerprint
    | _, _ => .ok db
  return db.markMatched trace.reportId now

end Database

end LadybirdReports.Admin
