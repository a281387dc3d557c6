import LadybirdReports.Admin.Statements
import LadybirdReports.Lib.Result
import Mathlib.Data.List.Destutter
import Mathlib.Data.List.Sort

/-!
# Operations on reports

`reports.rs`: what maintainers do to reports. Each operation is the transaction it runs, from its
checks to its last statement; the time and the identifiers it draws are arguments.
-/

namespace LadybirdReports.Admin

open Rust

/-- `in_lock_order`. -/
def inLockOrder (reportIds : List ReportId) : List ReportId :=
  (reportIds.insertionSort (·.value ≤ ·.value)).destutter (· ≠ ·)

/-- The changes that a list of reports calls for, or the first error. -/
def collectChanges {α : Type} (change : Report → Except AppError (Option α)) :
    List Report → Except AppError (List (Report × α))
  | [] => .ok []
  | r :: reports => do
    let first ← change r
    let changes ← collectChanges change reports
    return (first.map fun c => (r, c)).toList ++ changes

namespace Database

/-- `SELECT … FROM reports WHERE id = $1 AND storage_state = 'ready'`. -/
def findReady? (db : Database) (id : ReportId) : Option Report :=
  db.reports.find? fun r => r.id = id && r.ready

/-- `SELECT … FROM reports WHERE id = ANY($1) AND storage_state = 'ready' ORDER BY id`. -/
def readyReports (db : Database) (ids : List ReportId) : List Report :=
  (db.reports.filter fun r => r.id ∈ ids && r.ready).insertionSort (·.id.value ≤ ·.id.value)

def auditReportStateChange (db : Database) (id : ReportId) (actor : ℤ)
    (previous next : ReportState) (reason : Option String) : Database :=
  db.audit (some actor) (.report id) (.reportUpdateState previous next reason none none)

/-! ## Linking -/

def linkReport (db : Database) (reportId : ReportId) (issueId : IssueId) (actor : ℤ) :
    Except AppError Database := do
  let previous ← okOr (db.findReady? reportId) (.notFound "Report not found")
  let issueState ← okOr (issueState? db.issues issueId) (.database "issues")
  let target := IssueState.reportState (some issueState)
  if previous.issueId = some issueId ∧ previous.state = target then
    return db
  ensure (previous.issueId.isNone || previous.issueId = some issueId)
    (.conflict "Unlink the report before adding it to another issue")
  let db ← db.updateReport reportId fun r => { r with issueId := some issueId, state := target }
  let db := if previous.issueId ≠ some issueId then
    db.audit (some actor) (.report reportId)
      (.reportUpdateIssue previous.issueId (some issueId) none none) else db
  return if previous.state ≠ target then
    db.auditReportStateChange reportId actor previous.state target none else db

def linkReports (db : Database) (reportIds : List ReportId) (issueId : IssueId) (actor : ℤ) :
    Except AppError Database := do
  let reportIds := inLockOrder reportIds
  ensure (reportIds.length ≤ 1 || !db.reports.any fun r =>
      r.id ∈ reportIds && r.issueId.isSome && r.issueId ≠ some issueId)
    (.conflict "Unlink the selected reports that are on another issue before adding them")
  reportIds.foldlM (fun db reportId => db.linkReport reportId issueId actor) db

def assignReportsToIssue (db : Database) (reportIds : List ReportId) (issueId : IssueId)
    (actor : ℤ) : Except AppError Database := do
  ensure (db.issues.any fun i => i.id = issueId && i.mergedInto.isNone && i.state ≠ .rejected)
    (.invalidRequest "Issue is not available for report assignment")
  db.linkReports reportIds issueId actor

/-- `unlink_report`: the report returns to triage. -/
def unlinkReport (db : Database) (reportId : ReportId) (issueId : IssueId)
    (previousState : ReportState) (actor : ℤ) : Except AppError Database := do
  let db ← db.updateReports (fun r => r.id = reportId && r.issueId = some issueId && r.ready)
    fun r => { r with issueId := none, state := .triage }
  let db := db.audit (some actor) (.report reportId)
    (.reportUpdateIssue (some issueId) none none none)
  return if previousState ≠ .triage then
    db.auditReportStateChange reportId actor previousState .triage none else db

/-! ## One report's state -/

end Database

/-- The changes of one report's state that may be asked for. -/
def checkStateChange (previous target : ReportState) (issue : Option IssueId) :
    Except AppError Unit :=
  match previous, target, issue with
  | _, .rejected, _ => .ok ()
  | .rejected, .confirmed, none =>
    .error (.invalidRequest "Link the report to an issue before confirming it")
  | .rejected, .triage, some _ =>
    .error (.invalidRequest "Unlink the report before returning it to triage")
  | .rejected, .confirmed, _ => .ok ()
  | .rejected, .triage, _ => .ok ()
  -- A report that a fix resolved, with no issue, is reopened directly.
  | .resolved, .triage, none => .ok ()
  | _, .resolved, _ => .error (.invalidRequest
    "Resolve the report with its issue, or with the pull request or commit that fixed it")
  | _, _, _ => .error (.invalidRequest "Only rejected reports can be restored")

namespace Database

/-- The state a report is given when a target is asked for: a confirmed report of a resolved issue
is resolved, as the issue is. -/
def stateOfTarget (db : Database) (target : ReportState) (issue : Option IssueId) :
    Except AppError ReportState :=
  match target, issue with
  | .confirmed, some issueId => do
    let issueState ← okOr (issueState? db.issues issueId) (.database "issues")
    return IssueState.reportState (some issueState)
  | _, _ => .ok target

def setReportState (db : Database) (reportId : ReportId) (target : ReportState) (actor : ℤ)
    (reason : Option String) : Except AppError (Option ReportState × Database) := do
  let previous ← okOr (db.findReady? reportId) (.notFound "Report not found")
  if previous.state = target then
    return (none, db)
  checkStateChange previous.state target previous.issueId
  let target ← db.stateOfTarget target previous.issueId
  let db ← db.updateReport reportId fun r => { r with state := target }
  return (some previous.state,
    db.auditReportStateChange reportId actor previous.state target reason)

/-! ## Several reports -/

end Database

/-- A report that the fix is to resolve, with its check; `none` when the fix resolved it already. -/
def fixChange? (fix : ReportFix) (r : Report) : Except AppError (Option Unit) := do
  ensure r.issueId.isNone (.invalidRequest "A report on an issue is resolved with its issue")
  ensure (r.state ≠ .rejected) (.invalidRequest "Restore rejected reports before resolving them")
  return if r.state = .resolved ∧ r.fix.kind = some fix.kind ∧
    r.fix.reference = some fix.reference then none else some ()

/-- What a state change of several reports does to one of them. -/
inductive ReportChange
  | state (target : ReportState)
  | unlink (issue : IssueId)
  deriving DecidableEq, Repr

def actionChange? (action : ReportStateAction) (issues : List Issue) (r : Report) :
    Except AppError (Option ReportChange) :=
  match action with
  | .reject => .ok (if r.state ≠ .rejected then some (.state .rejected) else none)
  | .confirm =>
    match r.state, r.issueId with
    | .confirmed, _ | .resolved, _ => .ok none
    | .rejected, some issue =>
      .ok (some (.state (IssueState.reportState (issueState? issues issue))))
    | _, _ =>
      .error (.invalidRequest "Add the selected reports to an issue to confirm them")
  | .returnToTriage =>
    match r.state, r.issueId with
    | _, some issue => .ok (some (.unlink issue))
    | .triage, none => .ok none
    | .rejected, none | .resolved, none => .ok (some (.state .triage))
    | _, _ => .error (.invalidRequest
      "Only linked, rejected, or resolved reports can return to triage")

namespace Database

def resolveWithFix (db : Database) (r : Report) (fix : ReportFix) (actor : ℤ) :
    Except AppError Database := do
  let db ← db.updateReport r.id fun r => { r with state := .resolved, fix := .of fix }
  return db.audit (some actor) (.report r.id)
    (.reportUpdateState r.state .resolved none none (some fix))

def resolveReportsWithFix (db : Database) (reportIds : List ReportId) (fix : ReportFix)
    (actor : ℤ) : Except AppError (ℕ × Database) := do
  let reportIds := inLockOrder reportIds
  let reports := db.readyReports reportIds
  ensure (reports.length = reportIds.length) (.notFound "Report not found")
  let changes ← collectChanges (fixChange? fix) reports
  let db ← changes.foldlM (fun db change => db.resolveWithFix change.1 fix actor) db
  return (changes.length, db)

def applyChange (db : Database) (r : Report) (change : ReportChange) (actor : ℤ)
    (reason : Option String) : Except AppError Database :=
  match change with
  | .state target => do
    let db ← db.updateReport r.id fun r => { r with state := target }
    return db.auditReportStateChange r.id actor r.state target reason
  | .unlink issue => db.unlinkReport r.id issue r.state actor

def applyReportStateAction (db : Database) (reportIds : List ReportId) (action : ReportStateAction)
    (actor : ℤ) (reason : Option String) : Except AppError (ℕ × Database) := do
  let reportIds := inLockOrder reportIds
  let reports := db.readyReports reportIds
  ensure (reports.length = reportIds.length) (.notFound "Report not found")
  let changes ← collectChanges (actionChange? action db.issues) reports
  let db ← changes.foldlM (fun db change => db.applyChange change.1 change.2 actor reason) db
  return (changes.length, db)

/-! ## Blocked sources -/

/-- Blocks the source of a report and, if asked for, rejects what is left of it in triage. -/
def blockReportSource (db : Database) (reportId : ReportId) (actor : ℤ)
    (removeTriageReports : Bool) (now : Timestamp) : Except AppError (ℕ × Database) := do
  let report ← okOr ((db.findReady? reportId).filter (·.sourceClientKey.isSome))
    (.notFound "Report not found")
  let clientKey ← okOr report.sourceClientKey
    (.invalidRequest "This report has no submission source identifier")
  let limit : SourceRateLimit := ⟨clientKey, some reportId, actor, now, none, none, none⟩
  let db := { db with
    sourceRateLimits := db.sourceRateLimits.filter (fun l : SourceRateLimit =>
      l.clientKey ≠ clientKey) ++ [limit] }
  let p (r : Report) : Bool := removeTriageReports && r.sourceClientKey = some clientKey &&
    r.state = .triage && r.ready
  let rejected := db.reports.filter p
  let db ← db.updateReports p fun r => { r with state := .rejected }
  let db := db.auditReports (some actor) rejected fun _ =>
    .reportUpdateState .triage .rejected (some "source_blocked") none none
  return (rejected.length, db.audit (some actor) (.report reportId)
    (.submissionSourceUpdateState "allowed" "blocked" rejected.length))

end Database

end LadybirdReports.Admin
