import LadybirdReports.Admin.GithubDuplicates
import LadybirdReports.Admin.Ingest
import LadybirdReports.Admin.Maintenance
import LadybirdReports.Lib.Run

/-!
# The operations of the store

Everything that changes reports and issues, one transaction at a time, with the arguments it is
called with. `Step` is one of them, and a run is any number of them in any order, with time between
them. Of the two transactions of `assign_reports_to_github_issue`, the first is a synchronisation
and the second is `linkToGithubIssue`: others may come between them
(`assignReportsToGithubIssue_eq`).
-/

namespace LadybirdReports.Admin

open Rust

inductive Operation
  | passTime (elapsed : ℕ)
  | issueChallenge (id : ChallengeId) (digest tokenHash : String) (expiresAt : Timestamp)
  | acceptReport (request : AcceptReportRequest) (now : Timestamp)
  | markStorageReady (reportId : ReportId) (uploadId : UploadId)
  | storeStackSignature (trace : PendingStackTrace) (now : Timestamp)
  | assignReportsToIssue (reportIds : List ReportId) (issueId : IssueId) (actor : ℤ)
  | linkToGithubIssue (issue : GithubIssue) (reportIds : List ReportId) (repository : String)
      (actor : ℤ) (newId : IssueId) (plan : ℕ)
  | unlinkReportFromIssue (issueId : IssueId) (reportId : ReportId) (actor : ℤ)
  | setReportState (reportId : ReportId) (target : ReportState) (actor : ℤ)
      (reason : Option String)
  | resolveReportsWithFix (reportIds : List ReportId) (fix : ReportFix) (actor : ℤ)
  | applyReportStateAction (reportIds : List ReportId) (action : ReportStateAction) (actor : ℤ)
      (reason : Option String)
  | blockReportSource (reportId : ReportId) (actor : ℤ) (removeTriageReports : Bool)
      (now : Timestamp)
  | rejectIssue (issueId : IssueId) (actor : ℤ) (action : IssueReportAction)
  | replaceGithubIssue (issueId : IssueId) (repository : String) (replacement : GithubIssue)
      (actor : ℤ) (now : Timestamp)
  | syncGithubIssue (repository : String) (issue : GithubIssue) (actor : Option ℤ)
      (source : GithubSyncSource) (installationId : Option ℤ) (now : Timestamp) (plan : ℕ)
  | markGithubIssueUnavailable (repository : String) (number : ℤ) (githubId : Option ℤ)
      (state : GithubLinkState) (source : GithubSyncSource) (plan : ℕ)
  | recordGithubReportsLink (issueId : IssueId) (githubIssueId : Option ℤ) (fieldId : ℤ)
      (link : String)
  | claimGithubDuplicate (leaseId : LeaseId) (now : Timestamp) (plan : ℕ)
  | retryGithubDuplicate (job : GithubDuplicateJob) (now : Timestamp)
  | finishGithubDuplicate (job : GithubDuplicateJob) (canonical : Option GithubIssue)
      (newId : IssueId) (now : Timestamp) (plan : ℕ)
  | sweepExpiredIngestionState
  | beginMaintenanceSweep (reportRetentionDays sourceRetentionHours auditRetentionDays : ℕ)
  | finishReportPurge (reportId : ReportId)
  deriving DecidableEq, Repr

/-- The database after a transaction: a failure rolls it back. -/
def commit (transaction : Except AppError Database) (db : Database) : Database :=
  transaction.toOption.getD db

/-- The database after an operation. -/
def Operation.exec : Operation → Database → Database
  | .passTime elapsed, db => { db with clock := db.clock + elapsed }
  | .issueChallenge id digest tokenHash expiresAt, db =>
    commit (db.issueChallenge id digest tokenHash expiresAt) db
  | .acceptReport request now, db => commit ((·.2) <$> db.acceptReport request now) db
  | .markStorageReady reportId uploadId, db => (db.markStorageReady reportId uploadId).2
  | .storeStackSignature trace now, db => commit (db.storeStackSignature trace now) db
  | .assignReportsToIssue reportIds issueId actor, db =>
    commit (db.assignReportsToIssue reportIds issueId actor) db
  | .linkToGithubIssue issue reportIds repository actor newId plan, db =>
    commit (do
      Database.checkGithubAssignment issue reportIds repository
      (·.2) <$> db.linkToGithubIssue issue reportIds repository actor newId plan) db
  | .unlinkReportFromIssue issueId reportId actor, db =>
    commit (db.unlinkReportFromIssue issueId reportId actor) db
  | .setReportState reportId target actor reason, db =>
    commit ((·.2) <$> db.setReportState reportId target actor reason) db
  | .resolveReportsWithFix reportIds fix actor, db =>
    commit ((·.2) <$> db.resolveReportsWithFix reportIds fix actor) db
  | .applyReportStateAction reportIds action actor reason, db =>
    commit ((·.2) <$> db.applyReportStateAction reportIds action actor reason) db
  | .blockReportSource reportId actor removeTriageReports now, db =>
    commit ((·.2) <$> db.blockReportSource reportId actor removeTriageReports now) db
  | .rejectIssue issueId actor action, db =>
    commit ((·.2) <$> db.rejectIssue issueId actor action) db
  | .replaceGithubIssue issueId repository replacement actor now, db =>
    commit (db.replaceGithubIssue issueId repository replacement actor now) db
  | .syncGithubIssue repository issue actor source installationId now plan, db =>
    commit ((·.2) <$> db.syncGithubIssueWithInstallation repository issue actor source
      installationId now plan) db
  | .markGithubIssueUnavailable repository number githubId state source plan, db =>
    commit ((·.2) <$> db.markGithubIssueUnavailable repository number githubId state source plan) db
  | .recordGithubReportsLink issueId githubIssueId fieldId link, db =>
    commit (db.recordGithubReportsLink issueId githubIssueId fieldId link) db
  | .claimGithubDuplicate leaseId now plan, db => (db.claimGithubDuplicate leaseId now plan).2
  | .retryGithubDuplicate job now, db => db.retryGithubDuplicate job now
  | .finishGithubDuplicate job canonical newId now plan, db =>
    commit ((·.2) <$> db.finishGithubDuplicate job canonical newId now plan) db
  | .sweepExpiredIngestionState, db => db.sweepExpiredIngestionState
  | .beginMaintenanceSweep reportRetentionDays sourceRetentionHours auditRetentionDays, db =>
    (db.beginMaintenanceSweep reportRetentionDays sourceRetentionHours auditRetentionDays).2
  | .finishReportPurge reportId, db => commit ((·.2) <$> db.finishReportPurge reportId) db

/-- One operation. -/
def Step (db : Database) (operation : Operation) (next : Database) : Prop :=
  next = operation.exec db

/-- An assignment to a GitHub issue does nothing, or is a synchronisation and what follows it. -/
theorem assignReportsToGithubIssue_eq (db : Database) (issue : GithubIssue)
    (reportIds : List ReportId) (repository : String) (actor : ℤ) (newId : IssueId)
    (now : Timestamp) (plan : ℕ) :
    let sync : Operation := .syncGithubIssue repository issue (some actor) .assignment none now plan
    let link : Operation :=
      .linkToGithubIssue issue (inLockOrder reportIds) repository actor newId plan
    let after := (db.assignReportsToGithubIssue issue reportIds repository actor newId now plan).2
    after = db ∨ after = link.exec (sync.exec db) := by
  intro sync link after
  unfold after Database.assignReportsToGithubIssue
  dsimp only
  cases hcheck : Database.checkGithubAssignment issue (inLockOrder reportIds) repository with
  | error e => exact .inl rfl
  | ok u =>
    rw [ok_bind]
    cases hsync : db.syncGithubIssue repository issue (some actor) .assignment now plan with
    | error e => exact .inl rfl
    | ok synced =>
      have hexec : sync.exec db = synced.2 := by
        change commit ((·.2) <$> db.syncGithubIssue repository issue (some actor) .assignment now
          plan) db = synced.2
        rw [hsync]
        rfl
      refine .inr ?_
      rw [hexec]
      change _ = commit (Database.checkGithubAssignment issue _ repository >>= fun _ => _) synced.2
      rw [hcheck, ok_bind]
      cases hlink : synced.2.linkToGithubIssue issue (inLockOrder reportIds) repository actor newId
        plan with
      | error e => simp only [hlink]; rfl
      | ok linked => simp only [hlink]; rfl

/-- The database is one that the service can have come to. -/
def Database.IsReachable (db : Database) : Prop := Transition.Reachable Step .empty db

end LadybirdReports.Admin
