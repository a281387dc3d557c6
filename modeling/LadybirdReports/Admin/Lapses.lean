import LadybirdReports.Admin.Change
import LadybirdReports.Admin.Operation

/-!
# Lapses

The situations in which an operation does what the store is to avoid, as conditions on the
operation and the database before it. Each is what gives the changes of the operation one of their
licences (`Operation.May`).
-/

namespace LadybirdReports.Admin

namespace Database

/-! ## Merges -/

/-- The merge that finishing a job comes to, as the canonical issue and its repository: the lease is
the stored one, the source is current, and the canonical issue is another one. -/
def mergeOf (db : Database) (job : GithubDuplicateJob) (canonical : Option GithubIssue) :
    Option (GithubIssue × String) :=
  canonical.bind fun canonical =>
    (canonicalRepository canonical).toOption.bind fun repository =>
      if db.jobs.any (holdsLease job) && db.sourceIsCurrent job &&
        canonical.id ≠ job.githubIssueId then some (canonical, repository) else none

/-- The source of the job is rejected. -/
def sourceIsRejected (db : Database) (job : GithubDuplicateJob) : Bool :=
  (db.findIssue? job.sourceIssueId).any (·.state = .rejected)

/-- The source of the job has a report that is rejected. -/
def sourceHasRejected (db : Database) (job : GithubDuplicateJob) : Bool :=
  db.reports.any fun r => r.issueId = some job.sourceIssueId && r.state = .rejected

/-- The destination takes what is known of the canonical issue. -/
def takesCanonical (i : Issue) (canonical : GithubIssue) : Bool :=
  i.githubUpdatedAt.all (· ≤ canonical.updatedAt)

/-- The destination comes to track another GitHub issue than it did. -/
def destinationForgets (db : Database) (canonical : GithubIssue) (repository : String)
    (plan : ℕ) : Bool :=
  ((db.destination? repository canonical plan).bind db.findIssue?).any fun i =>
    takesCanonical i canonical && i.identity ≠ .of repository canonical.number

/-- An issue that is not rejected tracks the GitHub issue, or did before. -/
def isTracked (db : Database) (identity : GithubIdentity) : Bool :=
  db.issues.any fun i => i.state ≠ .rejected &&
    (i.identity = identity || db.aliases.any fun a => a.issueId = i.id && a.identity = identity)

/-- The state that the destination of a merge has when the reports come to it. -/
def destinationState (db : Database) (canonical : GithubIssue) (repository : String)
    (plan : ℕ) : IssueState :=
  match (db.destination? repository canonical plan).bind db.findIssue? with
  | some i => if takesCanonical i canonical then .tracking canonical.state.linkState else i.state
  | none => .tracking canonical.state.linkState

/-- A report of the source changes its state with the merge. -/
def mergeChangesState (db : Database) (job : GithubDuplicateJob) (canonical : GithubIssue)
    (repository : String) (plan : ℕ) : Bool :=
  db.reports.any fun r => r.issueId = some job.sourceIssueId &&
    r.state ≠ IssueState.reportState (some (db.destinationState canonical repository plan))

/-! ## Reports -/

/-- The report of the trace is resolved with a fix, and its signature matches an open issue. -/
def matchesFixed (db : Database) (trace : PendingStackTrace) : Bool :=
  trace.autoMatchEligible &&
    !(db.signatures.any fun s => s.reportId = trace.reportId && s.matchedAt.isSome) &&
    trace.fingerprint.any fun fingerprint =>
      (db.matchingIssues trace fingerprint).length = 1 &&
        db.reports.any fun r => r.id = trace.reportId && r.issueId.isNone && r.ready &&
          r.fix ≠ .null

/-- A rejected report that is ready, and is on an issue that is rejected. -/
def isRejectedWithIssue (db : Database) (r : Report) : Bool :=
  r.ready && r.state = .rejected &&
    db.issues.any fun i => r.issueId = some i.id && i.state = .rejected

end Database

/-! ## Operations -/

namespace Operation

/-- A rejected issue is merged. -/
def mergesRejected : Operation → Database → Bool
  | .finishGithubDuplicate job canonical _ _ _, db =>
    (db.mergeOf job canonical).isSome && db.sourceIsRejected job
  | _, _ => false

/-- The destination of a merge comes to track another GitHub issue, with no trace of the former. -/
def forgets : Operation → Database → Bool
  | .finishGithubDuplicate job canonical _ _ plan, db =>
    (db.mergeOf job canonical).any fun (canonical, repository) =>
      db.destinationForgets canonical repository plan
  | _, _ => false

/-- An issue is created for a GitHub issue that is tracked. -/
def createsAgain : Operation → Database → Bool
  | .finishGithubDuplicate job canonical _ _ plan, db =>
    (db.mergeOf job canonical).any fun (canonical, repository) =>
      (db.destination? repository canonical plan).isNone &&
        db.isTracked (.of repository canonical.number)
  | .linkToGithubIssue issue _ repository _ _ plan, db =>
    (db.trackedIssue? issue repository plan).isNone && db.isTracked (.of repository issue.number)
  | _, _ => false

/-- A merge takes a rejected report with it. -/
def movesRejected : Operation → Database → Bool
  | .finishGithubDuplicate job canonical _ _ _, db =>
    (db.mergeOf job canonical).isSome && db.sourceHasRejected job
  | _, _ => false

/-- Indexing links a report that is resolved with a fix. -/
def linksFixed : Operation → Database → Bool
  | .storeStackSignature trace _, db => db.matchesFixed trace
  | _, _ => false

/-- A merge changes the state of a report. -/
def changesUnrecorded : Operation → Database → Bool
  | .finishGithubDuplicate job canonical _ _ plan, db =>
    (db.mergeOf job canonical).any fun (canonical, repository) =>
      db.mergeChangesState job canonical repository plan
  | _, _ => false

/-- A sweep deletes an event from the history of a report. -/
def losesHistory : Operation → Database → Bool
  | .beginMaintenanceSweep _ _ auditRetentionDays, db => db.reports.any fun r =>
    history (db.keptEvents auditRetentionDays) r.id ≠ history db.events r.id
  | _, _ => false

/-- A report comes in under the ID of one that was deleted, which events are about. -/
def reusesId : Operation → Database → Bool
  | .acceptReport request _, db => history db.events request.reportId ≠ []
  | _, _ => false

/-- A report that was rejected with its issue is confirmed. -/
def revives : Operation → Database → Bool
  | .setReportState reportId .confirmed _ _, db =>
    db.reports.any fun r => r.id = reportId && db.isRejectedWithIssue r
  | .applyReportStateAction reportIds .confirm _ _, db =>
    db.reports.any fun r => r.id ∈ reportIds && db.isRejectedWithIssue r
  | _, _ => false

/-- What maintainers do not ask for and leaves reports there: webhooks, jobs, indexing and sweeps.
-/
def isBackground : Operation → Bool
  | .passTime .. | .sweepExpiredIngestionState | .beginMaintenanceSweep ..
  | .issueChallenge .. | .acceptReport .. | .markStorageReady .. | .storeStackSignature ..
  | .syncGithubIssue .. | .markGithubIssueUnavailable .. | .recordGithubReportsLink ..
  | .claimGithubDuplicate .. | .retryGithubDuplicate .. | .finishGithubDuplicate .. => true
  | _ => false

/-- What the changes of an operation are licensed to do. -/
def May (operation : Operation) (db : Database) : Cause → Prop
  | .override => operation.isBackground = false ∨ operation.movesRejected db = true ∨
      operation.linksFixed db = true
  | .revive => operation.revives db = true
  | .unreject => operation.mergesRejected db = true
  | .forget => operation.forgets db = true
  | .again => operation.createsAgain db = true
  | .unrecorded => operation.changesUnrecorded db = true
  | .lose => operation.losesHistory db = true
  | .reuse => operation.reusesId db = true
  | .purge => ∃ reportId, operation = .finishReportPurge reportId

end Operation

end LadybirdReports.Admin
