import LadybirdReports.Admin.Issues

/-!
# Duplicates on GitHub

`github_duplicates.rs`: an issue whose GitHub issue was closed as a duplicate is merged into the one
that tracks the canonical issue. The job is queued by a webhook, leased by a worker and finished by
the one that holds the lease.
-/

namespace LadybirdReports.Admin

open Rust

/-- The job as a worker holds it. -/
structure GithubDuplicateJob where
  sourceIssueId : IssueId
  githubIssueId : ℤ
  repository : String
  number : ℤ
  installationId : ℤ
  leaseId : LeaseId
  attemptCount : ℕ
  deriving DecidableEq, Repr

/-- Two minutes. -/
def leaseTime : Timestamp := 2 * 60 * 1000000

/-- `retry_github_duplicate`'s delay in seconds. -/
def retryDelay (attemptCount : ℕ) : ℕ := min (30 * 2 ^ max 1 (min attemptCount 8)) 3600

namespace Database

/-- `claim_github_duplicate`. -/
def claimGithubDuplicate (db : Database) (leaseId : LeaseId) (now : Timestamp) (plan : ℕ) :
    Option GithubDuplicateJob × Database :=
  let waiting := db.jobs.filter fun j =>
    j.nextAttemptAt ≤ now && j.leaseExpiresAt.all (· < now)
  let first := waiting.filter fun j => waiting.all (j.nextAttemptAt ≤ ·.nextAttemptAt)
  match choose plan first with
  | none => (none, db)
  | some job =>
    let leased := { job with
      leaseId := some leaseId
      leaseExpiresAt := some (now + leaseTime)
      attemptCount := job.attemptCount + 1 }
    (some ⟨job.sourceIssueId, job.githubIssueId, job.githubRepository, job.githubNumber,
        job.installationId, leaseId, job.attemptCount + 1⟩,
      { db with jobs := db.jobs.map fun j =>
          if j.sourceIssueId = job.sourceIssueId then leased else j })

def holdsLease (job : GithubDuplicateJob) (j : DuplicateJob) : Bool :=
  j.sourceIssueId = job.sourceIssueId && j.leaseId = some job.leaseId

def retryGithubDuplicate (db : Database) (job : GithubDuplicateJob) (now : Timestamp) : Database :=
  { db with
    jobs := db.jobs.map fun j => if holdsLease job j then
      { j with
        leaseId := none
        leaseExpiresAt := none
        nextAttemptAt := now + retryDelay job.attemptCount * 1000000 } else j }

/-- The issue that the issue found for the canonical one was merged into in the end. -/
def destination? (db : Database) (repository : String) (issue : GithubIssue) (plan : ℕ) :
    Option IssueId :=
  deepestRoot? ((db.issues.filter (·.matchesGithub (some issue.id) repository issue.number)).flatMap
    (mergeChain db.issues (fun _ => true) 16 0)) plan

/-- The destination takes what GitHub says of the canonical issue, unless it has newer news. -/
def updateDestination (db : Database) (issueId : IssueId) (repository : String)
    (issue : GithubIssue) (now : Timestamp) : Except AppError Database :=
  db.updateIssues
    (fun i => i.id = issueId && i.githubUpdatedAt.all (· ≤ issue.updatedAt)) fun i =>
    { i with
      title := issue.title
      description := issue.description
      githubUrl := issue.htmlUrl
      githubRepository := repository
      githubNumber := issue.number
      githubIssueId := some issue.id
      githubState := issue.state.linkState
      githubUpdatedAt := some issue.updatedAt
      state := if issue.state = .closed then .resolved else .unresolved
      resolvedAt := if issue.state = .closed then some (i.resolvedAt.getD now) else none }

def createDestination (db : Database) (repository : String) (issue : GithubIssue)
    (newId : IssueId) (now : Timestamp) : Except AppError Database := do
  let state := IssueState.tracking issue.state.linkState
  let db ← db.insertIssue
    { id := newId
      title := issue.title
      description := issue.description
      state := state
      resolvedAt := if state = .resolved then some now else none
      mergedInto := none
      githubRepository := repository
      githubNumber := issue.number
      githubIssueId := some issue.id
      githubUrl := issue.htmlUrl
      githubState := issue.state.linkState
      githubUpdatedAt := some issue.updatedAt
      githubReportsFieldId := none
      githubReportsLinkUrl := none }
  return db.audit none (.issue newId) (.issueCreate (some "github_duplicate") issue.number none [])

def ensureDestination (db : Database) (source : IssueId) (repository : String)
    (issue : GithubIssue) (newId : IssueId) (now : Timestamp) (plan : ℕ) :
    Except AppError (IssueId × Database) :=
  match db.destination? repository issue plan with
  | some issueId => do
    ensure (issueId ≠ source) (.conflict "Duplicate target points back to the source issue")
    let db ← db.updateDestination issueId repository issue now
    return (issueId, db)
  | none => do
    let db ← db.createDestination repository issue newId now
    return (newId, db)

/-- The reports of the source move to the destination, with an event for each. -/
def moveReports (db : Database) (source destination : IssueId) : Except AppError Database := do
  let moved := db.reports.filter (·.issueId = some source)
  let db ← db.updateReports (·.issueId = some source) fun r =>
    { r with issueId := some destination, state := .confirmed }
  return db.auditReports none moved fun _ =>
    .reportUpdateIssue (some source) (some destination) none none

def markMerged (db : Database) (job : GithubDuplicateJob) (destination : IssueId)
    (now : Timestamp) : Except AppError Database := do
  let db ← db.updateIssue job.sourceIssueId fun i =>
    { i with
      mergedInto := some destination
      state := .resolved
      resolvedAt := some (i.resolvedAt.getD now) }
  return db.audit none (.issue job.sourceIssueId)
    (.issueMerge "github_duplicate" destination job.number)

/-- The source is still what the job was queued for. -/
def sourceIsCurrent (db : Database) (job : GithubDuplicateJob) : Bool :=
  (db.findIssue? job.sourceIssueId).any fun source =>
    source.githubIssueId = some job.githubIssueId && source.githubState = .closed &&
      source.mergedInto.isNone

def deleteJob (db : Database) (job : GithubDuplicateJob) : Database :=
  { db with jobs := db.jobs.filter fun j => !holdsLease job j }

/-- The merge itself, once the canonical issue is known and the source is current. -/
def mergeInto (db : Database) (job : GithubDuplicateJob) (canonical : GithubIssue)
    (repository : String) (newId : IssueId) (now : Timestamp) (plan : ℕ) :
    Except AppError (IssueId × Database) := do
  ensure (canonical.id ≠ job.githubIssueId) (.conflict "GitHub issue duplicates itself")
  let (destination, db) ←
    db.ensureDestination job.sourceIssueId repository canonical newId now plan
  let db ← db.moveReports job.sourceIssueId destination
  let db ← db.markMerged job destination now
  return (destination, db)

/-- The repository that the canonical issue is in, once its texts are checked. -/
def canonicalRepository (canonical : GithubIssue) : Except AppError String := do
  validateIssueText canonical.title canonical.description
  okOr canonical.repository
    (.invalidRequest "GitHub returned an invalid duplicate target URL")

def finishGithubDuplicate (db : Database) (job : GithubDuplicateJob)
    (canonical : Option GithubIssue) (newId : IssueId) (now : Timestamp) (plan : ℕ) :
    Except AppError (Option IssueId × Database) :=
  match canonical with
  | none =>
    if db.jobs.any (holdsLease job) then return (none, db.deleteJob job) else return (none, db)
  | some canonical => do
    let repository ← canonicalRepository canonical
    if !db.jobs.any (holdsLease job) then
      return (none, db)
    if !db.sourceIsCurrent job then
      return (none, db.deleteJob job)
    let (destination, db) ← db.mergeInto job canonical repository newId now plan
    return (some destination, db.deleteJob job)

end Database

end LadybirdReports.Admin
