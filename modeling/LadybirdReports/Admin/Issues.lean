import LadybirdReports.Admin.GithubSync
import LadybirdReports.Admin.Reports
import LadybirdReports.Lib.Forest

/-!
# Operations on issues

`issues.rs`: reports leave an issue, an issue is rejected, and reports go to the issue that tracks a
GitHub issue, which is created if there is none.
-/

namespace LadybirdReports.Admin

open Rust

/-! ## Recursive queries -/

/-- The issues merged into an issue, directly or through others. -/
def mergedSources (issues : List Issue) (id : IssueId) : List IssueId :=
  Forest.descendants (fun id => (issues.filter (·.mergedInto = some id)).map (·.id))
    issues.length id

/-- The rows that a recursive query finds from an issue, with their depth: it follows `merged_into`
for a number of steps, through the issues of a kind. -/
def mergeChain (issues : List Issue) (through : Issue → Bool) : ℕ → ℕ → Issue → List (Issue × ℕ)
  | 0, depth, i => [(i, depth)]
  | steps + 1, depth, i =>
    (i, depth) :: match i.mergedInto.bind fun id => issues.find? (·.id = id) with
      | some next => if through next then mergeChain issues through steps (depth + 1) next else []
      | none => []

/-- `SELECT id FROM chain WHERE merged_into IS NULL ORDER BY depth DESC LIMIT 1`. -/
def deepestRoot? (chain : List (Issue × ℕ)) (plan : ℕ) : Option IssueId :=
  let roots := chain.filter (·.1.mergedInto.isNone)
  (choose plan (roots.filter fun row => roots.all (·.2 ≤ row.2))).map (·.1.id)

/-- An issue as a search finds it linked to a GitHub issue. -/
structure GithubIssueLink where
  issueId : IssueId
  githubNumber : ℤ
  title : String
  githubState : GithubLinkState
  deriving DecidableEq, Repr

namespace Database

/-! ## Operations -/

def unlinkReportFromIssue (db : Database) (issueId : IssueId) (reportId : ReportId) (actor : ℤ) :
    Except AppError Database := do
  ensure (db.issues.any (·.id = issueId)) (.notFound "Issue not found")
  let report ← okOr ((db.findReady? reportId).filter (·.issueId = some issueId))
    (.notFound "Assigned report not found")
  db.unlinkReport reportId issueId report.state actor

/-- The reports of a rejected issue: rejected with it, or unlinked and back in triage. -/
def settleReportsOfRejected (db : Database) (issueId : IssueId) (actor : ℤ)
    (action : IssueReportAction) : Except AppError (ℕ × Database) := do
  let target : ReportState := if action = .reject then .rejected else .triage
  let previous := db.reports.filter (·.issueId = some issueId)
  let db ← db.updateReports (·.issueId = some issueId) fun r =>
    { r with issueId := if action = .reject then r.issueId else none, state := target }
  let db := if action = .reject then db else db.auditReports (some actor) previous fun _ =>
    .reportUpdateIssue (some issueId) none none none
  return (previous.length, db.auditReports (some actor)
    (previous.filter (·.state ≠ target)) fun r =>
      .reportUpdateState r.state target none none none)

def rejectIssue (db : Database) (issueId : IssueId) (actor : ℤ) (action : IssueReportAction) :
    Except AppError (ℕ × Database) := do
  let issue ← okOr ((db.findIssue? issueId).filter (·.state ≠ .rejected))
    (.notFound "Issue not found")
  let db ← db.updateIssue issueId fun i => { i with state := .rejected }
  -- Merged source records point at this issue, so they are rejected as well.
  let sources := mergedSources db.issues issueId
  let p (i : Issue) : Bool := i.id ∈ sources && i.state ≠ .rejected
  let mergedSourcesRejected := (db.issues.filter p).length
  let db ← db.updateIssues p fun i => { i with state := .rejected }
  let (reportsUpdated, db) ← db.settleReportsOfRejected issueId actor action
  return (reportsUpdated, db.audit (some actor) (.issue issueId)
    (.issueUpdateState issue.state .rejected action reportsUpdated mergedSourcesRejected))

/-- The issue that reports assigned to a GitHub issue go to: what tracks it now or did before,
through merges. -/
def trackedIssue? (db : Database) (issue : GithubIssue) (repository : String) (plan : ℕ) :
    Option IssueId :=
  let base := db.issues.filter (·.matchesGithub (some issue.id) repository issue.number) ++
    db.matchingAliases issue.id repository issue.number
  deepestRoot? (base.flatMap (mergeChain db.issues (·.state ≠ .rejected) 16 0)) plan

/-- The issues that are linked under each of the numbers, now or before. -/
def linkedRows (db : Database) (repository : String) (githubNumbers : List ℤ) : List (Issue × ℤ) :=
  (db.issues.filter fun i =>
    lower i.githubRepository = lower repository && i.githubNumber ∈ githubNumbers &&
      i.state ≠ .rejected).map (fun i => (i, i.githubNumber)) ++
  (db.aliases.filter fun a =>
    lower a.githubRepository = lower repository && a.githubNumber ∈ githubNumbers).flatMap fun a =>
      (db.issues.filter fun i => i.id = a.issueId && i.state ≠ .rejected).map fun i =>
        (i, a.githubNumber)

/-- `issues_linked_to_github_numbers`: what those were merged into. -/
def issuesLinkedToGithubNumbers (db : Database) (repository : String) (githubNumbers : List ℤ) :
    List GithubIssueLink :=
  if githubNumbers = [] then [] else
  (db.linkedRows repository githubNumbers).flatMap fun (i, githubNumber) =>
    ((mergeChain db.issues (·.state ≠ .rejected) 16 0 i).filter fun row =>
      row.1.mergedInto.isNone && row.1.state ≠ .rejected).map fun row =>
        ⟨row.1.id, githubNumber, row.1.title, row.1.githubState⟩

/-- The issue created for an open GitHub issue that nothing tracks. -/
def createIssue (db : Database) (issue : GithubIssue) (reportIds : List ReportId)
    (repository : String) (actor : ℤ) (newId : IssueId) : Except AppError Database := do
  let db ← db.insertIssue
    { id := newId
      title := trimmed issue.title
      description := issue.description
      state := .unresolved
      resolvedAt := none
      mergedInto := none
      githubRepository := repository
      githubNumber := issue.number
      githubIssueId := some issue.id
      githubUrl := issue.htmlUrl
      githubState := .open
      githubUpdatedAt := some issue.updatedAt
      githubReportsFieldId := none
      githubReportsLinkUrl := none }
  return db.audit (some actor) (.issue newId)
    (.issueCreate none issue.number (some issue.htmlUrl) reportIds)

/-- What `assign_reports_to_github_issue` checks before it starts. -/
def checkGithubAssignment (issue : GithubIssue) (reportIds : List ReportId) (repository : String) :
    Except AppError Unit := do
  ensure (reportIds ≠ []) (.invalidRequest "Select a report")
  validateIssueText issue.title issue.description
  ensure (issue.state = .open && issue.belongsToRepository repository)
    (.conflict "GitHub issue is not open in this repository")

/-- The transaction of `assign_reports_to_github_issue` that follows the synchronisation. -/
def linkToGithubIssue (db : Database) (issue : GithubIssue) (reportIds : List ReportId)
    (repository : String) (actor : ℤ) (newId : IssueId) (plan : ℕ) :
    Except AppError ((IssueId × Bool) × Database) :=
  match db.trackedIssue? issue repository plan with
  | some issueId => do
    ensure (db.issues.any fun i => i.id = issueId && i.state ≠ .rejected && i.resolvedAt.isNone &&
      (i.githubState = .open || i.githubState = .unknown)) (.conflict "Tracked issue is not open")
    let db ← db.linkReports reportIds issueId actor
    return ((issueId, false), db)
  | none => do
    let db ← db.createIssue issue reportIds repository actor newId
    let db ← db.linkReports reportIds newId actor
    return ((newId, true), db)

/-- The issue is brought in line with GitHub in a transaction of its own, which stays when the
reports cannot be linked. -/
def assignReportsToGithubIssue (db : Database) (issue : GithubIssue) (reportIds : List ReportId)
    (repository : String) (actor : ℤ) (newId : IssueId) (now : Timestamp) (plan : ℕ) :
    Except AppError (IssueId × Bool) × Database :=
  let reportIds := inLockOrder reportIds
  let synced : Except AppError (Option IssueId × Database) := do
    checkGithubAssignment issue reportIds repository
    db.syncGithubIssue repository issue (some actor) .assignment now plan
  match synced with
  | .error error => (.error error, db)
  | .ok (_, db) =>
    match db.linkToGithubIssue issue reportIds repository actor newId plan with
    | .error error => (.error error, db)
    | .ok (assignment, db) => (.ok assignment, db)

end Database

end LadybirdReports.Admin
