import LadybirdReports.Admin.Statements
import LadybirdReports.Lib.StrSearch

/-!
# Following GitHub

`github_sync.rs`: what webhooks and lookups on GitHub do to the issue that tracks a GitHub issue. A
query that takes the first of several equally good rows is given the plan that picks it.
-/

namespace LadybirdReports.Admin

open Rust

/-! ## GitHub issues -/

inductive GithubIssueState
  | open
  | closed
  deriving DecidableEq, Repr

def GithubIssueState.linkState : GithubIssueState → GithubLinkState
  | .open => .open
  | .closed => .closed

/-- What `reqwest::Url::parse` makes of a URL. -/
structure Url where
  scheme : String
  host : Option String
  pathSegments : Option (List String)
  deriving DecidableEq, Repr

structure GithubIssue where
  id : ℤ
  number : ℤ
  title : String
  body : Option String
  htmlUrl : String
  /-- `html_url`, parsed. -/
  url : Option Url
  state : GithubIssueState
  updatedAt : Timestamp
  stateReason : Option String
  deriving DecidableEq, Repr

def parseDigits (digits : List Char) : Option ℕ :=
  if digits ≠ [] ∧ digits.all fun c => '0'.toNat ≤ c.toNat && c.toNat ≤ '9'.toNat
  then some (digits.foldl (fun value c => 10 * value + (c.toNat - '0'.toNat)) 0) else none

/-- `str::parse::<i64>`. -/
def parseI64 (text : String) : Option ℤ :=
  let value : Option ℤ := match text.toList with
    | '-' :: digits => (parseDigits digits).map fun n => -(n : ℤ)
    | '+' :: digits => (parseDigits digits).map fun n => (n : ℤ)
    | digits => (parseDigits digits).map fun n => (n : ℤ)
  value.filter fun n => -2 ^ 63 ≤ n ∧ n < 2 ^ 63

/-- The repository that the URL of the issue names. -/
def GithubIssue.repository (issue : GithubIssue) : Option String := do
  let url ← issue.url
  if url.scheme ≠ "https" ∨ url.host ≠ some "github.com" then none
  match ← url.pathSegments with
  | [owner, name, "issues", number] =>
    if (← parseI64 number) ≠ issue.number then none
    return owner ++ "/" ++ name
  | _ => none

def eqIgnoreAsciiCase (a b : String) : Bool := lower a = lower b

def GithubIssue.belongsToRepository (issue : GithubIssue) (repository : String) : Bool :=
  issue.repository.any (eqIgnoreAsciiCase · repository)

/-- `issue.body.as_deref().unwrap_or_default()`. -/
def GithubIssue.description (issue : GithubIssue) : String := issue.body.getD ""

/-- `str::trim`. -/
def trimmed (text : String) : String := String.ofList (trim text.toList)

def validateIssueText (title description : String) : Except AppError Unit := do
  ensure (trimmed title ≠ "" && title.length ≤ 256)
    (.invalidRequest "Issue title must be 1 to 256 characters")
  ensure (description.length ≤ 256 * 1024) (.invalidRequest "Issue description is too large")

/-! ## Lookups -/

/-- The row of an issue matches the GitHub id, or the repository and the number. -/
def Issue.matchesGithub (i : Issue) (githubId : Option ℤ) (repository : String) (number : ℤ) :
    Bool :=
  i.state ≠ .rejected &&
    ((githubId.isSome && i.githubIssueId = githubId) || i.identity = .of repository number)

def GithubAlias.matchesGithub (a : GithubAlias) (githubId : ℤ) (repository : String)
    (number : ℤ) : Bool :=
  a.identity = .of repository number || a.githubIssueId = some githubId

namespace Database

/-- The aliases of issues that are not rejected which match, with their issues. -/
def matchingAliases (db : Database) (githubId : ℤ) (repository : String) (number : ℤ) :
    List Issue :=
  (db.aliases.filter (·.matchesGithub githubId repository number)).flatMap fun a =>
    db.issues.filter fun i => i.id = a.issueId && i.state ≠ .rejected

/-- The issue that a GitHub issue is looked up to: by its GitHub id first. -/
def lookupGithub (db : Database) (githubId : Option ℤ) (repository : String) (number : ℤ)
    (plan : ℕ) : Option Issue :=
  let rows := db.issues.filter (·.matchesGithub githubId repository number)
  let byId := rows.filter fun i => githubId.isSome && i.githubIssueId = githubId
  choose plan (if byId = [] then rows else byId)

/-! ## Operations -/

/-- `replace_github_issue`: an issue whose GitHub issue cannot be read tracks another one. -/
def replaceGithubIssue (db : Database) (issueId : IssueId) (repository : String)
    (replacement : GithubIssue) (actor : ℤ) (now : Timestamp) : Except AppError Database := do
  ensure (replacement.belongsToRepository repository)
    (.invalidRequest "Replacement issue must be in the configured repository")
  validateIssueText replacement.title replacement.description
  let current ← okOr ((db.findIssue? issueId).filter (·.active)) (.notFound "Issue not found")
  ensure current.githubState.isUnreachable (.conflict "Current GitHub issue is still available")
  ensure (!(eqIgnoreAsciiCase current.githubRepository repository &&
    current.githubNumber = replacement.number)) (.conflict "This GitHub issue is already linked")
  ensure (!((db.issues.any fun i =>
      i.id ≠ issueId && i.matchesGithub (some replacement.id) repository replacement.number) ||
    db.matchingAliases replacement.id repository replacement.number ≠ []))
    (.conflict "Replacement GitHub issue is already tracked")
  let db ← db.insertAlias ⟨issueId, current.githubRepository, current.githubNumber,
    current.githubIssueId, current.githubUrl⟩
  let db ← db.updateIssue issueId fun i =>
    { i with
      githubRepository := repository
      githubNumber := replacement.number
      githubIssueId := some replacement.id
      githubUrl := replacement.htmlUrl
      title := replacement.title
      description := replacement.description
      githubState := replacement.state.linkState
      state := if replacement.state = .closed then .resolved else .unresolved
      githubUpdatedAt := some replacement.updatedAt
      githubReportsFieldId := none
      githubReportsLinkUrl := none
      resolvedAt := if replacement.state = .closed then some (i.resolvedAt.getD now) else none }
  return db.audit (some actor) (.issue issueId) (.issueUpdateGithubLink
    (current.githubRepository, current.githubNumber, current.githubUrl)
    (repository, replacement.number, replacement.htmlUrl))

/-- What a webhook says about the issue being a duplicate: its job is queued anew, or dropped. -/
def updateDuplicateJob (db : Database) (issueId : IssueId) (repository : String)
    (issue : GithubIssue) (installationId : Option ℤ) (now : Timestamp) : Database :=
  if issue.state = .closed ∧ issue.stateReason = some "duplicate" then
    match installationId with
    | some installation =>
      let job : DuplicateJob :=
        ⟨issueId, issue.id, repository, issue.number, installation, none, none, now, 0⟩
      { db with
        jobs := db.jobs.filter (fun j : DuplicateJob => j.sourceIssueId ≠ issueId) ++ [job] }
    | none => db
  else
    { db with jobs := db.jobs.filter fun j : DuplicateJob => j.sourceIssueId ≠ issueId }

/-- `UPDATE issues` with what GitHub says, and its event. -/
def syncIssue (db : Database) (row : Issue) (issue : GithubIssue) (state : GithubLinkState)
    (actor : Option ℤ) (source : GithubSyncSource) (now : Timestamp) :
    Except AppError Database := do
  let db ← db.updateIssue row.id fun i =>
    { i with
      githubIssueId := some issue.id
      title := issue.title
      description := issue.description
      githubUrl := issue.htmlUrl
      githubState := state
      state := .tracking state
      githubUpdatedAt := some issue.updatedAt
      resolvedAt := match state with
        | .open => none
        | .closed => some (i.resolvedAt.getD now)
        | _ => i.resolvedAt }
  return if row.githubState ≠ state ∨ row.title ≠ issue.title ∨
      row.description ≠ issue.description ∨ row.githubUrl ≠ issue.htmlUrl then
    db.audit actor (.issue row.id) (.issueSyncGithub source row.githubState state
      (some (row.title ≠ issue.title, row.description ≠ issue.description,
        row.githubUrl ≠ issue.htmlUrl))) else db

def syncGithubIssueWithInstallation (db : Database) (repository : String) (issue : GithubIssue)
    (actor : Option ℤ) (source : GithubSyncSource) (installationId : Option ℤ) (now : Timestamp)
    (plan : ℕ) : Except AppError (Option IssueId × Database) := do
  validateIssueText issue.title issue.description
  let currentRepository ← okOr issue.repository
    (.invalidRequest "GitHub returned an invalid issue URL")
  match db.lookupGithub (some issue.id) repository issue.number plan with
  | none => return (none, db)
  | some row =>
    let state := if eqIgnoreAsciiCase currentRepository row.githubRepository
      then issue.state.linkState else .moved
    ensure (row.githubIssueId.all (· = issue.id)) (.conflict "GitHub issue identity changed")
    if row.githubUpdatedAt.any (issue.updatedAt < ·) then
      return (some row.id, db)
    if source = .webhook ∧ row.githubState.isGone then
      return (some row.id, db)
    let db := if source = .webhook
      then db.updateDuplicateJob row.id repository issue installationId now else db
    let db ← db.syncIssue row issue state actor source now
    return (some row.id, db)

def syncGithubIssue (db : Database) (repository : String) (issue : GithubIssue)
    (actor : Option ℤ) (source : GithubSyncSource) (now : Timestamp) (plan : ℕ) :
    Except AppError (Option IssueId × Database) :=
  db.syncGithubIssueWithInstallation repository issue actor source none now plan

def markGithubIssueUnavailable (db : Database) (repository : String) (number : ℤ)
    (githubId : Option ℤ) (state : GithubLinkState) (source : GithubSyncSource) (plan : ℕ) :
    Except AppError (Option IssueId × Database) := do
  ensure state.isUnreachable (.invalidRequest "Invalid GitHub link state")
  match db.lookupGithub githubId repository number plan with
  | none => return (none, db)
  | some row =>
    ensure (githubId.all fun id => row.githubIssueId.all (· = id))
      (.conflict "GitHub issue identity changed")
    let db ← db.updateIssue row.id fun i =>
      { i with
        githubIssueId := i.githubIssueId.or githubId
        githubState := state
        state := .tracking state }
    return (some row.id, if row.githubState ≠ state then
      db.audit none (.issue row.id) (.issueSyncGithub source row.githubState state none) else db)

/-- `record_github_reports_link`. -/
def recordGithubReportsLink (db : Database) (issueId : IssueId) (githubIssueId : Option ℤ)
    (fieldId : ℤ) (link : String) : Except AppError Database := do
  let p (i : Issue) : Bool := i.id = issueId && i.githubIssueId = githubIssueId && i.active
  ensure (db.issues.any p) (.conflict "GitHub issue link changed during sync")
  db.updateIssues p fun i =>
    { i with githubReportsFieldId := some fieldId, githubReportsLinkUrl := some link }

end Database

end LadybirdReports.Admin
