import LadybirdReports.Admin.Schema

/-!
# Statements and triggers

The SQL statements that the operations are made of. A statement that sets `state` or `issue_id` of
reports fires their triggers (`Report.settle`), one that changes the state of issues makes their
reports follow (`Database.updateIssues`), and a statement that would break a constraint fails.

`updateReports_eq_ok` and `updateIssues_eq_ok` say what a statement that succeeds has done.
-/

namespace LadybirdReports.Admin

/-! ## The triggers of reports -/

/-- The state a report that is linked to the issue takes, if it is not rejected. -/
def IssueState.reportState (state : Option IssueState) : ReportState :=
  if state = some .resolved then .resolved else .confirmed

def issueState? (issues : List Issue) (issue : IssueId) : Option IssueState :=
  (issues.find? (·.id = issue)).map (·.state)

/-- The trigger `follow_issue_state`: a linked report that is confirmed or resolved takes the state
its issue calls for. -/
def Report.followIssueStateOnReport (issues : List Issue) (r : Report) : Report :=
  match r.issueId with
  | some issue =>
    if r.state = .confirmed ∨ r.state = .resolved
    then { r with state := IssueState.reportState (issueState? issues issue) } else r
  | none => r

/-- The trigger `keep_fix_with_resolution`: a fix goes when its report is linked or is no longer
resolved. -/
def Report.dropFixOfUnresolvedReport (r : Report) : Report :=
  if r.fix.kind.isSome ∧ (r.state ≠ .resolved ∨ r.issueId.isSome) then { r with fix := .null }
  else r

/-- The triggers before an update, in the order of their names. -/
def Report.settle (issues : List Issue) (r : Report) : Report :=
  (r.followIssueStateOnReport issues).dropFixOfUnresolvedReport

/-! ## Statements -/

namespace Database

def findReport? (db : Database) (id : ReportId) : Option Report := db.reports.find? (·.id = id)

def findIssue? (db : Database) (id : IssueId) : Option Issue := db.issues.find? (·.id = id)

/-- `UPDATE reports SET … WHERE p`, of columns that fire the triggers. -/
def updateReports (db : Database) (p : Report → Bool) (set : Report → Report) :
    Except AppError Database := do
  check ((db.reports.filter p).flatMap fun r => ((set r).settle db.issues).constraints db.issues)
  return { db with reports := db.reports.map fun r => if p r then (set r).settle db.issues else r }

/-- `UPDATE reports SET … WHERE id = $1`. -/
def updateReport (db : Database) (id : ReportId) (set : Report → Report) :
    Except AppError Database :=
  db.updateReports (·.id = id) set

def insertReport (db : Database) (r : Report) : Except AppError Database := do
  check (("reports_pkey", db.reports.all (·.id ≠ r.id)) ::
    ("reports_staging_id_key", db.reports.all (·.stagingId ≠ r.stagingId)) ::
    ("reports_submission_id_key", db.reports.all (·.submissionId ≠ r.submissionId)) ::
    (r.followIssueStateOnReport db.issues).constraints db.issues)
  return { db with reports := db.reports ++ [r.followIssueStateOnReport db.issues] }

def audit (db : Database) (actor : Option ℤ) (entity : Entity) (details : AuditDetails) :
    Database :=
  { db with events := db.events ++ [⟨actor, entity, details, db.clock⟩] }

/-- One event for each report. -/
def auditReports (db : Database) (actor : Option ℤ) (reports : List Report)
    (details : Report → AuditDetails) : Database :=
  { db with
    events := db.events ++ reports.map fun r => ⟨actor, .report r.id, details r, db.clock⟩ }

/-- The update and the events of one branch of `follow_issue_state_on_issue`. -/
def followIssueState (db : Database) (issue : IssueId) (previous next : ReportState) :
    Except AppError Database := do
  let p (r : Report) : Bool := r.issueId = some issue && r.state = previous
  let changed := db.reports.filter p
  let db ← db.updateReports p fun r => { r with state := next }
  return db.auditReports none changed fun _ =>
    .reportUpdateState previous next none (some "issue") none

/-- The trigger `follow_issue_state` of issues, for the row of an issue that has become resolved or
is no longer. -/
def followIssueStateOnIssue (db : Database) (issue : IssueId) (state : IssueState) :
    Except AppError Database :=
  if state = .resolved then db.followIssueState issue .confirmed .resolved
  else db.followIssueState issue .resolved .confirmed

/-- `UPDATE issues SET … WHERE p`, with the trigger after it for each row. -/
def updateIssues (db : Database) (p : Issue → Bool) (set : Issue → Issue) :
    Except AppError Database := do
  let issues : List Issue := db.issues.map fun i => if p i then set i else i
  check ((db.issues.filter p).flatMap fun i => (set i).constraints issues)
  check (uniqueActive issues)
  let changed : List Issue := db.issues.filter fun i => p i && i.state ≠ (set i).state &&
    ((set i).state = .resolved || i.state = .resolved)
  changed.foldlM (fun db i => db.followIssueStateOnIssue i.id (set i).state) { db with issues }

/-- `UPDATE issues SET … WHERE id = $1`. -/
def updateIssue (db : Database) (id : IssueId) (set : Issue → Issue) : Except AppError Database :=
  db.updateIssues (·.id = id) set

def insertIssue (db : Database) (i : Issue) : Except AppError Database := do
  let issues := db.issues ++ [i]
  check (("issues_pkey", db.issues.all (·.id ≠ i.id)) :: i.constraints issues ++
    uniqueActive issues)
  return { db with issues }

def insertAlias (db : Database) (a : GithubAlias) : Except AppError Database := do
  check [("issue_github_aliases_github_number_check", 0 < a.githubNumber),
    ("issue_github_aliases_pkey", db.aliases.all fun other =>
      other.githubRepository ≠ a.githubRepository || other.githubNumber ≠ a.githubNumber),
    ("issue_github_aliases_issue_id_fkey", db.issues.any (·.id = a.issueId))]
  return { db with aliases := db.aliases ++ [a] }

end Database

end LadybirdReports.Admin
