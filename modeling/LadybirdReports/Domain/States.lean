import Mathlib.Data.List.Basic

/-!
# States

The text enumerations of `states.rs` and the report kinds, and the state an issue takes from what
is known about its GitHub issue (`IssueState.tracking`).
-/

namespace LadybirdReports

/-- What a report is about. -/
inductive ReportKind
  | crash
  | webCompat
  deriving DecidableEq, Repr

def ReportKind.asStr : ReportKind → String
  | .crash => "crash"
  | .webCompat => "web_compat"

/-- Where a report is in triage. -/
inductive ReportState
  | triage
  | confirmed
  | resolved
  | rejected
  deriving DecidableEq, Repr

/-- A state change asked of several reports at once. -/
inductive ReportStateAction
  | confirm
  | returnToTriage
  | reject
  deriving DecidableEq, Repr

/-- What kind of fix resolved a report that is on no issue. -/
inductive ReportFixKind
  | pullRequest
  | commit
  deriving DecidableEq, Repr

/-- The fix that resolved a report: a merged pull request or a commit. -/
structure ReportFix where
  kind : ReportFixKind
  reference : String
  title : String
  url : String
  deriving DecidableEq, Repr

/-- What is known about the GitHub issue an issue tracks. -/
inductive GithubLinkState
  | unknown
  | open
  | closed
  | missing
  | moved
  | unavailable
  deriving DecidableEq, Repr

/-- The linked issue cannot be read from where it was linked. -/
def GithubLinkState.isUnreachable : GithubLinkState → Bool
  | .missing | .moved | .unavailable => true
  | _ => false

/-- The issue is known to be deleted or transferred. -/
def GithubLinkState.isGone : GithubLinkState → Bool
  | .missing | .moved => true
  | _ => false

/-- Where an issue is in its life. -/
inductive IssueState
  | unresolved
  | needsAttention
  | resolved
  | rejected
  deriving DecidableEq, Repr

/-- The state an issue takes from what is known about its GitHub issue. -/
def IssueState.tracking : GithubLinkState → IssueState
  | .closed => .resolved
  | .missing | .moved | .unavailable => .needsAttention
  | .unknown | .open => .unresolved

theorem IssueState.tracking_ne_rejected (link : GithubLinkState) :
    IssueState.tracking link ≠ .rejected := by
  cases link <;> decide

/-- An issue needs attention exactly when its GitHub issue cannot be read. -/
theorem IssueState.tracking_needsAttention_iff {link : GithubLinkState} :
    IssueState.tracking link = .needsAttention ↔ link.isUnreachable := by
  cases link <;> decide

/-- What rejecting an issue does to its reports. -/
inductive IssueReportAction
  | unlink
  | reject
  deriving DecidableEq, Repr

/-- What brought an issue in line with its GitHub issue. -/
inductive GithubSyncSource
  | webhook
  | assignment
  deriving DecidableEq, Repr

/-- Whether the attachment files of a report have been stored. -/
inductive StorageState
  | pendingFiles
  | ready
  deriving DecidableEq, Repr

end LadybirdReports
