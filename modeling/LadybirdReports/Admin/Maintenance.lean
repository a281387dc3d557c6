import LadybirdReports.Admin.Statements
import LadybirdReports.Lib.Result
import Mathlib.Data.List.Sort
import Mathlib.Data.Prod.Lex

/-!
# Maintenance

`maintenance.rs`: what is deleted for its age. A sweep clears the sources of reports, deletes blocks
that are over and audit events, and dates the reports, which are deleted one by one once they have
expired. Every age is counted from the time of the transaction.
-/

namespace LadybirdReports.Admin

open Rust

namespace Database

/-- The audit events that the sweep leaves. -/
def keptEvents (db : Database) (auditRetentionDays : ℕ) : List AuditEvent :=
  db.events.filter fun event => !decide (event.createdAt ≤ db.clock - days auditRetentionDays)

/-- What the sweep makes of a report: its source is cleared, and it is given a date to expire. -/
def sweptReport (db : Database) (reportRetentionDays sourceRetentionHours : ℕ) (r : Report) :
    Report :=
  { r with
    sourceClientKey :=
      if r.createdAt ≤ db.clock - hours sourceRetentionHours then none else r.sourceClientKey
    expiresAt := some (r.expiresAt.getD (r.createdAt + days reportRetentionDays)) }

/-- The reports that have expired, at most a hundred and the first to expire first. -/
def reportsReadyForPurge (db : Database) : List ReportId :=
  let key (r : Report) : Timestamp ×ₗ ℕ := toLex (r.expiresAt.getD db.clock, r.id.value)
  let expired := db.reports.filter (·.expiresAt.any (· ≤ db.clock))
  ((expired.insertionSort fun a b => key a ≤ key b).take 100).map (·.id)

def beginMaintenanceSweep (db : Database)
    (reportRetentionDays sourceRetentionHours auditRetentionDays : ℕ) : List ReportId × Database :=
  let cutoff := db.clock - hours sourceRetentionHours
  let swept := { db with
    reports := db.reports.map (db.sweptReport reportRetentionDays sourceRetentionHours)
    sourceRateLimits := db.sourceRateLimits.filter fun l =>
      !(l.liftedAt.any (· ≤ cutoff) || l.expiresAt.any (· ≤ cutoff))
    events := db.keptEvents auditRetentionDays }
  (swept.reportsReadyForPurge, swept)

/-- The report has expired and is deleted, with what refers to it. -/
def deleteReport (db : Database) (reportId : ReportId) : Database :=
  { db with
    reports := db.reports.filter (·.id ≠ reportId)
    signatures := db.signatures.filter (·.reportId ≠ reportId)
    notifications := db.notifications.filter (·.reportId ≠ reportId)
    sourceRateLimits := db.sourceRateLimits.map fun l =>
      if l.sourceReportId = some reportId then { l with sourceReportId := none } else l }

def finishReportPurge (db : Database) (reportId : ReportId) : Except AppError (Bool × Database) :=
  if db.reports.any fun r => r.id = reportId && r.expiresAt.any (· ≤ db.clock) then do
    check [("challenges_report_id_fkey", db.challenges.all (·.reportId ≠ some reportId))]
    return (true, db.deleteReport reportId)
  else .ok (false, db)

end Database

end LadybirdReports.Admin
