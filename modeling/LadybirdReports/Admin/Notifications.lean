import LadybirdReports.Admin.StackSignatures
import LadybirdReports.Lib.Rows
import LadybirdReports.Lib.Run
import Mathlib.Algebra.Group.Nat.Defs

/-!
# The Discord delivery queue

`notifications.rs`: replicas deliver the notifications of new reports one at a time. Whoever holds
the lease in the one row of `discord_delivery_state` may deliver, and finishes or defers with the
lease it was given.

Every call locks that row before it reads anything else and keeps the lock until it commits, and
touches the notifications in a single statement, so that a call is one step. What it takes for the
time is when its transaction began, before it had the lock (`startedAt`). What else happens to the
notifications, the reports and their signatures comes between the calls (`Step`).
-/

namespace LadybirdReports.Admin

open Rust Transition

/-- The columns of `discord_delivery_state` that hold the lease, which its check makes null
together. -/
structure DeliveryLease where
  id : DiscordDeliveryLeaseId
  reportId : ReportId
  expiresAt : Timestamp
  deriving DecidableEq, Repr

structure DiscordDeliveryState where
  lease : Option DeliveryLease
  pausedUntil : Option Timestamp
  consecutiveFailures : ℕ
  deriving DecidableEq, Repr

/-- A row of `discord_report_notifications`, with all its columns. -/
structure DiscordReportNotification where
  reportId : ReportId
  attemptCount : ℕ
  lastFailure : Option String
  lastResponseStatus : Option ℕ
  createdAt : Timestamp
  deliveredAt : Option Timestamp
  deriving DecidableEq, Repr

/-- The queue, and what deliveries depend on. -/
structure DiscordQueue where
  clock : Timestamp
  delivery : DiscordDeliveryState
  notifications : List DiscordReportNotification
  reports : List Report
  /-- The reports that have a row in the view `report_stack_traces`. -/
  stackTraces : List ReportId
  signatures : List StackSignature
  /-- Every id that a report was ever accepted under: a new report gets another. -/
  reportIds : List ReportId
  deriving DecidableEq, Repr

/-- What a claim returns, less the fields of the report, which it reads with the rest, and the
title, which it makes after it has committed. -/
structure PendingDiscordNotification where
  reportId : ReportId
  leaseId : DiscordDeliveryLeaseId
  kind : ReportKind
  clientVersion : String
  build : String
  createdAt : Timestamp
  attemptCount : ℕ
  deriving DecidableEq, Repr

/-- `n as i32`. -/
def asI32 (n : ℕ) : ℤ := Int.bmod n (2 ^ 32)

/-- `make_interval(secs => …)`. -/
def secondsInterval (seconds : ℤ) : Timestamp := seconds * 1000000

def DiscordReportNotification.delivered (n : DiscordReportNotification) : Bool :=
  n.deliveredAt.isSome

/-- `ORDER BY notifications.created_at, notifications.report_id`. -/
def DiscordReportNotification.before (n m : DiscordReportNotification) : Bool :=
  n.createdAt < m.createdAt || (n.createdAt = m.createdAt && n.reportId.value ≤ m.reportId.value)

def DiscordDeliveryState.released (d : DiscordDeliveryState) : DiscordDeliveryState :=
  { d with lease := none }

/-! ## The calls -/

structure ClaimNotification where
  startedAt : Timestamp
  leaseId : DiscordDeliveryLeaseId
  leaseSeconds : ℕ
  kinds : List ReportKind
  deriving DecidableEq, Repr

structure FinishNotification where
  startedAt : Timestamp
  reportId : ReportId
  leaseId : DiscordDeliveryLeaseId
  cooldownSeconds : ℕ
  deriving DecidableEq, Repr

structure DeferNotification where
  startedAt : Timestamp
  reportId : ReportId
  leaseId : DiscordDeliveryLeaseId
  delaySeconds : ℕ
  responseStatus : Option ℕ
  failure : String
  deriving DecidableEq, Repr

/-- The row of a notification that was delivered. -/
def DiscordReportNotification.markDelivered (now : Timestamp) (n : DiscordReportNotification) :
    DiscordReportNotification :=
  { n with
    deliveredAt := some now
    lastFailure := none
    lastResponseStatus := none }

/-- The row of a notification that was not. -/
def DeferNotification.markFailed (request : DeferNotification) (n : DiscordReportNotification) :
    DiscordReportNotification :=
  { n with
    attemptCount := n.attemptCount + 1
    lastFailure := some request.failure
    lastResponseStatus := request.responseStatus }

/-- What the row of a failed delivery has to meet. -/
def DeferNotification.constraints (request : DeferNotification) : List (String × Bool) :=
  [("discord_report_notifications_last_failure_check", request.failure.length ≤ 128),
    ("discord_report_notifications_last_response_status_check",
      request.responseStatus.all fun status => 100 ≤ status && status ≤ 599)]

namespace DiscordQueue

def dispatcherIsAvailable (q : DiscordQueue) (now : Timestamp) : Bool :=
  q.delivery.lease.all (·.expiresAt ≤ now) && q.delivery.pausedUntil.all (· ≤ now)

/-- No stack trace of the report waits to be matched. -/
def isIndexed (q : DiscordQueue) (reportId : ReportId) : Bool :=
  q.stackTraces.all fun trace => trace ≠ reportId ||
    (q.signatures.any (·.reportId = trace) && q.signatures.all fun s => s.reportId ≠ trace ||
      (s.algorithmVersion = stackSignatureVersion && s.matchedAt.isSome))

/-- The notifications that may be delivered, with their reports. -/
def eligible (q : DiscordQueue) (kinds : List ReportKind) :
    List (DiscordReportNotification × Report) :=
  (q.notifications.filter (!·.delivered)).flatMap fun n =>
    (q.reports.filter fun r => r.id = n.reportId && kinds.contains r.kind && r.ready &&
      r.state ≠ .rejected && q.isIndexed r.id).map fun r => (n, r)

/-- `claim_discord_notification`. -/
def claim (q : DiscordQueue) (request : ClaimNotification) :
    Option PendingDiscordNotification × DiscordQueue :=
  if !q.dispatcherIsAvailable request.startedAt then (none, q)
  else
    match Rows.first? (fun a b => a.1.before b.1) (q.eligible request.kinds) with
    | none => (none, { q with delivery := q.delivery.released })
    | some (n, r) =>
      let lease : DeliveryLease := ⟨request.leaseId, n.reportId,
        request.startedAt + secondsInterval (asI32 request.leaseSeconds)⟩
      (some ⟨n.reportId, request.leaseId, r.kind, r.clientVersion, r.build, r.createdAt,
          n.attemptCount⟩,
        { q with delivery := { q.delivery with lease := some lease } })

/-- `lock_discord_delivery`: without a lease the comparison is null, which is not read as a
`bool`. -/
def ownsLease (q : DiscordQueue) (reportId : ReportId) (leaseId : DiscordDeliveryLeaseId) :
    Except AppError Bool :=
  match q.delivery.lease with
  | none => .error (.database "unexpected null")
  | some lease => .ok (lease.id = leaseId && lease.reportId = reportId)

/-- `WHERE report_id = $1 AND delivered_at IS NULL`. -/
def awaits (reportId : ReportId) (n : DiscordReportNotification) : Bool :=
  n.reportId = reportId && !n.delivered

/-- `finish_discord_notification`. -/
def finish (q : DiscordQueue) (request : FinishNotification) :
    Except AppError (Bool × DiscordQueue) := do
  if !(← q.ownsLease request.reportId request.leaseId) then
    return (false, q)
  return (q.notifications.any (awaits request.reportId), { q with
    notifications := q.notifications.map fun n =>
      if awaits request.reportId n then n.markDelivered request.startedAt else n
    delivery :=
      { lease := none
        pausedUntil :=
          if asI32 request.cooldownSeconds = 0 then none
          else some (request.startedAt + secondsInterval (asI32 request.cooldownSeconds))
        consecutiveFailures := 0 } })

/-- `defer_discord_notification`. -/
def defer (q : DiscordQueue) (request : DeferNotification) :
    Except AppError (Bool × DiscordQueue) := do
  if !(← q.ownsLease request.reportId request.leaseId) then
    return (false, q)
  check (if q.notifications.any (awaits request.reportId) then request.constraints else [])
  return (q.notifications.any (awaits request.reportId), { q with
    notifications := q.notifications.map fun n =>
      if awaits request.reportId n then request.markFailed n else n
    delivery :=
      { lease := none
        pausedUntil := some (request.startedAt + secondsInterval (asI32 request.delaySeconds))
        consecutiveFailures := q.delivery.consecutiveFailures + 1 } })

end DiscordQueue

inductive DiscordCall
  | claim (request : ClaimNotification)
  | finish (request : FinishNotification)
  | defer (request : DeferNotification)
  deriving DecidableEq, Repr

def DiscordCall.startedAt : DiscordCall → Timestamp
  | .claim request => request.startedAt
  | .finish request => request.startedAt
  | .defer request => request.startedAt

/-- A transaction that fails leaves everything as it was. -/
def DiscordQueue.committed {α : Type} (q : DiscordQueue) :
    Except AppError (α × DiscordQueue) → DiscordQueue
  | .ok (_, next) => next
  | .error _ => q

def DiscordQueue.exec (q : DiscordQueue) : DiscordCall → DiscordQueue
  | .claim request => (q.claim request).2
  | .finish request => q.committed (q.finish request)
  | .defer request => q.committed (q.defer request)

/-! ## What else happens -/

namespace DiscordQueue

/-- A report is accepted under a new id, with its files still to store. -/
def accept (q : DiscordQueue) (report : Report) : DiscordQueue :=
  { q with
    reports := q.reports ++ [report]
    reportIds := q.reportIds ++ [report.id] }

/-- The report is one whose files have not been stored before. -/
def awaitsFiles (reportId : ReportId) (uploadId : UploadId) (r : Report) : Bool :=
  r.id = reportId && r.stagingId = uploadId && !r.ready

/-- `mark_report_storage_ready`, with the trigger that queues the notification. -/
def markStorageReady (q : DiscordQueue) (reportId : ReportId) (uploadId : UploadId)
    (now : Timestamp) : DiscordQueue :=
  if q.reports.any (awaitsFiles reportId uploadId) then
    { q with
      reports := q.reports.map fun r =>
        if awaitsFiles reportId uploadId r then { r with storageState := .ready } else r
      notifications := if q.notifications.any (·.reportId = reportId) then q.notifications
        else q.notifications ++ [⟨reportId, 0, none, none, now, none⟩] }
  else q

/-- A report expires, and its notification with it. -/
def deleteReport (q : DiscordQueue) (reportId : ReportId) : DiscordQueue :=
  { q with
    reports := q.reports.filter (·.id ≠ reportId)
    notifications := q.notifications.filter (·.reportId ≠ reportId) }

/-- Matching finds that nobody needs to be told of the report. -/
def deleteNotification (q : DiscordQueue) (reportId : ReportId) : DiscordQueue :=
  { q with notifications := q.notifications.filter (·.reportId ≠ reportId) }

/-- Reports are reviewed, linked and matched, and stack traces come and go. -/
def review (q : DiscordQueue) (change : Report → Report) (stackTraces : List ReportId)
    (signatures : List StackSignature) : DiscordQueue :=
  { q with
    reports := q.reports.map change
    stackTraces := stackTraces
    signatures := signatures }

/-- A step is a call of a replica, or something else. -/
inductive Step : DiscordQueue → Option DiscordCall → DiscordQueue → Prop
  | call {q : DiscordQueue} (c : DiscordCall) (hstarted : c.startedAt ≤ q.clock) :
      Step q (some c) (q.exec c)
  | tick {q : DiscordQueue} (now : Timestamp) (hnow : q.clock ≤ now) :
      Step q none { q with clock := now }
  | accept {q : DiscordQueue} (report : Report) (hnew : report.id ∉ q.reportIds) :
      Step q none (q.accept report)
  | markStorageReady {q : DiscordQueue} (reportId : ReportId) (uploadId : UploadId)
      (now : Timestamp) : Step q none (q.markStorageReady reportId uploadId now)
  | deleteReport {q : DiscordQueue} (reportId : ReportId) : Step q none (q.deleteReport reportId)
  | deleteNotification {q : DiscordQueue} (reportId : ReportId) :
      Step q none (q.deleteNotification reportId)
  | review {q : DiscordQueue} (change : Report → Report) (stackTraces : List ReportId)
      (signatures : List StackSignature) (hid : ∀ r, (change r).id = r.id)
      (hready : ∀ r, (change r).ready = r.ready) :
      Step q none (q.review change stackTraces signatures)

def empty (clock : Timestamp) : DiscordQueue :=
  { clock := clock
    delivery := ⟨none, none, 0⟩
    notifications := []
    reports := []
    stackTraces := []
    signatures := []
    reportIds := [] }

def IsReachable (q : DiscordQueue) : Prop := ∃ clock, Reachable Step (empty clock) q

end DiscordQueue

end LadybirdReports.Admin
