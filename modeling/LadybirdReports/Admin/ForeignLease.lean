import LadybirdReports.Admin.Delivery
import LadybirdReports.Lib.Ternary

/-!
# Calls with a lease that is not stored

`lock_discord_delivery` compares both columns of the lease with what it is given and reads the
result as a `bool`. A lease that another call took over compares false, whatever became of it since.
A row with no lease compares null, which cannot be read: the call fails, where it would have nothing
to do. So what a caller with an old lease is told depends on whether anyone holds a new one
(`foreign_call_iff`).
-/

namespace LadybirdReports.Admin

open Rust Transition

namespace DiscordQueue

variable {q s t : DiscordQueue} {reportId : ReportId} {leaseId : DiscordDeliveryLeaseId}

/-! ## The comparison -/

/-- `lease_id = $1 AND leased_report_id = $2`. -/
def leaseMatches (q : DiscordQueue) (reportId : ReportId) (leaseId : DiscordDeliveryLeaseId) :
    Option Bool :=
  Ternary.and (Ternary.eq (q.delivery.lease.map (·.id)) leaseId)
    (Ternary.eq (q.delivery.lease.map (·.reportId)) reportId)

/-- `query_scalar` into a `bool`. -/
def fetchBool : Option Bool → Except AppError Bool
  | some value => .ok value
  | none => .error (.database "unexpected null")

theorem ownsLease_eq_fetchBool (q : DiscordQueue) (reportId : ReportId)
    (leaseId : DiscordDeliveryLeaseId) :
    q.ownsLease reportId leaseId = fetchBool (q.leaseMatches reportId leaseId) := by
  unfold ownsLease leaseMatches
  cases q.delivery.lease with
  | none => rfl
  | some lease => simp [fetchBool]

/-- The comparison is null exactly when there is no lease: the columns are null together. -/
theorem leaseMatches_eq_none_iff :
    q.leaseMatches reportId leaseId = none ↔ q.delivery.lease = none := by
  unfold leaseMatches
  rw [Ternary.and_eq_none_iff]
  cases q.delivery.lease with
  | none => simp
  | some lease => simp

/-- The pair is the lease that is stored. -/
def Holds (q : DiscordQueue) (reportId : ReportId) (leaseId : DiscordDeliveryLeaseId) : Prop :=
  ∃ lease, q.delivery.lease = some lease ∧ lease.id = leaseId ∧ lease.reportId = reportId

theorem leaseMatches_eq_true_iff :
    q.leaseMatches reportId leaseId = some true ↔ q.Holds reportId leaseId := by
  unfold leaseMatches Holds
  cases q.delivery.lease with
  | none => simp [Ternary.and]
  | some lease => simp

theorem ownsLease_eq_false_iff (h : ¬ q.Holds reportId leaseId) :
    q.ownsLease reportId leaseId = .ok false ↔ q.delivery.lease.isSome = true := by
  rw [ownsLease_eq_fetchBool]
  cases hmatches : q.leaseMatches reportId leaseId with
  | none =>
    rw [leaseMatches_eq_none_iff] at hmatches
    simp [fetchBool, hmatches]
  | some owns =>
    cases owns with
    | true => exact absurd (leaseMatches_eq_true_iff.mp hmatches) h
    | false =>
      have hlease : q.delivery.lease ≠ none := fun hnone => by
        rw [leaseMatches_eq_none_iff.mpr hnone] at hmatches
        cases hmatches
      exact iff_of_true rfl (Option.isSome_iff_ne_none.mpr hlease)

/-! ## The calls -/

theorem finish_eq_false_iff {request : FinishNotification}
    (h : ¬ q.Holds request.reportId request.leaseId) :
    q.finish request = .ok (false, q) ↔ q.delivery.lease.isSome = true := by
  rw [← ownsLease_eq_false_iff h]
  constructor
  · intro hfinish
    obtain ⟨owns, howns, -⟩ := bind_eq_ok.mp hfinish
    cases owns with
    | true => exact absurd (ownsLease_eq_ok howns) h
    | false => exact howns
  · intro howns
    unfold finish
    rw [howns]
    rfl

theorem defer_eq_false_iff {request : DeferNotification}
    (h : ¬ q.Holds request.reportId request.leaseId) :
    q.defer request = .ok (false, q) ↔ q.delivery.lease.isSome = true := by
  rw [← ownsLease_eq_false_iff h]
  constructor
  · intro hdefer
    obtain ⟨owns, howns, -⟩ := bind_eq_ok.mp hdefer
    cases owns with
    | true => exact absurd (ownsLease_eq_ok howns) h
    | false => exact howns
  · intro howns
    unfold defer
    rw [howns]
    rfl

theorem finish_of_no_lease (h : q.delivery.lease = none) (request : FinishNotification) :
    q.finish request = .error (.database "unexpected null") := by
  unfold finish ownsLease
  rw [h]
  rfl

theorem defer_of_no_lease (h : q.delivery.lease = none) (request : DeferNotification) :
    q.defer request = .error (.database "unexpected null") := by
  unfold defer ownsLease
  rw [h]
  rfl

/-- Whatever it is told, a caller with another pair changes nothing. -/
theorem exec_finish_foreign {request : FinishNotification}
    (h : ¬ q.Holds request.reportId request.leaseId) : q.exec (.finish request) = q := by
  change q.committed (q.finish request) = q
  cases hlease : q.delivery.lease with
  | none =>
    rw [finish_of_no_lease hlease]
    rfl
  | some lease =>
    rw [(finish_eq_false_iff h).mpr (by rw [hlease]; rfl)]
    rfl

theorem exec_defer_foreign {request : DeferNotification}
    (h : ¬ q.Holds request.reportId request.leaseId) : q.exec (.defer request) = q := by
  change q.committed (q.defer request) = q
  cases hlease : q.delivery.lease with
  | none =>
    rw [defer_of_no_lease hlease]
    rfl
  | some lease =>
    rw [(defer_eq_false_iff h).mpr (by rw [hlease]; rfl)]
    rfl

/-! ## Runs that keep a lease -/

/-- The step leaves a lease in place of the one that is stored: nobody settles it, and a claim that
takes it over finds a notification. -/
def KeepsLease (q : DiscordQueue) : Option DiscordCall → Prop
  | some (.claim request) =>
    q.dispatcherIsAvailable request.startedAt = true → q.eligible request.kinds ≠ []
  | some call => ∀ lease, q.delivery.lease = some lease → call.settles lease = false
  | none => True

theorem claim_lease_isSome {request : ClaimNotification}
    (h : q.delivery.lease.isSome = true)
    (hkeeps : q.dispatcherIsAvailable request.startedAt = true → q.eligible request.kinds ≠ []) :
    (q.claim request).2.delivery.lease.isSome = true := by
  cases hav : q.dispatcherIsAvailable request.startedAt with
  | false => rwa [claim_of_not_available hav]
  | true =>
    have hsome : (q.claim request).1 ≠ none := fun hnone =>
      hkeeps hav ((claim_eq_none_iff hav).mp hnone)
    obtain ⟨pending, hpending⟩ := Option.ne_none_iff_exists'.mp hsome
    obtain ⟨-, n, r, -, -, lease, hlease, -⟩ := claim_eq_some hpending
    rw [hlease]
    rfl

theorem Step.lease_isSome {label : Option DiscordCall} (h : Where KeepsLease Step s label t)
    (hlease : s.delivery.lease.isSome = true) : t.delivery.lease.isSome = true := by
  obtain ⟨hkeeps, hstep⟩ := h
  cases label with
  | none => rwa [hstep.lease_eq]
  | some call =>
    cases hstep with
    | call _ hstarted =>
      have hforeign (reportId : ReportId) (leaseId : DiscordDeliveryLeaseId)
          (hsettles : ∀ lease, s.delivery.lease = some lease →
            (decide (reportId = lease.reportId) && decide (leaseId = lease.id)) = false) :
          ¬ s.Holds reportId leaseId := by
        rintro ⟨lease, hstored, rfl, rfl⟩
        simpa using hsettles lease hstored
      cases call with
      | claim request => exact claim_lease_isSome hlease hkeeps
      | finish request =>
        rw [exec_finish_foreign (hforeign request.reportId request.leaseId hkeeps)]
        exact hlease
      | defer request =>
        rw [exec_defer_foreign (hforeign request.reportId request.leaseId hkeeps)]
        exact hlease

/-- Finishing and deferring with the pair return false and change nothing. -/
def Refuses (q : DiscordQueue) (reportId : ReportId) (leaseId : DiscordDeliveryLeaseId) : Prop :=
  (∀ startedAt cooldownSeconds,
    q.finish ⟨startedAt, reportId, leaseId, cooldownSeconds⟩ = .ok (false, q)) ∧
  ∀ startedAt delaySeconds responseStatus failure,
    q.defer ⟨startedAt, reportId, leaseId, delaySeconds, responseStatus, failure⟩ = .ok (false, q)

theorem refuses_iff (h : ¬ q.Holds reportId leaseId) :
    q.Refuses reportId leaseId ↔ q.delivery.lease.isSome = true := by
  constructor
  · intro hrefuses
    exact (finish_eq_false_iff h).mp (hrefuses.1 0 0)
  · intro hlease
    exact ⟨fun startedAt cooldownSeconds => (finish_eq_false_iff h).mpr hlease,
      fun startedAt delaySeconds responseStatus failure => (defer_eq_false_iff h).mpr hlease⟩

/-- A caller with a pair that is not stored is told so exactly when another lease is stored, and
gets an error when none is. So it is told so in every state of a run from a claim on, if each step
leaves some lease in place. -/
theorem foreign_pair_refused_iff {q : DiscordQueue} (_ : q.IsReachable) :
    (∀ reportId leaseId, ¬ q.Holds reportId leaseId →
      (q.Refuses reportId leaseId ↔ q.delivery.lease.isSome = true)) ∧
    ∀ request pending, (q.claim request).1 = some pending →
      ∀ labels t, Run (Where KeepsLease Step) (q.claim request).2 labels t →
        ∀ reportId leaseId, ¬ t.Holds reportId leaseId → t.Refuses reportId leaseId := by
  refine ⟨fun reportId leaseId hforeign => refuses_iff hforeign, ?_⟩
  intro request pending hclaim labels t hrun reportId leaseId hforeign
  obtain ⟨-, n, r, -, -, lease, hlease, -⟩ := claim_eq_some hclaim
  have hstored : (q.claim request).2.delivery.lease.isSome = true := by
    rw [hlease]
    rfl
  have hkept : t.delivery.lease.isSome = true :=
    Run.invariant (I := fun q => q.delivery.lease.isSome = true)
      (fun _ _ _ h hstep => Step.lease_isSome hstep h) hrun hstored
  exact (refuses_iff hforeign).mpr hkept

/-! ## A report that is rejected while it is delivered -/

/-- A replica holds the lease of a report whose time runs out. -/
def expiredQueue : DiscordQueue :=
  { (announcedQueue.exec (.claim announcedClaim)) with clock := 100000000 }

theorem expiredQueue_isReachable : expiredQueue.IsReachable := by
  obtain ⟨clock, hreach⟩ := announcedQueue_isReachable
  refine ⟨clock, (hreach.run (Run.single (.call (.claim announcedClaim) ?_))).run
    (Run.single (.tick 100000000 ?_))⟩
  · decide
  · decide +kernel

theorem not_holds_expiredQueue : ¬ expiredQueue.Holds ⟨1⟩ ⟨2⟩ := by
  rintro ⟨lease, hlease, hid, -⟩
  rw [show expiredQueue.delivery.lease = some ⟨⟨1⟩, ⟨1⟩, 40000005⟩ by decide +kernel] at hlease
  cases hlease
  cases hid

/-- Another pair is refused, with the lease still stored. -/
theorem another_pair_refused :
    (expiredQueue.Refuses ⟨1⟩ ⟨2⟩ ↔ expiredQueue.delivery.lease.isSome = true) ∧
      expiredQueue.Refuses ⟨1⟩ ⟨2⟩ := by
  refine ⟨(foreign_pair_refused_iff expiredQueue_isReachable).1 ⟨1⟩ ⟨2⟩
    not_holds_expiredQueue, ?_⟩
  refine (foreign_pair_refused_iff announcedQueue_isReachable).2 announcedClaim
    ⟨⟨1⟩, ⟨1⟩, .crash, "1", "", 0, 0⟩ (by decide +kernel) [none] expiredQueue
    (Run.single ⟨trivial, .tick 100000000 ?_⟩) ⟨1⟩ ⟨2⟩ not_holds_expiredQueue
  decide +kernel

/-- The report is rejected, and the next replica finds nothing to deliver. -/
def clearedQueue : DiscordQueue :=
  (expiredQueue.review (fun r => { r with state := .rejected }) [] []).exec
    (.claim ⟨100000000, ⟨2⟩, 40, [.crash]⟩)

theorem clearedQueue_isReachable : clearedQueue.IsReachable := by
  obtain ⟨clock, hreach⟩ := expiredQueue_isReachable
  refine ⟨clock, (hreach.run (Run.single (.review (fun r => { r with state := .rejected }) [] []
    (fun _ => rfl) fun _ => rfl))).run (Run.single (.call _ ?_))⟩
  decide +kernel

/-- The replica that had the lease gets an error. -/
theorem finish_after_cleared :
    ¬ ∀ q : DiscordQueue, q.IsReachable → ∀ reportId leaseId, ¬ q.Holds reportId leaseId →
      q.Refuses reportId leaseId := by
  intro h
  have hnone : clearedQueue.delivery.lease = none := by decide +kernel
  have hforeign : ¬ clearedQueue.Holds ⟨1⟩ ⟨1⟩ := by
    rintro ⟨lease, hlease, -⟩
    rw [hnone] at hlease
    cases hlease
  have hfinish := (h clearedQueue clearedQueue_isReachable ⟨1⟩ ⟨1⟩ hforeign).1 0 0
  rw [finish_of_no_lease hnone] at hfinish
  cases hfinish

end DiscordQueue

end LadybirdReports.Admin
