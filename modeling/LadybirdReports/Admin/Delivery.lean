import LadybirdReports.Admin.Notifications
import Mathlib.Data.Prod.Lex
import Mathlib.Algebra.Order.Group.Int

/-!
# One delivery at a time

What a call does to the queue is one of three things (`CallEffect`): nothing, a claim of a
dispatcher that was free, or the settling of the stored lease by a call that was given it. A lease
is therefore there until it is settled or expires (`lease_kept`), and only settling it changes a
notification. A notification that was delivered stays so until it is gone, and does not come back,
because its report is ready (`Settled`).
-/

namespace LadybirdReports.Admin

open Rust Transition

/-- The call finishes or defers with the lease. -/
def DiscordCall.settles (lease : DeliveryLease) : DiscordCall → Bool
  | .claim _ => false
  | .finish request => request.reportId = lease.reportId && request.leaseId = lease.id
  | .defer request => request.reportId = lease.reportId && request.leaseId = lease.id

namespace DiscordQueue

variable {q s t u : DiscordQueue} {label : Option DiscordCall}

/-! ## What a call does -/

/-- Nothing but the delivery state and the notifications differs. -/
def SameElsewhere (q t : DiscordQueue) : Prop :=
  t.clock = q.clock ∧ t.reports = q.reports ∧ t.reportIds = q.reportIds

theorem SameElsewhere.refl (q : DiscordQueue) : q.SameElsewhere q := ⟨rfl, rfl, rfl⟩

/-- What a call does to the lease and the notifications. -/
inductive CallEffect (q : DiscordQueue) (c : DiscordCall) (t : DiscordQueue) : Prop
  | kept (hlease : t.delivery.lease = q.delivery.lease)
      (hnotifications : t.notifications = q.notifications)
  | claimed (havailable : q.dispatcherIsAvailable c.startedAt = true)
      (hnotifications : t.notifications = q.notifications)
  | settled (lease : DeliveryLease) (hlease : q.delivery.lease = some lease)
      (hsettles : c.settles lease = true)
      (change : DiscordReportNotification → DiscordReportNotification)
      (hnotifications : t.notifications
        = q.notifications.map fun n => if awaits lease.reportId n then change n else n)
      (hkey : ∀ n, (change n).reportId = n.reportId)

theorem claim_of_not_available {request : ClaimNotification}
    (h : q.dispatcherIsAvailable request.startedAt = false) : q.claim request = (none, q) :=
  if_pos (by rw [h]; rfl)

theorem claim_of_none {request : ClaimNotification}
    (h : q.dispatcherIsAvailable request.startedAt = true)
    (hfirst : Rows.first? (fun a b => a.1.before b.1) (q.eligible request.kinds) = none) :
    q.claim request = (none, { q with delivery := q.delivery.released }) := by
  unfold claim
  rw [if_neg (by simp [h]), hfirst]

theorem claim_of_some {request : ClaimNotification} {n : DiscordReportNotification} {r : Report}
    (h : q.dispatcherIsAvailable request.startedAt = true)
    (hfirst : Rows.first? (fun a b => a.1.before b.1) (q.eligible request.kinds) = some (n, r)) :
    q.claim request =
      (some ⟨n.reportId, request.leaseId, r.kind, r.clientVersion, r.build, r.createdAt,
          n.attemptCount⟩,
        { q with
          delivery :=
            { q.delivery with
              lease := some ⟨request.leaseId, n.reportId,
                request.startedAt + secondsInterval (asI32 request.leaseSeconds)⟩ } }) := by
  unfold claim
  rw [if_neg (by simp [h]), hfirst]

/-- A claim that returns something found the dispatcher free, and stored the lease it returns. -/
theorem claim_eq_some {request : ClaimNotification} {pending : PendingDiscordNotification}
    (h : (q.claim request).1 = some pending) :
    q.dispatcherIsAvailable request.startedAt = true ∧ ∃ n r,
      Rows.first? (fun a b => a.1.before b.1) (q.eligible request.kinds) = some (n, r) ∧
        pending.reportId = n.reportId ∧
        ∃ lease, (q.claim request).2.delivery.lease = some lease ∧ lease.id = pending.leaseId ∧
          lease.reportId = pending.reportId := by
  cases hav : q.dispatcherIsAvailable request.startedAt with
  | false =>
    rw [claim_of_not_available hav] at h
    cases h
  | true =>
    cases hfirst : Rows.first? (fun a b => a.1.before b.1) (q.eligible request.kinds) with
    | none =>
      rw [claim_of_none hav hfirst] at h
      cases h
    | some found =>
      obtain ⟨n, r⟩ := found
      rw [claim_of_some hav hfirst] at h ⊢
      cases h
      exact ⟨rfl, n, r, rfl, rfl, _, rfl, rfl, rfl⟩

theorem ownsLease_eq_ok {reportId : ReportId} {leaseId : DiscordDeliveryLeaseId}
    (h : q.ownsLease reportId leaseId = .ok true) :
    ∃ lease, q.delivery.lease = some lease ∧ lease.id = leaseId ∧ lease.reportId = reportId := by
  unfold ownsLease at h
  cases hlease : q.delivery.lease with
  | none =>
    rw [hlease] at h
    cases h
  | some lease =>
    rw [hlease, Except.ok.injEq] at h
    simp only [Bool.and_eq_true, decide_eq_true_eq] at h
    exact ⟨lease, rfl, h.1, h.2⟩

/-- A finish either leaves the queue as it was, or settles the lease. -/
theorem finish_cases {request : FinishNotification} {result : Bool} {t : DiscordQueue}
    (h : q.finish request = .ok (result, t)) :
    (result = false ∧ t = q) ∨ (result = q.notifications.any (awaits request.reportId) ∧
      CallEffect q (.finish request) t ∧ q.SameElsewhere t) := by
  obtain ⟨owns, howns, h⟩ := bind_eq_ok.mp h
  cases owns with
  | false =>
    cases h
    exact .inl ⟨rfl, rfl⟩
  | true =>
    cases h
    obtain ⟨lease, hlease, hid, hreport⟩ := ownsLease_eq_ok howns
    refine .inr ⟨rfl, .settled lease hlease ?_ (·.markDelivered request.startedAt)
      (by rw [hreport]) fun _ => rfl, rfl, rfl, rfl⟩
    simp [DiscordCall.settles, hid, hreport]

theorem defer_cases {request : DeferNotification} {result : Bool} {t : DiscordQueue}
    (h : q.defer request = .ok (result, t)) :
    t = q ∨ CallEffect q (.defer request) t ∧ q.SameElsewhere t := by
  obtain ⟨owns, howns, h⟩ := bind_eq_ok.mp h
  cases owns with
  | false =>
    cases h
    exact .inl rfl
  | true =>
    obtain ⟨lease, hlease, hid, hreport⟩ := ownsLease_eq_ok howns
    obtain ⟨-, -, h⟩ := bind_eq_ok.mp h
    cases h
    refine .inr ⟨.settled lease hlease ?_ request.markFailed (by rw [hreport]) fun _ => rfl,
      rfl, rfl, rfl⟩
    simp [DiscordCall.settles, hid, hreport]

theorem claim_effect (q : DiscordQueue) (request : ClaimNotification) :
    CallEffect q (.claim request) (q.claim request).2 ∧ q.SameElsewhere (q.claim request).2 := by
  cases hav : q.dispatcherIsAvailable request.startedAt with
  | false =>
    rw [claim_of_not_available hav]
    exact ⟨.kept rfl rfl, .refl q⟩
  | true =>
    cases hfirst : Rows.first? (fun a b => a.1.before b.1) (q.eligible request.kinds) with
    | none =>
      rw [claim_of_none hav hfirst]
      exact ⟨.claimed hav rfl, rfl, rfl, rfl⟩
    | some found =>
      rw [claim_of_some hav hfirst]
      exact ⟨.claimed hav rfl, rfl, rfl, rfl⟩

theorem exec_effect (q : DiscordQueue) (c : DiscordCall) :
    CallEffect q c (q.exec c) ∧ q.SameElsewhere (q.exec c) := by
  cases c with
  | claim request => exact claim_effect q request
  | finish request =>
    change CallEffect q _ (q.committed (q.finish request)) ∧
      q.SameElsewhere (q.committed (q.finish request))
    cases h : q.finish request with
    | error e => exact ⟨.kept rfl rfl, .refl q⟩
    | ok result =>
      rcases finish_cases h with ⟨-, ht⟩ | ⟨-, heffect⟩
      · rw [show q.committed (.ok result) = q from ht]
        exact ⟨.kept rfl rfl, .refl q⟩
      · exact heffect
  | defer request =>
    change CallEffect q _ (q.committed (q.defer request)) ∧
      q.SameElsewhere (q.committed (q.defer request))
    cases h : q.defer request with
    | error e => exact ⟨.kept rfl rfl, .refl q⟩
    | ok result =>
      rcases defer_cases h with ht | heffect
      · rw [show q.committed (.ok result) = q from ht]
        exact ⟨.kept rfl rfl, .refl q⟩
      · exact heffect

/-! ## The lease -/

/-- A call of the run settled the lease while it was stored. -/
def Released (lease : DeliveryLease) (q : DiscordQueue) (labels : List (Option DiscordCall)) :
    Prop :=
  ∃ before call after m, labels = before ++ some call :: after ∧ Run Step q before m ∧
    m.delivery.lease = some lease ∧ call.settles lease = true

theorem markStorageReady_frame (q : DiscordQueue) (reportId : ReportId) (uploadId : UploadId)
    (now : Timestamp) :
    (q.markStorageReady reportId uploadId now).clock = q.clock ∧
      (q.markStorageReady reportId uploadId now).delivery = q.delivery ∧
      (q.markStorageReady reportId uploadId now).reportIds = q.reportIds := by
  unfold markStorageReady
  by_cases h : q.reports.any (awaitsFiles reportId uploadId) = true
  · rw [if_pos h]
    exact ⟨rfl, rfl, rfl⟩
  · rw [if_neg h]
    exact ⟨rfl, rfl, rfl⟩

theorem Step.clock_le (h : Step s label t) : s.clock ≤ t.clock := by
  cases h with
  | call c => rw [(exec_effect s c).2.1]
  | tick now hnow => exact hnow
  | markStorageReady reportId uploadId now =>
    exact (markStorageReady_frame s reportId uploadId now).1.ge
  | _ => exact le_rfl

theorem Step.lease_eq (h : Step s none t) : t.delivery = s.delivery := by
  cases h with
  | markStorageReady reportId uploadId now =>
    exact (markStorageReady_frame s reportId uploadId now).2.1
  | _ => rfl

/-- A lease is stored until it has been settled or has expired. -/
theorem lease_kept {labels : List (Option DiscordCall)} {lease : DeliveryLease}
    (h : Run Step s labels t) (hlease : s.delivery.lease = some lease) :
    t.delivery.lease = some lease ∨ lease.expiresAt ≤ t.clock ∨ Released lease s labels := by
  induction h with
  | nil => exact .inl hlease
  | @snoc t u labels label run last ih =>
    rcases ih with hkept | hexpired | ⟨before, call, after, m, rfl, hrun, hm, hsettles⟩
    · cases label with
      | none => exact .inl ((congrArg DiscordDeliveryState.lease last.lease_eq).trans hkept)
      | some call =>
        cases last with
        | call _ hstarted =>
          cases (exec_effect t call).1 with
          | kept hsame => exact .inl (hsame.trans hkept)
          | claimed havailable =>
            right; left
            unfold dispatcherIsAvailable at havailable
            rw [hkept] at havailable
            simp only [Option.all_some, Bool.and_eq_true, decide_eq_true_eq] at havailable
            rw [(exec_effect t call).2.1]
            exact havailable.1.trans hstarted
          | settled lease' hlease' hsettles =>
            rw [hkept] at hlease'
            cases hlease'
            exact .inr (.inr ⟨labels, call, [], t, rfl, run, hkept, hsettles⟩)
    · exact .inr (.inl (hexpired.trans last.clock_le))
    · refine .inr (.inr ⟨before, call, after ++ [label], m, ?_, hrun, hm, hsettles⟩)
      rw [List.append_assoc, List.cons_append]

/-- Between two claims that return something, the lease of the first was settled or expired. -/
theorem claims_apart {labels : List (Option DiscordCall)} {request request' : ClaimNotification}
    {pending pending' : PendingDiscordNotification} (h : (s.claim request).1 = some pending)
    (hrun : Run Step (s.claim request).2 labels t) (h' : (t.claim request').1 = some pending')
    (hstarted : request'.startedAt ≤ t.clock) :
    ∃ lease, (s.claim request).2.delivery.lease = some lease ∧ lease.id = pending.leaseId ∧
      lease.reportId = pending.reportId ∧
      (lease.expiresAt ≤ t.clock ∨ Released lease (s.claim request).2 labels) := by
  obtain ⟨-, n, r, -, -, lease, hlease, hid, hreport⟩ := claim_eq_some h
  refine ⟨lease, hlease, hid, hreport, ?_⟩
  rcases lease_kept hrun hlease with hkept | hrest
  · obtain ⟨havailable, -⟩ := claim_eq_some h'
    unfold dispatcherIsAvailable at havailable
    rw [hkept] at havailable
    simp only [Option.all_some, Bool.and_eq_true, decide_eq_true_eq] at havailable
    exact .inl (havailable.1.trans hstarted)
  · exact hrest

/-! ## The notifications -/

/-- What holds of the queue at any time. -/
structure Wf (q : DiscordQueue) : Prop where
  notifications : (q.notifications.map (·.reportId)).Nodup
  reports : (q.reports.map (·.id)).Nodup
  accepted : ∀ r ∈ q.reports, r.id ∈ q.reportIds
  queued : ∀ n ∈ q.notifications, n.reportId ∈ q.reportIds ∧
    ∀ r ∈ q.reports, r.id = n.reportId → r.ready = true

/-- The report will not have a notification to deliver any more. -/
structure Settled (q : DiscordQueue) (reportId : ReportId) : Prop where
  known : reportId ∈ q.reportIds
  delivered : ∀ n ∈ q.notifications, n.reportId = reportId → n.delivered = true
  ready : ∀ r ∈ q.reports, r.id = reportId → r.ready = true

theorem settled_of_mem (hwf : q.Wf) {n : DiscordReportNotification} (hn : n ∈ q.notifications)
    (hdelivered : n.delivered = true) : q.Settled n.reportId where
  known := (hwf.queued n hn).1
  delivered m hm hkey := by
    rwa [Rows.eq_of_key hwf.notifications hm hn hkey]
  ready := (hwf.queued n hn).2

/-- The change that settling a lease makes. -/
theorem mem_settle {lease : DeliveryLease}
    {change : DiscordReportNotification → DiscordReportNotification}
    (hkey : ∀ n, (change n).reportId = n.reportId) {n' : DiscordReportNotification}
    {rows : List DiscordReportNotification}
    (h : n' ∈ rows.map fun n => if awaits lease.reportId n then change n else n) :
    ∃ n ∈ rows, n'.reportId = n.reportId ∧
      (n' = n ∨ (n.delivered = false ∧ n.reportId = lease.reportId)) := by
  obtain ⟨n, hn, rfl⟩ := List.mem_map.mp h
  refine ⟨n, hn, ?_⟩
  by_cases hawaits : awaits lease.reportId n = true
  · rw [if_pos hawaits]
    simp only [awaits, Bool.and_eq_true, decide_eq_true_eq, Bool.not_eq_true'] at hawaits
    exact ⟨hkey n, .inr ⟨hawaits.2, hawaits.1⟩⟩
  · rw [if_neg hawaits]
    exact ⟨rfl, .inl rfl⟩

/-- What a call makes of a notification keeps its report, and differs from it only where the call
settles the lease of that report, which it does not for one that was delivered. -/
theorem mem_exec {c : DiscordCall} {n' : DiscordReportNotification}
    (h : n' ∈ (q.exec c).notifications) :
    ∃ n ∈ q.notifications, n'.reportId = n.reportId ∧ (n' = n ∨ (n.delivered = false ∧
      ∃ lease, q.delivery.lease = some lease ∧ c.settles lease = true ∧
        lease.reportId = n.reportId)) := by
  cases (exec_effect q c).1 with
  | kept _ hnotifications => exact ⟨n', hnotifications ▸ h, rfl, .inl rfl⟩
  | claimed _ hnotifications => exact ⟨n', hnotifications ▸ h, rfl, .inl rfl⟩
  | settled lease hlease hsettles change hnotifications hkey =>
    rw [hnotifications] at h
    obtain ⟨n, hn, hsame, hcases⟩ := mem_settle hkey h
    refine ⟨n, hn, hsame, hcases.imp id ?_⟩
    rintro ⟨hpending, hreport⟩
    exact ⟨hpending, lease, hlease, hsettles, hreport.symm⟩

/-- A call leaves every notification in its place. -/
theorem map_reportId_exec (q : DiscordQueue) (c : DiscordCall) :
    (q.exec c).notifications.map (·.reportId) = q.notifications.map (·.reportId) := by
  cases (exec_effect q c).1 with
  | kept _ hnotifications => rw [hnotifications]
  | claimed _ hnotifications => rw [hnotifications]
  | settled lease hlease hsettles change hnotifications hkey =>
    rw [hnotifications]
    refine Rows.map_key fun n _ => ?_
    split
    · exact hkey n
    · rfl

/-! ## What happens between the calls -/

/-- The report once its files are stored. -/
def filesStored (reportId : ReportId) (uploadId : UploadId) (r : Report) : Report :=
  if awaitsFiles reportId uploadId r then { r with storageState := .ready } else r

theorem filesStored_id (reportId : ReportId) (uploadId : UploadId) (r : Report) :
    (filesStored reportId uploadId r).id = r.id := by
  unfold filesStored
  split <;> rfl

theorem ready_filesStored {reportId : ReportId} {uploadId : UploadId} {r : Report}
    (h : r.ready = true ∨ awaitsFiles reportId uploadId r = true) :
    (filesStored reportId uploadId r).ready = true := by
  unfold filesStored
  split
  · rfl
  · exact h.resolve_right ‹_›

/-- Storing the files of a report changes something only for a report that waits for it, and queues
a notification only where there is none. -/
theorem markStorageReady_cases (q : DiscordQueue) (reportId : ReportId) (uploadId : UploadId)
    (now : Timestamp) :
    q.markStorageReady reportId uploadId now = q ∨
      ((∃ r ∈ q.reports, awaitsFiles reportId uploadId r = true) ∧
        (q.markStorageReady reportId uploadId now).reports
          = q.reports.map (filesStored reportId uploadId) ∧
        ((q.markStorageReady reportId uploadId now).notifications = q.notifications ∨
          (∀ n ∈ q.notifications, n.reportId ≠ reportId) ∧
          (q.markStorageReady reportId uploadId now).notifications
            = q.notifications ++ [⟨reportId, 0, none, none, now, none⟩])) := by
  unfold markStorageReady
  by_cases h : q.reports.any (awaitsFiles reportId uploadId) = true
  · rw [if_pos h]
    refine .inr ⟨List.any_eq_true.mp h, rfl, ?_⟩
    by_cases hqueued : q.notifications.any (·.reportId = reportId) = true
    · exact .inl (if_pos hqueued)
    · refine .inr ⟨fun n hn hkey => hqueued ?_, if_neg hqueued⟩
      exact List.any_eq_true.mpr ⟨n, hn, decide_eq_true hkey⟩
  · rw [if_neg h]
    exact .inl rfl

theorem Wf.exec (h : q.Wf) (c : DiscordCall) : (q.exec c).Wf := by
  obtain ⟨-, hreports, hids⟩ := (exec_effect q c).2
  refine ⟨?_, hreports ▸ h.reports, ?_, fun n' hn' => ?_⟩
  · rw [map_reportId_exec]
    exact h.notifications
  · rw [hreports, hids]
    exact h.accepted
  · obtain ⟨n, hn, hkey, -⟩ := mem_exec hn'
    rw [hkey, hreports, hids]
    exact h.queued n hn

theorem Wf.accept (h : q.Wf) {report : Report} (hnew : report.id ∉ q.reportIds) :
    (q.accept report).Wf where
  notifications := h.notifications
  reports := by
    change ((q.reports ++ [report]).map (·.id)).Nodup
    rw [List.map_append, List.nodup_append]
    refine ⟨h.reports, List.nodup_singleton _, fun a ha b hb => ?_⟩
    obtain ⟨r, hr, rfl⟩ := List.mem_map.mp ha
    rw [List.map_singleton, List.mem_singleton] at hb
    rintro rfl
    exact hnew (hb ▸ h.accepted r hr)
  accepted r hr := by
    change r.id ∈ q.reportIds ++ [report.id]
    rcases List.mem_append.mp hr with hr | hr
    · exact List.mem_append_left _ (h.accepted r hr)
    · rw [List.mem_singleton.mp hr]
      exact List.mem_append_right _ List.mem_cons_self
  queued n hn := by
    obtain ⟨hknown, hready⟩ := h.queued n hn
    refine ⟨List.mem_append_left _ hknown, fun r hr hkey => ?_⟩
    rcases List.mem_append.mp hr with hr | hr
    · exact hready r hr hkey
    · rw [List.mem_singleton.mp hr] at hkey
      exact absurd (hkey ▸ hknown) hnew

theorem Wf.markStorageReady (h : q.Wf) (reportId : ReportId) (uploadId : UploadId)
    (now : Timestamp) : (q.markStorageReady reportId uploadId now).Wf := by
  obtain ⟨-, -, hids⟩ := markStorageReady_frame q reportId uploadId now
  rcases markStorageReady_cases q reportId uploadId now with hsame |
    ⟨⟨r, hr, hawaits⟩, hreports, hnotifications⟩
  · rw [hsame]
    exact h
  have hid : r.id = reportId := by
    simp only [awaitsFiles, Bool.and_eq_true, decide_eq_true_eq] at hawaits
    exact hawaits.1.1
  have hready : ∀ r' ∈ q.reports, (r'.ready = true ∨ r'.id = reportId) →
      (filesStored reportId uploadId r').ready = true := by
    rintro r' hr' (hready | hkey)
    · exact ready_filesStored (.inl hready)
    · rw [Rows.eq_of_key h.reports hr' hr (hkey.trans hid.symm)]
      exact ready_filesStored (.inr hawaits)
  have hold : ∀ n ∈ q.notifications, n.reportId ∈ q.reportIds ∧
      ∀ r' ∈ q.reports.map (filesStored reportId uploadId), r'.id = n.reportId →
        r'.ready = true := by
    refine fun n hn => ⟨(h.queued n hn).1, fun r' hr' hkey => ?_⟩
    obtain ⟨r₀, hr₀, rfl⟩ := List.mem_map.mp hr'
    rw [filesStored_id] at hkey
    exact hready r₀ hr₀ (.inl ((h.queued n hn).2 r₀ hr₀ hkey))
  refine ⟨?_, ?_, fun r' hr' => ?_, fun n hn => ?_⟩
  · rcases hnotifications with hsame | ⟨hnone, hqueued⟩
    · rw [hsame]
      exact h.notifications
    · rw [hqueued, List.map_append, List.nodup_append]
      refine ⟨h.notifications, List.nodup_singleton _, fun a ha b hb => ?_⟩
      obtain ⟨n, hn, rfl⟩ := List.mem_map.mp ha
      rw [List.mem_singleton.mp hb]
      exact hnone n hn
  · rw [hreports, Rows.map_key fun r _ => filesStored_id reportId uploadId r]
    exact h.reports
  · rw [hreports] at hr'
    obtain ⟨r₀, hr₀, rfl⟩ := List.mem_map.mp hr'
    rw [hids, filesStored_id]
    exact h.accepted r₀ hr₀
  · rw [hids, hreports]
    rcases hnotifications with hsame | ⟨-, hqueued⟩
    · exact hold n (hsame ▸ hn)
    · rw [hqueued] at hn
      rcases List.mem_append.mp hn with hn | hn
      · exact hold n hn
      · rw [List.mem_singleton.mp hn]
        refine ⟨hid ▸ h.accepted r hr, fun r' hr' hkey => ?_⟩
        obtain ⟨r₀, hr₀, rfl⟩ := List.mem_map.mp hr'
        rw [filesStored_id] at hkey
        exact hready r₀ hr₀ (.inr hkey)

theorem Wf.deleteNotification (h : q.Wf) (reportId : ReportId) :
    (q.deleteNotification reportId).Wf where
  notifications := h.notifications.sublist (List.filter_sublist.map _)
  reports := h.reports
  accepted := h.accepted
  queued n hn := h.queued n (List.mem_of_mem_filter hn)

theorem Wf.deleteReport (h : q.Wf) (reportId : ReportId) : (q.deleteReport reportId).Wf where
  notifications := h.notifications.sublist (List.filter_sublist.map _)
  reports := h.reports.sublist (List.filter_sublist.map _)
  accepted r hr := h.accepted r (List.mem_of_mem_filter hr)
  queued n hn := by
    obtain ⟨hknown, hready⟩ := h.queued n (List.mem_of_mem_filter hn)
    exact ⟨hknown, fun r hr => hready r (List.mem_of_mem_filter hr)⟩

theorem Wf.review (h : q.Wf) {change : Report → Report} (hid : ∀ r, (change r).id = r.id)
    (hready : ∀ r, (change r).ready = r.ready) (stackTraces : List ReportId)
    (signatures : List StackSignature) : (q.review change stackTraces signatures).Wf where
  notifications := h.notifications
  reports := by
    change ((q.reports.map change).map (·.id)).Nodup
    rw [Rows.map_key fun r _ => hid r]
    exact h.reports
  accepted r hr := by
    obtain ⟨r₀, hr₀, rfl⟩ := List.mem_map.mp hr
    rw [hid]
    exact h.accepted r₀ hr₀
  queued n hn := by
    obtain ⟨hknown, hall⟩ := h.queued n hn
    refine ⟨hknown, fun r hr hkey => ?_⟩
    obtain ⟨r₀, hr₀, rfl⟩ := List.mem_map.mp hr
    rw [hid] at hkey
    rw [hready]
    exact hall r₀ hr₀ hkey

theorem Wf.step (s : DiscordQueue) (label : Option DiscordCall) (t : DiscordQueue) (hwf : s.Wf)
    (h : Step s label t) : t.Wf := by
  cases h with
  | call c => exact hwf.exec c
  | tick now => exact ⟨hwf.notifications, hwf.reports, hwf.accepted, hwf.queued⟩
  | accept report hnew => exact hwf.accept hnew
  | markStorageReady reportId uploadId now => exact hwf.markStorageReady reportId uploadId now
  | deleteReport reportId => exact hwf.deleteReport reportId
  | deleteNotification reportId => exact hwf.deleteNotification reportId
  | review change stackTraces signatures hid hready =>
    exact hwf.review hid hready stackTraces signatures

theorem IsReachable.wf (h : q.IsReachable) : q.Wf := by
  obtain ⟨clock, h⟩ := h
  refine h.invariant Wf.step ⟨List.nodup_nil, List.nodup_nil, ?_, ?_⟩
  · exact fun _ hr => (by cases hr)
  · exact fun _ hn => (by cases hn)

/-! ## Notifications that were delivered -/

theorem Settled.step {reportId : ReportId} (s : DiscordQueue) (label : Option DiscordCall)
    (t : DiscordQueue) (hs : s.Settled reportId) (h : Step s label t) : t.Settled reportId := by
  cases h with
  | call c =>
    obtain ⟨-, hreports, hids⟩ := (exec_effect s c).2
    refine ⟨hids ▸ hs.known, fun n' hn' hkey => ?_, hreports ▸ hs.ready⟩
    obtain ⟨n, hn, hsame, rfl | ⟨hpending, -⟩⟩ := mem_exec hn'
    · exact hs.delivered _ hn hkey
    · rw [hs.delivered n hn (hsame.symm.trans hkey)] at hpending
      cases hpending
  | tick now => exact ⟨hs.known, hs.delivered, hs.ready⟩
  | accept report hnew =>
    refine ⟨List.mem_append_left _ hs.known, hs.delivered, fun r hr hkey => ?_⟩
    rcases List.mem_append.mp hr with hr | hr
    · exact hs.ready r hr hkey
    · rw [List.mem_singleton.mp hr] at hkey
      exact absurd (hkey ▸ hs.known) hnew
  | markStorageReady reportId' uploadId now =>
    obtain ⟨-, -, hids⟩ := markStorageReady_frame s reportId' uploadId now
    rcases markStorageReady_cases s reportId' uploadId now with hsame |
      ⟨⟨r, hr, hawaits⟩, hreports, hnotifications⟩
    · rw [hsame]
      exact hs
    simp only [awaitsFiles, Bool.and_eq_true, decide_eq_true_eq, Bool.not_eq_true'] at hawaits
    refine ⟨hids ▸ hs.known, fun n hn hkey => ?_, fun r' hr' hkey => ?_⟩
    · rcases hnotifications with hsame | ⟨-, hqueued⟩
      · exact hs.delivered n (hsame ▸ hn) hkey
      · rw [hqueued] at hn
        rcases List.mem_append.mp hn with hn | hn
        · exact hs.delivered n hn hkey
        -- A report whose files are stored now has not been settled before.
        · rw [List.mem_singleton.mp hn] at hkey
          have hready := hs.ready r hr (hawaits.1.1.trans hkey)
          rw [hawaits.2] at hready
          cases hready
    · rw [hreports] at hr'
      obtain ⟨r₀, hr₀, rfl⟩ := List.mem_map.mp hr'
      rw [filesStored_id] at hkey
      exact ready_filesStored (.inl (hs.ready r₀ hr₀ hkey))
  | deleteReport =>
    exact ⟨hs.known, fun n hn => hs.delivered n (List.mem_of_mem_filter hn),
      fun r hr => hs.ready r (List.mem_of_mem_filter hr)⟩
  | deleteNotification =>
    exact ⟨hs.known, fun n hn => hs.delivered n (List.mem_of_mem_filter hn), hs.ready⟩
  | review change stackTraces signatures hid hready =>
    refine ⟨hs.known, hs.delivered, fun r hr hkey => ?_⟩
    obtain ⟨r₀, hr₀, rfl⟩ := List.mem_map.mp hr
    rw [hid] at hkey
    rw [hready]
    exact hs.ready r₀ hr₀ hkey

/-! ## The order of the queue -/

theorem before_iff (n m : DiscordReportNotification) :
    n.before m = true ↔
      toLex (n.createdAt, n.reportId.value) ≤ toLex (m.createdAt, m.reportId.value) := by
  simp only [DiscordReportNotification.before, Bool.or_eq_true, Bool.and_eq_true,
    decide_eq_true_eq, Prod.Lex.toLex_le_toLex]

theorem before_total (n m : DiscordReportNotification) : n.before m = true ∨ m.before n = true := by
  rw [before_iff, before_iff]
  exact le_total _ _

theorem before_trans (n m k : DiscordReportNotification) (h : n.before m = true)
    (h' : m.before k = true) : n.before k = true := by
  rw [before_iff] at h h' ⊢
  exact h.trans h'

theorem not_delivered_of_eligible {kinds : List ReportKind} {n : DiscordReportNotification}
    {r : Report} (h : (n, r) ∈ q.eligible kinds) : n ∈ q.notifications ∧ n.delivered = false := by
  obtain ⟨m, hm, hpair⟩ := List.mem_flatMap.mp h
  obtain ⟨_, -, hpair⟩ := List.mem_map.mp hpair
  cases hpair
  obtain ⟨hm, hpending⟩ := List.mem_filter.mp hm
  exact ⟨hm, by simpa using hpending⟩

/-- A claim returns the oldest notification that may be delivered. -/
theorem claim_oldest {request : ClaimNotification} {pending : PendingDiscordNotification}
    (h : (q.claim request).1 = some pending) :
    ∃ n r, (n, r) ∈ q.eligible request.kinds ∧ pending.reportId = n.reportId ∧
      ∀ other ∈ q.eligible request.kinds, n.before other.1 = true := by
  obtain ⟨-, n, r, hfirst, hreport, -⟩ := claim_eq_some h
  obtain ⟨hmem, hbefore⟩ := Rows.first?_eq_some hfirst
  exact ⟨n, r, hmem, hreport, hbefore⟩

/-- A claim that finds the dispatcher free returns something unless there is nothing. -/
theorem claim_eq_none_iff {request : ClaimNotification}
    (h : q.dispatcherIsAvailable request.startedAt = true) :
    (q.claim request).1 = none ↔ q.eligible request.kinds = [] := by
  rw [← Rows.first?_eq_none_iff (fun a b => before_total a.1 b.1)
    fun a b c => before_trans a.1 b.1 c.1]
  cases hfirst : Rows.first? (fun a b => a.1.before b.1) (q.eligible request.kinds) with
  | none =>
    rw [claim_of_none h hfirst]
    exact ⟨fun _ => rfl, fun _ => rfl⟩
  | some found =>
    rw [claim_of_some h hfirst]
    exact ⟨fun hnone => (by cases hnone), fun hnone => (by cases hnone)⟩

/-- Nothing is claimed while delivery is paused. -/
theorem claim_not_paused {request : ClaimNotification} (h : (q.claim request).1 ≠ none)
    {pausedUntil : Timestamp} (hpaused : q.delivery.pausedUntil = some pausedUntil) :
    pausedUntil ≤ request.startedAt := by
  obtain ⟨pending, hpending⟩ := Option.ne_none_iff_exists'.mp h
  obtain ⟨havailable, -⟩ := claim_eq_some hpending
  unfold dispatcherIsAvailable at havailable
  rw [hpaused, Bool.and_eq_true] at havailable
  exact of_decide_eq_true havailable.2

/-- Only settling the lease of a report changes its notification. -/
theorem mem_step (hwf : s.Wf) (h : Step s label t) {n n' : DiscordReportNotification}
    (hn : n ∈ s.notifications) (hn' : n' ∈ t.notifications) (hkey : n'.reportId = n.reportId) :
    n' = n ∨ ∃ call lease, label = some call ∧ s.delivery.lease = some lease ∧
      lease.reportId = n.reportId ∧ call.settles lease = true := by
  have hkept (hmem : n' ∈ s.notifications) : n' = n :=
    Rows.eq_of_key hwf.notifications hmem hn hkey
  cases h with
  | call c =>
    obtain ⟨m, hm, hsame, hcases⟩ := mem_exec hn'
    have hmn := Rows.eq_of_key hwf.notifications hm hn (hsame.symm.trans hkey)
    rw [hmn] at hcases
    rcases hcases with rfl | ⟨-, lease, hlease, hsettles, hreport⟩
    · exact .inl rfl
    · exact .inr ⟨c, lease, rfl, hlease, hreport, hsettles⟩
  | tick => exact .inl (hkept hn')
  | accept => exact .inl (hkept hn')
  | markStorageReady reportId uploadId now =>
    rcases markStorageReady_cases s reportId uploadId now with hsame | ⟨-, -, hsame | ⟨hnone, hnew⟩⟩
    · rw [hsame] at hn'
      exact .inl (hkept hn')
    · exact .inl (hkept (hsame ▸ hn'))
    · rw [hnew] at hn'
      rcases List.mem_append.mp hn' with hn' | hn'
      · exact .inl (hkept hn')
      · rw [List.mem_singleton.mp hn'] at hkey
        exact absurd hkey.symm (hnone n hn)
  | deleteReport => exact .inl (hkept (List.mem_of_mem_filter hn'))
  | deleteNotification => exact .inl (hkept (List.mem_of_mem_filter hn'))
  | review => exact .inl (hkept hn')

theorem Settled.claim {reportId : ReportId} (h : q.Settled reportId) {request : ClaimNotification}
    {pending : PendingDiscordNotification} (hclaim : (q.claim request).1 = some pending) :
    pending.reportId ≠ reportId := by
  obtain ⟨n, r, hmem, hreport, -⟩ := claim_oldest hclaim
  obtain ⟨hn, hpending⟩ := not_delivered_of_eligible hmem
  intro hkey
  rw [h.delivered n hn (hreport.symm.trans hkey)] at hpending
  cases hpending

theorem Settled.finish {reportId : ReportId} (h : q.Settled reportId) {request : FinishNotification}
    (hkey : request.reportId = reportId) (t : DiscordQueue) :
    q.finish request ≠ .ok (true, t) := by
  intro hfinish
  rcases finish_cases hfinish with ⟨hfalse, -⟩ | ⟨hany, -⟩
  · cases hfalse
  · obtain ⟨n, hn, hawaits⟩ := List.any_eq_true.mp hany.symm
    simp only [awaits, Bool.and_eq_true, decide_eq_true_eq, Bool.not_eq_true'] at hawaits
    rw [h.delivered n hn (hawaits.1.trans hkey)] at hawaits
    cases hawaits.2

/-- In every state of the queue: two claims return something only if the lease of the first was
settled or expired in between, nothing is claimed while delivery is paused, a notification changes
only with the stored lease of its report, one that was delivered is neither claimed nor delivered
again, a claim returns the oldest that may be delivered, and no call removes one. -/
theorem queue_delivers_in_turn (h : s.IsReachable) :
    (∀ request pending labels t request' pending', (s.claim request).1 = some pending →
      Run Step (s.claim request).2 labels t → (t.claim request').1 = some pending' →
      request'.startedAt ≤ t.clock →
      ∃ lease, (s.claim request).2.delivery.lease = some lease ∧ lease.id = pending.leaseId ∧
        lease.reportId = pending.reportId ∧
        (lease.expiresAt ≤ t.clock ∨ Released lease (s.claim request).2 labels)) ∧
    (∀ request, (s.claim request).1 ≠ none →
      ∀ pausedUntil, s.delivery.pausedUntil = some pausedUntil → pausedUntil ≤ request.startedAt) ∧
    (∀ label t, Step s label t → ∀ n ∈ s.notifications, ∀ n' ∈ t.notifications,
      n'.reportId = n.reportId → n' = n ∨ ∃ call lease, label = some call ∧
        s.delivery.lease = some lease ∧ lease.reportId = n.reportId ∧
        call.settles lease = true) ∧
    (∀ n ∈ s.notifications, n.delivered = true → ∀ labels t, Run Step s labels t →
      (∀ request pending, (t.claim request).1 = some pending → pending.reportId ≠ n.reportId) ∧
      ∀ request u, request.reportId = n.reportId → t.finish request ≠ .ok (true, u)) ∧
    (∀ request, (∀ pending, (s.claim request).1 = some pending →
        ∃ n r, (n, r) ∈ s.eligible request.kinds ∧ pending.reportId = n.reportId ∧
          ∀ other ∈ s.eligible request.kinds, n.before other.1 = true) ∧
      (s.dispatcherIsAvailable request.startedAt = true →
        ((s.claim request).1 = none ↔ s.eligible request.kinds = []))) ∧
    ∀ call, (s.exec call).notifications.map (·.reportId) = s.notifications.map (·.reportId) := by
  have hwf := h.wf
  refine ⟨?_, ?_, ?_, ?_, ?_, map_reportId_exec s⟩
  · intro request pending labels t request' pending' hclaim hrun hclaim' hstarted
    exact claims_apart hclaim hrun hclaim' hstarted
  · intro request hclaim pausedUntil hpaused
    exact claim_not_paused hclaim hpaused
  · intro label t hstep n hn n' hn' hkey
    exact mem_step hwf hstep hn hn' hkey
  · intro n hn hdelivered labels t hrun
    have hsettled := hrun.invariant Settled.step (settled_of_mem hwf hn hdelivered)
    exact ⟨fun request pending hclaim => hsettled.claim hclaim,
      fun request u hkey => hsettled.finish hkey u⟩
  · intro request
    exact ⟨fun pending hclaim => claim_oldest hclaim, claim_eq_none_iff⟩

/-! ## Reports that are announced -/

/-- A report whose files are to be stored. -/
def announcedReport (n : ℕ) : Report where
  id := ⟨n⟩
  submissionId := ⟨n⟩
  manifestDigest := ""
  kind := .crash
  clientVersion := "1"
  build := ""
  storageState := .pendingFiles
  stagingId := ⟨n⟩
  sourceClientKey := none
  issueId := none
  createdAt := 0
  expiresAt := some (days 30)
  autoMatchEligible := true
  state := .triage
  fix := .null

/-- Three reports are accepted. The files of the second and the first are stored in one moment, and
those of the third after that. -/
def announcedQueue : DiscordQueue :=
  (((((empty 5).accept (announcedReport 1)).accept (announcedReport 2)).accept
    (announcedReport 3)).markStorageReady ⟨2⟩ ⟨2⟩ 3).markStorageReady ⟨1⟩ ⟨1⟩ 3
    |>.markStorageReady ⟨3⟩ ⟨3⟩ 4

theorem announcedQueue_isReachable : announcedQueue.IsReachable :=
  ⟨5, _, (((((((Run.nil _).snoc (.accept (announcedReport 1) (by decide))).snoc
    (.accept (announcedReport 2) (by decide))).snoc (.accept (announcedReport 3) (by decide))).snoc
    (.markStorageReady ⟨2⟩ ⟨2⟩ 3)).snoc (.markStorageReady ⟨1⟩ ⟨1⟩ 3)).snoc
    (.markStorageReady ⟨3⟩ ⟨3⟩ 4))⟩

/-- A replica claims a notification for forty seconds. -/
def announcedClaim : ClaimNotification := ⟨5, ⟨1⟩, 40, [.crash]⟩

/-- It does not come back, and another takes over. -/
def abandonedQueue : DiscordQueue :=
  { (announcedQueue.claim announcedClaim).2 with clock := 41000005 }

def secondClaim : ClaimNotification := ⟨41000005, ⟨2⟩, 40, [.crash]⟩

/-- Both claim the first report, which comes before the second of the same moment, the other one
once the lease of the first has expired. -/
theorem claim_taken_over :
    (∃ n r, (n, r) ∈ announcedQueue.eligible [.crash] ∧ (⟨1⟩ : ReportId) = n.reportId ∧
      ∀ other ∈ announcedQueue.eligible [.crash], n.before other.1 = true) ∧
    (abandonedQueue.claim secondClaim).1 = some ⟨⟨1⟩, ⟨2⟩, .crash, "1", "", 0, 0⟩ ∧
    ∃ lease, (announcedQueue.claim announcedClaim).2.delivery.lease = some lease ∧ lease.id = ⟨1⟩ ∧
      lease.reportId = ⟨1⟩ ∧ (lease.expiresAt ≤ 41000005 ∨
        Released lease (announcedQueue.claim announcedClaim).2 [none]) := by
  have hturn := queue_delivers_in_turn announcedQueue_isReachable
  have hclaim : (announcedQueue.claim announcedClaim).1 =
      some ⟨⟨1⟩, ⟨1⟩, .crash, "1", "", 0, 0⟩ := by decide +kernel
  have hsecond : (abandonedQueue.claim secondClaim).1 =
      some ⟨⟨1⟩, ⟨2⟩, .crash, "1", "", 0, 0⟩ := by decide +kernel
  have hrun : Run Step (announcedQueue.claim announcedClaim).2 [none] abandonedQueue :=
    .single (.tick 41000005 (by decide +kernel))
  exact ⟨(hturn.2.2.2.2.1 announcedClaim).1 _ hclaim, hsecond,
    hturn.1 announcedClaim _ [none] abandonedQueue secondClaim _ hclaim hrun hsecond (le_refl _)⟩

end DiscordQueue

end LadybirdReports.Admin
