import LadybirdReports.Admin.Notifications
import LadybirdReports.Ingestion.ManifestRows
import LadybirdReports.Lib.Run

/-!
# Upload leases

An upload runs under a lease of `upload_leases`, which is asked for with half a minute more than the
upload may take, and is deleted when the upload has ended or when it has expired. A process that
stops leaves its leases behind.

1. An acquisition counts the leases that have not expired under an advisory lock, so that it is one
   step (`acquireUploadLease`).
2. An upload starts when the answer to its acquisition is there, and is given up after its timeout.
   If the answer takes less than the half minute, the upload has ended before its lease expires,
   so that the lease of every upload that runs is in the table (`World.Inv.held`), whatever is
   released, swept or left behind in between.

So no more uploads run than the limits allow, altogether and for a client
(`uploads_within_limits`), and what is left behind keeps nobody out for longer than the longest
lease lasts (`lapsed_leases_free`).
-/

namespace LadybirdReports.Ingestion.UploadLeases

open Admin (Timestamp asI32 secondsInterval)
open Rust Transition

/-! ## The table -/

structure UploadLease where
  id : UploadId
  ipKey : Str
  expiresAt : Timestamp
  deriving DecidableEq

section

variable (leases : List UploadLease) (now : Timestamp)

/-- `acquire_upload_lease`: whether there was room, and the rows. -/
def acquireUploadLease (leaseId : UploadId) (clientKey : Str)
    (perClientLimit globalLimit lifetimeSeconds : ℤ) : Bool × List UploadLease :=
  let leases := leases.filter fun lease => !(lease.expiresAt < now)
  if globalLimit ≤ leases.length then
    (false, leases)
  else if perClientLimit ≤ (leases.filter (·.ipKey = clientKey)).length then
    (false, leases)
  else
    (true, leases ++ [⟨leaseId, clientKey, now + secondsInterval lifetimeSeconds⟩])

/-- `release_upload_lease`. -/
def releaseUploadLease (leaseId : UploadId) : List UploadLease :=
  leases.filter (·.id ≠ leaseId)

/-- `sweep_expired_ingestion_state`, of the leases. -/
def sweepUploadLeases : List UploadLease :=
  leases.filter fun lease => !(lease.expiresAt ≤ now)

end

/-- `ReportIngestionService::acquire_upload_lease`, which asks with the limits of its process. -/
def requestUploadLease (leases : List UploadLease) (now : Timestamp) (limits : IngestionLimits)
    (uploadId : UploadId) (clientKey : Str) : Bool × List UploadLease :=
  acquireUploadLease leases now uploadId clientKey (asI32 limits.concurrentUploadsPerIp)
    (asI32 limits.concurrentUploadsGlobal) (asI32 ((limits.uploadTimeoutSeconds + 30 : ℕ)))

/-! ## Uploads -/

/-- An upload that runs, and when `tokio::time::timeout` gives it up. -/
structure Upload where
  id : UploadId
  client : Str
  deadline : Timestamp
  deriving DecidableEq

structure World where
  now : Timestamp
  leases : List UploadLease
  running : List Upload
  deriving DecidableEq

inductive Label
  /-- Time passes. No upload runs on after its deadline. -/
  | wait (next : Timestamp)
  /-- A submission asks for a lease, and its upload starts after `delay` if it gets one. -/
  | acquire (configuration : RuntimeConfiguration) (upload : UploadId) (client : Str)
      (delay : Timestamp)
  /-- An upload ends, whether it was accepted, was refused or took too long. -/
  | finish (upload : UploadId)
  /-- The lease of an upload that has ended is released, at once or when its guard is dropped. -/
  | release (upload : UploadId)
  /-- A process stops, and some uploads with it. -/
  | stop (uploads : List UploadId)
  | sweep

/-- The upload that an acquisition starts. -/
def started (now : Timestamp) (limits : IngestionLimits) (upload : UploadId) (client : Str)
    (delay : Timestamp) : Upload :=
  ⟨upload, client, now + delay + secondsInterval limits.uploadTimeoutSeconds⟩

/-- The submission has the answer to its acquisition, and its upload starts if there was room. -/
def World.answered (w : World) (answer : Bool × List UploadLease) (upload : Upload) : World :=
  { w with
    leases := answer.2
    running := if answer.1 then w.running ++ [upload] else w.running }

/-- The IDs of uploads are drawn at random and taken to be new. -/
def step (w : World) : Label → Option World
  | .wait next =>
    if w.now ≤ next ∧ ∀ upload ∈ w.running, next ≤ upload.deadline then
      some { w with now := next }
    else none
  | .acquire configuration upload client delay =>
    if upload ∈ w.leases.map (·.id) then none
    else some (w.answered (requestUploadLease w.leases w.now configuration.limits upload client)
      (started w.now configuration.limits upload client delay))
  | .finish upload => some { w with running := w.running.filter (·.id ≠ upload) }
  | .release upload =>
    if upload ∈ w.running.map (·.id) then none
    else some { w with leases := releaseUploadLease w.leases upload }
  | .stop uploads => some { w with running := w.running.filter fun upload => upload.id ∉ uploads }
  | .sweep => some { w with leases := sweepUploadLeases w.leases w.now }

/-- What `validate` says of the limits that a lease is asked for with. -/
structure Sound (limits : IngestionLimits) : Prop where
  perIp : 1 ≤ limits.concurrentUploadsPerIp
  global : limits.concurrentUploadsPerIp ≤ limits.concurrentUploadsGlobal
  hard : limits.concurrentUploadsGlobal ≤ 128
  timeout : 5 ≤ limits.uploadTimeoutSeconds ∧ limits.uploadTimeoutSeconds ≤ 300

/-- The bounds that the configurations of a run keep to. -/
structure Bounds where
  perIp : ℕ
  global : ℕ
  timeoutSeconds : ℕ

structure Bounds.Allow (bounds : Bounds) (limits : IngestionLimits) : Prop where
  perIp : limits.concurrentUploadsPerIp ≤ bounds.perIp
  global : limits.concurrentUploadsGlobal ≤ bounds.global
  timeout : limits.uploadTimeoutSeconds ≤ bounds.timeoutSeconds

/-- A process uses a configuration that it found valid, and the answer to an acquisition takes less
than half a minute. -/
def Label.Within (parseUrl : Str → Option UrlParts) (bounds : Bounds) : Label → Prop
  | .acquire configuration _ _ delay => configuration.validate parseUrl = .ok () ∧
      bounds.Allow configuration.limits ∧ 0 ≤ delay ∧ delay < secondsInterval 30
  | _ => True

/-! ## The leases of running uploads -/

/-- The lease under which an upload runs, which expires only after it was given up. -/
structure UploadLease.Covers (lease : UploadLease) (upload : Upload) : Prop where
  id : lease.id = upload.id
  client : lease.ipKey = upload.client
  later : upload.deadline < lease.expiresAt

/-- How long a lease lasts at most. -/
def Bounds.longest (bounds : Bounds) : Timestamp := secondsInterval (bounds.timeoutSeconds + 30)

/-- The table keeps to the limits and has the leases of all uploads that run, and no lease lasts
longer than the longest upload and half a minute. -/
structure World.Inv (bounds : Bounds) (w : World) : Prop where
  ids : (w.leases.map (·.id)).Nodup
  runs : (w.running.map (·.id)).Nodup
  inTime : ∀ upload ∈ w.running, w.now ≤ upload.deadline
  held : ∀ upload ∈ w.running, ∃ lease ∈ w.leases, lease.Covers upload
  total : w.leases.length ≤ bounds.global
  perClient : ∀ client, (w.leases.filter (·.ipKey = client)).length ≤ bounds.perIp
  lapses : ∀ lease ∈ w.leases, lease.expiresAt ≤ w.now + bounds.longest

section

variable {parseUrl : Str → Option UrlParts} {w w' : World} {bounds : Bounds}
  {configuration : RuntimeConfiguration} {limits : IngestionLimits} {labels : List Label}
  {label : Label} {leases : List UploadLease} {upload : UploadId} {client : Str}
  {delay now : Timestamp}

theorem asI32_of_lt {n : ℕ} (h : n < 2 ^ 31) : asI32 n = n := by
  unfold asI32
  rw [Int.bmod_eq_of_le] <;> omega

theorem Sound.perIp_eq (h : Sound limits) :
    asI32 limits.concurrentUploadsPerIp = limits.concurrentUploadsPerIp := by
  have hglobal := h.global
  have hhard := h.hard
  exact asI32_of_lt (by omega)

theorem Sound.global_eq (h : Sound limits) :
    asI32 limits.concurrentUploadsGlobal = limits.concurrentUploadsGlobal := by
  have hhard := h.hard
  exact asI32_of_lt (by omega)

theorem Sound.lifetime_eq (h : Sound limits) :
    asI32 (limits.uploadTimeoutSeconds + 30 : ℕ) = limits.uploadTimeoutSeconds + 30 := by
  obtain ⟨-, hmost⟩ := h.timeout
  rw [asI32_of_lt (by omega), Nat.cast_add]
  rfl

theorem secondsInterval_add (m n : ℤ) :
    secondsInterval (m + n) = secondsInterval m + secondsInterval n := Int.add_mul m n _

theorem secondsInterval_mono {m n : ℤ} (h : m ≤ n) : secondsInterval m ≤ secondsInterval n :=
  Int.mul_le_mul_of_nonneg_right h (by decide)

theorem secondsInterval_nonneg (n : ℕ) : 0 ≤ secondsInterval n :=
  Int.mul_nonneg (Int.natCast_nonneg n) (by decide)

theorem sound_of_validate (h : configuration.validate parseUrl = .ok ()) :
    Sound configuration.limits := by
  unfold RuntimeConfiguration.validate at h
  iterate 8 obtain ⟨_, -, h⟩ := bind_eq_ok.mp h
  obtain ⟨_, hoperational, -⟩ := bind_eq_ok.mp h
  have hoperational := ensure_eq_ok.mp hoperational
  simp only [Bool.not_eq_true', Bool.or_eq_false_iff, decide_eq_false_iff_not, outside,
    Bool.not_eq_false', Bool.and_eq_true, decide_eq_true_eq] at hoperational
  exact ⟨by omega, by omega, by omega, by omega⟩

/-! ## What an acquisition does -/

/-- The lease that an acquisition inserts. -/
def granted (now : Timestamp) (limits : IngestionLimits) (upload : UploadId) (client : Str) :
    UploadLease :=
  ⟨upload, client, now + secondsInterval (limits.uploadTimeoutSeconds + 30)⟩

/-- The leases that an acquisition finds. -/
def unexpired (leases : List UploadLease) (now : Timestamp) : List UploadLease :=
  leases.filter fun lease => !(lease.expiresAt < now)

/-- There is room for another lease of the client. -/
def Room (leases : List UploadLease) (limits : IngestionLimits) (client : Str) : Prop :=
  leases.length < limits.concurrentUploadsGlobal ∧
    (leases.filter (·.ipKey = client)).length < limits.concurrentUploadsPerIp

instance : Decidable (Room leases limits client) :=
  inferInstanceAs (Decidable (_ ∧ _))

theorem request_eq (h : Sound limits) : requestUploadLease leases now limits upload client =
    if Room (unexpired leases now) limits client then
      (true, unexpired leases now ++ [granted now limits upload client])
    else (false, unexpired leases now) := by
  unfold requestUploadLease acquireUploadLease
  rw [h.perIp_eq, h.global_eq, h.lifetime_eq]
  by_cases hroom : Room (unexpired leases now) limits client
  · rw [if_pos hroom]
    obtain ⟨htotal, hclient⟩ := hroom
    dsimp only
    rw [if_neg (by unfold unexpired at htotal; omega),
      if_neg (by unfold unexpired at hclient; omega)]
    rfl
  · rw [if_neg hroom]
    dsimp only
    split
    · rfl
    · next htotal =>
      rw [if_pos]
      · rfl
      · by_contra hclient
        exact hroom ⟨by unfold unexpired; omega, by unfold unexpired; omega⟩

theorem mem_unexpired {lease : UploadLease} :
    lease ∈ unexpired leases now ↔ lease ∈ leases ∧ now ≤ lease.expiresAt := by
  unfold unexpired
  rw [List.mem_filter, Bool.not_eq_true', decide_eq_false_iff_not, not_lt]

/-- The new lease covers the upload that starts within half a minute. -/
theorem granted_covers (h : delay < secondsInterval 30) :
    (granted now limits upload client).Covers (started now limits upload client delay) where
  id := rfl
  client := rfl
  later := by
    unfold granted started
    dsimp only
    rw [secondsInterval_add, add_assoc]
    exact Int.add_lt_add_left (by rw [add_comm]; exact Int.add_lt_add_left h _) _

/-! ## What the steps keep -/

/-- Fewer rows keep to the limits, if the running uploads stay covered. -/
theorem World.Inv.shrink (h : w.Inv bounds) (hsub : w'.leases.Sublist w.leases)
    (hruns : w'.running.Sublist w.running) (hnow : w'.now = w.now)
    (hheld : ∀ upload ∈ w'.running, ∃ lease ∈ w'.leases, lease.Covers upload) :
    w'.Inv bounds where
  ids := h.ids.sublist (hsub.map _)
  runs := h.runs.sublist (hruns.map _)
  inTime upload hupload := hnow ▸ h.inTime upload (hruns.subset hupload)
  held := hheld
  total := hsub.length_le.trans h.total
  perClient client := (hsub.filter _).length_le.trans (h.perClient client)
  lapses lease hlease := hnow ▸ h.lapses lease (hsub.subset hlease)

/-- Of the leases, only such go as cover no upload. -/
theorem World.Inv.keep (h : w.Inv bounds) {p : UploadLease → Bool}
    (hkeep : ∀ lease ∈ w.leases, ∀ upload ∈ w.running, lease.Covers upload → p lease) :
    World.Inv bounds { w with leases := w.leases.filter p } := by
  refine h.shrink List.filter_sublist (List.Sublist.refl _) rfl fun upload hupload => ?_
  obtain ⟨lease, hlease, hcovers⟩ := h.held upload hupload
  exact ⟨lease, List.mem_filter.mpr ⟨hlease, hkeep lease hlease upload hupload hcovers⟩, hcovers⟩

/-- A lease that covers an upload has not expired. -/
theorem World.Inv.live (h : w.Inv bounds) {lease : UploadLease} {upload : Upload}
    (hupload : upload ∈ w.running) (hcovers : lease.Covers upload) : w.now < lease.expiresAt :=
  (h.inTime upload hupload).trans_lt hcovers.later

theorem World.Inv.unexpired (h : w.Inv bounds) :
    World.Inv bounds { w with leases := unexpired w.leases w.now } := by
  refine h.keep fun lease _ upload hupload hcovers => ?_
  rw [Bool.not_eq_true', decide_eq_false_iff_not, not_lt]
  exact (h.live hupload hcovers).le

theorem World.Inv.grow {lease : UploadLease} {upload : Upload} (h : w.Inv bounds)
    (hfresh : lease.id ∉ w.leases.map (·.id)) (hcovers : lease.Covers upload)
    (htotal : w.leases.length < bounds.global)
    (hclient : (w.leases.filter (·.ipKey = lease.ipKey)).length < bounds.perIp)
    (hnow : w.now ≤ upload.deadline) (hlapses : lease.expiresAt ≤ w.now + bounds.longest) :
    World.Inv bounds { w with
      leases := w.leases ++ [lease], running := w.running ++ [upload] } where
  ids := by
    rw [List.map_append, List.map_singleton]
    exact List.nodup_append'.mpr ⟨h.ids, List.nodup_singleton _,
      List.disjoint_singleton.mpr hfresh⟩
  runs := by
    rw [List.map_append, List.map_singleton]
    refine List.nodup_append'.mpr ⟨h.runs, List.nodup_singleton _,
      List.disjoint_singleton.mpr fun hmem => hfresh ?_⟩
    obtain ⟨other, hother, hid⟩ := List.mem_map.mp hmem
    obtain ⟨covering, hcovering, hcovers'⟩ := h.held other hother
    have hids : covering.id = lease.id := hcovers'.id.trans (hid.trans hcovers.id.symm)
    exact hids ▸ List.mem_map_of_mem hcovering
  inTime := List.forall_mem_append.mpr ⟨h.inTime, List.forall_mem_singleton.mpr hnow⟩
  held := by
    refine List.forall_mem_append.mpr ⟨fun other hother => ?_, List.forall_mem_singleton.mpr
      ⟨lease, List.mem_append_right _ (List.mem_singleton_self _), hcovers⟩⟩
    obtain ⟨covering, hcovering, hcovers'⟩ := h.held other hother
    exact ⟨covering, List.mem_append_left _ hcovering, hcovers'⟩
  total := by
    rw [List.length_append, List.length_singleton]
    exact htotal
  perClient client := by
    rw [List.filter_append, List.length_append]
    by_cases hsame : lease.ipKey = client
    · subst hsame
      have hone := List.length_filter_le (fun other => decide (other.ipKey = lease.ipKey)) [lease]
      rw [List.length_singleton] at hone
      omega
    · rw [List.filter_cons_of_neg (by simpa using hsame), List.filter_nil, List.length_nil]
      exact h.perClient client
  lapses := List.forall_mem_append.mpr ⟨h.lapses, List.forall_mem_singleton.mpr hlapses⟩

theorem inv_of_wait {next : Timestamp} (h : w.Inv bounds) (hnext : w.now ≤ next)
    (htime : ∀ upload ∈ w.running, next ≤ upload.deadline) :
    World.Inv bounds { w with now := next } where
  ids := h.ids
  runs := h.runs
  inTime := htime
  held := h.held
  total := h.total
  perClient := h.perClient
  lapses lease hlease := (h.lapses lease hlease).trans (Int.add_le_add_right hnext _)

theorem inv_of_acquire (h : w.Inv bounds)
    (hlabel : (Label.acquire configuration upload client delay).Within parseUrl bounds)
    (hstep : step w (.acquire configuration upload client delay) = some w') : w'.Inv bounds := by
  obtain ⟨hvalid, ⟨hperIp, hglobal, htimeout⟩, hdelay, hshort⟩ := hlabel
  have hsound := sound_of_validate hvalid
  unfold step at hstep
  dsimp only at hstep
  split_ifs at hstep with hfresh
  rw [request_eq hsound] at hstep
  obtain rfl := Option.some.inj hstep
  split
  · next hroom =>
    refine h.unexpired.grow (fun hmem => hfresh ?_) (granted_covers hshort)
      (hroom.1.trans_le hglobal) (hroom.2.trans_le hperIp) ?_ ?_
    · exact List.map_subset _ (fun lease hlease => (mem_unexpired.mp hlease).1) hmem
    · exact (Int.le_add_of_nonneg_right hdelay).trans
        (Int.le_add_of_nonneg_right (secondsInterval_nonneg _))
    · exact Int.add_le_add_left (secondsInterval_mono (by omega)) _
  · exact h.unexpired

theorem step_inv (h : w.Inv bounds) (hlabel : label.Within parseUrl bounds)
    (hstep : step w label = some w') : w'.Inv bounds := by
  cases label with
  | wait next =>
    unfold step at hstep
    dsimp only at hstep
    split_ifs at hstep with htime
    cases hstep
    exact inv_of_wait h htime.1 htime.2
  | acquire configuration upload client delay => exact inv_of_acquire h hlabel hstep
  | finish upload =>
    cases hstep
    exact h.shrink (List.Sublist.refl _) List.filter_sublist rfl fun other hother =>
      h.held other (List.mem_of_mem_filter hother)
  | release upload =>
    unfold step at hstep
    dsimp only at hstep
    split_ifs at hstep with hrunning
    cases hstep
    refine h.keep fun lease _ other hother hcovers => decide_eq_true fun hid => hrunning ?_
    exact hid ▸ hcovers.id ▸ List.mem_map_of_mem hother
  | stop uploads =>
    cases hstep
    exact h.shrink (List.Sublist.refl _) List.filter_sublist rfl fun other hother =>
      h.held other (List.mem_of_mem_filter hother)
  | sweep =>
    cases hstep
    refine h.keep fun lease _ other hother hcovers => ?_
    rw [Bool.not_eq_true', decide_eq_false_iff_not, not_le]
    exact h.live hother hcovers

/-! ## Runs -/

/-- The runs in which every lease is asked for within the bounds. -/
abbrev BoundedRun (parseUrl : Str → Option UrlParts) (bounds : Bounds) :
    World → List Label → World → Prop :=
  Run (Where (fun _ label => label.Within parseUrl bounds) (Steps step))

def start (now : Timestamp) : World := ⟨now, [], []⟩

theorem inv_start (now : Timestamp) (bounds : Bounds) : (start now).Inv bounds where
  ids := List.nodup_nil
  runs := List.nodup_nil
  inTime _ h := absurd h List.not_mem_nil
  held _ h := absurd h List.not_mem_nil
  total := Nat.zero_le _
  perClient _ := Nat.zero_le _
  lapses _ h := absurd h List.not_mem_nil

theorem inv_of_run (h : BoundedRun parseUrl bounds (start now) labels w) : w.Inv bounds :=
  h.invariant (fun _ _ _ hs hstep => step_inv hs hstep.1 hstep.2) (inv_start now bounds)

/-- Every upload that runs is one of the leases, by its ID and its client. -/
theorem World.Inv.subperm (h : w.Inv bounds) :
    (w.running.map fun upload => (upload.id, upload.client)).Subperm
      (w.leases.map fun lease => (lease.id, lease.ipKey)) := by
  refine List.subperm_of_subset (List.Nodup.of_map Prod.fst ?_) fun pair hpair => ?_
  · rw [List.map_map]
    exact h.runs
  · obtain ⟨upload, hupload, rfl⟩ := List.mem_map.mp hpair
    obtain ⟨lease, hlease, hcovers⟩ := h.held upload hupload
    rw [← hcovers.id, ← hcovers.client]
    exact List.mem_map_of_mem hlease

/-- Without acquisitions the table only shrinks. -/
theorem leases_subset_of_run (h : Run (Steps step) w labels w')
    (hnone : ∀ configuration upload client delay,
      .acquire configuration upload client delay ∉ labels) :
    w'.leases ⊆ w.leases := by
  induction h with
  | nil => exact fun _ h => h
  | @snoc t u labels label run last ih =>
    refine fun lease hlease =>
      ih (fun l u c d h => hnone l u c d (List.mem_append_left _ h)) ?_
    unfold Steps step at last
    cases label with
    | wait next =>
      dsimp only at last
      split_ifs at last
      cases last
      exact hlease
    | acquire configuration upload client delay =>
      exact absurd (List.mem_append_right _ (List.mem_singleton_self _))
        (hnone configuration upload client delay)
    | finish upload => cases last; exact hlease
    | release upload =>
      dsimp only at last
      split_ifs at last
      cases last
      exact List.mem_of_mem_filter hlease
    | stop uploads => cases last; exact hlease
    | sweep => cases last; exact List.mem_of_mem_filter hlease

/-- Whatever a run has left in the table, once the longest lease has passed another is to be had. -/
theorem lapsed_leases_free {later : List Label}
    (h : BoundedRun parseUrl bounds (start now) labels w)
    (hlater : Run (Steps step) w later w')
    (hnone : ∀ configuration upload client delay,
      .acquire configuration upload client delay ∉ later)
    (hlong : w.now + bounds.longest < w'.now) (hvalid : configuration.validate parseUrl = .ok ()) :
    (requestUploadLease w'.leases w'.now configuration.limits upload client).1 = true := by
  have hkept : unexpired w'.leases w'.now = [] := by
    refine List.eq_nil_iff_forall_not_mem.mpr fun lease hlease => ?_
    obtain ⟨hmem, hnow⟩ := mem_unexpired.mp hlease
    have hlapses := (inv_of_run h).lapses lease (leases_subset_of_run hlater hnone hmem)
    exact absurd (hlapses.trans_lt hlong) (not_lt.mpr hnow)
  have hsound := sound_of_validate hvalid
  have hone := hsound.perIp
  have hmore := hsound.global
  rw [request_eq hsound, if_pos]
  rw [hkept]
  exact ⟨hone.trans hmore, hone⟩

/-- A client with three submissions gets two leases. One upload ends, the other is left behind. -/
def sampleLabels : List Label :=
  [.acquire .default ⟨1⟩ ['c'] 500000, .acquire .default ⟨2⟩ ['c'] 0, .wait 900000,
    .acquire .default ⟨3⟩ ['c'] 0, .finish ⟨1⟩, .release ⟨1⟩]

/-- The bounds that the default limits give. -/
def sampleBounds : Bounds := ⟨2, 16, 120⟩

/-- The state after them. -/
def sampleWorld : World :=
  ⟨900000, [⟨⟨2⟩, ['c'], 150000000⟩], [⟨⟨2⟩, ['c'], 120000000⟩]⟩

theorem validate_sampleDefault : RuntimeConfiguration.default.validate sampleParseUrl = .ok () :=
  validate_default rfl rfl

theorem sampleRun : BoundedRun sampleParseUrl sampleBounds (start 0) sampleLabels sampleWorld := by
  have hallow : sampleBounds.Allow RuntimeConfiguration.default.limits :=
    ⟨Nat.le_refl _, Nat.le_refl _, Nat.le_refl _⟩
  refine Run.restrict (fun label hlabel _ => ?_) (run?_eq_some (by decide +kernel))
  rcases hlabel with _ | ⟨_, _ | ⟨_, _ | ⟨_, _ | ⟨_, _ | ⟨_, _ | ⟨_, hlabel⟩⟩⟩⟩⟩⟩
  · exact ⟨validate_sampleDefault, hallow, by decide, by decide⟩
  · exact ⟨validate_sampleDefault, hallow, by decide, by decide⟩
  · trivial
  · exact ⟨validate_sampleDefault, hallow, by decide, by decide⟩
  · trivial
  · trivial
  · exact absurd hlabel List.not_mem_nil

/-- The process stops, and for two and a half minutes nothing happens. -/
def lapsedLabels : List Label := [.stop [⟨2⟩], .wait 151000000]

def lapsedWorld : World := ⟨151000000, sampleWorld.leases, []⟩

theorem lapsedRun : Run (Steps step) sampleWorld lapsedLabels lapsedWorld :=
  run?_eq_some (by decide +kernel)

theorem acquire_not_mem_lapsed (configuration : RuntimeConfiguration) (upload : UploadId)
    (client : Str) (delay : Timestamp) :
    .acquire configuration upload client delay ∉ lapsedLabels := by
  unfold lapsedLabels
  rw [List.mem_cons, List.mem_singleton]
  rintro (h | h) <;> cases h

theorem lapsed_leases_free_sample :
    (requestUploadLease lapsedWorld.leases lapsedWorld.now RuntimeConfiguration.default.limits ⟨4⟩
      ['c']).1 = true :=
  lapsed_leases_free sampleRun lapsedRun acquire_not_mem_lapsed (by decide) validate_sampleDefault

end

end LadybirdReports.Ingestion.UploadLeases
