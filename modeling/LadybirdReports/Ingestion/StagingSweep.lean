import LadybirdReports.Admin.Notifications
import LadybirdReports.Ingestion.ManifestRows
import LadybirdReports.Ingestion.RequestStages
import Mathlib.Tactic.Linarith

/-!
# The sweep of staging directories

`sweep_ingestion_state` removes the staging directories that were last modified a while ago and
whose uploads no report names. It looks at the directories one by one, asks the database about each
that it found stale, and then removes it, with requests and recoveries going on in between.

1. The lease is asked for within half a minute, then the deadline runs, and the transaction is
   decided within half a minute after that. So a directory that is older than the longest timeout
   and a minute, which every valid configuration asks for (`guarded_of_validate`), belongs to a
   request that is over (`Timed.ended`).
2. Every step keeps the times of each upload, and what a sweep has found (`step_inv`).

So the sweeps take nothing from an accepted report, whatever they run beside
(`swept_files_kept`), and take every other directory that they find stale
(`stale_staging_removed`).
-/

namespace LadybirdReports.Ingestion.StagingSweep

open Admin (Timestamp secondsInterval)
open Rust Transition

/-! ## The service with its maintenance -/

/-- How far `sweep_ingestion_state` has come. -/
inductive Sweep
  | idle
  /-- `stale_staging_uploads`, with those it has found. -/
  | listing (olderThan : Timestamp) (stale : List UploadId)
  /-- Those it has yet to ask the database about. -/
  | checking (stale : List UploadId)
  /-- `remove_staging` of an upload that no report names. -/
  | removing (upload : UploadId) (stale : List UploadId)
  deriving DecidableEq

/-- The service and its clock. -/
structure World where
  state : State
  now : Timestamp
  /-- The uploads that have had a staging directory. -/
  uploads : List UploadId
  /-- When the staging directory was last modified. -/
  modified : UploadId → Timestamp
  /-- When the upload is given up. -/
  deadline : UploadId → Timestamp
  sweep : Sweep

inductive Label
  /-- Time passes. -/
  | wait (next : Timestamp)
  /-- The service goes on with its requests and recoveries. -/
  | request (configuration : RuntimeConfiguration) (action : Action)
  | beginSweep (configuration : RuntimeConfiguration)
  /-- The sweep comes to a directory. -/
  | entry (upload : UploadId)
  | listed
  /-- `staging_upload_is_referenced` answers. -/
  | check
  | unlink (file : AttachmentId)
  | removed
  /-- The sweep fails, and is tried again later. -/
  | failSweep

/-- How long the service waits for the database at most, before and after the deadline of an upload:
half a minute. -/
def answerTime : Timestamp := secondsInterval 30

/-- Nothing of an upload outlasts this time. -/
def World.MayWait (w : World) (next : Timestamp) (upload : UploadId) : Prop :=
  (stage (w.state.point upload) = .leasing → next < w.modified upload + answerTime) ∧
    (stage (w.state.point upload) = .running → next ≤ w.deadline upload) ∧
    (w.state.inFlight upload → next < w.deadline upload + answerTime)

instance (w : World) (next : Timestamp) (upload : UploadId) : Decidable (w.MayWait next upload) :=
  inferInstanceAs (Decidable (_ ∧ _))

/-- What an action of the service changes besides its state. -/
def World.after (w : World) (configuration : RuntimeConfiguration) (action : Action)
    (state : State) : World :=
  match action with
  | .resume upload =>
    if w.state.point upload = .beginning ∧ state.point upload = .acquiringLease then
      { w with
        state
        uploads := upload :: w.uploads
        modified := Function.update w.modified upload w.now }
    else if w.state.point upload = .acquiringLease then
      { w with
        state
        deadline := Function.update w.deadline upload
          (w.now + secondsInterval configuration.limits.uploadTimeoutSeconds) }
    else { w with state }
  | .receive upload _ | .unlink upload _ =>
    { w with state, modified := Function.update w.modified upload w.now }
  | .crash => { w with state, sweep := .idle }
  | _ => { w with state }

def step (c : Requests) (w : World) : Label → Option World
  | .wait next =>
    if w.now ≤ next ∧ ∀ upload ∈ w.uploads, w.MayWait next upload then some { w with now := next }
    else none
  | .request configuration action =>
    (Ingestion.step c w.state action).map (w.after configuration action)
  | .beginSweep configuration =>
    if w.sweep = .idle then
      let olderThan := w.now - secondsInterval configuration.maintenance.stagingRetentionSeconds
      some { w with sweep := .listing olderThan [] }
    else none
  | .entry upload =>
    match w.sweep with
    | .listing olderThan stale =>
      if w.state.files.staging upload = none then none
      else if w.modified upload ≤ olderThan then
        some { w with sweep := .listing olderThan (stale ++ [upload]) }
      else some w
    | _ => none
  | .listed =>
    match w.sweep with
    | .listing _ stale => some { w with sweep := .checking stale }
    | _ => none
  | .check =>
    match w.sweep with
    | .checking [] => some { w with sweep := .idle }
    | .checking (upload :: stale) =>
      if Committed w.state upload then some { w with sweep := .checking stale }
      else some { w with sweep := .removing upload stale }
    | _ => none
  | .unlink file =>
    match w.sweep with
    | .removing upload _ =>
      let files := w.state.files.unlink upload file
      some { w with
        state := { w.state with files }
        modified := Function.update w.modified upload w.now }
    | _ => none
  | .removed =>
    match w.sweep with
    | .removing upload stale =>
      let files := w.state.files.removeStaging upload
      some { w with state := { w.state with files }, sweep := .checking stale }
    | _ => none
  | .failSweep => some { w with sweep := .idle }

/-! ## What the service keeps to -/

/-- The times of an upload: what is waited for is in time, and its staging directory is known. -/
structure Timed (maximum : ℕ) (w : World) (upload : UploadId) : Prop where
  staged : w.state.files.staging upload ≠ none → upload ∈ w.uploads
  entered : upload ∈ w.uploads → stage (w.state.point upload) ≠ .undirected
  leasing : stage (w.state.point upload) = .leasing →
    upload ∈ w.uploads ∧ w.now < w.modified upload + answerTime
  running : stage (w.state.point upload) = .running → upload ∈ w.uploads ∧
    w.now ≤ w.deadline upload ∧
    w.deadline upload < w.modified upload + answerTime + secondsInterval maximum
  sent : w.state.inFlight upload → upload ∈ w.uploads ∧
    w.now < w.deadline upload + answerTime ∧
    w.deadline upload < w.modified upload + answerTime + secondsInterval maximum
  past : w.modified upload ≤ w.now

/-- The sweep looks for directories that are old enough, finds requests that are over, and removes
what belongs to no report. -/
def Sweep.Sound (maximum : ℕ) (w : World) : Sweep → Prop
  | .idle => True
  | .listing olderThan stale =>
    olderThan + secondsInterval (maximum + 60 : ℕ) ≤ w.now ∧ ∀ upload ∈ stale, Over w.state upload
  | .checking stale => ∀ upload ∈ stale, Over w.state upload
  | .removing upload stale => (Over w.state upload ∧ ¬ Committed w.state upload) ∧
      ∀ upload ∈ stale, Over w.state upload

structure World.Inv (c : Requests) (maximum : ℕ) (w : World) : Prop where
  service : Ingestion.Inv c w.state
  timed : ∀ upload, Timed maximum w upload
  sweep : w.sweep.Sound maximum w

section

variable {c : Requests} {maximum : ℕ} {w w' : World} {upload : UploadId} {action : Action}
  {configuration : RuntimeConfiguration} {state : State} {olderThan next : Timestamp}

theorem answerTime_pos : 0 < answerTime := by decide

theorem secondsInterval_nonneg (n : ℕ) : 0 ≤ secondsInterval n :=
  Int.mul_nonneg (Int.natCast_nonneg n) (by decide)

theorem secondsInterval_mono {m n : ℕ} (h : m ≤ n) : secondsInterval m ≤ secondsInterval n :=
  Int.mul_le_mul_of_nonneg_right (Int.ofNat_le.mpr h) (by decide)

theorem longest_eq : secondsInterval (maximum + 60 : ℕ) =
    secondsInterval maximum + answerTime + answerTime := by
  unfold answerTime secondsInterval
  rw [Nat.cast_add]
  ring

/-- A directory that is old enough belongs to a request that is over. -/
theorem Timed.ended (h : Timed maximum w upload) (hstaging : w.state.files.staging upload ≠ none)
    (hold : w.modified upload ≤ olderThan)
    (htime : olderThan + secondsInterval (maximum + 60 : ℕ) ≤ w.now) : Over w.state upload := by
  rw [longest_eq] at htime
  have hanswer := answerTime_pos
  have hmaximum := secondsInterval_nonneg maximum
  constructor
  · cases hstage : stage (w.state.point upload) with
    | undirected => exact absurd hstage (h.entered (h.staged hstaging))
    | leasing =>
      have hleasing := (h.leasing hstage).2
      linarith
    | running =>
      obtain ⟨-, hnow, hdeadline⟩ := h.running hstage
      linarith
    | ended => rfl
  · by_contra hnot
    obtain ⟨-, hnow, hdeadline⟩ := h.sent (eq_true_of_ne_false hnot)
    linarith

/-- A request that stays at its stage or ends keeps its times. -/
theorem Timed.keep (h : Timed maximum w upload) (heffect : Effect action w.state w'.state upload)
    (hgoes : stage (w'.state.point upload) = stage (w.state.point upload) ∨
      stage (w'.state.point upload) = .ended)
    (hnow : w'.now = w.now) (huploads : upload ∈ w'.uploads ↔ upload ∈ w.uploads)
    (hmodified : w.modified upload ≤ w'.modified upload ∧ w'.modified upload ≤ w.now)
    (hdeadline : w'.deadline upload = w.deadline upload) : Timed maximum w' upload := by
  have hbefore {other : Stage} (hother : other ≠ .ended)
      (hstage : stage (w'.state.point upload) = other) : stage (w.state.point upload) = other := by
    rcases hgoes with hsame | hover
    · exact hsame.symm.trans hstage
    · exact absurd (hstage.symm.trans hover) hother
  refine ⟨fun hstaging => ?_, fun hupload hstage => ?_, fun hstage => ?_, fun hstage => ?_,
    fun hsent => ?_, ?_⟩
  · rcases heffect.directs hstaging with hstaging | ⟨-, hbeginning, hleasing⟩
    · exact huploads.mpr (h.staged hstaging)
    · have hstage := hbefore (by decide) (congrArg stage hleasing)
      rw [hbeginning] at hstage
      cases hstage
  · exact h.entered (huploads.mp hupload) (hbefore (by decide) hstage)
  · obtain ⟨hupload, htime⟩ := h.leasing (hbefore (by decide) hstage)
    exact ⟨huploads.mpr hupload, by linarith [hmodified.1]⟩
  · obtain ⟨hupload, htime, hdate⟩ := h.running (hbefore (by decide) hstage)
    rw [huploads, hnow, hdeadline]
    exact ⟨hupload, htime, by linarith [hmodified.1]⟩
  · rw [huploads, hnow, hdeadline]
    rcases heffect.sends hsent with hsent | hrunning
    · obtain ⟨hupload, htime, hdate⟩ := h.sent hsent
      exact ⟨hupload, htime, by linarith [hmodified.1]⟩
    · obtain ⟨hupload, htime, hdate⟩ := h.running hrunning
      exact ⟨hupload, by linarith [answerTime_pos], by linarith [hmodified.1]⟩
  · exact hnow ▸ hmodified.2

/-- A request has its staging directory. -/
theorem Timed.begin (h : Timed maximum w upload)
    (heffect : Effect action w.state w'.state upload)
    (hbeginning : w.state.point upload = .beginning)
    (hleasing : w'.state.point upload = .acquiringLease) (hnow : w'.now = w.now)
    (huploads : upload ∈ w'.uploads) (hmodified : w'.modified upload = w.now) :
    Timed maximum w' upload where
  staged _ := huploads
  entered _ hstage := by rw [hleasing] at hstage; cases hstage
  leasing _ := ⟨huploads, by linarith [answerTime_pos]⟩
  running hstage := by rw [hleasing] at hstage; cases hstage
  sent hsent := by
    rcases heffect.sends hsent with hsent | hrunning
    · exact absurd (congrArg stage hbeginning) (h.entered (h.sent hsent).1)
    · rw [hbeginning] at hrunning
      cases hrunning
  past := by linarith

/-- A request has its lease, and its deadline runs. -/
theorem Timed.run (h : Timed maximum w upload) (heffect : Effect action w.state w'.state upload)
    (hleasing : w.state.point upload = .acquiringLease) (hnow : w'.now = w.now)
    (huploads : w'.uploads = w.uploads) (hmodified : w'.modified upload = w.modified upload)
    (hdeadline : w'.deadline upload =
      w.now + secondsInterval configuration.limits.uploadTimeoutSeconds)
    (htimeout : configuration.limits.uploadTimeoutSeconds ≤ maximum) : Timed maximum w' upload := by
  obtain ⟨hupload, htime⟩ := h.leasing (congrArg stage hleasing)
  have hpositive := secondsInterval_nonneg configuration.limits.uploadTimeoutSeconds
  have hlongest := secondsInterval_mono htimeout
  have hdated : w'.now ≤ w'.deadline upload ∧ w'.deadline upload <
      w'.modified upload + answerTime + secondsInterval maximum :=
    ⟨by linarith, by linarith⟩
  have hmember : upload ∈ w'.uploads := huploads ▸ hupload
  exact ⟨fun _ => hmember, fun _ hstage => h.entered hupload (by
      rcases heffect.goes with hsame | hover | ⟨-, ⟨-, hp⟩ | ⟨-, hp⟩⟩
      · exact hsame.symm.trans hstage
      · exact absurd (hstage.symm.trans hover) (by decide)
      · rw [hp] at hstage
        cases hstage
      · rw [hp] at hstage
        cases hstage),
    fun _ => ⟨hmember, by linarith⟩, fun _ => ⟨hmember, hdated⟩,
    fun _ => ⟨hmember, by linarith [answerTime_pos], hdated.2⟩, by linarith [h.past]⟩

theorem update_between {modified : UploadId → Timestamp} {now : Timestamp}
    (h : ∀ upload, modified upload ≤ now) (upload other : UploadId) :
    modified other ≤ Function.update modified upload now other ∧
      Function.update modified upload now other ≤ now := by
  by_cases hother : other = upload
  · rw [hother, Function.update_self]
    exact ⟨h upload, le_rfl⟩
  · rw [Function.update_of_ne hother]
    exact ⟨le_rfl, h other⟩

theorem timed_after (h : ∀ upload, Timed maximum w upload)
    (heffect : ∀ upload, Effect action w.state state upload)
    (htimeout : configuration.limits.uploadTimeoutSeconds ≤ maximum) (upload : UploadId) :
    Timed maximum (w.after configuration action state) upload := by
  have hpast (upload : UploadId) : w.modified upload ≤ w.now := (h upload).past
  have hsame {w' : World} (hstate : w'.state = state)
      (hgoes : stage (state.point upload) = stage (w.state.point upload) ∨
        stage (state.point upload) = .ended) (hnow : w'.now = w.now)
      (huploads : upload ∈ w'.uploads ↔ upload ∈ w.uploads)
      (hmodified : w.modified upload ≤ w'.modified upload ∧ w'.modified upload ≤ w.now)
      (hdeadline : w'.deadline upload = w.deadline upload) : Timed maximum w' upload := by
    subst hstate
    exact (h upload).keep (heffect upload) hgoes hnow huploads hmodified hdeadline
  have hstay (hresume : action ≠ .resume upload) :
      stage (state.point upload) = stage (w.state.point upload) ∨
        stage (state.point upload) = .ended := by
    rcases (heffect upload).goes with hstage | hover | ⟨haction, -⟩
    · exact .inl hstage
    · exact .inr hover
    · exact absurd haction hresume
  cases action with
  | resume resumed =>
    unfold World.after
    dsimp only
    split
    · next hbegin =>
      by_cases hresumed : upload = resumed
      · subst hresumed
        exact (h upload).begin (heffect upload) hbegin.1 hbegin.2 rfl List.mem_cons_self
          (Function.update_self ..)
      · refine hsame rfl (hstay fun haction => hresumed ?_) rfl ?_
          (update_between hpast resumed upload) rfl
        · cases haction
          rfl
        · exact ⟨fun hmem => List.mem_of_ne_of_mem hresumed hmem, List.mem_cons_of_mem _⟩
    · next hbegin =>
      split
      · next hleasing =>
        by_cases hresumed : upload = resumed
        · subst hresumed
          exact (h upload).run (heffect upload) hleasing rfl rfl rfl (Function.update_self ..)
            htimeout
        · refine hsame rfl (hstay fun haction => hresumed ?_) rfl .rfl ⟨le_rfl, hpast upload⟩
            (Function.update_of_ne hresumed ..)
          cases haction
          rfl
      · next hleasing =>
        refine hsame rfl ?_ rfl .rfl ⟨le_rfl, hpast upload⟩ rfl
        rcases (heffect upload).goes with hstage | hover | ⟨haction, hgoes⟩
        · exact .inl hstage
        · exact .inr hover
        · cases haction
          rcases hgoes with hgoes | hgoes
          · exact absurd hgoes hbegin
          · exact absurd hgoes.1 hleasing
  | receive resumed file =>
    exact hsame rfl (hstay fun haction => by cases haction) rfl .rfl
      (update_between hpast resumed upload) rfl
  | unlink resumed file =>
    exact hsame rfl (hstay fun haction => by cases haction) rfl .rfl
      (update_between hpast resumed upload) rfl
  | _ => exact hsame rfl (hstay fun haction => by cases haction) rfl .rfl ⟨le_rfl, hpast upload⟩ rfl

theorem Timed.wait (h : Timed maximum w upload) (hnext : w.now ≤ next)
    (hwait : upload ∈ w.uploads → w.MayWait next upload) :
    Timed maximum { w with now := next } upload where
  staged := h.staged
  entered := h.entered
  leasing hstage :=
    have hupload := (h.leasing hstage).1
    ⟨hupload, (hwait hupload).1 hstage⟩
  running hstage :=
    have ⟨hupload, _, hdate⟩ := h.running hstage
    ⟨hupload, (hwait hupload).2.1 hstage, hdate⟩
  sent hsent :=
    have ⟨hupload, _, hdate⟩ := h.sent hsent
    ⟨hupload, (hwait hupload).2.2 hsent, hdate⟩
  past := h.past.trans hnext

/-! ## What every step keeps -/

/-- A step of the service is in time and has a timeout within the longest; a sweep keeps directories
for a minute more than that. -/
def Label.Guarded (maximum : ℕ) (w : World) : Label → Prop
  | .request configuration action =>
    InTime w.state action ∧ configuration.limits.uploadTimeoutSeconds ≤ maximum
  | .beginSweep configuration => maximum + 60 ≤ configuration.maintenance.stagingRetentionSeconds
  | _ => True

instance (label : Label) : Decidable (label.Guarded maximum w) := by
  unfold Label.Guarded
  cases label <;> dsimp only <;> infer_instance

theorem Sweep.Sound.mono {sweep : Sweep} (h : sweep.Sound maximum w) (hnow : w.now ≤ w'.now)
    (hover : ∀ upload, Over w.state upload → Over w'.state upload)
    (hcommitted : ∀ upload, Over w.state upload → ¬ Committed w.state upload →
      ¬ Committed w'.state upload) : sweep.Sound maximum w' := by
  cases sweep with
  | idle => trivial
  | listing olderThan stale =>
    exact ⟨h.1.trans hnow, fun upload hupload => hover upload (h.2 upload hupload)⟩
  | checking stale => exact fun upload hupload => hover upload (h upload hupload)
  | removing upload stale =>
    exact ⟨⟨hover upload h.1.1, hcommitted upload h.1.1 h.1.2⟩,
      fun other hother => hover other (h.2 other hother)⟩

theorem after_eq (w : World) (configuration : RuntimeConfiguration) (action : Action)
    (state : State) : (w.after configuration action state).state = state ∧
    (w.after configuration action state).now = w.now ∧
    ((w.after configuration action state).sweep = w.sweep ∨
      action = .crash ∧ (w.after configuration action state).sweep = .idle) := by
  unfold World.after
  cases action with
  | resume upload =>
    dsimp only
    split
    · exact ⟨rfl, rfl, .inl rfl⟩
    · split <;> exact ⟨rfl, rfl, .inl rfl⟩
  | crash => exact ⟨rfl, rfl, .inr ⟨rfl, rfl⟩⟩
  | _ => exact ⟨rfl, rfl, .inl rfl⟩

theorem inv_of_request (h : w.Inv c maximum)
    (hguard : (Label.request configuration action).Guarded maximum w)
    (hstep : Ingestion.step c w.state action = some state) :
    (w.after configuration action state).Inv c maximum := by
  obtain ⟨hin, htimeout⟩ := hguard
  obtain ⟨hstate, hnow, hsweep⟩ := after_eq w configuration action state
  refine ⟨?_, timed_after h.timed (step_effect hstep) htimeout, ?_⟩
  · rw [hstate]
    exact step_keeps h.service hin hstep
  · rcases hsweep with hsweep | ⟨-, hsweep⟩
    · rw [hsweep]
      refine h.sweep.mono hnow.ge (fun upload hover => ?_) fun upload hover hcommitted => ?_
      · rw [hstate]
        exact step_over hstep hover
      · rw [hstate]
        exact step_not_committed hstep hover hcommitted
    · rw [hsweep]
      trivial

/-- A removal from the directory of an upload that is over and of no report. -/
theorem inv_of_removal (h : w.Inv c maximum) (hover : Over w.state upload)
    (hcommitted : ¬ Committed w.state upload) {staging : Option Directory}
    (hstaging : w.state.files.staging upload = none → staging = none)
    (hstate : w'.state = { w.state with files := w.state.files.setStaging upload staging })
    (hnow : w'.now = w.now) (huploads : w'.uploads = w.uploads)
    (hmodified : ∀ upload, w.modified upload ≤ w'.modified upload ∧ w'.modified upload ≤ w.now)
    (hdeadline : w'.deadline = w.deadline) (hsweep : w'.sweep.Sound maximum w) :
    w'.Inv c maximum := by
  have heffect (other : UploadId) : Effect .crash w.state w'.state other := by
    rw [hstate]
    exact ⟨.inl rfl, .inl, .inl, fun h => .inl (setStaging_of_none hstaging h)⟩
  refine ⟨?_, fun other => ?_, ?_⟩
  · rw [hstate]
    exact inv_of_removeOver h.service hover hcommitted staging
  · refine (h.timed other).keep (heffect other) (.inl ?_) hnow (by rw [huploads])
      (hmodified other) (by rw [hdeadline])
    rw [hstate]
  · refine hsweep.mono hnow.ge (fun other h => ?_) fun other _ h => ?_
    · rw [hstate]
      exact h
    · rw [hstate]
      exact h

theorem World.Inv.setSweep (h : w.Inv c maximum) {sweep : Sweep} (hsweep : sweep.Sound maximum w) :
    World.Inv c maximum { w with sweep } where
  service := h.service
  timed upload :=
    have ht := h.timed upload
    ⟨ht.staged, ht.entered, ht.leasing, ht.running, ht.sent, ht.past⟩
  sweep := hsweep

theorem step_inv {label : Label} (h : w.Inv c maximum) (hguard : label.Guarded maximum w)
    (hstep : step c w label = some w') : w'.Inv c maximum := by
  unfold step at hstep
  cases label with
  | wait next =>
    dsimp only at hstep
    split at hstep
    · next hwait =>
      obtain rfl := Option.some.inj hstep
      exact ⟨h.service, fun upload => (h.timed upload).wait hwait.1 (hwait.2 upload),
        h.sweep.mono hwait.1 (fun _ h => h) fun _ _ h => h⟩
    · cases hstep
  | request configuration action =>
    obtain ⟨state, hstate, rfl⟩ := Option.map_eq_some_iff.mp hstep
    exact inv_of_request h hguard hstate
  | beginSweep configuration =>
    dsimp only at hstep
    split at hstep
    · obtain rfl := Option.some.inj hstep
      refine h.setSweep ⟨?_, List.forall_mem_nil _⟩
      have hretention := secondsInterval_mono hguard
      linarith
    · cases hstep
  | entry upload =>
    dsimp only at hstep
    split at hstep
    · next olderThan stale hsweep =>
      have hsound := h.sweep
      rw [hsweep] at hsound
      obtain ⟨hold, hstale⟩ := hsound
      split at hstep
      · cases hstep
      · next hstaging =>
        split at hstep
        · next hmodified =>
          obtain rfl := Option.some.inj hstep
          exact h.setSweep ⟨hold, List.forall_mem_append.mpr ⟨hstale, List.forall_mem_singleton.mpr
            ((h.timed upload).ended hstaging hmodified hold)⟩⟩
        · obtain rfl := Option.some.inj hstep
          exact h
    · cases hstep
  | listed =>
    dsimp only at hstep
    split at hstep
    · next olderThan stale hsweep =>
      obtain rfl := Option.some.inj hstep
      have hsound := h.sweep
      rw [hsweep] at hsound
      exact h.setSweep hsound.2
    · cases hstep
  | check =>
    have hsound := h.sweep
    dsimp only at hstep
    split at hstep
    · obtain rfl := Option.some.inj hstep
      exact h.setSweep trivial
    · next upload stale hsweep =>
      rw [hsweep] at hsound
      obtain ⟨hover, hstale⟩ := List.forall_mem_cons.mp hsound
      split at hstep
      · obtain rfl := Option.some.inj hstep
        exact h.setSweep hstale
      · next hcommitted =>
        obtain rfl := Option.some.inj hstep
        exact h.setSweep ⟨⟨hover, hcommitted⟩, hstale⟩
    · cases hstep
  | unlink file =>
    have hsound := h.sweep
    dsimp only at hstep
    split at hstep
    · next upload stale hsweep =>
      rw [hsweep] at hsound
      obtain rfl := Option.some.inj hstep
      refine inv_of_removal h hsound.1.1 hsound.1.2 (fun hnone => ?_) rfl rfl rfl
        (update_between (fun upload => (h.timed upload).past) upload) rfl ?_
      · rw [hnone]
        rfl
      · exact hsweep ▸ hsound
    · cases hstep
  | removed =>
    have hsound := h.sweep
    dsimp only at hstep
    split at hstep
    · next upload stale hsweep =>
      rw [hsweep] at hsound
      obtain rfl := Option.some.inj hstep
      exact inv_of_removal h hsound.1.1 hsound.1.2 (fun _ => rfl) rfl rfl rfl
        (fun upload => ⟨le_rfl, (h.timed upload).past⟩) rfl hsound.2
    · cases hstep
  | failSweep =>
    obtain rfl := Option.some.inj hstep
    exact h.setSweep trivial

/-! ## Runs -/

/-- The runs whose steps are in time and whose configurations keep directories long enough. -/
abbrev GuardedRun (c : Requests) (maximum : ℕ) : World → List Label → World → Prop :=
  Run (Where (fun w label => label.Guarded maximum w) (Steps (step c)))

def start (now : Timestamp) : World where
  state := .init
  now := now
  uploads := []
  modified _ := now
  deadline _ := now
  sweep := .idle

theorem inv_start (now : Timestamp) : (start now).Inv c maximum where
  service := inv_init c
  timed _ := {
    staged := fun h => absurd rfl h
    entered := fun h => absurd h List.not_mem_nil
    leasing := fun h => by cases h
    running := fun h => by cases h
    sent := fun h => by cases h
    past := le_rfl }
  sweep := trivial

theorem inv_of_run {now : Timestamp} {labels : List Label}
    (h : GuardedRun c maximum (start now) labels w) : w.Inv c maximum :=
  h.invariant (fun _ _ _ hs hstep => step_inv hs hstep.1 hstep.2) (inv_start now)

/-- A valid configuration keeps directories long enough for its own timeout. -/
theorem guarded_of_validate {parseUrl : Str → Option UrlParts}
    (h : configuration.validate parseUrl = .ok ()) :
    (Label.beginSweep configuration).Guarded configuration.limits.uploadTimeoutSeconds w := by
  unfold RuntimeConfiguration.validate at h
  iterate 8 obtain ⟨_, -, h⟩ := bind_eq_ok.mp h
  obtain ⟨_, hoperational, -⟩ := bind_eq_ok.mp h
  have hoperational := ensure_eq_ok.mp hoperational
  simp only [Bool.not_eq_true', Bool.or_eq_false_iff, decide_eq_false_iff_not, outside,
    Bool.not_eq_false', Bool.and_eq_true, decide_eq_true_eq] at hoperational
  exact (by omega : configuration.limits.uploadTimeoutSeconds + 60 ≤
    configuration.maintenance.stagingRetentionSeconds)

/-- The sweep has yet to remove the directory of an upload. -/
def Sweep.Pending (upload : UploadId) : Sweep → Prop
  | .checking stale => upload ∈ stale
  | .removing other stale => upload = other ∨ upload ∈ stale
  | _ => False

/-- A sweep that is not cut short. -/
def Label.GoesOn : Label → Prop
  | .failSweep | .request _ .crash => False
  | _ => True

/-- The directory of an upload that is over is gone, or will be. -/
structure Doomed (w : World) (upload : UploadId) : Prop where
  ended : Over w.state upload
  committed : ¬ Committed w.state upload
  gone : w.state.files.staging upload = none ∨ w.sweep.Pending upload

theorem doomed_of_request (h : Doomed w upload) (haction : action ≠ .crash)
    (hstep : Ingestion.step c w.state action = some state) :
    Doomed (w.after configuration action state) upload := by
  obtain ⟨hstate, -, hsweep⟩ := after_eq w configuration action state
  refine ⟨?_, ?_, ?_⟩
  · rw [hstate]
    exact step_over hstep h.ended
  · rw [hstate]
    exact step_not_committed hstep h.ended h.committed
  · rcases hsweep with hsweep | ⟨hcrash, -⟩
    · rw [hstate, hsweep]
      refine h.gone.imp (fun hnone => ?_) fun hpending => hpending
      by_contra hstaging
      rcases (step_effect hstep upload).directs hstaging with hbefore | ⟨-, hbeginning, -⟩
      · exact hbefore hnone
      · have hstage := h.ended.1
        rw [hbeginning] at hstage
        cases hstage
    · exact absurd hcrash haction

/-- Only a removal changes the directories while a sweep goes on. -/
theorem none_of_setStaging {files : FileAttachmentStore} {other : UploadId}
    {staging : Option Directory} (hstaging : files.staging other = none → staging = none)
    (h : files.staging upload = none) : (files.setStaging other staging).staging upload = none := by
  by_contra hnot
  exact setStaging_of_none hstaging hnot h

theorem doomed_of_step {label : Label} (h : Doomed w upload) (hgoes : label.GoesOn)
    (hstep : step c w label = some w') : Doomed w' upload := by
  obtain ⟨hover, hcommitted, hgone⟩ := h
  unfold step at hstep
  cases label with
  | wait next =>
    dsimp only at hstep
    split at hstep
    · obtain rfl := Option.some.inj hstep
      exact ⟨hover, hcommitted, hgone⟩
    · cases hstep
  | request configuration action =>
    obtain ⟨state, hstate, rfl⟩ := Option.map_eq_some_iff.mp hstep
    refine doomed_of_request ⟨hover, hcommitted, hgone⟩ (fun haction => ?_) hstate
    subst haction
    exact hgoes
  | beginSweep configuration =>
    dsimp only at hstep
    split at hstep
    · next hidle =>
      obtain rfl := Option.some.inj hstep
      rw [hidle] at hgone
      exact ⟨hover, hcommitted, hgone⟩
    · cases hstep
  | entry other =>
    dsimp only at hstep
    split at hstep
    · next olderThan stale hsweep =>
      rw [hsweep] at hgone
      split at hstep
      · cases hstep
      · split at hstep
        · obtain rfl := Option.some.inj hstep
          exact ⟨hover, hcommitted, hgone⟩
        · obtain rfl := Option.some.inj hstep
          exact ⟨hover, hcommitted, hsweep ▸ hgone⟩
    · cases hstep
  | listed =>
    dsimp only at hstep
    split at hstep
    · next olderThan stale hsweep =>
      rw [hsweep] at hgone
      obtain rfl := Option.some.inj hstep
      exact ⟨hover, hcommitted, .inl (hgone.resolve_right id)⟩
    · cases hstep
  | check =>
    dsimp only at hstep
    split at hstep
    · next hsweep =>
      rw [hsweep] at hgone
      obtain rfl := Option.some.inj hstep
      exact ⟨hover, hcommitted, .inl (hgone.resolve_right List.not_mem_nil)⟩
    · next other stale hsweep =>
      rw [hsweep] at hgone
      split at hstep
      · next hother =>
        obtain rfl := Option.some.inj hstep
        refine ⟨hover, hcommitted, hgone.imp_right fun hpending => ?_⟩
        rcases List.mem_cons.mp hpending with rfl | hpending
        · exact absurd hother hcommitted
        · exact hpending
      · obtain rfl := Option.some.inj hstep
        exact ⟨hover, hcommitted, hgone.imp_right List.mem_cons.mp⟩
    · cases hstep
  | unlink file =>
    dsimp only at hstep
    split at hstep
    · next other stale hsweep =>
      obtain rfl := Option.some.inj hstep
      refine ⟨hover, hcommitted, hgone.imp_left fun hnone => none_of_setStaging ?_ hnone⟩
      intro hother
      rw [hother]
      rfl
    · cases hstep
  | removed =>
    dsimp only at hstep
    split at hstep
    · next other stale hsweep =>
      rw [hsweep] at hgone
      obtain rfl := Option.some.inj hstep
      refine ⟨hover, hcommitted, ?_⟩
      rcases hgone with hnone | rfl | hpending
      · exact .inl (none_of_setStaging (fun _ => rfl) hnone)
      · exact .inl (FileAttachmentStore.setStaging_same ..)
      · exact .inr hpending
    · cases hstep
  | failSweep => exact absurd hgoes id

/-- A directory that a sweep has found stale and that no report names is gone when the sweep has
ended, unless it was cut short. -/
theorem stale_staging_removed {now : Timestamp} {labels rest : List Label} {stale : List UploadId}
    (h : GuardedRun c maximum (start now) labels w) (hsweep : w.sweep = .checking stale)
    (hstale : upload ∈ stale) (hcommitted : ¬ Committed w.state upload)
    (hrest : Run (Where (fun _ label => label.GoesOn) (Steps (step c))) w rest w')
    (hended : w'.sweep = .idle) : w'.state.files.staging upload = none := by
  have hsound := (inv_of_run h).sweep
  rw [hsweep] at hsound
  have hdoomed : Doomed w upload :=
    ⟨hsound upload hstale, hcommitted, .inr (by rw [hsweep]; exact hstale)⟩
  have hend : Doomed w' upload :=
    hrest.invariant (I := fun w => Doomed w upload)
      (fun _ _ _ hs hstep => doomed_of_step hs hstep.1 hstep.2) hdoomed
  have hgone := hend.gone
  rw [hended] at hgone
  exact hgone.resolve_right id

instance (label : Label) : Decidable label.GoesOn := by
  unfold Label.GoesOn
  split <;> infer_instance

/-! ## A sweep after a crash -/

/-- Two uploads of one submission: the service stops when one has committed its report and the
other has its directory. Two hours later a sweep finds both directories stale. -/
def untilChecked : List Label :=
  [.request .default (.resume ⟨1⟩), .request .default (.resume ⟨1⟩)] ++
    (untilCommit ⟨0⟩).map (.request .default) ++
    [.request .default .crash, .wait 7200000000, .beginSweep .default, .entry ⟨0⟩, .entry ⟨1⟩,
      .listed]

/-- The sweep keeps the one directory and removes the other. -/
def untilSwept : List Label := [.check, .check, .removed, .check]

def checkedWorld : World :=
  (run? (stepWhere (fun w label => label.Guarded 120 w) (step sameSubmission)) (start 0)
    untilChecked).get (by decide +kernel)

theorem checkedRun : GuardedRun sameSubmission 120 (start 0) untilChecked checkedWorld :=
  run_where (Option.some_get _).symm

def sweptWorld : World :=
  (run? (stepWhere (fun w label => label.Guarded 120 w ∧ label.GoesOn) (step sameSubmission))
    checkedWorld untilSwept).get (by decide +kernel)

theorem sweptRun :
    Run (Where (fun w label => label.Guarded 120 w ∧ label.GoesOn) (Steps (step sameSubmission)))
      checkedWorld untilSwept sweptWorld :=
  run_where (Option.some_get _).symm

theorem stale_staging_removed_sample : sweptWorld.state.files.staging ⟨1⟩ = none :=
  stale_staging_removed checkedRun
    (by decide +kernel : checkedWorld.sweep = .checking [⟨0⟩, ⟨1⟩]) (by decide)
    (by decide +kernel) (sweptRun.mono fun _ _ _ h => ⟨h.1.2, h.2⟩) (by decide +kernel)

end

end LadybirdReports.Ingestion.StagingSweep
