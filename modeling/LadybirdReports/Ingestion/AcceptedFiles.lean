import LadybirdReports.Ingestion.Uploads

/-!
# The files of accepted reports

Whether a report keeps its files depends on what was stopped when. `InTime` says of a step that it
stops no request whose report is committed with its files still in staging, and that no transaction
commits after its request was dropped. Such steps keep `Inv` (`step_keeps`), so in a run of them the
files of every committed report are stored, and finalizing it succeeds (`accepted_files_kept`).

A deadline between the commit and the rename is not in time: `submit_report` abandons the
submission, which removes the files of the accepted report (`late_deadline_loses_files`).
-/

namespace LadybirdReports.Ingestion

open Transition

section

variable {c : Requests} {s s' : State} {upload : UploadId} {report : ReportId}

/-! ## Steps in time -/

/-- The request has had its report accepted, and moves the files. -/
def Point.isFinalizing : Point → Bool
  | .finalizing _ => true
  | _ => false

/-- No request is stopped that does not know that its report is committed, or that would abandon
its files; and no transaction commits whose request was dropped. -/
def InTime (s : State) : Action → Prop
  | .fail upload | .deadline upload =>
    (s.point upload = .accepting → ¬ Committed s upload) ∧
      ((s.point upload).isFinalizing → s.files.staging upload = none)
  | .cancel upload => s.point upload = .accepting → ¬ Committed s upload
  | .commit upload => s.point upload = .accepting ∨ s.point upload = .crashed
  | _ => True

instance (s : State) (action : Action) : Decidable (InTime s action) := by
  unfold InTime
  cases action <;> dsimp only <;> infer_instance

/-- What dropping a submission removes belongs to no committed report. -/
theorem Inv.staging_of_removesOnDrop (h : Inv c s)
    (hin : s.point upload = .accepting → ¬ Committed s upload)
    (hdrop : (s.point upload).removesOnDrop) (hc : Committed s upload) :
    s.files.staging upload = none := by
  obtain ⟨-, -, -, h4, h5⟩ := h.upload upload
  have hrows := (view_rows_ne_nil c).mpr hc
  simp only [View.AtPoint] at h5
  cases hp : s.point upload with
  | abandoning held => exact h4 (.inr (by simp [State.view, hp, Point.removes])) hrows
  | accepting => exact absurd hc (hin hp)
  | _ =>
    simp only [State.view, hp] at h5
    first
    | exact absurd h5.1 hrows
    | (rw [hp] at hdrop; cases hdrop)

/-- An error of `finalize` leaves nothing in staging. -/
theorem Inv.staging_of_finalize_error (h : Inv c s) {point : FinalizePoint} {error : StoreError}
    (hp : s.point upload = .finalizing point)
    (herror : Ingestion.finalizeStep s.files upload (c.reportId upload) point = .error error) :
    s.files.staging upload = none := by
  obtain ⟨h1, -, -, -, h5⟩ := h.upload upload
  simp only [View.AtPoint, State.view, hp] at h5
  cases point with
  | reportExists => cases herror
  | rename =>
    by_contra hs
    obtain ⟨row, hrow⟩ := List.exists_mem_of_ne_nil _ h5.1
    rcases (h1 row hrow).2 with ⟨files, hf, -, hr⟩ | ⟨hnone, -⟩
    · simp only [State.view] at hf hr
      simp [Ingestion.finalizeStep, FileAttachmentStore.rename, hf, hr, Except.map] at herror
    · exact hs hnone
  | _ => exact h5.2 (by simp) (by simp)

/-- The answer of `accept_report` keeps the invariant: the report is this upload's, or it is known
under another upload. -/
theorem accepted_keeps (h : Inv c s) (hstep : s.accepted c upload = some s') : Inv c s' := by
  unfold State.accepted at hstep
  split_ifs at hstep with hc hsent
  · cases hstep
    exact h.goTo (by simp [Point.removes]) ⟨(view_rows_ne_nil c).mpr hc, by simp⟩
      (by simp [Point.receipt?])
  · dsimp only at hstep
    split at hstep
    · rename_i receipt hr
      have hk := known_of_findReceipt rfl hr
      split_ifs at hstep with hd hne
      · cases hstep
        exact h.rollback.goTo (fun _ hc' => absurd hc' hc)
          ⟨(view_rows_eq_nil c).mpr hc, by simp [State.view, State.setInFlight]⟩
          (fun other ho => by cases ho; exact hk)
      · -- a report under this upload is one that it committed
        rw [not_not] at hne
        exact absurd (hne ▸ hk.committed) hc
    · cases hstep

theorem finalizing_keeps (h : Inv c s) {point : FinalizePoint}
    (hp : s.point upload = .finalizing point) (hstep : resume c s upload = some s') :
    Inv c s' := by
  have hat := (h.upload upload).atPoint
  simp only [View.AtPoint, State.view, hp] at hat
  have hc : Committed s upload := (view_rows_ne_nil c).mp hat.1
  have hk : Known s (c.reportId upload) upload := by
    obtain ⟨row, hrow, hu⟩ := hc
    exact ⟨row, hrow, ((h.upload upload).rows row (by simp [State.view, hrow, hu])).1, hu⟩
  simp only [resume, hp] at hstep
  split_ifs at hstep with hmark
  · cases hstep
    have hgo : Inv c (s.goTo upload (.releasing
        (s.reports.any (isPendingRow (c.reportId upload) upload)))) :=
      h.goTo (fun _ _ => hat.2 (by simp [hmark]) (by simp [hmark])) trivial
        (by simp [Point.receipt?])
    exact hgo.markReady
  · split at hstep
    · rename_i after next hf
      cases hstep
      refine (h.finalizeStep hk hf).goTo (by simp [Point.removes])
        ⟨hat.1, fun h1 h2 => ?_⟩ (by simp [Point.receipt?])
      rcases finalizeStep_cases hf with
        ⟨rfl, ⟨hnext, -⟩ | ⟨-, hdir⟩ | ⟨-, hpoint⟩⟩ | ⟨-, files, -, -, rfl⟩
      · exact absurd hnext h2
      · obtain ⟨row, hrow⟩ := List.exists_mem_of_ne_nil _ hat.1
        rcases ((h.upload upload).rows row hrow).2 with ⟨-, -, -, hnone⟩ | ⟨hnone, -⟩
        · exact absurd hnone hdir
        · exact hnone
      · rcases hpoint with rfl | rfl | hnone
        · exact hat.2 (by simp) (by simp)
        · exact absurd rfl hmark
        · exact hnone
      · exact Function.update_self ..
    · rename_i error hf
      cases hstep
      exact h.goTo (fun _ _ => h.staging_of_finalize_error hp hf) trivial (by simp [Point.receipt?])

theorem resume_keeps (h : Inv c s) (hstep : resume c s upload = some s') : Inv c s' := by
  have hat := (h.upload upload).atPoint
  have hrem := (h.upload upload).removal
  cases hp : s.point upload with
  | preparing =>
    simp only [View.AtPoint, State.view, hp] at hat
    simp only [resume, hp] at hstep
    split at hstep
    · rename_i receipt hr
      have hk := known_of_findReceipt rfl hr
      split_ifs at hstep <;> cases hstep
      · exact h.recover hk (.inl rfl) (by simp [hp, Point.removesOnDrop])
          fun point => ⟨hat, rfl, rfl⟩
      · exact h.goTo (by simp [Point.removes]) trivial (by simp [Point.receipt?])
    · cases hstep
      exact h.goTo (by simp [Point.removes]) hat (by simp [Point.receipt?])
  | beginning =>
    simp only [View.AtPoint, State.view, hp] at hat
    simp only [resume, hp] at hstep
    have hfree : ¬ Committed s upload := (view_rows_eq_nil c).mp hat.1
    split at hstep
    · rename_i files hb
      cases hstep
      unfold FileAttachmentStore.beginStaging at hb
      split_ifs at hb
      cases hb
      exact (h.setStaging (fun hc => absurd hc hfree) (by simp [hp])).goTo (by simp [Point.removes])
        hat (by simp [Point.receipt?])
    · cases hstep
      exact h.goTo (by simp [Point.removes]) trivial (by simp [Point.receipt?])
  | recovering receipt point =>
    simp only [View.AtPoint, State.view, hp] at hat
    simp only [resume, hp] at hstep
    cases hstep
    exact h.recoverStep (h.receipt upload receipt (by rw [hp]; rfl)) (.inl rfl) (.inl rfl)
      ((view_rows_eq_nil c).mp hat.1) fun next after => ⟨hat, rfl, rfl⟩
  | acquiringLease =>
    simp only [View.AtPoint, State.view, hp] at hat
    simp only [resume, hp] at hstep
    cases hstep
    exact h.goTo (by simp [Point.removes]) hat (by simp [Point.receipt?])
  | receiving received =>
    simp only [View.AtPoint, State.view, hp] at hat
    simp only [resume, hp] at hstep
    split_ifs at hstep
    cases hstep
    exact h.goTo (by simp [Point.removes]) hat (by simp [Point.receipt?])
  | validating =>
    simp only [resume, hp] at hstep
    split at hstep
    · rename_i files hs
      split_ifs at hstep with hfiles
      cases hstep
      exact h.send hp hs hfiles.1
    · cases hstep
  | accepting =>
    simp only [resume, hp] at hstep
    exact accepted_keeps h hstep
  | removingOwn receipt =>
    simp only [View.AtPoint, State.view, hp] at hat
    simp only [resume, hp] at hstep
    cases hstep
    have hfree : ¬ Committed s upload := (view_rows_eq_nil c).mp hat.1
    exact (h.setStaging (fun hc => absurd hc hfree) (by simp [hp])).recover
      (h.receipt upload receipt (by rw [hp]; rfl)) (.inr rfl) (fun _ => hfree)
      fun point => ⟨hat, rfl, rfl⟩
  | recoveringExisting receipt referenced point =>
    simp only [View.AtPoint, State.view, hp] at hat
    simp only [resume, hp] at hstep
    cases hstep
    exact h.recoverStep (h.receipt upload receipt (by rw [hp]; rfl)) (.inr rfl) (.inr rfl)
      ((view_rows_eq_nil c).mp hat.1) fun next after => ⟨hat, rfl, rfl⟩
  | finalizing point => exact finalizing_keeps h hp hstep
  | releasing accepted =>
    simp only [resume, hp] at hstep
    cases hstep
    cases accepted with
    | true => exact h.goTo (by simp [Point.removes]) trivial (by simp [Point.receipt?])
    | false =>
      refine h.goTo (fun _ hc => hrem (.inr ?_) ((view_rows_ne_nil c).mpr hc)) trivial
        (by simp [Point.receipt?])
      simp [State.view, hp, Point.removes]
  | abandoning held =>
    simp only [resume, hp] at hstep
    cases hstep
    have hnone : Committed s upload → s.files.staging upload = none := fun hc =>
      hrem (.inr (by simp [State.view, hp, Point.removes])) ((view_rows_ne_nil c).mpr hc)
    exact (h.setStaging (fun hc => (hnone hc).symm) (by simp [hp])).leave (.inl rfl)
      fun _ _ => FileAttachmentStore.setStaging_same ..
  | finished => simp [resume, hp] at hstep
  | crashed => simp [resume, hp] at hstep

theorem interrupted_keeps (h : Inv c s) (hstep : interrupted s upload = some s')
    (haccepting : s.point upload = .accepting → ¬ Committed s upload)
    (hfinalizing : (s.point upload).isFinalizing → s.files.staging upload = none) : Inv c s' := by
  have hat := (h.upload upload).atPoint
  simp only [View.AtPoint, State.view] at hat
  have hleave : ∀ {point : Point}, (point = .finished ∨ ∃ accepted, point = .releasing accepted) →
      (point.removes → Committed s upload → s.files.staging upload = none) →
      Inv c ((s.dropPrepared upload).goTo upload point) := fun hpoint hremoves =>
    h.leave hpoint fun hr hc =>
      hr.elim (fun hr => h.staging_of_removesOnDrop haccepting hr hc) fun hr => hremoves hr hc
  unfold interrupted at hstep
  cases hp : s.point upload with
  | preparing | beginning | recovering =>
    simp only [hp, Option.some.injEq] at hstep
    subst hstep
    exact h.goTo (by simp [Point.removes]) trivial (by simp [Point.receipt?])
  | acquiringLease =>
    simp only [hp, Option.some.injEq] at hstep hat
    subst hstep
    exact h.goTo (fun _ hc => absurd hat.1 ((view_rows_ne_nil c).mpr hc)) trivial
      (by simp [Point.receipt?])
  | accepting =>
    simp only [hp, Option.some.injEq] at hstep
    subst hstep
    exact hleave (.inr ⟨false, rfl⟩) fun _ hc => absurd hc (haccepting hp)
  | finalizing point =>
    simp only [hp, Option.some.injEq] at hstep
    subst hstep
    exact hleave (.inr ⟨false, rfl⟩) fun _ _ => hfinalizing (by rw [hp]; rfl)
  | receiving | validating | removingOwn | recoveringExisting =>
    simp only [hp, Option.some.injEq] at hstep hat
    subst hstep
    exact hleave (.inr ⟨false, rfl⟩) fun _ hc => absurd hat.1 ((view_rows_ne_nil c).mpr hc)
  | abandoning held =>
    simp only [hp, Option.some.injEq] at hstep
    subst hstep
    exact hleave (.inl rfl) (by simp [Point.removes])
  | releasing | finished | crashed => simp [hp] at hstep

/-- A removal that is on its way may go on: it finds nothing of a committed report. -/
theorem Inv.removalGoesOn (h : Inv c s) (hremoval : s.removal upload ∨ (s.point upload).removes) :
    (Committed s upload → s.files.staging upload = none) ∧
      s.point upload ≠ .accepting ∧ s.point upload ≠ .crashed := by
  obtain ⟨-, -, -, h4, h5⟩ := h.upload upload
  refine ⟨fun hc => h4 hremoval ((view_rows_ne_nil c).mpr hc), ?_, ?_⟩ <;> intro hp <;>
    simp only [View.AtPoint, State.view, hp] at h5 <;>
    simp [hp, Point.removes, h5.1] at hremoval

theorem Inv.removed (h : Inv c s) :
    Inv c { s with removal := Function.update s.removal upload false } := by
  refine h.change upload (fun other ho => ?_) ?_ (fun _ _ hk => hk) (h.receipt upload) h.recovery
  · simp [State.view, Function.update_of_ne ho]
  · obtain ⟨h1, h2, h3, h4, h5⟩ := h.upload upload
    simp only [State.view, Function.update_self, View.AtPoint] at h1 h2 h3 h4 h5 ⊢
    refine ⟨h1, h2, h3, fun hr => h4 (.inr (by simpa using hr)), ?_⟩
    simp only [View.AtPoint]
    cases hp : s.point upload <;> simp_all

/-- The service stops: no removal is left to run, and only transactions that were sent go on. -/
theorem Inv.crash (h : Inv c s) :
    Inv c { s with
      point := fun upload => (s.point upload).afterCrash
      removal := fun _ => false
      recovery := fun _ => .idle } where
  upload other := by
    obtain ⟨h1, h2, h3, -, h5⟩ := h.upload other
    refine ⟨h1, h2, h3, fun hr => ?_, ?_⟩
    · simp only [State.view] at hr
      cases hp : s.point other <;> simp [hp, Point.afterCrash, Point.removes] at hr
    · simp only [View.AtPoint, State.view] at h5 ⊢
      cases hp : s.point other <;> simp only [hp, Point.afterCrash] at h5 ⊢
      case accepting => exact ⟨trivial, h5.2⟩
      case crashed => exact ⟨trivial, h5.2⟩
  receipt other receipt hr := by
    simp only at hr
    cases hp : s.point other <;> simp [hp, Point.afterCrash, Point.receipt?] at hr
  recovery _ _ hp := by simp [Recovery.idle] at hp

/-- A run of `recover_pending_storage` changes, its reports still known. -/
theorem Inv.setRecovery (h : Inv c s) {run : ℕ} {recovery : Recovery}
    (hknown : ∀ p ∈ recovery.pending, Known s p.1 p.2) :
    Inv c { s with recovery := Function.update s.recovery run recovery } := by
  refine ⟨h.upload, h.receipt, fun other p hp => ?_⟩
  by_cases ho : other = run
  · simp only [ho, Function.update_self] at hp
    exact hknown p hp
  · simp only [Function.update_of_ne ho] at hp
    exact h.recovery other p hp

theorem Inv.nextReport (h : Inv c s) (run : ℕ) : Inv c (s.nextReport run) :=
  h.setRecovery fun p hp => h.recovery run p (List.mem_of_mem_tail hp)

theorem recoverPendingStorage_keeps (h : Inv c s) (run : ℕ) :
    Inv c (recoverPendingStorage s run) := by
  unfold recoverPendingStorage
  split
  · refine h.setRecovery fun p hp => ?_
    obtain ⟨row, hrow, rfl⟩ := List.mem_map.mp hp
    exact ⟨row, (List.mem_filter.mp (List.mem_of_mem_take hrow)).1, rfl, rfl⟩
  · rename_i report upload rest hpending
    have hk : Known s report upload := h.recovery run (report, upload) (by rw [hpending]; simp)
    split_ifs
    · exact (h.nextReport run).markReady
    · split
      · rename_i after next hf
        exact (h.finalizeStep hk hf).setRecovery fun p hp => h.recovery run p hp
      · exact h.nextReport run

/-- Every step in time keeps the invariant. -/
theorem step_keeps {action : Action} (h : Inv c s) (hin : InTime s action)
    (hstep : step c s action = some s') : Inv c s' := by
  cases action with
  | resume upload => exact resume_keeps h hstep
  | receive upload file =>
    have hat := (h.upload upload).atPoint
    simp only [View.AtPoint, State.view] at hat
    simp only [step] at hstep
    split at hstep
    · rename_i received hp
      split_ifs at hstep
      cases hstep
      simp only [hp] at hat
      exact (h.setStaging (fun hc => absurd hat.1 ((view_rows_ne_nil c).mpr hc))
        (by simp [hp])).goTo (by simp [Point.removes]) hat (by simp [Point.receipt?])
    · cases hstep
  | fail upload => exact interrupted_keeps h hstep hin.1 hin.2
  | deadline upload =>
    simp only [step] at hstep
    split_ifs at hstep
    exact interrupted_keeps h hstep hin.1 hin.2
  | cancel upload =>
    simp only [step] at hstep
    split_ifs at hstep
    cases hstep
    exact h.leave (.inl rfl) fun hr hc =>
      hr.elim (fun hr => h.staging_of_removesOnDrop hin hr hc) (by simp [Point.removes])
  | commit upload =>
    simp only [step] at hstep
    split_ifs at hstep with hsent
    cases hstep
    exact h.commit hsent.1 hin
  | rollback upload =>
    simp only [step] at hstep
    split_ifs at hstep
    cases hstep
    exact h.rollback
  | unlink upload file =>
    simp only [step] at hstep
    split_ifs at hstep with hr
    cases hstep
    obtain ⟨hnone, hpoint⟩ := h.removalGoesOn hr
    exact h.setStaging (fun hc => by rw [hnone hc]; rfl) hpoint
  | removed upload =>
    simp only [step] at hstep
    split_ifs at hstep with hr
    cases hstep
    obtain ⟨hnone, hpoint⟩ := h.removalGoesOn (.inl hr)
    exact (h.setStaging (fun hc => (hnone hc).symm) hpoint).removed
  | crash => cases hstep; exact h.crash
  | recover run => cases hstep; exact recoverPendingStorage_keeps h run
  | recoverFail run => cases hstep; exact h.nextReport run

/-! ## Runs -/

/-- In every run of steps in time, the files of each committed report are stored, so `finalize`
completes it. -/
theorem accepted_files_kept {actions : List Action}
    (hrun : Run (Where InTime (Steps (step c))) State.init actions s) :
    ∀ row ∈ s.reports,
      Stored (s.files.staging row.stagingId) (s.files.reports row.id) row.attachments ∧
      ∃ after files, finalize s.files row.stagingId row.id = .ok after ∧
        after.reports row.id = some files ∧ row.attachments ⊆ files := by
  intro row hrow
  have hinv : Inv c s := hrun.invariant (fun _ _ _ h hs => step_keeps h hs.1 hs.2) (inv_init c)
  have hok := (hinv.upload row.stagingId).rows row (by simp [State.view, hrow])
  have hstored : Stored (s.files.staging row.stagingId) (s.files.reports row.id)
      row.attachments := by
    rw [hok.1]
    exact hok.2
  obtain ⟨after, files, hf, -, hr, hsub⟩ := hstored.finalize
  exact ⟨hstored, after, files, hf, hr, hsub⟩

end

/-! ## A request whose deadline passes -/

/-- Every request submits the same report with one attachment. -/
def sameSubmission : Requests where
  manifest _ := ⟨⟨0⟩, "digest", [⟨7⟩]⟩
  reportId upload := ⟨upload.value⟩
  reportId_injective := by
    intro a b h
    cases a; cases b; cases h; rfl

/-- A request up to the commit of its report. -/
def untilCommit (upload : UploadId) : List Action :=
  [.resume upload, .resume upload, .resume upload, .receive upload ⟨7⟩, .resume upload,
    .resume upload, .commit upload]

/-- The service stops after the commit, and recovers the report when it starts. -/
theorem crash_then_recovery_kept :
    ∃ s, Run (Where InTime (Steps (step sameSubmission))) State.init
        (untilCommit ⟨0⟩ ++ [.crash] ++ List.replicate 5 (.recover 0)) s ∧
      ∃ row ∈ s.reports, row.storageState = .ready ∧
        Stored (s.files.staging row.stagingId) (s.files.reports row.id) row.attachments := by
  obtain ⟨s, hs, row, hrow, hready⟩ : ∃ s, run? (stepWhere InTime (step sameSubmission)) State.init
      (untilCommit ⟨0⟩ ++ [.crash] ++ List.replicate 5 (.recover 0)) = some s ∧
      ∃ row ∈ s.reports, row.storageState = .ready := ⟨_, rfl, _, List.mem_singleton_self _, rfl⟩
  exact ⟨s, run_where hs, row, hrow, hready, (accepted_files_kept (run_where hs) row hrow).1⟩

/-- A deadline passes between the commit and the rename, and the submission is abandoned. -/
theorem late_deadline_loses_files :
    ∃ s, Run (Steps (step sameSubmission)) State.init
        (untilCommit ⟨0⟩ ++ [.resume ⟨0⟩, .deadline ⟨0⟩, .resume ⟨0⟩, .resume ⟨0⟩]) s ∧
      ∃ row ∈ s.reports,
        ¬ Stored (s.files.staging row.stagingId) (s.files.reports row.id) row.attachments := by
  obtain ⟨s, hs, row, hrow, hst, hr⟩ : ∃ s, run? (step sameSubmission) State.init
      (untilCommit ⟨0⟩ ++ [.resume ⟨0⟩, .deadline ⟨0⟩, .resume ⟨0⟩, .resume ⟨0⟩]) = some s ∧
      ∃ row ∈ s.reports, s.files.staging row.stagingId = none ∧ s.files.reports row.id = none :=
    ⟨_, rfl, _, List.mem_singleton_self _, rfl, rfl⟩
  refine ⟨s, run?_eq_some hs, row, hrow, ?_⟩
  rw [hst, hr]
  rintro (⟨_, h, -⟩ | ⟨-, _, h, -⟩) <;> cases h

end LadybirdReports.Ingestion
