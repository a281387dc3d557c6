import LadybirdReports.Ingestion.Concurrent
import LadybirdReports.Lib.Rows

/-!
# Files are moved once

`World.FilesOk` is what orderly steps keep (`Step.filesOk`): the files of a report that waits for
them are in the directory of its upload or in that of the report, one of the two exists, and whoever
is to rename the one finds it. So `finalize` of such a report does not fail
(`FilesOk.finalizeStep_ne_error`).
-/

namespace LadybirdReports.Ingestion

open Admin (Database Report Timestamp)

/-! ## Phases -/

namespace Phase

variable {phase : Phase} {move move' : FileMove} {report : ReportId} {marked : Bool}

@[simp] theorem isSettled_withMove : (phase.withMove move).isSettled = phase.isSettled := by
  cases phase <;> rfl

@[simp] theorem hasUpload_withMove : (phase.withMove move).hasUpload = phase.hasUpload := by
  cases phase <;> rfl

theorem move?_withMove (h : phase.move? = some move) :
    (phase.withMove move').move? = some move' := by
  cases phase <;> first | rfl | cases h

theorem hasUpload_of_move (h : phase.move? = some move) : phase.hasUpload = false := by
  cases phase <;> first | rfl | cases h

theorem isSettled_of_hasUpload (h : phase.hasUpload = true) : phase.isSettled = false := by
  cases phase <;> first | rfl | cases h

theorem hasUpload_of_isAnswered (h : phase.isAnswered = true) : phase.hasUpload = false := by
  cases phase <;> first | rfl | cases h

/-- A submission that lets go of its move is over, or to be abandoned. -/
structure Done (phase : Phase) : Prop where
  isSettled : phase.isSettled = true
  hasUpload : phase.hasUpload = false
  move? : phase.move? = none

theorem done_answered (answer : Answer) : Done (answered answer) := ⟨rfl, rfl, rfl⟩

theorem done_abandoning (answer : Answer) : Done (abandoning answer) := ⟨rfl, rfl, rfl⟩

theorem done_unstored : Done phase.unstored := by
  cases phase <;> exact ⟨rfl, rfl, rfl⟩

theorem done_stored : Done (phase.stored report marked) := by
  unfold stored
  split
  · split
    · exact done_answered _
    · exact done_abandoning _
  · exact done_answered _

theorem done_failed : Done phase.failed := by
  unfold failed
  split
  · exact done_abandoning _
  · split
    · exact done_abandoning _
    · exact done_answered _

end Phase

namespace World

variable {submissions : Submissions} {hash : SubmissionId → ℤ} {w w' : World} {n m : ℕ}
  {phase : Phase} {mover other : Mover} {move : FileMove} {report : ReportId} {upload : UploadId}
  {r : Report}

@[simp] theorem goTo_tables : (w.goTo n phase).tables = w.tables := rfl

@[simp] theorem goTo_self : (w.goTo n phase).phase n = phase := Function.update_self ..

theorem goTo_of_ne (h : m ≠ n) : (w.goTo n phase).phase m = w.phase m := Function.update_of_ne h ..

theorem isSettled_goTo (hsettled : (w.phase n).isSettled = true → phase.isSettled = true)
    (hm : (w.phase m).isSettled = true) : ((w.goTo n phase).phase m).isSettled = true := by
  by_cases hmn : m = n
  · subst hmn
    rw [goTo_self]
    exact hsettled hm
  · rwa [goTo_of_ne hmn]

/-! ## Moves -/

theorem move?_goTo (h : other ≠ .submission n) : (w.goTo n phase).move? other = w.move? other := by
  cases other with
  | submission m => exact congrArg Phase.move? (goTo_of_ne fun hm => h (hm ▸ rfl))
  | recovery run => rfl

theorem move?_setMove_self {move' : FileMove} (h : w.move? mover = some move) :
    (w.setMove move' mover).move? mover = some move' := by
  cases mover with
  | submission n =>
    change ((w.goTo n _).phase n).move? = some move'
    rw [goTo_self]
    exact Phase.move?_withMove h
  | recovery run => exact Function.update_self ..

theorem move?_setMove_of_ne (h : other ≠ mover) :
    (w.setMove move mover).move? other = w.move? other := by
  cases mover with
  | submission n => exact move?_goTo h
  | recovery run =>
    cases other with
    | submission n => rfl
    | recovery run' => exact Function.update_of_ne (fun hr => h (congrArg Mover.recovery hr)) ..

/-! ## What orderly steps keep -/

/-- The files are in the directory of the upload or in that of the report, and not in both. -/
def Kept (w : World) (report : ReportId) (upload : UploadId) : Prop :=
  (w.files.staging upload ≠ none ∧ w.files.reports report = none) ∨
    (w.files.staging upload = none ∧ w.files.reports report ≠ none)

/-- The report waits for its files, or a submission moves them. -/
def Awaits (w : World) (r : Report) : Prop :=
  r.ready = false ∨ ∃ n move, w.move? (.submission n) = some move ∧ move.report = r.id

variable (submissions) in
/-- They are those of a submission whose report may have been accepted. -/
def Accepts (w : World) (report : ReportId) (upload : UploadId) : Prop :=
  ∃ n, report = (submissions n).request.reportId ∧
    upload = (submissions n).request.uploadStagingId ∧ (w.phase n).isSettled = true

variable (submissions) in
structure FilesOk (w : World) : Prop where
  accepter : ∀ r ∈ w.tables.database.reports, w.Accepts submissions r.id r.stagingId
  mover : ∀ mover move, w.move? mover = some move → w.Accepts submissions move.report move.upload
  uploaded : ∀ n, (w.phase n).hasUpload = true →
    w.files.staging (submissions n).request.uploadStagingId ≠ none
  unmoved : ∀ n, (w.phase n).isSettled = false →
    w.files.reports (submissions n).request.reportId = none
  kept : ∀ r ∈ w.tables.database.reports, w.Awaits r → w.Kept r.id r.stagingId
  renames : ∀ r ∈ w.tables.database.reports, ∀ n move, w.move? (.submission n) = some move →
    move.report = r.id → move.point = .rename → w.files.staging r.stagingId ≠ none
  looks : ∀ r ∈ w.tables.database.reports, ∀ n move, w.move? (.submission n) = some move →
    move.report = r.id → move.point = .stagingExists → w.files.reports r.id ≠ none
  oneRenames : ∀ mover mover' move move', w.move? mover = some move → w.move? mover' = some move' →
    move.report = move'.report → move.point = .rename → move'.point = .rename → mover = mover'

theorem filesOk_init (clock : Timestamp) : (init clock).FilesOk submissions where
  accepter _ hr := by cases hr
  mover mover move h := by cases mover <;> cases h
  uploaded _ h := by cases h
  unmoved _ _ := rfl
  kept _ hr := by cases hr
  renames _ hr := by cases hr
  looks _ hr := by cases hr
  oneRenames mover _ move _ h := by cases mover <;> cases h

theorem Accepts.mono (hsettled : ∀ n, (w.phase n).isSettled = true → (w'.phase n).isSettled = true)
    (h : w.Accepts submissions report upload) : w'.Accepts submissions report upload :=
  let ⟨n, hreport, hupload, hn⟩ := h
  ⟨n, hreport, hupload, hsettled n hn⟩

/-- A report has one upload. -/
theorem Accepts.upload_eq {upload' : UploadId} (h : w.Accepts submissions report upload)
    (h' : w.Accepts submissions report upload') : upload = upload' := by
  obtain ⟨n, hn, rfl, -⟩ := h
  obtain ⟨m, hm, rfl, -⟩ := h'
  rw [submissions.reportId_injective (hn.symm.trans hm)]

/-- An upload has one report. -/
theorem Accepts.report_eq {report' : ReportId} (h : w.Accepts submissions report upload)
    (h' : w.Accepts submissions report' upload) : report = report' := by
  obtain ⟨n, rfl, hn, -⟩ := h
  obtain ⟨m, rfl, hm, -⟩ := h'
  rw [submissions.uploadId_injective (hn.symm.trans hm)]

/-- A submission whose report was not accepted has an ID for it that no report has. -/
theorem Accepts.report_ne (h : w.Accepts submissions report upload)
    (hn : (w.phase n).isSettled = false) : report ≠ (submissions n).request.reportId := by
  obtain ⟨m, rfl, -, hm⟩ := h
  intro heq
  rw [submissions.reportId_injective heq, hn] at hm
  cases hm

/-- A submission whose report was not accepted has an upload that no report names. -/
theorem Accepts.upload_ne (h : w.Accepts submissions report upload)
    (hn : (w.phase n).isSettled = false) : upload ≠ (submissions n).request.uploadStagingId := by
  obtain ⟨m, -, rfl, hm⟩ := h
  intro heq
  rw [submissions.uploadId_injective heq, hn] at hm
  cases hm

/-! ## Steps that leave the directories alone -/

/-- A move is one there was, or begins for a report that waits. -/
def Begins (w : World) (move : FileMove) : Prop :=
  move.point = .reportExists ∧ ∃ r ∈ w.tables.database.reports, r.ready = false ∧
    move.report = r.id ∧ move.upload = r.stagingId

theorem FilesOk.frame (h : w.FilesOk submissions) (hfiles : w'.files = w.files)
    (hsettled : ∀ n, (w.phase n).isSettled = true → (w'.phase n).isSettled = true)
    (huploaded : ∀ n, (w'.phase n).hasUpload = true →
      w.files.staging (submissions n).request.uploadStagingId ≠ none)
    (hreports : ∀ r' ∈ w'.tables.database.reports, ∃ r ∈ w.tables.database.reports,
      r'.id = r.id ∧ r'.stagingId = r.stagingId ∧ (r.ready = true → r'.ready = true))
    (hmoves : ∀ mover move, w'.move? mover = some move →
      w.move? mover = some move ∨ w.Begins move) : w'.FilesOk submissions where
  accepter r' hr' := by
    obtain ⟨r, hr, hid, hstaging, -⟩ := hreports r' hr'
    rw [hid, hstaging]
    exact (h.accepter r hr).mono hsettled
  mover mover move hmove := by
    rcases hmoves mover move hmove with hmove | ⟨-, r, hr, -, hid, hstaging⟩
    · exact (h.mover mover move hmove).mono hsettled
    · rw [hid, hstaging]
      exact (h.accepter r hr).mono hsettled
  uploaded n hn := by
    rw [hfiles]
    exact huploaded n hn
  unmoved n hn := by
    rw [hfiles]
    refine h.unmoved n (Bool.eq_false_iff.mpr fun hc => ?_)
    rw [hsettled n hc] at hn
    cases hn
  kept r' hr' hawaits := by
    obtain ⟨r, hr, hid, hstaging, hready⟩ := hreports r' hr'
    unfold Kept
    rw [hfiles, hid, hstaging]
    rcases hawaits with hpending | ⟨n, move, hmove, hreport⟩
    · refine h.kept r hr (.inl (Bool.eq_false_iff.mpr fun hc => ?_))
      rw [hready hc] at hpending
      cases hpending
    · rcases hmoves _ move hmove with hmove | ⟨-, s, hs, hpending, hsid, -⟩
      · exact h.kept r hr (.inr ⟨n, move, hmove, hreport.trans hid⟩)
      · have hsame : s.id = r.id := hsid.symm.trans (hreport.trans hid)
        have hupload := (h.accepter r hr).upload_eq (hsame ▸ h.accepter s hs)
        have hkept := h.kept s hs (.inl hpending)
        rwa [hsame, ← hupload] at hkept
  renames r' hr' n move hmove hreport hpoint := by
    obtain ⟨r, hr, hid, hstaging, -⟩ := hreports r' hr'
    rw [hfiles, hstaging]
    rcases hmoves _ move hmove with hmove | ⟨hlook, -⟩
    · exact h.renames r hr n move hmove (hreport.trans hid) hpoint
    · rw [hpoint] at hlook; cases hlook
  looks r' hr' n move hmove hreport hpoint := by
    obtain ⟨r, hr, hid, hstaging, -⟩ := hreports r' hr'
    rw [hfiles, hid]
    rcases hmoves _ move hmove with hmove | ⟨hlook, -⟩
    · exact h.looks r hr n move hmove (hreport.trans hid) hpoint
    · rw [hpoint] at hlook; cases hlook
  oneRenames mover mover' move move' hmove hmove' hreport hpoint hpoint' := by
    rcases hmoves _ move hmove with hmove | ⟨hlook, -⟩
    · rcases hmoves _ move' hmove' with hmove' | ⟨hlook, -⟩
      · exact h.oneRenames mover mover' move move' hmove hmove' hreport hpoint hpoint'
      · rw [hpoint'] at hlook; cases hlook
    · rw [hpoint] at hlook; cases hlook

/-- The tables change, and reports stay what they are or become ready. -/
theorem FilesOk.setTables {tables : Tables} (h : w.FilesOk submissions)
    (hreports : ∀ r' ∈ tables.database.reports, ∃ r ∈ w.tables.database.reports,
      r'.id = r.id ∧ r'.stagingId = r.stagingId ∧ (r.ready = true → r'.ready = true)) :
    { w with tables := tables }.FilesOk submissions :=
  h.frame rfl (fun _ hn => hn) h.uploaded hreports fun _ _ hmove => .inl hmove

/-- A submission goes on. -/
theorem FilesOk.goTo (h : w.FilesOk submissions)
    (hsettled : (w.phase n).isSettled = true → phase.isSettled = true)
    (huploaded : phase.hasUpload = true →
      w.files.staging (submissions n).request.uploadStagingId ≠ none)
    (hmove : ∀ move, phase.move? = some move → w.Begins move) :
    (w.goTo n phase).FilesOk submissions := by
  refine h.frame rfl (fun m hm => isSettled_goTo hsettled hm) (fun m hm => ?_)
    (fun r hr => ⟨r, hr, rfl, rfl, id⟩) fun mover move hmover => ?_
  · by_cases hmn : m = n
    · subst hmn
      rw [goTo_self] at hm
      exact huploaded hm
    · rw [goTo_of_ne hmn] at hm
      exact h.uploaded m hm
  · by_cases hmn : mover = .submission n
    · subst hmn
      change ((w.goTo n phase).phase n).move? = some move at hmover
      rw [goTo_self] at hmover
      exact .inr (hmove move hmover)
    · rw [move?_goTo hmn] at hmover
      exact .inl hmover

/-- A submission goes on with its upload. -/
theorem FilesOk.goOn (h : w.FilesOk submissions) (hbefore : (w.phase n).hasUpload = true)
    (hphase : phase.hasUpload = true) : (w.goTo n phase).FilesOk submissions := by
  refine h.goTo (fun hs => ?_) (fun _ => h.uploaded n hbefore) fun move hmove => ?_
  · rw [Phase.isSettled_of_hasUpload hbefore] at hs
    cases hs
  · rw [Phase.hasUpload_of_move hmove] at hphase
    cases hphase

/-- A submission is over, or to be abandoned. -/
theorem FilesOk.goDone (h : w.FilesOk submissions) (hphase : phase.Done) :
    (w.goTo n phase).FilesOk submissions := by
  refine h.goTo (fun _ => hphase.isSettled) (fun hu => ?_) fun move hmove => ?_
  · rw [hphase.hasUpload] at hu; cases hu
  · rw [hphase.move?] at hmove; cases hmove

/-- The recovery of a receipt begins, of a report that is there. -/
theorem FilesOk.goRecover (h : w.FilesOk submissions) (hr : r ∈ w.tables.database.reports)
    (hn : (w.phase n).isSettled = false) :
    (w.goTo n (recoverReceipt r)).FilesOk submissions := by
  unfold recoverReceipt
  split
  · exact h.goDone (Phase.done_answered _)
  · rename_i hpending
    refine h.goTo (fun hs => ?_) (fun hu => by cases hu) fun move hmove => ?_
    · rw [hn] at hs; cases hs
    · obtain rfl := Option.some.inj hmove
      exact ⟨rfl, r, hr, Bool.eq_false_iff.mpr hpending, rfl, rfl⟩

theorem FilesOk.setRecovery {run : ℕ} {recovery : Option FileMove} (h : w.FilesOk submissions)
    (hmove : ∀ move, recovery = some move → w.Begins move) :
    { w with recovery := Function.update w.recovery run recovery }.FilesOk submissions := by
  refine h.frame rfl (fun _ hn => hn) h.uploaded (fun r hr => ⟨r, hr, rfl, rfl, id⟩)
    fun mover move hmover => ?_
  cases mover with
  | submission n => exact .inl hmover
  | recovery run' =>
    change Function.update w.recovery run recovery run' = some move at hmover
    by_cases hrun : run' = run
    · subst hrun
      rw [Function.update_self] at hmover
      exact .inr (hmove move hmover)
    · rw [Function.update_of_ne hrun] at hmover
      exact .inl hmover

theorem FilesOk.failMove (h : w.FilesOk submissions) : (w.failMove mover).FilesOk submissions := by
  cases mover with
  | submission n => exact h.goDone Phase.done_unstored
  | recovery run => exact h.setRecovery fun _ hmove => by cases hmove

theorem FilesOk.endMove {marked : Bool} (h : w.FilesOk submissions) :
    (w.endMove report marked mover).FilesOk submissions := by
  cases mover with
  | submission n => exact h.goDone Phase.done_stored
  | recovery run => exact h.setRecovery fun _ hmove => by cases hmove

/-! ## Uploads come and go -/

/-- The directory of an upload comes or goes that no report names. -/
theorem FilesOk.setStaging {staging : Option Directory} (h : w.FilesOk submissions)
    (hnamed : ∀ r ∈ w.tables.database.reports, r.stagingId = upload →
      staging = w.files.staging upload)
    (huploaded : ∀ n, (w.phase n).hasUpload = true →
      (submissions n).request.uploadStagingId = upload → staging ≠ none) :
    { w with files := w.files.setStaging upload staging }.FilesOk submissions := by
  have hsame : ∀ r ∈ w.tables.database.reports,
      (w.files.setStaging upload staging).staging r.stagingId = w.files.staging r.stagingId := by
    intro r hr
    by_cases hu : r.stagingId = upload
    · rw [hu, FileAttachmentStore.setStaging_same]
      exact hnamed r hr hu
    · exact FileAttachmentStore.setStaging_other _ _ hu
  refine ⟨h.accepter, h.mover, fun n hn => ?_, h.unmoved, fun r hr hawaits => ?_,
    fun r hr n move hmove hreport hpoint => ?_, h.looks, h.oneRenames⟩
  · by_cases hu : (submissions n).request.uploadStagingId = upload
    · rw [hu, FileAttachmentStore.setStaging_same]
      exact huploaded n hn hu
    · rw [FileAttachmentStore.setStaging_other _ _ hu]
      exact h.uploaded n hn
  · have hkept := h.kept r hr hawaits
    unfold Kept at hkept ⊢
    rwa [hsame r hr]
  · rw [hsame r hr]
    exact h.renames r hr n move hmove hreport hpoint

theorem FilesOk.removeReport (h : w.FilesOk submissions)
    (hready : ∀ r ∈ w.tables.database.reports, r.id = report → r.ready = true)
    (hmoves : ∀ n move, (w.phase n).move? = some move → move.report ≠ report) :
    { w with files := w.files.removeReport report }.FilesOk submissions := by
  have hother : ∀ {id : ReportId}, id ≠ report →
      (w.files.removeReport report).reports id = w.files.reports id := fun hid =>
    Function.update_of_ne hid ..
  refine ⟨h.accepter, h.mover, h.uploaded, fun n hn => ?_, fun r hr hawaits => ?_, h.renames,
    fun r hr n move hmove hreport hpoint => ?_, h.oneRenames⟩
  · by_cases hid : (submissions n).request.reportId = report
    · rw [hid]
      exact Function.update_self ..
    · rw [hother hid]
      exact h.unmoved n hn
  · have hid : r.id ≠ report := by
      rcases hawaits with hpending | ⟨n, move, hmove, hreport⟩
      · intro hid
        rw [hready r hr hid] at hpending
        cases hpending
      · exact fun hid => hmoves n move hmove (hreport.trans hid)
    have hkept := h.kept r hr hawaits
    unfold Kept at hkept ⊢
    rwa [hother hid]
  · rw [hother fun hid => hmoves n move hmove (hreport.trans hid)]
    exact h.looks r hr n move hmove hreport hpoint

/-! ## A report is accepted -/

/-- A move of a submission that goes on to store its report is its first, or one of another report
that there was. -/
theorem FilesOk.move?_goTo_cases {first : FileMove} (h : w.FilesOk submissions)
    (hn : (w.phase n).isSettled = false) (hphase : phase.move? = some first)
    (hmove : (w.goTo n phase).move? mover = some move) :
    move = first ∨ (w.move? mover = some move ∧
      move.report ≠ (submissions n).request.reportId) := by
  by_cases hmn : mover = .submission n
  · subst hmn
    change ((w.goTo n phase).phase n).move? = some move at hmove
    rw [goTo_self, hphase] at hmove
    exact .inl (Option.some.inj hmove).symm
  · rw [move?_goTo hmn] at hmove
    exact .inr ⟨hmove, (h.mover mover move hmove).report_ne hn⟩

theorem FilesOk.accept {now : Timestamp} {tables : Tables} (h : w.FilesOk submissions)
    (hphase : w.phase n = .challenged now)
    (hreports : tables.database.reports =
      w.tables.database.reports ++ [(submissions n).request.report now]) :
    { w.goTo n (.storing ⟨(submissions n).request.reportId,
        (submissions n).request.uploadStagingId, .reportExists⟩) with
      tables := tables }.FilesOk submissions := by
  have hopen : (w.phase n).isSettled = false := by rw [hphase]; rfl
  obtain ⟨first, hfirst⟩ : ∃ first : FileMove, first = ⟨(submissions n).request.reportId,
    (submissions n).request.uploadStagingId, .reportExists⟩ := ⟨_, rfl⟩
  rw [← hfirst]
  have hsettled : ∀ m, (w.phase m).isSettled = true →
      ((w.goTo n (.storing first)).phase m).isSettled = true := fun m =>
    isSettled_goTo fun _ => rfl
  have haccepts : ({ w.goTo n (.storing first) with tables := tables } : World).Accepts
      submissions (submissions n).request.reportId (submissions n).request.uploadStagingId :=
    ⟨n, rfl, rfl, congrArg Phase.isSettled goTo_self⟩
  have hmoves : ∀ mover move, (w.goTo n (.storing first)).move? mover = some move →
      move = first ∨ (w.move? mover = some move ∧
        move.report ≠ (submissions n).request.reportId) :=
    fun _ _ => h.move?_goTo_cases hopen rfl
  refine ⟨fun r hr => ?_, fun mover move hmove => ?_, fun m hm => ?_, fun m hm => ?_,
    fun r hr hawaits => ?_, fun r hr m move hmove hreport hpoint => ?_,
    fun r hr m move hmove hreport hpoint => ?_,
    fun mover mover' move move' hmove hmove' hreport hpoint hpoint' => ?_⟩
  · change r ∈ tables.database.reports at hr
    rw [hreports] at hr
    rcases List.mem_append.mp hr with hr | hr
    · exact (h.accepter r hr).mono hsettled
    · rw [List.mem_singleton.mp hr]
      exact haccepts
  · rcases hmoves mover move hmove with rfl | ⟨hmove, -⟩
    · rw [congrArg FileMove.report hfirst, congrArg FileMove.upload hfirst]
      exact haccepts
    · exact (h.mover mover move hmove).mono hsettled
  · by_cases hmn : m = n
    · subst hmn
      change ((w.goTo m _).phase m).hasUpload = true at hm
      rw [goTo_self] at hm
      cases hm
    · change ((w.goTo n _).phase m).hasUpload = true at hm
      rw [goTo_of_ne hmn] at hm
      exact h.uploaded m hm
  · refine h.unmoved m (Bool.eq_false_iff.mpr fun hc => ?_)
    have hm' := hsettled m hc
    rw [show _ = false from hm] at hm'
    cases hm'
  · change r ∈ tables.database.reports at hr
    rw [hreports] at hr
    rcases List.mem_append.mp hr with hr | hr
    · refine h.kept r hr (hawaits.imp_right ?_)
      rintro ⟨m, move, hmove, hreport⟩
      rcases hmoves (.submission m) move hmove with rfl | ⟨hmove, -⟩
      · rw [hfirst] at hreport
        exact absurd hreport.symm ((h.accepter r hr).report_ne hopen)
      · exact ⟨m, move, hmove, hreport⟩
    · rw [List.mem_singleton.mp hr]
      exact .inl ⟨h.uploaded n (by rw [hphase]; rfl), h.unmoved n hopen⟩
  · rcases hmoves (.submission m) move hmove with rfl | ⟨hmove, hne⟩
    · rw [hfirst] at hpoint
      cases hpoint
    change r ∈ tables.database.reports at hr
    rw [hreports] at hr
    rcases List.mem_append.mp hr with hr | hr
    · exact h.renames r hr m move hmove hreport hpoint
    · rw [List.mem_singleton.mp hr] at hreport
      exact absurd hreport hne
  · rcases hmoves (.submission m) move hmove with rfl | ⟨hmove, hne⟩
    · rw [hfirst] at hpoint
      cases hpoint
    change r ∈ tables.database.reports at hr
    rw [hreports] at hr
    rcases List.mem_append.mp hr with hr | hr
    · exact h.looks r hr m move hmove hreport hpoint
    · rw [List.mem_singleton.mp hr] at hreport
      exact absurd hreport hne
  · rcases hmoves mover move hmove with rfl | ⟨hmove, -⟩
    · rw [hfirst] at hpoint
      cases hpoint
    rcases hmoves mover' move' hmove' with rfl | ⟨hmove', -⟩
    · rw [hfirst] at hpoint'
      cases hpoint'
    exact h.oneRenames mover mover' move move' hmove hmove' hreport hpoint hpoint'

/-! ## Files are moved -/

section

variable {next : FinalizePoint}

theorem setMove_isSettled {move' : FileMove} :
    ((w.setMove move' mover).phase n).isSettled = (w.phase n).isSettled := by
  cases mover with
  | submission m =>
    change ((w.goTo m _).phase n).isSettled = _
    by_cases hmn : n = m
    · subst hmn
      rw [goTo_self, Phase.isSettled_withMove]
    · rw [goTo_of_ne hmn]
  | recovery run => rfl

theorem setMove_hasUpload {move' : FileMove} :
    ((w.setMove move' mover).phase n).hasUpload = (w.phase n).hasUpload := by
  cases mover with
  | submission m =>
    change ((w.goTo m _).phase n).hasUpload = _
    by_cases hmn : n = m
    · subst hmn
      rw [goTo_self, Phase.hasUpload_withMove]
    · rw [goTo_of_ne hmn]
  | recovery run => rfl

@[simp] theorem setMove_files : (w.setMove move mover).files = w.files := by cases mover <;> rfl

@[simp] theorem setMove_tables : (w.setMove move mover).tables = w.tables := by cases mover <;> rfl

/-- The moves there are once one has gone on. -/
theorem move?_setMove_cases {other : Mover} {move' : FileMove} (hmove : w.move? mover = some move)
    (h : (w.setMove { move with point := next } mover).move? other = some move') :
    (other = mover ∧ move' = { move with point := next }) ∨ w.move? other = some move' := by
  by_cases ho : other = mover
  · subst ho
    rw [move?_setMove_self hmove] at h
    exact .inl ⟨rfl, (Option.some.inj h).symm⟩
  · rw [move?_setMove_of_ne ho] at h
    exact .inr h

/-- A move goes on to its next operation. -/
theorem FilesOk.setPoint (h : w.FilesOk submissions) (hmove : w.move? mover = some move)
    (hrename : next = .rename → w.NoneRenames move.report ∧ w.files.reports move.report = none)
    (hlook : next = .stagingExists → w.files.reports move.report ≠ none) :
    (w.setMove { move with point := next } mover).FilesOk submissions := by
  have haccepts : ∀ {report : ReportId} {upload : UploadId},
      w.Accepts submissions report upload →
      (w.setMove { move with point := next } mover).Accepts submissions report upload := fun ha =>
    ha.mono fun n hn => setMove_isSettled.trans hn
  refine ⟨fun r hr => ?_, fun other move' hother => ?_, fun n hn => ?_, fun n hn => ?_,
    fun r hr hawaits => ?_, fun r hr n move' hmove' hreport hpoint => ?_,
    fun r hr n move' hmove' hreport hpoint => ?_,
    fun other other' move₁ move₂ hmove₁ hmove₂ hreport hpoint hpoint' => ?_⟩
  · rw [setMove_tables] at hr
    exact haccepts (h.accepter r hr)
  · rcases move?_setMove_cases hmove hother with ⟨-, rfl⟩ | hother
    · exact haccepts (h.mover mover move hmove)
    · exact haccepts (h.mover other move' hother)
  · rw [setMove_hasUpload] at hn
    rw [setMove_files]
    exact h.uploaded n hn
  · rw [setMove_isSettled] at hn
    rw [setMove_files]
    exact h.unmoved n hn
  · rw [setMove_tables] at hr
    unfold Kept
    rw [setMove_files]
    refine h.kept r hr (hawaits.imp_right ?_)
    rintro ⟨n, move', hmove', hreport⟩
    rcases move?_setMove_cases hmove hmove' with ⟨rfl, rfl⟩ | hmove'
    · exact ⟨n, move, hmove, hreport⟩
    · exact ⟨n, move', hmove', hreport⟩
  · rw [setMove_tables] at hr
    rw [setMove_files]
    rcases move?_setMove_cases hmove hmove' with ⟨rfl, rfl⟩ | hmove'
    · have hkept := h.kept r hr (.inr ⟨n, move, hmove, hreport⟩)
      have hnone := (hrename hpoint).2
      rw [show move.report = r.id from hreport] at hnone
      exact hkept.elim And.left fun hc => absurd hnone hc.2
    · exact h.renames r hr n move' hmove' hreport hpoint
  · rw [setMove_tables] at hr
    rw [setMove_files]
    rcases move?_setMove_cases hmove hmove' with ⟨rfl, rfl⟩ | hmove'
    · have hsome := hlook hpoint
      rwa [show move.report = r.id from hreport] at hsome
    · exact h.looks r hr n move' hmove' hreport hpoint
  · rcases move?_setMove_cases hmove hmove₁ with ⟨hm, rfl⟩ | hold₁ <;>
      rcases move?_setMove_cases hmove hmove₂ with ⟨hm', rfl⟩ | hold₂
    · exact hm.trans hm'.symm
    · exact absurd hpoint' ((hrename hpoint).1 other' move₂ hold₂ hreport.symm)
    · exact absurd hpoint ((hrename hpoint').1 other move₁ hold₁ hreport)
    · exact h.oneRenames other other' move₁ move₂ hold₁ hold₂ hreport hpoint hpoint'

/-- The directory of an upload becomes that of its report, which nobody else is to rename. -/
theorem FilesOk.rename {files : Directory} (h : w.FilesOk submissions)
    (haccepts : w.Accepts submissions report upload) (hnone : w.NoneRenames report) :
    { w with
      files := ⟨Function.update w.files.staging upload none,
        Function.update w.files.reports report (some files)⟩ }.FilesOk submissions := by
  have hupload : ∀ r ∈ w.tables.database.reports, r.id ≠ report → r.stagingId ≠ upload :=
    fun r hr hid hu => hid ((h.accepter r hr).report_eq (hu ▸ haccepts))
  refine ⟨h.accepter, h.mover, fun n hn => ?_, fun n hn => ?_, fun r hr hawaits => ?_,
    fun r hr n move hmove hreport hpoint => ?_, fun r hr n move hmove hreport hpoint => ?_,
    h.oneRenames⟩
  · have hne : upload ≠ (submissions n).request.uploadStagingId :=
      haccepts.upload_ne (Phase.isSettled_of_hasUpload hn)
    change Function.update w.files.staging upload none _ ≠ none
    rw [Function.update_of_ne hne.symm]
    exact h.uploaded n hn
  · have hne : report ≠ (submissions n).request.reportId := haccepts.report_ne hn
    change Function.update w.files.reports report (some files) _ = none
    rw [Function.update_of_ne hne.symm]
    exact h.unmoved n hn
  · by_cases hid : r.id = report
    · have hsame : r.stagingId = upload := (h.accepter r hr).upload_eq (hid ▸ haccepts)
      refine .inr ⟨?_, ?_⟩
      · rw [hsame]
        exact Function.update_self ..
      · rw [hid]
        change Function.update w.files.reports report (some files) report ≠ none
        rw [Function.update_self]
        exact Option.some_ne_none _
    · have hkept := h.kept r hr hawaits
      unfold Kept at hkept ⊢
      dsimp only
      rwa [Function.update_of_ne (hupload r hr hid), Function.update_of_ne hid]
  · have hid : r.id ≠ report := fun hid =>
      hnone (.submission n) move hmove (hreport.trans hid) hpoint
    change Function.update w.files.staging upload none r.stagingId ≠ none
    rw [Function.update_of_ne (hupload r hr hid)]
    exact h.renames r hr n move hmove hreport hpoint
  · change Function.update w.files.reports report (some files) r.id ≠ none
    by_cases hid : r.id = report
    · rw [hid, Function.update_self]
      exact Option.some_ne_none _
    · rw [Function.update_of_ne hid]
      exact h.looks r hr n move hmove hreport hpoint

/-- An operation of `finalize` by whoever looks while nobody else is about to rename. -/
theorem FilesOk.moveOn {files : FileAttachmentStore} (h : w.FilesOk submissions)
    (hmove : w.move? mover = some move)
    (hlook : move.point = .reportExists → w.NoneRenames move.report)
    (hstep : finalizeStep w.files move.upload move.report move.point = .ok (files, next)) :
    { w.setMove { move with point := next } mover with files := files }.FilesOk submissions := by
  rcases finalizeStep_cases hstep with ⟨rfl, hnext⟩ | ⟨hpoint, directory, -, rfl, rfl⟩
  · -- It only looks, and what it is to do next follows from what it has seen.
    have hset : (w.setMove { move with point := next } mover).FilesOk submissions := by
      refine h.setPoint hmove (fun hc => ?_) fun hc => ?_
      · rcases hnext with ⟨-, hpoint, hnone⟩ | ⟨hc', -⟩ | ⟨hc', -⟩
        · exact ⟨hlook hpoint, hnone⟩
        · rw [hc] at hc'; cases hc'
        · rw [hc] at hc'; cases hc'
      · rcases hnext with ⟨hc', -⟩ | ⟨-, hsome⟩ | ⟨hc', -⟩
        · rw [hc] at hc'; cases hc'
        · exact hsome
        · rw [hc] at hc'; cases hc'
    have heq : { w.setMove { move with point := next } mover with files := w.files } =
        w.setMove { move with point := next } mover := by cases mover <;> rfl
    rwa [heq]
  · have hset : (w.setMove { move with point := .sync } mover).FilesOk submissions :=
      h.setPoint hmove (fun hc => by cases hc) fun hc => by cases hc
    have hnone : (w.setMove { move with point := .sync } mover).NoneRenames move.report := by
      intro other move' hother hreport hrename
      rcases move?_setMove_cases hmove hother with ⟨-, rfl⟩ | hother'
      · cases hrename
      · obtain rfl := h.oneRenames other mover move' _ hother' hmove hreport hrename hpoint
        rw [move?_setMove_self hmove] at hother
        cases hother
        cases hrename
    have haccepts : (w.setMove { move with point := .sync } mover).Accepts submissions move.report
        move.upload :=
      (h.mover mover _ hmove).mono fun n hn => setMove_isSettled.trans hn
    simpa only [setMove_files] using hset.rename haccepts hnone

end

/-! ## Every step -/

theorem markStorageReady_reports {t : Tables} {r' : Report}
    (hr' : r' ∈ (t.markStorageReady report upload).database.reports) :
    ∃ r ∈ t.database.reports, r'.id = r.id ∧ r'.stagingId = r.stagingId ∧
      (r.ready = true → r'.ready = true) := by
  unfold Tables.markStorageReady Database.markStorageReady at hr'
  dsimp only at hr'
  split at hr'
  · obtain ⟨r, hr, rfl⟩ := List.mem_map.mp hr'
    refine ⟨r, hr, ?_⟩
    split
    · exact ⟨rfl, rfl, fun _ => rfl⟩
    · exact ⟨rfl, rfl, id⟩
  · exact ⟨r', hr', rfl, rfl, id⟩

theorem Step.filesOk {l : Label} (h : Step submissions hash w l w')
    (horderly : w.Orderly submissions l) (hok : w.FilesOk submissions) :
    w'.FilesOk submissions := by
  have hsame : ∀ r ∈ w.tables.database.reports, ∃ s ∈ w.tables.database.reports,
      r.id = s.id ∧ r.stagingId = s.stagingId ∧ (s.ready = true → r.ready = true) :=
    fun r hr => ⟨r, hr, rfl, rfl, id⟩
  cases h with
  | findReceipt n r hphase hfound =>
    unfold foundReport
    split
    · exact hok.goRecover (List.mem_of_find?_eq_some hfound) (by rw [hphase]; rfl)
    · exact hok.goDone (Phase.done_answered _)
  | prepare n hphase hnone hclaims hnew =>
    have hopen : (w.phase n).isSettled = false := by rw [hphase]; rfl
    have hset : FilesOk submissions { w with
        files := w.files.setStaging (submissions n).request.uploadStagingId
          (some ((submissions n).attachments.map (·.id))) } :=
      hok.setStaging (fun r hr hu => absurd hu ((hok.accepter r hr).upload_ne hopen))
        fun _ _ _ => Option.some_ne_none _
    refine hset.goTo (fun hs => ?_) (fun _ => ?_) fun move hmove => by cases hmove
    · rw [show (w.phase n).isSettled = true from hs] at hopen
      cases hopen
    · change (w.files.setStaging _ _).staging _ ≠ none
      rw [FileAttachmentStore.setStaging_same]
      exact Option.some_ne_none _
  | refuse n error hphase hnone => exact hok.goDone (Phase.done_answered _)
  | refuseUpload n error hphase => exact hok.goDone (Phase.done_abandoning _)
  | begin n now hphase hnow => exact hok.goOn (by rw [hphase]; rfl) rfl
  | lock n now hphase hfree => exact hok.goOn (by rw [hphase]; rfl) rfl
  | findExisting n now r hphase hfound =>
    split
    · exact hok.goOn (by rw [hphase]; rfl) rfl
    · exact hok.goDone (Phase.done_abandoning _)
  | findNone n now hphase hnone => exact hok.goOn (by rw [hphase]; rfl) rfl
  | lockChallenge n now hphase hopen hfree => exact hok.goOn (by rw [hphase]; rfl) rfl
  | rejectChallenge n now hphase hclosed => exact hok.goDone (Phase.done_abandoning _)
  | accept n now tables hphase hinsert =>
    exact (hok.accept hphase (Tables.inserted_of_ok hinsert).reports).frame rfl (fun _ hn => hn)
      (hok.accept hphase (Tables.inserted_of_ok hinsert).reports).uploaded
      (fun r hr => ⟨r, hr, rfl, rfl, id⟩) fun _ _ hmove => .inl hmove
  | rollback n now error hphase hinsert => exact hok.goDone (Phase.done_abandoning _)
  | findAccepted n r hphase hfound =>
    have hopen : (w.phase n).isSettled = false := by rw [hphase]; rfl
    have hgo := hok.goRecover (List.mem_of_find?_eq_some hfound) hopen
    split
    · exact hgo
    · refine hgo.setStaging (fun s hs hu => ?_) fun m hm hu => ?_
      · exact absurd hu ((hok.accepter s hs).upload_ne hopen)
      · rw [submissions.uploadId_injective hu] at hm
        change ((w.goTo n _).phase n).hasUpload = true at hm
        rw [goTo_self] at hm
        unfold recoverReceipt at hm
        split at hm <;> cases hm
  | startRecovery run r hidle hr hpending =>
    refine hok.setRecovery fun move hmove => ?_
    obtain rfl := Option.some.inj hmove
    exact ⟨rfl, r, hr, hpending, rfl, rfl⟩
  | moveOn mover move files next hmove hpoint hstep =>
    refine hok.moveOn hmove (fun hlook => ?_) hstep
    cases mover with
    | submission n => exact horderly move hmove hlook
    | recovery run => exact horderly move hmove hlook
  | moveFails mover move error hmove hstep => exact hok.failMove
  | markReady mover move hmove hpoint =>
    refine hok.endMove.setTables fun r hr => ?_
    obtain ⟨s, hs, hr⟩ := markStorageReady_reports hr
    exact ⟨s, by cases mover <;> exact hs, hr⟩
  | fail n hphase => exact hok.goDone Phase.done_failed
  | stop n hphase => exact hok.goDone (Phase.done_answered _)
  | abandon n answer hphase =>
    refine (hok.goDone (Phase.done_answered answer)).setStaging (fun r hr hu => ?_)
      fun m hm hu => ?_
    · exact (hu ▸ horderly r hr hu).symm
    · rw [submissions.uploadId_injective hu, goTo_self] at hm
      cases hm
  | leaveUpload n answer hphase => exact hok.goDone (Phase.done_answered _)
  | sweepStaging upload hover hunreferenced =>
    refine hok.setStaging (fun r hr hu => absurd hu (hunreferenced r hr)) fun n hn hu => ?_
    rw [Phase.hasUpload_of_isAnswered (hover n hu)] at hn
    cases hn
  | tick now hnow => exact hok.frame rfl (fun _ hn => hn) hok.uploaded hsame fun _ _ h => .inl h
  | issueChallenge id digest tokenHash expiresAt database hnew hissue =>
    obtain ⟨u, -, hissue⟩ := Rust.bind_eq_ok.mp hissue
    obtain rfl := Rust.pure_eq_ok.mp hissue
    exact hok.frame rfl (fun _ hn => hn) hok.uploaded hsame fun _ _ h => .inl h
  | sweepChallenges now hfree => exact hok.setTables hsame
  | removeReport report => exact hok.removeReport horderly.1 horderly.2
  | deleteReport report hunreferenced =>
    exact hok.setTables fun r hr => hsame r (List.mem_filter.mp hr).1
  | review tables change hreports hchallenges hid hsubmission hdigest hstaging hstorage =>
    refine hok.setTables fun r hr => ?_
    rw [hreports] at hr
    obtain ⟨s, hs, rfl⟩ := List.mem_map.mp hr
    refine ⟨s, hs, hid s, hstaging s, fun hready => ?_⟩
    unfold Report.ready at hready ⊢
    rwa [hstorage s]

end World

end LadybirdReports.Ingestion
