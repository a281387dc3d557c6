import LadybirdReports.Ingestion.Submission

/-!
# The invariant of uploads

In a service whose accepted reports keep their files each upload is in order (`UploadOk`): what the
database, the directories and its request say of it agree. Whoever recovers a report knows it from
a row.

The steps are put together from a few changes, each of which keeps `Inv`: a request goes on
(`Inv.goTo`) or drops its submission (`Inv.leave`), a directory changes (`Inv.setStaging`,
`Inv.finalizeStep`), a row is added or marked ready (`Inv.commit`, `Inv.markReady`).
-/

namespace LadybirdReports.Ingestion

/-! ## What an upload looks like -/

/-- The part of the state that is about one upload. -/
structure View where
  point : Point
  inFlight : Bool
  removal : Bool
  staging : Option Directory
  report : Option Directory
  rows : List ReportRow

def State.view (c : Requests) (s : State) (upload : UploadId) : View :=
  { point := s.point upload, inFlight := s.inFlight upload, removal := s.removal upload,
    staging := s.files.staging upload, report := s.files.reports (c.reportId upload),
    rows := s.reports.filter (·.stagingId = upload) }

/-- What holds of an upload where its request waits. -/
def View.AtPoint (attachments : List AttachmentId) (v : View) : Prop :=
  match v.point with
  | .preparing | .beginning | .recovering .. | .acquiringLease | .receiving _ | .validating =>
    v.rows = [] ∧ v.inFlight = false ∧ v.removal = false
  | .accepting | .crashed =>
    v.removal = false ∧ (v.inFlight → ∃ files, v.staging = some files ∧ attachments ⊆ files)
  | .removingOwn _ | .recoveringExisting .. => v.rows = [] ∧ v.inFlight = false
  | .finalizing point =>
    v.rows ≠ [] ∧ (point ≠ .reportExists → point ≠ .rename → v.staging = none)
  | .releasing _ | .abandoning _ | .finished => True

/-- The upload is in order. -/
structure UploadOk (c : Requests) (upload : UploadId) (v : View) : Prop where
  /-- The files of its report are stored. -/
  rows : ∀ row ∈ v.rows, row.id = c.reportId upload ∧ Stored v.staging v.report row.attachments
  /-- Only a committed report has a directory. -/
  report : v.report ≠ none → v.rows ≠ []
  inFlight : v.inFlight → v.rows = []
  /-- A removal that is on its way finds nothing of a committed report. -/
  removal : v.removal ∨ v.point.removes → v.rows ≠ [] → v.staging = none
  atPoint : v.AtPoint (c.manifest upload).attachments

/-- The row of a report names its upload. -/
def Known (s : State) (report : ReportId) (upload : UploadId) : Prop :=
  ∃ row ∈ s.reports, row.id = report ∧ row.stagingId = upload

/-- The receipt a request holds. -/
def Point.receipt? : Point → Option ReportReceipt
  | .recovering receipt _ | .removingOwn receipt | .recoveringExisting receipt _ _ => some receipt
  | _ => none

structure Inv (c : Requests) (s : State) : Prop where
  upload : ∀ upload, UploadOk c upload (s.view c upload)
  receipt : ∀ upload receipt, (s.point upload).receipt? = some receipt →
    Known s receipt.reportId receipt.stagingId
  recovery : ∀ run, ∀ p ∈ (s.recovery run).pending, Known s p.1 p.2

section

variable {c : Requests} {s s' : State} {upload : UploadId} {report : ReportId}

theorem inv_init (c : Requests) : Inv c State.init where
  upload _ := ⟨by simp [State.view, State.init], by simp [State.view, State.init,
    FileAttachmentStore.empty], by simp [State.view, State.init], by simp [State.view, State.init],
    ⟨rfl, rfl, rfl⟩⟩
  receipt _ _ h := by simp [State.init, Point.receipt?] at h
  recovery _ _ h := by simp [State.init, Recovery.idle] at h

variable (c) in
theorem view_rows_ne_nil : (s.view c upload).rows ≠ [] ↔ Committed s upload := by
  simp [State.view, Committed, List.filter_eq_nil_iff]

variable (c) in
theorem view_rows_eq_nil : (s.view c upload).rows = [] ↔ ¬ Committed s upload := by
  rw [← not_iff_not, not_not]; exact view_rows_ne_nil c

theorem Known.committed (h : Known s report upload) : Committed s upload :=
  let ⟨row, hrow, _, hu⟩ := h
  ⟨row, hrow, hu⟩

theorem Inv.known (h : Inv c s) (hk : Known s report upload) : report = c.reportId upload := by
  obtain ⟨row, hrow, rfl, rfl⟩ := hk
  exact ((h.upload row.stagingId).rows row (by simp [State.view, hrow])).1

/-- A change to one upload keeps the invariant when it leaves that upload in order. -/
theorem Inv.change (h : Inv c s) (upload : UploadId)
    (hother : ∀ other ≠ upload, s'.view c other = s.view c other)
    (hupload : UploadOk c upload (s'.view c upload))
    (hknown : ∀ report upload, Known s report upload → Known s' report upload)
    (hreceipt : ∀ receipt, (s'.point upload).receipt? = some receipt →
      Known s' receipt.reportId receipt.stagingId)
    (hrecovery : ∀ run, ∀ p ∈ (s'.recovery run).pending, Known s' p.1 p.2) : Inv c s' where
  upload other := by
    by_cases ho : other = upload
    · rw [ho]; exact hupload
    · rw [hother other ho]; exact h.upload other
  receipt other receipt hr := by
    by_cases ho : other = upload
    · rw [ho] at hr; exact hreceipt receipt hr
    · have hp : s'.point other = s.point other := congrArg View.point (hother other ho)
      rw [hp] at hr
      exact hknown _ _ (h.receipt other receipt hr)
  recovery := hrecovery

/-! ## A request goes on -/

theorem view_goTo (point : Point) :
    (s.goTo upload point).view c upload = { s.view c upload with point } := by
  simp [State.view, State.goTo]

theorem view_goTo_other (point : Point) {other : UploadId} (h : other ≠ upload) :
    (s.goTo upload point).view c other = s.view c other := by
  simp [State.view, State.goTo, Function.update_of_ne h]

theorem Inv.goTo (h : Inv c s) {point : Point}
    (hremoves : point.removes → Committed s upload → s.files.staging upload = none)
    (hpoint : ({ s.view c upload with point } : View).AtPoint (c.manifest upload).attachments)
    (hreceipt : ∀ receipt, point.receipt? = some receipt →
      Known s receipt.reportId receipt.stagingId) : Inv c (s.goTo upload point) := by
  refine h.change upload (fun other ho => view_goTo_other point ho) ?_ (fun _ _ hk => hk)
    (fun receipt hr => hreceipt receipt ?_) h.recovery
  · rw [view_goTo]
    obtain ⟨h1, h2, h3, h4, -⟩ := h.upload upload
    refine ⟨h1, h2, h3, fun hr hc => ?_, hpoint⟩
    rcases hr with hr | hr
    · exact h4 (.inl hr) hc
    · exact hremoves hr ((view_rows_ne_nil c).mp hc)
  · simpa [State.goTo] using hr

/-- A request that drops its submission must not leave a committed report in staging. -/
theorem Inv.leave (h : Inv c s) {point : Point}
    (hpoint : point = .finished ∨ ∃ accepted, point = .releasing accepted)
    (hstaging : (s.point upload).removesOnDrop ∨ point.removes → Committed s upload →
      s.files.staging upload = none) : Inv c ((s.dropPrepared upload).goTo upload point) := by
  refine h.change upload (fun other ho => ?_) ?_ (fun _ _ hk => hk) (fun receipt hr => ?_)
    h.recovery
  · rw [view_goTo_other point ho]
    simp [State.view, State.dropPrepared, Function.update_of_ne ho]
  · rw [view_goTo]
    obtain ⟨h1, h2, h3, h4, -⟩ := h.upload upload
    refine ⟨h1, h2, h3, fun hr hc => ?_, ?_⟩
    · have hc' : Committed s upload := (view_rows_ne_nil c).mp hc
      simp only [State.view, State.dropPrepared, Function.update_self, Bool.or_eq_true] at hr
      rcases hr with (hr | hr) | hr
      · exact h4 (.inl hr) hc
      · exact hstaging (.inl hr) hc'
      · exact hstaging (.inr hr) hc'
    · rcases hpoint with rfl | ⟨accepted, rfl⟩ <;> trivial
  · have hr : point.receipt? = some receipt := by simpa [State.goTo] using hr
    rcases hpoint with rfl | ⟨accepted, rfl⟩ <;> cases hr

/-! ## A directory changes -/

theorem Inv.setStaging (h : Inv c s) {staging : Option Directory}
    (hkept : Committed s upload → staging = s.files.staging upload)
    (hpoint : s.point upload ≠ .accepting ∧ s.point upload ≠ .crashed) :
    Inv c { s with files := s.files.setStaging upload staging } := by
  refine h.change upload (fun other ho => ?_) ?_ (fun _ _ hk => hk) (h.receipt upload) h.recovery
  · simp [State.view, FileAttachmentStore.setStaging_other _ _ ho]
  · obtain ⟨h1, h2, h3, h4, h5⟩ := h.upload upload
    by_cases hc : Committed s upload
    · rw [hkept hc]
      have hsame : s.files.setStaging upload (s.files.staging upload) = s.files := by
        unfold FileAttachmentStore.setStaging
        rw [Function.update_eq_self]
      rw [hsame]
      exact ⟨h1, h2, h3, h4, h5⟩
    · have hrows : (s.view c upload).rows = [] := (view_rows_eq_nil c).mpr hc
      refine ⟨fun row hrow => ?_, h2, h3, fun _ hne => absurd hrows hne, ?_⟩
      · have hrow' : row ∈ (s.view c upload).rows := hrow
        rw [hrows] at hrow'
        cases hrow'
      · simp only [View.AtPoint, State.view] at h5 ⊢
        cases hp : s.point upload <;> simp only [hp] at h5 ⊢
        case accepting => exact absurd hp hpoint.1
        case crashed => exact absurd hp hpoint.2
        case finalizing => exact absurd hrows h5.1
        all_goals exact h5

/-- A step of `finalize`, by whoever knows the report. -/
theorem Inv.finalizeStep (h : Inv c s) {after : FileAttachmentStore} {point next : FinalizePoint}
    (hk : Known s report upload)
    (hstep : finalizeStep s.files upload report point = .ok (after, next)) :
    Inv c { s with files := after } := by
  obtain rfl := h.known hk
  rcases finalizeStep_cases hstep with ⟨rfl, -⟩ | ⟨-, files, hs, -, rfl⟩
  · exact h
  · have hrows : (s.view c upload).rows ≠ [] := (view_rows_ne_nil c).mpr hk.committed
    refine h.change upload (fun other ho => ?_) ?_ (fun _ _ hk => hk) (h.receipt upload) h.recovery
    · have hne : c.reportId other ≠ c.reportId upload := c.reportId_injective.ne ho
      simp [State.view, Function.update_of_ne ho, Function.update_of_ne hne]
    · obtain ⟨h1, h2, h3, h4, h5⟩ := h.upload upload
      refine ⟨fun row hrow => ⟨(h1 row hrow).1, .inr ?_⟩, fun _ => hrows, h3, fun _ _ => ?_, ?_⟩
      · simp only [State.view, Function.update_self, true_and]
        rcases (h1 row hrow).2 with ⟨held, hheld, hsub, -⟩ | ⟨hnone, -⟩
        · rw [show s.files.staging upload = some held from hheld] at hs
          cases hs
          exact ⟨files, rfl, hsub⟩
        · rw [show s.files.staging upload = none from hnone] at hs
          cases hs
      · simp [State.view]
      · have hsent : s.inFlight upload ≠ true := fun hi => hrows (h3 hi)
        simp only [View.AtPoint, State.view] at h5 ⊢
        cases hp : s.point upload <;> simp only [hp] at h5 ⊢
        case accepting => exact ⟨h5.1, fun hi => absurd hi hsent⟩
        case crashed => exact ⟨h5.1, fun hi => absurd hi hsent⟩
        case finalizing => exact ⟨h5.1, fun _ _ => Function.update_self ..⟩
        all_goals exact h5

/-! ## The database changes -/

theorem markStorageReady_filter (reports : List ReportRow) (other : UploadId) :
    (markStorageReady reports report upload).filter (·.stagingId = other) =
      markStorageReady (reports.filter (·.stagingId = other)) report upload := by
  unfold markStorageReady
  rw [List.filter_map]
  congr 2
  funext row
  simp only [Function.comp]
  split <;> rfl

theorem mem_markStorageReady {reports : List ReportRow} {row : ReportRow}
    (h : row ∈ markStorageReady reports report upload) :
    ∃ old ∈ reports, row.id = old.id ∧ row.stagingId = old.stagingId ∧
      row.attachments = old.attachments := by
  obtain ⟨old, hold, rfl⟩ := List.mem_map.mp h
  refine ⟨old, hold, ?_⟩
  split <;> exact ⟨rfl, rfl, rfl⟩

theorem markStorageReady_eq_nil {reports : List ReportRow} :
    markStorageReady reports report upload = [] ↔ reports = [] := List.map_eq_nil_iff

theorem Known.markReady {upload' : UploadId} {report' : ReportId} (h : Known s report upload) :
    Known { s with reports := markStorageReady s.reports report' upload' } report upload := by
  obtain ⟨row, hrow, rfl, rfl⟩ := h
  refine ⟨_, List.mem_map.mpr ⟨row, hrow, rfl⟩, ?_⟩
  split <;> exact ⟨rfl, rfl⟩

theorem Inv.markReady (h : Inv c s) :
    Inv c { s with reports := markStorageReady s.reports report upload } where
  upload other := by
    obtain ⟨h1, h2, h3, h4, h5⟩ := h.upload other
    simp only [State.view, View.AtPoint, ne_eq] at h1 h2 h3 h4 h5 ⊢
    rw [markStorageReady_filter]
    refine ⟨fun row hrow => ?_, ?_, ?_, ?_, ?_⟩
    · obtain ⟨old, hold, hid, -, hatt⟩ := mem_markStorageReady hrow
      rw [hid, hatt]
      exact h1 old hold
    · simpa only [ne_eq, markStorageReady_eq_nil] using h2
    · simpa only [markStorageReady_eq_nil] using h3
    · simpa only [ne_eq, markStorageReady_eq_nil] using h4
    · simp only [View.AtPoint]
      cases hp : s.point other <;> simp only [hp, ne_eq, markStorageReady_eq_nil] at h5 ⊢ <;>
        exact h5
  receipt other receipt hr := (h.receipt other receipt hr).markReady
  recovery run p hp := (h.recovery run p hp).markReady

/-- The database commits the report of a request that still waits for it. -/
theorem Inv.commit (h : Inv c s) (hsent : s.inFlight upload)
    (hpoint : s.point upload = .accepting ∨ s.point upload = .crashed) :
    Inv c { s.setInFlight upload false with reports := s.reports ++ [newReport c upload] } := by
  have hrows : (s.view c upload).rows = [] := (h.upload upload).inFlight hsent
  refine h.change upload (fun other ho => ?_) ?_ (fun report other hk => ?_) (fun receipt hr => ?_)
    (fun run p hp => ?_)
  · simp [State.view, State.setInFlight, Function.update_of_ne ho, newReport, ho.symm]
  · obtain ⟨h1, h2, h3, h4, h5⟩ := h.upload upload
    have hrow : (s.reports ++ [newReport c upload]).filter (·.stagingId = upload) =
        [newReport c upload] := by
      have hnil : s.reports.filter (·.stagingId = upload) = [] := hrows
      rw [List.filter_append, hnil]
      simp [newReport]
    have hdir : s.files.reports (c.reportId upload) = none := by
      by_contra hne
      exact h2 hne hrows
    have hready : s.removal upload = false ∧
        ∃ files, s.files.staging upload = some files ∧ (c.manifest upload).attachments ⊆ files := by
      rcases hpoint with hp | hp <;> simp only [View.AtPoint, State.view, hp] at h5 <;>
        exact ⟨h5.1, h5.2 hsent⟩
    obtain ⟨hremoval, files, hs, hsub⟩ := hready
    simp only [State.view, State.setInFlight, Function.update_self, hrow]
    refine ⟨?_, ?_, ?_, ?_, ?_⟩
    · intro row hr
      obtain rfl := List.mem_singleton.mp hr
      exact ⟨rfl, .inl ⟨files, hs, hsub, hdir⟩⟩
    · simp
    · simp
    · rcases hpoint with hp | hp <;> simp [hp, hremoval, Point.removes]
    · rcases hpoint with hp | hp <;> simp [View.AtPoint, hp, hremoval]
  · obtain ⟨row, hrow, hid⟩ := hk
    exact ⟨row, List.mem_append_left _ hrow, hid⟩
  · rcases hpoint with hp | hp <;> simp [State.setInFlight, hp, Point.receipt?] at hr
  · obtain ⟨row, hrow, hid⟩ := h.recovery run p hp
    exact ⟨row, List.mem_append_left _ hrow, hid⟩

theorem Inv.rollback (h : Inv c s) : Inv c (s.setInFlight upload false) := by
  refine h.change upload (fun other ho => ?_) ?_ (fun _ _ hk => hk) (h.receipt upload) h.recovery
  · simp [State.view, State.setInFlight, Function.update_of_ne ho]
  · obtain ⟨h1, h2, -, h4, h5⟩ := h.upload upload
    simp only [State.view, State.setInFlight, Function.update_self, View.AtPoint] at h1 h2 h4 h5 ⊢
    refine ⟨h1, h2, by simp, h4, ?_⟩
    simp only [View.AtPoint]
    cases hp : s.point upload <;> simp_all

/-- A validated upload is sent to the database. -/
theorem Inv.send (h : Inv c s) {files : Directory} (hpoint : s.point upload = .validating)
    (hs : s.files.staging upload = some files)
    (hsub : (c.manifest upload).attachments ⊆ files) :
    Inv c ((s.setInFlight upload true).goTo upload .accepting) := by
  have hat := (h.upload upload).atPoint
  simp only [View.AtPoint, State.view, hpoint] at hat
  refine h.change upload (fun other ho => ?_) ?_ (fun _ _ hk => hk) (fun receipt hr => ?_)
    h.recovery
  · rw [view_goTo_other _ ho]
    simp [State.view, State.setInFlight, Function.update_of_ne ho]
  · rw [view_goTo]
    obtain ⟨h1, h2, -, h4, -⟩ := h.upload upload
    refine ⟨h1, h2, fun _ => hat.1, fun _ hc => absurd hat.1 hc, hat.2.2,
      fun _ => ⟨files, hs, hsub⟩⟩
  · simp [State.goTo, Point.receipt?] at hr

/-! ## The recovery of a report -/

/-- Where nothing is left to do for the receipt, the submission is dropped. -/
theorem Inv.recover (h : Inv c s) {receipt : ReportReceipt} {waiting : FinalizePoint → Point}
    {done : Point} (hk : Known s receipt.reportId receipt.stagingId)
    (hdone : done = .finished ∨ done = .releasing true)
    (hdrop : (s.point upload).removesOnDrop → ¬ Committed s upload)
    (hwaiting : ∀ point,
      ({ s.view c upload with point := waiting point } : View).AtPoint
        (c.manifest upload).attachments ∧
      (waiting point).removes = false ∧ (waiting point).receipt? = some receipt) :
    Inv c (s.recover upload receipt waiting done) := by
  unfold State.recover
  split_ifs
  · refine h.leave (hdone.imp id fun hd => ⟨true, hd⟩) fun hr hc => ?_
    rcases hr with hr | hr
    · exact absurd hc (hdrop hr)
    · rcases hdone with rfl | rfl <;> cases hr
  · obtain ⟨hat, hrem, hrec⟩ := hwaiting .reportExists
    refine h.goTo (fun hr => ?_) hat (fun other ho => ?_)
    · rw [hrem] at hr; cases hr
    · rw [hrec] at ho; cases ho; exact hk

theorem Inv.recoverStep (h : Inv c s) {receipt : ReportReceipt} {point : FinalizePoint}
    {waiting : FinalizePoint → Point} {done failed : Point}
    (hk : Known s receipt.reportId receipt.stagingId)
    (hdone : done = .finished ∨ done = .releasing true)
    (hfailed : failed = .finished ∨ failed = .releasing false)
    (hfree : ¬ Committed s upload)
    (hwaiting : ∀ next (after : FileAttachmentStore),
      ({ ({ s with files := after } : State).view c upload with point := waiting next } :
        View).AtPoint (c.manifest upload).attachments ∧
      (waiting next).removes = false ∧ (waiting next).receipt? = some receipt) :
    Inv c (s.recoverStep upload receipt point waiting done failed) := by
  unfold State.recoverStep
  split_ifs
  · have hleave : Inv c ((s.dropPrepared upload).goTo upload done) :=
      h.leave (hdone.imp id fun hd => ⟨true, hd⟩) fun _ hc => absurd hc hfree
    exact hleave.markReady
  · split
    · rename_i after next hstep
      obtain ⟨hat, hrem, hrec⟩ := hwaiting next after
      refine (h.finalizeStep hk hstep).goTo (fun hr => ?_) hat (fun other ho => ?_)
      · rw [hrem] at hr; cases hr
      · rw [hrec] at ho; cases ho; exact hk
    · exact h.leave (hfailed.imp id fun hd => ⟨false, hd⟩) fun _ hc => absurd hc hfree

theorem known_of_findReceipt {reports : List ReportRow} {submission : SubmissionId}
    {digest : String} {receipt : ReportReceipt} (hs : s.reports = reports)
    (h : findReceipt reports submission digest = some receipt) :
    Known s receipt.reportId receipt.stagingId := by
  obtain ⟨row, hrow, rfl⟩ := Option.map_eq_some_iff.mp h
  exact ⟨row, hs ▸ List.mem_of_find?_eq_some hrow, rfl, rfl⟩

end

end LadybirdReports.Ingestion
