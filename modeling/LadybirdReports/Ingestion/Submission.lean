import LadybirdReports.Domain.States
import LadybirdReports.Ingestion.Attachments
import LadybirdReports.Lib.Run

/-!
# Submitting a report

`submit_report` as a process that can be stopped wherever it waits. Any number of requests run at
once, with the database, the runs of `recover_pending_storage` and the removals that dropped
submissions leave behind. A request draws at most one upload ID and one report ID, and no two
requests draw the same, so a request is named by its upload ID.

A `Point` is what a request waits for. `resume` is what it does when that succeeds, `interrupted`
what it does on an error. The transaction of `accept_report` is with the database once it was sent
(`inFlight`): it commits or is rolled back there, also after its request was dropped.
-/

namespace LadybirdReports.Ingestion

/-- What a client submits: the ID that its retries share, the digest its challenge was issued for,
and the IDs drawn for its attachments. -/
structure Manifest where
  submissionId : SubmissionId
  digest : String
  attachments : List AttachmentId
  deriving DecidableEq, Repr

/-- A row of `reports`, with the attachments listed for it. -/
structure ReportRow where
  id : ReportId
  submissionId : SubmissionId
  manifestDigest : String
  storageState : StorageState
  stagingId : UploadId
  attachments : List AttachmentId
  deriving DecidableEq, Repr

structure ReportReceipt where
  reportId : ReportId
  digestMatches : Bool
  storageState : StorageState
  stagingId : UploadId
  deriving DecidableEq, Repr

/-- The requests: what each submits, and the report ID it draws. -/
structure Requests where
  manifest : UploadId → Manifest
  reportId : UploadId → ReportId
  reportId_injective : Function.Injective reportId

/-! ## What a request waits for -/

inductive Point
  /-- `prepare_submission`: `find_receipt`. -/
  | preparing
  /-- `prepare_submission`: `begin_staging`. -/
  | beginning
  /-- `handle_existing_receipt`: `recover_receipt`. -/
  | recovering (receipt : ReportReceipt) (point : FinalizePoint)
  | acquiringLease
  /-- `receive_and_accept`: the parts of the body. -/
  | receiving (received : List AttachmentId)
  /-- `accept_submission`: `validate`. -/
  | validating
  /-- `accept_submission`: `accept_report`. -/
  | accepting
  /-- The submission exists under another upload: `remove_staging` of this one. -/
  | removingOwn (receipt : ReportReceipt)
  /-- The submission exists: `recover_receipt`. -/
  | recoveringExisting (receipt : ReportReceipt) (referenced : Bool) (point : FinalizePoint)
  /-- The report was accepted: `finalize` and `mark_storage_ready`. -/
  | finalizing (point : FinalizePoint)
  /-- `submit_report`: the release of the lease. -/
  | releasing (accepted : Bool)
  /-- `abandon_submission`; the submission is still held when its lease could not be had. -/
  | abandoning (held : Bool)
  | finished
  /-- The service stopped while the request waited for the database. -/
  | crashed
  deriving DecidableEq, Repr

/-- Dropping the submission held here removes its staging directory. -/
def Point.removesOnDrop : Point → Bool
  | .acquiringLease | .receiving _ | .validating | .accepting | .removingOwn _ => true
  | .recoveringExisting _ referenced _ => !referenced
  | .abandoning held => held
  | _ => false

/-- The deadline of an upload runs here. -/
def Point.hasDeadline : Point → Bool
  | .receiving _ | .validating | .accepting | .removingOwn _ | .recoveringExisting .. |
    .finalizing _ => true
  | _ => false

/-- A removal of the staging directory is waited for here, or will be. -/
def Point.removes : Point → Bool
  | .removingOwn _ | .releasing false | .abandoning _ => true
  | _ => false

/-- A run of `recover_pending_storage`: the reports left, and where it is with the first. -/
structure Recovery where
  pending : List (ReportId × UploadId)
  point : FinalizePoint
  deriving DecidableEq, Repr

def Recovery.idle : Recovery := ⟨[], .reportExists⟩

/-- The service, its attachment directories and the database. -/
structure State where
  point : UploadId → Point
  inFlight : UploadId → Bool
  /-- A dropped submission left a removal to run. -/
  removal : UploadId → Bool
  files : FileAttachmentStore
  reports : List ReportRow
  recovery : ℕ → Recovery

def State.init : State :=
  ⟨fun _ => .preparing, fun _ => false, fun _ => false, .empty, [], fun _ => .idle⟩

namespace State

variable (s : State)

def goTo (upload : UploadId) (point : Point) : State :=
  { s with point := Function.update s.point upload point }

/-- The submission goes out of scope. -/
def dropPrepared (upload : UploadId) : State :=
  { s with
    removal := Function.update s.removal upload
      (s.removal upload || (s.point upload).removesOnDrop) }

def setInFlight (upload : UploadId) (sent : Bool) : State :=
  { s with inFlight := Function.update s.inFlight upload sent }

end State

/-! ## The database -/

def findReceipt (reports : List ReportRow) (submission : SubmissionId) (digest : String) :
    Option ReportReceipt :=
  (reports.find? (·.submissionId = submission)).map fun row =>
    ⟨row.id, row.manifestDigest = digest, row.storageState, row.stagingId⟩

/-- The row that `accept_report` inserts. -/
def newReport (c : Requests) (upload : UploadId) : ReportRow :=
  { id := c.reportId upload, submissionId := (c.manifest upload).submissionId,
    manifestDigest := (c.manifest upload).digest, storageState := .pendingFiles,
    stagingId := upload, attachments := (c.manifest upload).attachments }

def isPendingRow (report : ReportId) (upload : UploadId) (row : ReportRow) : Bool :=
  row.id = report ∧ row.stagingId = upload ∧ row.storageState = .pendingFiles

def markStorageReady (reports : List ReportRow) (report : ReportId) (upload : UploadId) :
    List ReportRow :=
  reports.map fun row =>
    if isPendingRow report upload row then { row with storageState := .ready } else row

def pendingStorage (reports : List ReportRow) : List (ReportId × UploadId) :=
  ((reports.filter (·.storageState = .pendingFiles)).take 100).map fun row =>
    (row.id, row.stagingId)

/-- The transaction of an upload has inserted its report. -/
def Committed (s : State) (upload : UploadId) : Prop := ∃ row ∈ s.reports, row.stagingId = upload

instance (s : State) (upload : UploadId) : Decidable (Committed s upload) := by
  unfold Committed; infer_instance

/-! ## Steps -/

/-- A request goes on with `recover_receipt`, which has nothing to do for a report that is ready. -/
def State.recover (s : State) (upload : UploadId) (receipt : ReportReceipt)
    (waiting : FinalizePoint → Point) (done : Point) : State :=
  if receipt.storageState = .ready then (s.dropPrepared upload).goTo upload done
  else s.goTo upload (waiting .reportExists)

/-- The outcome of an awaited part of `recover_receipt`; its update may find the report ready. -/
def State.recoverStep (s : State) (upload : UploadId) (receipt : ReportReceipt)
    (point : FinalizePoint) (waiting : FinalizePoint → Point) (done failed : Point) : State :=
  if point = .markReady then
    { (s.dropPrepared upload).goTo upload done with
      reports := markStorageReady s.reports receipt.reportId receipt.stagingId }
  else match finalizeStep s.files receipt.stagingId receipt.reportId point with
    | .ok (files, next) => { s.goTo upload (waiting next) with files }
    | .error _ => (s.dropPrepared upload).goTo upload failed

/-- What a request does when `accept_report` answers. -/
def State.accepted (c : Requests) (s : State) (upload : UploadId) : Option State :=
  let manifest := c.manifest upload
  if Committed s upload then some (s.goTo upload (.finalizing .reportExists))
  else if s.inFlight upload then
    match findReceipt s.reports manifest.submissionId manifest.digest with
    | some receipt =>
      let s := s.setInFlight upload false
      if !receipt.digestMatches then none
      else if receipt.stagingId ≠ upload then some (s.goTo upload (.removingOwn receipt))
      else some ((s.goTo upload (.recoveringExisting receipt true .reportExists)).recover upload
        receipt (.recoveringExisting receipt true) (.releasing true))
    | none => none
  else none

/-- What a request does when what it waits for succeeds. -/
def resume (c : Requests) (s : State) (upload : UploadId) : Option State :=
  match s.point upload with
  | .preparing =>
    match findReceipt s.reports (c.manifest upload).submissionId (c.manifest upload).digest with
    | some receipt =>
      if receipt.digestMatches
      then some (s.recover upload receipt (.recovering receipt) .finished)
      else some (s.goTo upload .finished)
    | none => some (s.goTo upload .beginning)
  | .beginning =>
    match s.files.beginStaging upload with
    | .ok files => some { s.goTo upload .acquiringLease with files }
    | .error _ => some (s.goTo upload .finished)
  | .recovering receipt point =>
    some (s.recoverStep upload receipt point (.recovering receipt) .finished .finished)
  | .acquiringLease => some (s.goTo upload (.receiving []))
  | .receiving received =>
    if (c.manifest upload).attachments ⊆ received then some (s.goTo upload .validating) else none
  | .validating =>
    match s.files.staging upload with
    | some files =>
      if (c.manifest upload).attachments ⊆ files ∧ files ⊆ (c.manifest upload).attachments
      then some ((s.setInFlight upload true).goTo upload .accepting) else none
    | none => none
  | .accepting => s.accepted c upload
  | .removingOwn receipt =>
    some ({ s with files := s.files.removeStaging upload }.recover upload receipt
      (.recoveringExisting receipt false) (.releasing true))
  | .recoveringExisting receipt referenced point =>
    some (s.recoverStep upload receipt point (.recoveringExisting receipt referenced)
      (.releasing true) (.releasing false))
  | .finalizing point =>
    if point = .markReady then
      -- a report that another request marked ready is an error
      let ready := s.reports.any (isPendingRow (c.reportId upload) upload)
      some { s.goTo upload (.releasing ready) with
        reports := markStorageReady s.reports (c.reportId upload) upload }
    else match finalizeStep s.files upload (c.reportId upload) point with
      | .ok (files, next) => some { s.goTo upload (.finalizing next) with files }
      | .error _ => some (s.goTo upload (.releasing false))
  | .releasing accepted =>
    some (s.goTo upload (if accepted then .finished else .abandoning false))
  | .abandoning _ =>
    some ({ s.dropPrepared upload with
      files := s.files.removeStaging upload }.goTo upload .finished)
  | .finished | .crashed => none

/-- What a request does when what it waits for fails. -/
def interrupted (s : State) (upload : UploadId) : Option State :=
  match s.point upload with
  | .preparing | .beginning | .recovering .. => some (s.goTo upload .finished)
  | .acquiringLease => some (s.goTo upload (.abandoning true))
  | .receiving _ | .validating | .accepting | .removingOwn _ | .recoveringExisting .. |
    .finalizing _ => some ((s.dropPrepared upload).goTo upload (.releasing false))
  | .abandoning _ => some ((s.dropPrepared upload).goTo upload .finished)
  | .releasing _ | .finished | .crashed => none

/-- Where the service stops, a request is gone. -/
def Point.afterCrash : Point → Point
  | .accepting | .crashed => .crashed
  | _ => .finished

/-- A run of `recover_pending_storage` goes on to the next report. -/
def State.nextReport (s : State) (run : ℕ) : State :=
  { s with
    recovery := Function.update s.recovery run ⟨(s.recovery run).pending.tail, .reportExists⟩ }

/-- What a run of `recover_pending_storage` does when what it waits for succeeds. -/
def recoverPendingStorage (s : State) (run : ℕ) : State :=
  match (s.recovery run).pending with
  | [] =>
    { s with
      recovery := Function.update s.recovery run ⟨pendingStorage s.reports, .reportExists⟩ }
  | (report, upload) :: _ =>
    if (s.recovery run).point = .markReady then
      { s.nextReport run with reports := markStorageReady s.reports report upload }
    else match finalizeStep s.files upload report (s.recovery run).point with
      | .ok (files, next) =>
        { s with
          files
          recovery := Function.update s.recovery run { s.recovery run with point := next } }
      | .error _ => s.nextReport run

inductive Action
  /-- What a request waits for succeeds. -/
  | resume (upload : UploadId)
  /-- A part of the body arrives, and its file is written. -/
  | receive (upload : UploadId) (file : AttachmentId)
  | fail (upload : UploadId)
  | deadline (upload : UploadId)
  /-- The client is gone, and its request is dropped. -/
  | cancel (upload : UploadId)
  /-- The database commits the transaction of `accept_report`. -/
  | commit (upload : UploadId)
  | rollback (upload : UploadId)
  /-- A removal that is on its way removes one file. -/
  | unlink (upload : UploadId) (file : AttachmentId)
  /-- The removal that a dropped submission left behind ends. -/
  | removed (upload : UploadId)
  /-- The service stops. -/
  | crash
  | recover (run : ℕ)
  /-- What a run of `recover_pending_storage` waits for fails. -/
  | recoverFail (run : ℕ)
  deriving DecidableEq, Repr

def step (c : Requests) (s : State) : Action → Option State
  | .resume upload => resume c s upload
  | .receive upload file =>
    match s.point upload with
    | .receiving received =>
      if file ∈ (c.manifest upload).attachments ∧ file ∉ received then
        some { s.goTo upload (.receiving (received ++ [file])) with
          files := s.files.writeStaged upload file }
      else none
    | _ => none
  | .fail upload => interrupted s upload
  | .deadline upload => if (s.point upload).hasDeadline then interrupted s upload else none
  | .cancel upload =>
    if s.point upload = .finished ∨ s.point upload = .crashed then none
    else some ((s.dropPrepared upload).goTo upload .finished)
  | .commit upload =>
    if s.inFlight upload ∧
        ∀ row ∈ s.reports, row.submissionId ≠ (c.manifest upload).submissionId then
      some { s.setInFlight upload false with reports := s.reports ++ [newReport c upload] }
    else none
  | .rollback upload => if s.inFlight upload then some (s.setInFlight upload false) else none
  | .unlink upload file =>
    if s.removal upload ∨ (s.point upload).removes
    then some { s with files := s.files.unlink upload file } else none
  | .removed upload =>
    if s.removal upload then
      some { s with
        removal := Function.update s.removal upload false
        files := s.files.removeStaging upload }
    else none
  | .crash => some { s with
      point := fun upload => (s.point upload).afterCrash
      removal := fun _ => false
      recovery := fun _ => .idle }
  | .recover run => some (recoverPendingStorage s run)
  | .recoverFail run => some (s.nextReport run)

end LadybirdReports.Ingestion
