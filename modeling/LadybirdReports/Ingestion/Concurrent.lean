import LadybirdReports.Ingestion.Acceptance
import LadybirdReports.Ingestion.Attachments
import LadybirdReports.Lib.Run

/-!
# Submissions at the same time

`prepare_submission` and `accept_submission`, with the locks that the transaction of `accept_report`
takes: an advisory one on the hash of the submission ID, and then the row of the challenge. Both are
kept until it commits or is rolled back, and what it has written is seen by others only once it has
committed, so that its insertions and its commit are one step (`accept`). Every statement reads what
is committed when it is reached.

The files of an accepted report are moved by the submission itself, by a retry that finds it, or by
a run of `recover_pending_storage`, one awaited operation of `finalize` at a time; nothing keeps
these apart. A submission that fails removes its upload, accepted or not.

A submission is named by a number; retries are submissions of their own with the same submission ID.
-/

namespace LadybirdReports.Ingestion

open Admin (AppError Database Report Timestamp)
open Transition

/-- The submissions by their numbers. The IDs of uploads and reports are generated. -/
structure Submissions where
  get : ℕ → Submission
  uploadId_injective : Function.Injective fun n => (get n).request.uploadStagingId
  reportId_injective : Function.Injective fun n => (get n).request.reportId

instance : CoeFun Submissions fun _ => ℕ → Submission := ⟨Submissions.get⟩

def alreadyUsed : AppError := .conflict "Submission ID already used"

def challengeRejected : AppError := .conflict "Challenge expired, invalid, or already consumed"

/-- What the client is told: the report, why it was refused, that the files of its report were not
moved or not marked ready, or that the service failed. -/
inductive Answer
  | receipt (report : ReportId)
  | refused (error : AppError)
  | unstored
  | failed
  deriving DecidableEq, Repr

/-- The files of a report are on their way from the directory of the upload to its own. -/
structure FileMove where
  report : ReportId
  upload : UploadId
  point : FinalizePoint
  deriving DecidableEq, Repr

/-- How far a submission is. In a transaction, `now` is the time that began with. -/
inductive Phase
  | received
  /-- `prepare_submission` is done, and the files are uploaded. -/
  | staged
  | begun (now : Timestamp)
  | locked (now : Timestamp)
  /-- No report has the submission ID. -/
  | unmatched (now : Timestamp)
  /-- The challenge is open, and its row is locked. -/
  | challenged (now : Timestamp)
  /-- `accept_report` found the submission accepted; its receipt is looked up. -/
  | existing
  /-- `recover_receipt` of another submission's report. -/
  | recovering (move : FileMove)
  /-- The report was accepted; `finalize` and `mark_storage_ready`. -/
  | storing (move : FileMove)
  /-- `abandon_submission`, before the answer. -/
  | abandoning (answer : Answer)
  | answered (answer : Answer)
  deriving DecidableEq, Repr

namespace Phase

def isAnswered : Phase → Bool
  | answered _ => true
  | _ => false

/-- The advisory lock on the submission is held. -/
def holdsSubmission : Phase → Bool
  | locked _ | unmatched _ | challenged _ => true
  | _ => false

/-- No report was found under the lock. -/
def foundNone : Phase → Bool
  | unmatched _ | challenged _ => true
  | _ => false

/-- The row of the challenge is locked. -/
def holdsChallenge : Phase → Bool
  | challenged _ => true
  | _ => false

/-- The submission has a directory of its own, and its report has not been accepted. -/
def hasUpload : Phase → Bool
  | staged | begun _ | locked _ | unmatched _ | challenged _ | existing => true
  | _ => false

/-- The report of the submission may have been accepted. -/
def isSettled : Phase → Bool
  | storing _ | abandoning _ | answered _ => true
  | _ => false

def move? : Phase → Option FileMove
  | recovering move | storing move => some move
  | _ => none

/-- `finalize` goes on. -/
def withMove (move : FileMove) : Phase → Phase
  | recovering _ => recovering move
  | storing _ => storing move
  | phase => phase

/-- `finalize` fails; the submission that was accepted is abandoned. -/
def unstored : Phase → Phase
  | storing _ => abandoning .unstored
  | _ => answered .unstored

/-- `mark_storage_ready` has run. Only the submission that was accepted looks at what it returns. -/
def stored (report : ReportId) (marked : Bool) : Phase → Phase
  | storing _ => if marked then answered (.receipt report) else abandoning .unstored
  | _ => answered (.receipt report)

/-- Something fails. -/
def failed (phase : Phase) : Phase :=
  match phase with
  | storing _ => abandoning .failed
  | _ => if phase.hasUpload then abandoning .failed else answered .failed

end Phase

/-- Who moves files: a submission, or a run of `recover_pending_storage` for one of its reports. -/
inductive Mover
  | submission (n : ℕ)
  | recovery (run : ℕ)
  deriving DecidableEq, Repr

/-- The tables, the directories, how far every submission and recovery is, and what has been
accepted for which challenge. -/
structure World where
  clock : Timestamp
  tables : Tables
  files : FileAttachmentStore
  phase : ℕ → Phase
  recovery : ℕ → Option FileMove
  accepted : List (ChallengeId × ReportId)
  /-- Every id that a challenge was ever issued under. -/
  challengeIds : List ChallengeId

namespace World

def goTo (w : World) (n : ℕ) (phase : Phase) : World :=
  { w with phase := Function.update w.phase n phase }

def move? (w : World) : Mover → Option FileMove
  | .submission n => (w.phase n).move?
  | .recovery run => w.recovery run

def setMove (w : World) (move : FileMove) : Mover → World
  | .submission n => w.goTo n ((w.phase n).withMove move)
  | .recovery run => { w with recovery := Function.update w.recovery run (some move) }

def failMove (w : World) : Mover → World
  | .submission n => w.goTo n (w.phase n).unstored
  | .recovery run => { w with recovery := Function.update w.recovery run none }

def endMove (w : World) (report : ReportId) (marked : Bool) : Mover → World
  | .submission n => w.goTo n ((w.phase n).stored report marked)
  | .recovery run => { w with recovery := Function.update w.recovery run none }

/-- `recover_receipt` begins. -/
def recoverReceipt (r : Report) : Phase :=
  if r.ready then .answered (.receipt r.id) else .recovering ⟨r.id, r.stagingId, .reportExists⟩

/-- The receipt that a look at the reports gives, or why there is none for this digest. -/
def foundReport (r : Report) (digest : String) : Phase :=
  if r.manifestDigest = digest then recoverReceipt r else .answered (.refused alreadyUsed)

inductive Label
  | submission (n : ℕ)
  | fail (n : ℕ)
  | abandon (n : ℕ)
  | recovery (run : ℕ)
  | removeReport (report : ReportId)
  | deleteReport (report : ReportId)
  | other
  deriving DecidableEq, Repr

/-- It is a step of the submission. -/
def Label.isOf (n : ℕ) : Label → Prop
  | .submission m | .fail m | .abandon m => m = n
  | _ => False

end World

def Mover.label : Mover → World.Label
  | .submission n => .submission n
  | .recovery run => .recovery run

namespace World

section

variable (submissions : Submissions) (hash : SubmissionId → ℤ)

/-- A step of a submission, or something else that happens to the tables and directories. -/
inductive Step : World → Label → World → Prop
  /-- `prepare_submission`: `find_receipt` finds the report. -/
  | findReceipt {w : World} (n : ℕ) (r : Report) (hphase : w.phase n = .received)
      (hfound : w.tables.findReport (submissions n).request.submission = some r) :
      Step w (.submission n) (w.goTo n (foundReport r (submissions n).request.digest))
  /-- It finds none, the claims, the manifest and the room for the files are found good, and the
  files are uploaded to a new directory. -/
  | prepare {w : World} (n : ℕ) (hphase : w.phase n = .received)
      (hnone : w.tables.findReport (submissions n).request.submission = none)
      (hclaims : w.clock < (submissions n).claimsExpireAt)
      (hnew : w.files.staging (submissions n).request.uploadStagingId = none) :
      Step w (.submission n)
        { w.goTo n .staged with
          files := w.files.setStaging (submissions n).request.uploadStagingId
            (some ((submissions n).attachments.map (·.id))) }
  /-- It finds none, and one of them is not. -/
  | refuse {w : World} (n : ℕ) (error : AppError) (hphase : w.phase n = .received)
      (hnone : w.tables.findReport (submissions n).request.submission = none) :
      Step w (.submission n) (w.goTo n (.answered (.refused error)))
  /-- The upload is given up, or its files are not what the manifest says. -/
  | refuseUpload {w : World} (n : ℕ) (error : AppError) (hphase : w.phase n = .staged) :
      Step w (.submission n) (w.goTo n (.abandoning (.refused error)))
  | begin {w : World} (n : ℕ) (now : Timestamp) (hphase : w.phase n = .staged)
      (hnow : now ≤ w.clock) : Step w (.submission n) (w.goTo n (.begun now))
  /-- `pg_advisory_xact_lock`. -/
  | lock {w : World} (n : ℕ) (now : Timestamp) (hphase : w.phase n = .begun now)
      (hfree : ∀ m, (w.phase m).holdsSubmission = true →
        hash (submissions m).request.submission ≠ hash (submissions n).request.submission) :
      Step w (.submission n) (w.goTo n (.locked now))
  | findExisting {w : World} (n : ℕ) (now : Timestamp) (r : Report)
      (hphase : w.phase n = .locked now)
      (hfound : w.tables.findReport (submissions n).request.submission = some r) :
      Step w (.submission n) (w.goTo n
        (if r.manifestDigest = (submissions n).request.digest then .existing
          else .abandoning (.refused alreadyUsed)))
  | findNone {w : World} (n : ℕ) (now : Timestamp) (hphase : w.phase n = .locked now)
      (hnone : w.tables.findReport (submissions n).request.submission = none) :
      Step w (.submission n) (w.goTo n (.unmatched now))
  /-- `SELECT … FROM challenges … FOR UPDATE`. -/
  | lockChallenge {w : World} (n : ℕ) (now : Timestamp) (hphase : w.phase n = .unmatched now)
      (hopen : w.tables.database.challengeIsOpen (submissions n).request now = true)
      (hfree : ∀ m, (w.phase m).holdsChallenge = true →
        (submissions m).request.challengeId ≠ (submissions n).request.challengeId) :
      Step w (.submission n) (w.goTo n (.challenged now))
  | rejectChallenge {w : World} (n : ℕ) (now : Timestamp) (hphase : w.phase n = .unmatched now)
      (hclosed : w.tables.database.challengeIsOpen (submissions n).request now = false) :
      Step w (.submission n) (w.goTo n (.abandoning (.refused challengeRejected)))
  /-- The submission is inserted, and the transaction commits. -/
  | accept {w : World} (n : ℕ) (now : Timestamp) (tables : Tables)
      (hphase : w.phase n = .challenged now)
      (hinsert : w.tables.insertSubmission (submissions n) now = .ok tables) :
      Step w (.submission n)
        { w.goTo n (.storing ⟨(submissions n).request.reportId,
            (submissions n).request.uploadStagingId, .reportExists⟩) with
          tables := tables
          accepted := w.accepted ++
            [((submissions n).request.challengeId, (submissions n).request.reportId)] }
  /-- A statement fails, and the transaction is rolled back. -/
  | rollback {w : World} (n : ℕ) (now : Timestamp) (error : AppError)
      (hphase : w.phase n = .challenged now)
      (hinsert : w.tables.insertSubmission (submissions n) now = .error error) :
      Step w (.submission n) (w.goTo n (.abandoning (.refused error)))
  /-- The receipt is found, and the upload is removed unless it is the one accepted. -/
  | findAccepted {w : World} (n : ℕ) (r : Report) (hphase : w.phase n = .existing)
      (hfound : w.tables.findReport (submissions n).request.submission = some r) :
      Step w (.submission n)
        { w.goTo n (recoverReceipt r) with
          files := if r.stagingId = (submissions n).request.uploadStagingId then w.files
            else w.files.removeStaging (submissions n).request.uploadStagingId }
  /-- `recover_pending_storage` reads that the report is pending. -/
  | startRecovery {w : World} (run : ℕ) (r : Report) (hidle : w.recovery run = none)
      (hr : r ∈ w.tables.database.reports) (hpending : r.ready = false) :
      Step w (.recovery run)
        { w with
          recovery := Function.update w.recovery run
            (some ⟨r.id, r.stagingId, .reportExists⟩) }
  /-- An awaited operation of `finalize`. -/
  | moveOn {w : World} (mover : Mover) (move : FileMove) (files : FileAttachmentStore)
      (next : FinalizePoint) (hmove : w.move? mover = some move)
      (hpoint : move.point ≠ .markReady)
      (hstep : finalizeStep w.files move.upload move.report move.point = .ok (files, next)) :
      Step w mover.label { w.setMove { move with point := next } mover with files := files }
  | moveFails {w : World} (mover : Mover) (move : FileMove) (error : StoreError)
      (hmove : w.move? mover = some move)
      (hstep : finalizeStep w.files move.upload move.report move.point = .error error) :
      Step w mover.label (w.failMove mover)
  /-- `mark_storage_ready`. -/
  | markReady {w : World} (mover : Mover) (move : FileMove) (hmove : w.move? mover = some move)
      (hpoint : move.point = .markReady) :
      Step w mover.label
        { w.endMove move.report (w.tables.database.markStorageReady move.report move.upload).1
            mover with
          tables := w.tables.markStorageReady move.report move.upload }
  /-- The database or the storage fails, or the deadline passes, wherever the submission is. -/
  | fail {w : World} (n : ℕ) (hphase : (w.phase n).isAnswered = false) :
      Step w (.fail n) (w.goTo n (w.phase n).failed)
  /-- The service stops, or the client goes once the upload is not removed for that any more. -/
  | stop {w : World} (n : ℕ) (hphase : (w.phase n).isAnswered = false) :
      Step w (.fail n) (w.goTo n (.answered .failed))
  /-- `remove_staging`. -/
  | abandon {w : World} (n : ℕ) (answer : Answer) (hphase : w.phase n = .abandoning answer) :
      Step w (.abandon n)
        { w.goTo n (.answered answer) with
          files := w.files.removeStaging (submissions n).request.uploadStagingId }
  /-- It fails, which is logged. -/
  | leaveUpload {w : World} (n : ℕ) (answer : Answer) (hphase : w.phase n = .abandoning answer) :
      Step w (.submission n) (w.goTo n (.answered answer))
  /-- An upload of a submission that is over, which no report names, is removed for its age. -/
  | sweepStaging {w : World} (upload : UploadId)
      (hover : ∀ n, (submissions n).request.uploadStagingId = upload →
        (w.phase n).isAnswered = true)
      (hunreferenced : ∀ r ∈ w.tables.database.reports, r.stagingId ≠ upload) :
      Step w .other { w with files := w.files.removeStaging upload }
  | tick {w : World} (now : Timestamp) (hnow : w.clock ≤ now) :
      Step w .other { w with clock := now }
  | issueChallenge {w : World} (id : ChallengeId) (digest tokenHash : String)
      (expiresAt : Timestamp) (database : Database) (hnew : id ∉ w.challengeIds)
      (hissue : w.tables.database.issueChallenge id digest tokenHash expiresAt = .ok database) :
      Step w .other
        { w with
          tables := { w.tables with database := database }
          challengeIds := w.challengeIds ++ [id] }
  /-- The sweep waits for the rows that are locked. -/
  | sweepChallenges {w : World} (now : Timestamp)
      (hfree : ∀ n, (w.phase n).holdsChallenge = true → ∀ c ∈ w.tables.database.challenges,
        c.id = (submissions n).request.challengeId → now < c.expiresAt) :
      Step w .other { w with tables := w.tables.sweepChallenges now }
  /-- The directory of a report that expired is removed. -/
  | removeReport {w : World} (report : ReportId) :
      Step w (.removeReport report) { w with files := w.files.removeReport report }
  /-- Its row is deleted after that, unless a challenge still refers to it. -/
  | deleteReport {w : World} (report : ReportId)
      (hunreferenced : ∀ c ∈ w.tables.database.challenges, c.reportId ≠ some report) :
      Step w (.deleteReport report) { w with tables := w.tables.deleteReport report }
  /-- Maintainers and the indexer work on reports, and add and process fields and attachments. -/
  | review {w : World} (tables : Tables) (change : Report → Report)
      (hreports : tables.database.reports = w.tables.database.reports.map change)
      (hchallenges : tables.database.challenges = w.tables.database.challenges)
      (hid : ∀ r, (change r).id = r.id)
      (hsubmission : ∀ r, (change r).submissionId = r.submissionId)
      (hdigest : ∀ r, (change r).manifestDigest = r.manifestDigest)
      (hstaging : ∀ r, (change r).stagingId = r.stagingId)
      (hstorage : ∀ r, (change r).storageState = r.storageState) :
      Step w .other { w with tables := tables }

end

def init (clock : Timestamp) : World where
  clock := clock
  tables := ⟨.empty, [], []⟩
  files := .empty
  phase _ := .received
  recovery _ := none
  accepted := []
  challengeIds := []

/-! ## Orderly steps -/

/-- Nobody who found no directory of the report has yet to rename that of its upload. -/
def NoneRenames (w : World) (report : ReportId) : Prop :=
  ∀ mover move, w.move? mover = some move → move.report = report → move.point ≠ .rename

/-- Who looks for the directory of a report does so while nobody else is about to rename another to
it; no upload of a report that was accepted is removed; and no directory of a report whose files are
on their way. -/
def Orderly (submissions : Submissions) (w : World) : Label → Prop
  | .submission n => ∀ move, w.move? (.submission n) = some move → move.point = .reportExists →
      w.NoneRenames move.report
  | .recovery run => ∀ move, w.move? (.recovery run) = some move → move.point = .reportExists →
      w.NoneRenames move.report
  | .abandon n => ∀ r ∈ w.tables.database.reports,
      r.stagingId = (submissions n).request.uploadStagingId → w.files.staging r.stagingId = none
  | .removeReport report =>
      (∀ r ∈ w.tables.database.reports, r.id = report → r.ready = true) ∧
        ∀ n move, (w.phase n).move? = some move → move.report ≠ report
  | _ => True

end World

end LadybirdReports.Ingestion
