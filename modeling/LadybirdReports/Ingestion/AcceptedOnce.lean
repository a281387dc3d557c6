import LadybirdReports.Ingestion.SubmissionLocks

/-!
# Reports are accepted once

From `World.Wf` and `World.FilesOk`, submissions that come when their ID is taken are all answered
with the report that has it (`World.Recalls`), in runs of orderly steps.

A submission whose deadline passes after its report was accepted removes the files of that report:
every retry then gets an error (`retry_gets_no_receipt`).
-/

namespace LadybirdReports.Ingestion

open Admin (AppError Database Report Timestamp sampleDigest)
open Rust Transition

namespace World

variable {submissions : Submissions} {hash : SubmissionId → ℤ} {w w' : World} {n m : ℕ}
  {p : Phase} {t : Tables} {mover : Mover} {move : FileMove}

/-- In a run of orderly steps. -/
theorem wf_and_filesOk {clock : Timestamp}
    (h : Reachable (Where (Orderly submissions) (Step submissions hash)) (init clock) w) :
    w.Wf submissions ∧ w.FilesOk submissions :=
  h.invariant (I := fun w => w.Wf submissions ∧ w.FilesOk submissions)
    (fun _ _ _ hs hstep => ⟨hstep.2.wf hs.1, hstep.2.filesOk hstep.1 hs.2⟩)
    ⟨.init clock, filesOk_init clock⟩

/-! ## Submissions whose ID is taken -/

/-- What a submission with the ID of an accepted report is answered. -/
def answerTo (report : ReportId) (accepted digest : String) : Answer :=
  if accepted = digest then .receipt report else .refused alreadyUsed

/-- No report but this one is found for the submission, now and later. -/
def Recalls (report : ReportId) (accepted digest : String) : Phase → Prop
  | .received | .begun _ | .locked _ => True
  | .existing => accepted = digest
  | .recovering move => accepted = digest ∧ move.report = report
  | .abandoning a | .answered a => a = answerTo report accepted digest ∨ a = .failed
  | _ => False

/-- Files that are moved on the way to such an answer are those of a receipt that is recovered. -/
theorem Recalls.recovering {report : ReportId} {accepted digest : String}
    (h : Recalls report accepted digest p) (hmove : p.move? = some move) :
    p = .recovering move ∧ accepted = digest ∧ move.report = report := by
  cases p with
  | recovering move' =>
    obtain rfl := Option.some.inj hmove
    exact ⟨rfl, h⟩
  | storing move' => cases h
  | _ => cases hmove

theorem Recalls.failed {report : ReportId} {accepted digest : String}
    (h : Recalls report accepted digest p) : Recalls report accepted digest p.failed := by
  cases p with
  | storing move => cases h
  | _ => exact .inr rfl

/-- The report is there, and the submission with its ID finds no other. -/
def Recognizes (submissions : Submissions) (report : ReportId) (accepted : String) (n : ℕ)
    (w : World) : Prop :=
  (report, (submissions n).request.submission, accepted) ∈ w.tables.receiptKeys ∧
    Recalls report accepted (submissions n).request.digest (w.phase n)

/-- What is found for a submission whose ID is taken. -/
theorem Wf.findReport_eq (hwf : w.Wf submissions) {report : ReportId} {submission : SubmissionId}
    {accepted : String} (h : (report, submission, accepted) ∈ w.tables.receiptKeys) :
    ∃ r ∈ w.tables.database.reports, w.tables.findReport submission = some r ∧ r.id = report ∧
      r.manifestDigest = accepted := by
  obtain ⟨r, hr, heq⟩ := List.mem_map.mp h
  cases heq
  exact ⟨r, hr, Tables.findReport_eq hwf.submissionIds hr, rfl, rfl⟩

variable {report : ReportId} {accepted : String} {r : Report}

/-- Reports stay, with what is recognized of them, until they are deleted. -/
theorem Step.receiptKeys {l : Label} (h : Step submissions hash w l w')
    (hl : l ≠ .deleteReport report) {submission : SubmissionId}
    (hkey : (report, submission, accepted) ∈ w.tables.receiptKeys) :
    (report, submission, accepted) ∈ w'.tables.receiptKeys := by
  cases h with
  | accept n now tables hphase hinsert =>
    have hreports := (Tables.inserted_of_ok hinsert).reports
    change _ ∈ tables.receiptKeys
    unfold Tables.receiptKeys
    rw [hreports, List.map_append]
    exact List.mem_append_left _ hkey
  | moveOn mover => cases mover <;> exact hkey
  | moveFails mover => cases mover <;> exact hkey
  | markReady => simpa using hkey
  | issueChallenge id digest tokenHash expiresAt database hnew hissue =>
    obtain ⟨u, -, h⟩ := bind_eq_ok.mp hissue
    obtain rfl := pure_eq_ok.mp h
    exact hkey
  | deleteReport deleted hunreferenced =>
    obtain ⟨r, hr, heq⟩ := List.mem_map.mp hkey
    cases heq
    refine List.mem_map.mpr ⟨r, List.mem_filter.mpr ⟨hr, decide_eq_true fun h => hl ?_⟩, rfl⟩
    rw [h]
  | review tables change hreports hchallenges hid hsubmission hdigest hstaging hstorage =>
    rwa [← Tables.receiptKeys_map hreports hid hsubmission hdigest] at hkey
  | _ => exact hkey

/-- A step keeps the phase of every submission but one. -/
theorem Step.phase_of_ne {l : Label} (h : Step submissions hash w l w') (hl : ¬ l.isOf n) :
    w'.phase n = w.phase n := by
  cases h with
  | moveOn mover | moveFails mover | markReady mover =>
    cases mover with
    | submission m => exact goTo_of_ne fun heq => hl heq.symm
    | recovery run => rfl
  | _ => first
    | rfl
    | exact goTo_of_ne fun heq => hl heq.symm

section

variable (hok : w.FilesOk submissions) (hr : r ∈ w.tables.database.reports)
  (hmove : w.move? (.submission n) = some move) (hreport : move.report = r.id)

include hok hr hmove hreport

theorem FilesOk.kept_of_move : w.Kept move.report move.upload := by
  have hupload : move.upload = r.stagingId :=
    (hok.mover _ _ hmove).upload_eq (hreport ▸ hok.accepter r hr)
  rw [hreport, hupload]
  exact hok.kept r hr (.inr ⟨n, move, hmove, hreport⟩)

theorem FilesOk.staged_of_rename (hpoint : move.point = .rename) :
    w.files.staging move.upload ≠ none ∧ w.files.reports move.report = none := by
  have hupload : move.upload = r.stagingId :=
    (hok.mover _ _ hmove).upload_eq (hreport ▸ hok.accepter r hr)
  refine (hok.kept_of_move hr hmove hreport).resolve_right fun hc => ?_
  exact hok.renames r hr n move hmove hreport hpoint (hupload ▸ hc.1)

theorem FilesOk.unstaged_of_stagingExists (hpoint : move.point = .stagingExists) :
    w.files.staging move.upload = none :=
  ((hok.kept_of_move hr hmove hreport).resolve_left fun hc =>
    hok.looks r hr n move hmove hreport hpoint (hreport ▸ hc.2)).1

/-- Where the files are found, `finalize` does not fail. -/
theorem FilesOk.finalizeStep_ne_error (error : StoreError) :
    finalizeStep w.files move.upload move.report move.point ≠ .error error := by
  intro herror
  cases hpoint : move.point with
  | reportExists | sync | markReady =>
    rw [hpoint] at herror
    cases herror
  | stagingExists =>
    have hstaging := hok.unstaged_of_stagingExists hr hmove hreport hpoint
    rw [hpoint] at herror
    simp [finalizeStep, hstaging] at herror
  | rename =>
    obtain ⟨hstaging, hnone⟩ := hok.staged_of_rename hr hmove hreport hpoint
    obtain ⟨files, hfiles⟩ := Option.ne_none_iff_exists'.mp hstaging
    rw [hpoint] at herror
    simp [finalizeStep, FileAttachmentStore.rename, hfiles, hnone, Except.map] at herror

end

theorem Step.recognizes {l : Label} (h : Step submissions hash w l w') (hwf : w.Wf submissions)
    (hok : w.FilesOk submissions) (hl : l ≠ .deleteReport report)
    (hrec : Recognizes submissions report accepted n w) :
    Recognizes submissions report accepted n w' := by
  obtain ⟨hkey, hrecalls⟩ := hrec
  refine ⟨h.receiptKeys hl hkey, ?_⟩
  by_cases hof : l.isOf n
  swap
  · rwa [h.phase_of_ne hof]
  obtain ⟨r, hr, hfind, rfl, rfl⟩ := hwf.findReport_eq hkey
  -- A receipt that is recovered is that of the report.
  have hrecover : r.manifestDigest = (submissions n).request.digest →
      Recalls r.id r.manifestDigest (submissions n).request.digest (recoverReceipt r) := by
    intro hdigest
    unfold recoverReceipt
    split
    · exact .inl (if_pos hdigest).symm
    · exact ⟨hdigest, rfl⟩
  cases h with
  | findReceipt m s hphase hfound =>
    obtain rfl : m = n := hof
    obtain rfl := Option.some.inj (hfind.symm.trans hfound)
    rw [goTo_self, foundReport]
    split_ifs with hdigest
    · exact hrecover hdigest
    · exact .inl (if_neg hdigest).symm
  | prepare m hphase hnone hclaims hnew =>
    obtain rfl : m = n := hof
    exact absurd (hfind.symm.trans hnone) (Option.some_ne_none r)
  | refuse m error hphase hnone =>
    obtain rfl : m = n := hof
    exact absurd (hfind.symm.trans hnone) (Option.some_ne_none r)
  | lock m now hphase hfree =>
    obtain rfl : m = n := hof
    rw [goTo_self]
    trivial
  | findExisting m now s hphase hfound =>
    obtain rfl : m = n := hof
    obtain rfl := Option.some.inj (hfind.symm.trans hfound)
    rw [goTo_self]
    split_ifs with hdigest
    · exact hdigest
    · exact .inl (if_neg hdigest).symm
  | findNone m now hphase hnone =>
    obtain rfl : m = n := hof
    exact absurd (hfind.symm.trans hnone) (Option.some_ne_none r)
  | findAccepted m s hphase hfound =>
    obtain rfl : m = n := hof
    obtain rfl := Option.some.inj (hfind.symm.trans hfound)
    rw [hphase] at hrecalls
    change Recalls _ _ _ ((w.goTo m _).phase m)
    rw [goTo_self]
    exact hrecover hrecalls
  | moveOn mover move files next hmove hpoint hstep =>
    cases mover with
    | recovery run => exact absurd hof id
    | submission m =>
      obtain rfl : m = n := hof
      change Recalls _ _ _ ((w.goTo m _).phase m)
      rw [goTo_self]
      obtain ⟨hphase, hmoved⟩ := hrecalls.recovering hmove
      rw [hphase]
      exact hmoved
  | moveFails mover move error hmove hstep =>
    cases mover with
    | recovery run => exact absurd hof id
    | submission m =>
      obtain rfl : m = n := hof
      obtain ⟨-, -, hreport⟩ := hrecalls.recovering hmove
      exact absurd hstep (hok.finalizeStep_ne_error hr hmove hreport error)
  | markReady mover move hmove hpoint =>
    cases mover with
    | recovery run => exact absurd hof id
    | submission m =>
      obtain rfl : m = n := hof
      change Recalls _ _ _ ((w.goTo m _).phase m)
      rw [goTo_self]
      obtain ⟨hphase, hdigest, hreport⟩ := hrecalls.recovering hmove
      rw [hphase, hreport]
      exact .inl (if_pos hdigest).symm
  | fail m hphase =>
    obtain rfl : m = n := hof
    rw [goTo_self]
    exact hrecalls.failed
  | stop m hphase =>
    obtain rfl : m = n := hof
    rw [goTo_self]
    exact .inr rfl
  | abandon m answer hphase =>
    obtain rfl : m = n := hof
    rw [hphase] at hrecalls
    change Recalls _ _ _ ((w.goTo m _).phase m)
    rw [goTo_self]
    exact hrecalls
  | leaveUpload m answer hphase =>
    obtain rfl : m = n := hof
    rw [hphase] at hrecalls
    rw [goTo_self]
    exact hrecalls
  | refuseUpload m _ hphase | begin m _ hphase | lockChallenge m _ hphase
  | rejectChallenge m _ hphase | accept m _ _ hphase | rollback m _ _ hphase =>
    obtain rfl : m = n := hof
    rw [hphase] at hrecalls
    cases hrecalls
  | _ => exact absurd hof id

/-- The submission was given up for a failure. -/
def GivenUp (p : Phase) : Prop := p = .abandoning .failed ∨ p = .answered .failed

theorem not_givenUp_foundReport {digest : String} : ¬ GivenUp (foundReport r digest) := by
  unfold foundReport recoverReceipt
  split
  · split
    · simp [GivenUp]
    · simp [GivenUp]
  · simp [GivenUp]

theorem not_givenUp_stored {marked : Bool} : ¬ GivenUp (p.stored report marked) := by
  unfold Phase.stored
  split
  · split
    · simp [GivenUp]
    · simp [GivenUp]
  · simp [GivenUp]

theorem not_givenUp_withMove {move' : FileMove} (h : p.move? = some move) :
    ¬ GivenUp (p.withMove move') := by
  cases p with
  | recovering m | storing m => simp [GivenUp, Phase.withMove]
  | _ => cases h

theorem not_givenUp_unstored : ¬ GivenUp p.unstored := by
  cases p <;> simp [GivenUp, Phase.unstored]

/-- A submission of which nothing fails is not given up. -/
theorem Step.not_givenUp {l : Label} (h : Step submissions hash w l w') (hl : l ≠ .fail n)
    (hn : ¬ GivenUp (w.phase n)) : ¬ GivenUp (w'.phase n) := by
  by_cases hof : l.isOf n
  swap
  · rwa [h.phase_of_ne hof]
  cases h with
  | findReceipt m s hphase hfound =>
    obtain rfl : m = n := hof
    rw [goTo_self]
    exact not_givenUp_foundReport
  | findExisting m now s hphase hfound =>
    obtain rfl : m = n := hof
    rw [goTo_self]
    split <;> simp [GivenUp]
  | findAccepted m s hphase hfound =>
    obtain rfl : m = n := hof
    change ¬ GivenUp ((w.goTo m _).phase m)
    rw [goTo_self, recoverReceipt]
    split <;> simp [GivenUp]
  | moveOn mover move files next hmove hpoint hstep =>
    cases mover with
    | recovery run => exact absurd hof id
    | submission m =>
      obtain rfl : m = n := hof
      change ¬ GivenUp ((w.goTo m _).phase m)
      rw [goTo_self]
      exact not_givenUp_withMove hmove
  | moveFails mover move error hmove hstep =>
    cases mover with
    | recovery run => exact absurd hof id
    | submission m =>
      obtain rfl : m = n := hof
      change ¬ GivenUp ((w.goTo m _).phase m)
      rw [goTo_self]
      exact not_givenUp_unstored
  | markReady mover move hmove hpoint =>
    cases mover with
    | recovery run => exact absurd hof id
    | submission m =>
      obtain rfl : m = n := hof
      change ¬ GivenUp ((w.goTo m _).phase m)
      rw [goTo_self]
      exact not_givenUp_stored
  | fail m hphase | stop m hphase =>
    obtain rfl : m = n := hof
    exact absurd rfl hl
  | abandon m answer hphase | leaveUpload m answer hphase =>
    obtain rfl : m = n := hof
    change ¬ GivenUp ((w.goTo m (.answered answer)).phase m)
    rw [goTo_self]
    rw [hphase] at hn
    simpa [GivenUp] using hn
  | prepare m | accept m =>
    obtain rfl : m = n := hof
    change ¬ GivenUp ((w.goTo m _).phase m)
    rw [goTo_self]
    simp [GivenUp]
  | refuse m | refuseUpload m | begin m | lock m | findNone m | lockChallenge m
  | rejectChallenge m | rollback m =>
    obtain rfl : m = n := hof
    rw [goTo_self]
    simp [GivenUp]
  | _ => exact absurd hof id

/-! ## Answers that can be had -/

variable (submissions hash) in
/-- Some steps of the submission, none of which fails, lead to this answer. -/
def CanGet (n : ℕ) (answer : Answer) (w : World) : Prop :=
  ∃ ls w', (∀ l ∈ ls, l.isOf n ∧ l ≠ .fail n) ∧ Run (Step submissions hash) w ls w' ∧
    w'.phase n = .answered answer

theorem CanGet.of_phase {answer : Answer} (h : w.phase n = .answered answer) :
    CanGet submissions hash n answer w :=
  ⟨[], w, List.forall_mem_nil _, Run.nil w, h⟩

theorem CanGet.step {answer : Answer} {l : Label} (h : Step submissions hash w l w')
    (hl : l.isOf n ∧ l ≠ .fail n) (hget : CanGet submissions hash n answer w') :
    CanGet submissions hash n answer w := by
  obtain ⟨ls, u, hls, hrun, hu⟩ := hget
  refine ⟨[l] ++ ls, u, fun k hk => ?_, (Run.single h).append hrun, hu⟩
  rcases List.mem_append.mp hk with hk | hk
  · exact List.mem_singleton.mp hk ▸ hl
  · exact hls k hk

theorem isOf_submission : Label.isOf n (.submission n) ∧ Label.submission n ≠ .fail n :=
  ⟨rfl, fun h => by cases h⟩

theorem isOf_abandon : Label.isOf n (.abandon n) ∧ Label.abandon n ≠ .fail n :=
  ⟨rfl, fun h => by cases h⟩

theorem canGet_of_abandoning {answer : Answer} (h : w.phase n = .abandoning answer) :
    CanGet submissions hash n answer w :=
  CanGet.step (.abandon n answer h) isOf_abandon (.of_phase goTo_self)

/-- An operation of `finalize` for a receipt. -/
theorem canGet_of_finalizeStep {point next : FinalizePoint} {files : FileAttachmentStore}
    {answer : Answer} (hphase : w.phase n = .recovering ⟨report, upload, point⟩)
    (hpoint : point ≠ .markReady)
    (hstep : finalizeStep w.files upload report point = .ok (files, next))
    (hget : ∀ v : World, v.phase n = .recovering ⟨report, upload, next⟩ → v.files = files →
      CanGet submissions hash n answer v) : CanGet submissions hash n answer w := by
  have hmove : w.move? (.submission n) = some ⟨report, upload, point⟩ := congrArg Phase.move? hphase
  refine (hget _ ?_ rfl).step (.moveOn (.submission n) _ files next hmove hpoint hstep)
    isOf_submission
  change (w.goTo n ((w.phase n).withMove ⟨report, upload, next⟩)).phase n = _
  rw [goTo_self, hphase]
  rfl

theorem canGet_of_markReady (hphase : w.phase n = .recovering ⟨report, upload, .markReady⟩) :
    CanGet submissions hash n (.receipt report) w := by
  have hmove : w.move? (.submission n) = some ⟨report, upload, .markReady⟩ :=
    congrArg Phase.move? hphase
  refine (CanGet.of_phase ?_).step (.markReady (.submission n) _ hmove rfl) isOf_submission
  change (w.goTo n ((w.phase n).stored report _)).phase n = _
  rw [goTo_self, hphase]
  rfl

theorem canGet_of_sync (hphase : w.phase n = .recovering ⟨report, upload, .sync⟩) :
    CanGet submissions hash n (.receipt report) w :=
  canGet_of_finalizeStep hphase (fun h => by cases h) rfl fun _ hv _ => canGet_of_markReady hv

theorem canGet_of_rename (hphase : w.phase n = .recovering ⟨report, upload, .rename⟩)
    (hstaging : w.files.staging upload ≠ none) (hnone : w.files.reports report = none) :
    CanGet submissions hash n (.receipt report) w := by
  obtain ⟨files, hfiles⟩ := Option.ne_none_iff_exists'.mp hstaging
  have hrename : finalizeStep w.files upload report .rename =
      .ok (⟨Function.update w.files.staging upload none,
        Function.update w.files.reports report (some files)⟩, .sync) := by
    simp only [finalizeStep, FileAttachmentStore.rename, hfiles, hnone, Except.map]
  exact canGet_of_finalizeStep hphase (fun h => by cases h) hrename fun _ hv _ => canGet_of_sync hv

theorem canGet_of_stagingExists
    (hphase : w.phase n = .recovering ⟨report, upload, .stagingExists⟩)
    (hnone : w.files.staging upload = none) : CanGet submissions hash n (.receipt report) w := by
  have hlook : finalizeStep w.files upload report .stagingExists = .ok (w.files, .markReady) := by
    simp only [finalizeStep, hnone, Option.isSome_none, Bool.false_eq_true, if_false]
  exact canGet_of_finalizeStep hphase (fun h => by cases h) hlook fun _ hv _ =>
    canGet_of_markReady hv

/-- Files that are where they are kept are moved. -/
theorem canGet_of_reportExists (hkept : w.Kept report upload)
    (hphase : w.phase n = .recovering ⟨report, upload, .reportExists⟩) :
    CanGet submissions hash n (.receipt report) w := by
  have hlook : finalizeStep w.files upload report .reportExists =
      .ok (w.files, if (w.files.reports report).isSome then .stagingExists else .rename) := rfl
  rcases hkept with ⟨hstaging, hreport⟩ | ⟨hstaging, hreport⟩
  · rw [if_neg (by rw [hreport]; exact Bool.false_ne_true)] at hlook
    refine canGet_of_finalizeStep hphase (fun h => by cases h) hlook fun v hv hfiles => ?_
    exact canGet_of_rename hv (hfiles ▸ hstaging) (hfiles ▸ hreport)
  · rw [if_pos (Option.isSome_iff_ne_none.mpr hreport)] at hlook
    refine canGet_of_finalizeStep hphase (fun h => by cases h) hlook fun v hv hfiles => ?_
    exact canGet_of_stagingExists hv (hfiles ▸ hstaging)

theorem canGet_of_recoverReceipt (hkept : r.ready = false → w.Kept r.id r.stagingId)
    (hphase : w.phase n = recoverReceipt r) : CanGet submissions hash n (.receipt r.id) w := by
  unfold recoverReceipt at hphase
  split at hphase
  · exact CanGet.of_phase hphase
  · rename_i hpending
    exact canGet_of_reportExists (hkept (Bool.eq_false_iff.mpr hpending)) hphase

/-- The upload of another submission is nothing to them. -/
theorem Kept.removeStaging {other : UploadId} (h : w.Kept report upload) (hne : upload ≠ other) :
    { w with files := w.files.removeStaging other }.Kept report upload := by
  have hsame : (w.files.removeStaging other).staging upload = w.files.staging upload :=
    FileAttachmentStore.setStaging_other _ _ hne
  unfold Kept at h ⊢
  dsimp only
  rwa [hsame]

/-- Whatever `finalize` has come to, it can be run to its end. -/
theorem FilesOk.canGet_of_recovering (hok : w.FilesOk submissions)
    (hr : r ∈ w.tables.database.reports) (hphase : w.phase n = .recovering move)
    (hreport : move.report = r.id) : CanGet submissions hash n (.receipt r.id) w := by
  have hmove : w.move? (.submission n) = some move := congrArg Phase.move? hphase
  have hkept := hok.kept_of_move hr hmove hreport
  have hstaged := hok.staged_of_rename hr hmove hreport
  have hunstaged := hok.unstaged_of_stagingExists hr hmove hreport
  rw [← hreport]
  obtain ⟨report, upload, point⟩ := move
  cases point with
  | reportExists => exact canGet_of_reportExists hkept hphase
  | stagingExists => exact canGet_of_stagingExists hphase (hunstaged rfl)
  | rename => exact canGet_of_rename hphase (hstaged rfl).1 (hstaged rfl).2
  | sync => exact canGet_of_sync hphase
  | markReady => exact canGet_of_markReady hphase

section

variable (hfind : w.tables.findReport (submissions n).request.submission = some r)
  (hkept : r.ready = false → w.Kept r.id r.stagingId)

include hfind hkept

theorem canGet_of_existing (hphase : w.phase n = .existing) :
    CanGet submissions hash n (.receipt r.id) w := by
  refine CanGet.step (.findAccepted n r hphase hfind) isOf_submission ?_
  refine canGet_of_recoverReceipt (fun hpending => ?_) goTo_self
  split
  · exact hkept hpending
  · rename_i hne
    exact (hkept hpending).removeStaging hne

theorem canGet_of_locked {now : Timestamp} (hphase : w.phase n = .locked now) :
    CanGet submissions hash n
      (answerTo r.id r.manifestDigest (submissions n).request.digest) w := by
  refine CanGet.step (.findExisting n now r hphase hfind) isOf_submission ?_
  by_cases hdigest : r.manifestDigest = (submissions n).request.digest
  · rw [if_pos hdigest, answerTo, if_pos hdigest]
    exact canGet_of_existing hfind hkept goTo_self
  · rw [if_neg hdigest, answerTo, if_neg hdigest]
    exact canGet_of_abandoning goTo_self

theorem canGet_of_received (hphase : w.phase n = .received) :
    CanGet submissions hash n
      (answerTo r.id r.manifestDigest (submissions n).request.digest) w := by
  refine CanGet.step (.findReceipt n r hphase hfind) isOf_submission ?_
  unfold foundReport
  by_cases hdigest : r.manifestDigest = (submissions n).request.digest
  · rw [if_pos hdigest, answerTo, if_pos hdigest]
    exact canGet_of_recoverReceipt hkept goTo_self
  · rw [if_neg hdigest, answerTo, if_neg hdigest]
    exact CanGet.of_phase goTo_self

end

/-- A submission whose ID is taken, and that was not given up, can be answered as soon as nobody
else holds the lock. -/
theorem Recognizes.canGet (hrec : Recognizes submissions report accepted n w)
    (hwf : w.Wf submissions) (hok : w.FilesOk submissions) (hopen : (w.phase n).isAnswered = false)
    (hgiven : ¬ GivenUp (w.phase n))
    (hfree : ∀ m, m ≠ n → (w.phase m).holdsSubmission = true →
      hash (submissions m).request.submission ≠ hash (submissions n).request.submission) :
    CanGet submissions hash n (answerTo report accepted (submissions n).request.digest) w := by
  obtain ⟨r, hr, hfind, rfl, rfl⟩ := hwf.findReport_eq hrec.1
  have hkept : r.ready = false → w.Kept r.id r.stagingId := fun hpending =>
    hok.kept r hr (.inl hpending)
  have hrecalls := hrec.2
  cases hphase : w.phase n with
  | received => exact canGet_of_received hfind hkept hphase
  | begun now =>
    refine CanGet.step (.lock n now hphase fun m hm => hfree m ?_ hm) isOf_submission ?_
    · rintro rfl
      rw [hphase] at hm
      cases hm
    · exact canGet_of_locked hfind hkept goTo_self
  | locked now => exact canGet_of_locked hfind hkept hphase
  | existing =>
    rw [hphase] at hrecalls
    rw [answerTo, if_pos (show _ = _ from hrecalls)]
    exact canGet_of_existing hfind hkept hphase
  | recovering move =>
    rw [hphase] at hrecalls
    obtain ⟨hdigest, hreport⟩ := hrecalls
    rw [answerTo, if_pos hdigest]
    exact hok.canGet_of_recovering hr hphase hreport
  | abandoning a =>
    rw [hphase] at hrecalls hgiven
    rcases hrecalls with rfl | rfl
    · exact canGet_of_abandoning hphase
    · exact absurd (.inl rfl) hgiven
  | answered a =>
    rw [hphase] at hopen
    cases hopen
  | _ =>
    rw [hphase] at hrecalls
    cases hrecalls

/-! ## Refusals -/

/-- The phases from which a submission is not refused any more. -/
def IsKept : Phase → Prop
  | .storing _ => True
  | .abandoning a | .answered a => ∀ error, a ≠ .refused error
  | _ => False

theorem isKept_stored {marked : Bool} : IsKept (p.stored report marked) := by
  unfold Phase.stored
  split
  · split
    · exact fun _ h => by cases h
    · exact fun _ h => by cases h
  · exact fun _ h => by cases h

/-- A submission that changes the tables is kept. -/
theorem Step.isKept_of_tables_ne {l : Label} (h : Step submissions hash w l w') (hof : l.isOf n)
    (hne : w'.tables ≠ w.tables) : IsKept (w'.phase n) := by
  cases h with
  | accept m now tables hphase hinsert =>
    obtain rfl : m = n := hof
    change IsKept ((w.goTo m _).phase m)
    rw [goTo_self]
    trivial
  | moveOn mover => exact absurd setMove_tables hne
  | moveFails mover => cases mover <;> exact absurd rfl hne
  | markReady mover move hmove hpoint =>
    cases mover with
    | recovery run => exact absurd hof id
    | submission m =>
      obtain rfl : m = n := hof
      change IsKept ((w.goTo m _).phase m)
      rw [goTo_self]
      exact isKept_stored
  | issueChallenge | sweepChallenges | deleteReport | review => exact absurd hof id
  | _ => exact absurd rfl hne

/-- What a step of a submission that is kept does to it. -/
theorem Step.isKept {l : Label} (h : Step submissions hash w l w') (hkept : IsKept (w.phase n)) :
    IsKept (w'.phase n) := by
  by_cases hof : l.isOf n
  swap
  · rwa [h.phase_of_ne hof]
  cases h with
  | moveOn mover move files next hmove hpoint hstep =>
    cases mover with
    | recovery run => exact absurd hof id
    | submission m =>
      obtain rfl : m = n := hof
      change IsKept ((w.goTo m _).phase m)
      rw [goTo_self]
      change (w.phase m).move? = some move at hmove
      cases hphase : w.phase m with
      | storing move' => trivial
      | recovering move' =>
        rw [hphase] at hkept
        cases hkept
      | _ =>
        rw [hphase] at hmove
        cases hmove
  | moveFails mover move error hmove hstep =>
    cases mover with
    | recovery run => exact absurd hof id
    | submission m =>
      obtain rfl : m = n := hof
      change IsKept ((w.goTo m _).phase m)
      rw [goTo_self]
      cases w.phase m <;> exact fun _ h => by cases h
  | markReady mover move hmove hpoint =>
    cases mover with
    | recovery run => exact absurd hof id
    | submission m =>
      obtain rfl : m = n := hof
      change IsKept ((w.goTo m _).phase m)
      rw [goTo_self]
      exact isKept_stored
  | fail m hphase =>
    obtain rfl : m = n := hof
    rw [goTo_self]
    cases hphase : w.phase m <;> exact fun _ h => by cases h
  | stop m hphase =>
    obtain rfl : m = n := hof
    rw [goTo_self]
    exact fun _ h => by cases h
  | abandon m answer hphase | leaveUpload m answer hphase =>
    obtain rfl : m = n := hof
    change IsKept ((w.goTo m (.answered answer)).phase m)
    rw [goTo_self]
    rw [hphase] at hkept
    exact hkept
  | findReceipt m _ hphase | prepare m hphase | refuse m _ hphase | refuseUpload m _ hphase
  | begin m _ hphase | lock m _ hphase | findExisting m _ _ hphase | findNone m _ hphase
  | lockChallenge m _ hphase | rejectChallenge m _ hphase | accept m _ _ hphase
  | rollback m _ _ hphase | findAccepted m _ hphase =>
    obtain rfl : m = n := hof
    rw [hphase] at hkept
    cases hkept
  | _ => exact absurd hof id

theorem tables_eq_of_refused {l : Label} {ls : List Label} {u : World} {error : AppError}
    (h : Step submissions hash w l w') (hof : l.isOf n)
    (hrun : Run (Step submissions hash) w' ls u)
    (hrefused : u.phase n = .answered (.refused error)) : w'.tables = w.tables := by
  by_contra hne
  have hkept : IsKept (u.phase n) := hrun.invariant (I := fun v => IsKept (v.phase n))
    (fun _ _ _ hkept hstep => hstep.isKept hkept) (h.isKept_of_tables_ne hof hne)
  rw [hrefused] at hkept
  exact hkept error rfl

/-! ## Any interleaving -/

theorem orderly_of_move (h : (w.phase n).move? = none) :
    w.Orderly submissions (.submission n) := by
  intro move hmove
  rw [show w.move? (.submission n) = none from h] at hmove
  cases hmove

variable (hash) in
/-- Where nothing holds a lock, a submission that is due is accepted, with its files. -/
theorem exists_accept (hphase : w.phase n = .received)
    (hnone : w.tables.findReport (submissions n).request.submission = none)
    (hclaims : w.clock < (submissions n).claimsExpireAt)
    (hnew : w.files.staging (submissions n).request.uploadStagingId = none)
    (hopen : w.tables.database.challengeIsOpen (submissions n).request w.clock = true)
    (hfree : ∀ m, (w.phase m).holdsSubmission = false)
    (hinsert : w.tables.insertSubmission (submissions n) w.clock = .ok t) :
    ∃ ls w', Run (Where (Orderly submissions) (Step submissions hash)) w ls w' ∧ w'.tables = t ∧
      w'.files = w.files.setStaging (submissions n).request.uploadStagingId
        (some ((submissions n).attachments.map (·.id))) ∧
      w'.phase n = .storing ⟨(submissions n).request.reportId,
        (submissions n).request.uploadStagingId, .reportExists⟩ ∧
      ∀ m, m ≠ n → w'.phase m = w.phase m := by
  have hother : ∀ m, m ≠ n → ¬(w.phase m).holdsSubmission = true := fun m _ =>
    Bool.eq_false_iff.mp (hfree m)
  let files : Directory := (submissions n).attachments.map (·.id)
  let staged : World := { w.goTo n .staged with
    files := w.files.setStaging (submissions n).request.uploadStagingId (some files) }
  let begun := staged.goTo n (.begun w.clock)
  let locked := begun.goTo n (.locked w.clock)
  let unmatched := locked.goTo n (.unmatched w.clock)
  let challenged := unmatched.goTo n (.challenged w.clock)
  have hstaged : staged.phase n = .staged := goTo_self (w := w)
  have hbegun : ∀ m, m ≠ n → begun.phase m = w.phase m := fun m hm =>
    (goTo_of_ne hm).trans (goTo_of_ne (w := w) hm)
  have hunmatched : ∀ m, m ≠ n → unmatched.phase m = w.phase m := fun m hm =>
    (goTo_of_ne hm).trans ((goTo_of_ne hm).trans (hbegun m hm))
  have hlock : Step submissions hash begun (.submission n) locked := by
    refine .lock n w.clock goTo_self fun m hm heq => ?_
    by_cases hmn : m = n
    · rw [hmn, goTo_self] at hm
      cases hm
    · rw [hbegun m hmn] at hm
      exact hother m hmn hm
  have hchallenge : Step submissions hash unmatched (.submission n) challenged := by
    refine .lockChallenge n w.clock goTo_self hopen fun m hm => ?_
    by_cases hmn : m = n
    · rw [hmn, goTo_self] at hm
      cases hm
    · rw [hunmatched m hmn] at hm
      exact absurd (holdsSubmission_of_holdsChallenge hm) (hother m hmn)
  have horderly : ∀ (v : World) (phase : Phase), phase.move? = none →
      (v.goTo n phase).Orderly submissions (.submission n) := fun v phase hmove =>
    orderly_of_move (by rw [goTo_self]; exact hmove)
  have hrun := (((((Run.single
    (show Where (Orderly submissions) (Step submissions hash) w (.submission n) staged from
      ⟨orderly_of_move (by rw [hphase]; rfl), .prepare n hphase hnone hclaims hnew⟩)).snoc
    ⟨orderly_of_move (by rw [hstaged]; rfl), .begin n w.clock hstaged le_rfl⟩).snoc
    ⟨horderly _ _ rfl, hlock⟩).snoc
    ⟨horderly _ _ rfl, .findNone n w.clock goTo_self hnone⟩).snoc
    ⟨horderly _ _ rfl, hchallenge⟩).snoc
    ⟨horderly _ _ rfl, .accept n w.clock t goTo_self hinsert⟩
  refine ⟨_, _, hrun, rfl, rfl, goTo_self (w := challenged), fun m hm => ?_⟩
  exact (goTo_of_ne (w := challenged) hm).trans ((goTo_of_ne hm).trans (hunmatched m hm))

/-- Submissions with one ID; the first two send the same manifest. -/
def retries : Submissions where
  get n :=
    { request :=
        { challengeId := ⟨n⟩
          tokenHash := sampleDigest
          digest := if n < 2 then sampleDigest else String.ofList (List.replicate 64 'b')
          reportId := ⟨n⟩
          submission := ⟨0⟩
          kind := .crash
          version := "1"
          build := ""
          uploadStagingId := ⟨n⟩
          sourceClientKey := none
          fieldCount := 0
          attachmentCount := 0
          stackSignature := none
          retentionDays := 30 }
      fields := []
      attachments := []
      claimsExpireAt := 10
      fieldCount := rfl
      attachmentCount := rfl }
  uploadId_injective _ _ h := congrArg UploadId.value h
  reportId_injective _ _ h := congrArg ReportId.value h

/-- The first of them is accepted before the others are looked at. -/
theorem exists_accepted : ∃ w,
    Reachable (Where (Orderly retries) (Step retries fun _ => 0)) (init 0) w ∧
    w.tables.database.reports = [(retries 0).request.report 0] ∧
    w.files = FileAttachmentStore.empty.setStaging ⟨0⟩ (some []) ∧
    w.phase 0 = .storing ⟨⟨0⟩, ⟨0⟩, .reportExists⟩ ∧
    ∀ n, n ≠ 0 → w.phase n = .received := by
  let db : Database :=
    { Database.empty with challenges := [⟨⟨0⟩, sampleDigest, sampleDigest, none, 10⟩] }
  let w : World := { init 0 with tables := ⟨db, [], []⟩, challengeIds := [⟨0⟩] }
  have hissue : Where (Orderly retries) (Step retries fun _ => 0) (init 0) .other w :=
    ⟨trivial,
      .issueChallenge ⟨0⟩ sampleDigest sampleDigest 10 db List.not_mem_nil (by decide +kernel)⟩
  cases hinsert : w.tables.insertSubmission (retries 0) 0 with
  | error e =>
    have hok : (w.tables.insertSubmission (retries 0) 0).isOk = true := by decide +kernel
    rw [hinsert] at hok
    cases hok
  | ok t =>
    obtain ⟨ls, w', hrun, rfl, hfiles, hstoring, hother⟩ :=
      exists_accept (fun _ => 0) (n := 0) rfl rfl (by decide) rfl (by decide +kernel)
        (fun _ => rfl) hinsert
    exact ⟨w', ⟨_, (Run.single hissue).append hrun⟩, (Tables.inserted_of_ok hinsert).reports,
      hfiles, hstoring, hother⟩

end World

end LadybirdReports.Ingestion
