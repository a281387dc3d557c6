import LadybirdReports.Ingestion.MovedOnce
import LadybirdReports.Admin.Runs

/-!
# What submissions hold

`World.Wf` is what every step keeps: submission IDs are those of one report each, a challenge that a
report was accepted for refers to that report, and the locks have one holder each, who still finds
what it found when it took them.
-/

namespace LadybirdReports.Ingestion

open Admin (AcceptReportRequest Database Report Timestamp)
open Rust Transition

/-! ## What a report is recognized by -/

/-- What a receipt says of a report: which it is, and what was submitted. -/
def receiptKey (r : Report) : ReportId × SubmissionId × String :=
  (r.id, r.submissionId, r.manifestDigest)

namespace Tables

variable {t t' : Tables}

def receiptKeys (t : Tables) : List (ReportId × SubmissionId × String) :=
  t.database.reports.map receiptKey

theorem submissionIds_eq : t.database.reports.map (·.submissionId) =
    t.receiptKeys.map fun key => key.2.1 := by
  unfold receiptKeys
  rw [List.map_map]
  rfl

@[simp] theorem receiptKeys_markStorageReady {report : ReportId} {upload : UploadId} :
    (t.markStorageReady report upload).receiptKeys = t.receiptKeys := by
  unfold receiptKeys markStorageReady Database.markStorageReady
  dsimp only
  split
  · refine Rows.map_key fun r _ => ?_
    split <;> rfl
  · rfl

@[simp] theorem challenges_markStorageReady {report : ReportId} {upload : UploadId} :
    (t.markStorageReady report upload).database.challenges = t.database.challenges := by
  unfold markStorageReady Database.markStorageReady
  dsimp only
  split <;> rfl

theorem receiptKeys_map {change : Report → Report}
    (hreports : t'.database.reports = t.database.reports.map change)
    (hid : ∀ r, (change r).id = r.id) (hsubmission : ∀ r, (change r).submissionId = r.submissionId)
    (hdigest : ∀ r, (change r).manifestDigest = r.manifestDigest) :
    t'.receiptKeys = t.receiptKeys := by
  unfold receiptKeys
  rw [hreports]
  refine Rows.map_key fun r _ => ?_
  rw [receiptKey, hid, hsubmission, hdigest, receiptKey]

/-- Where IDs are those of one report each, a report is found by its own. -/
theorem findReport_eq (hids : (t.database.reports.map (·.submissionId)).Nodup) {r : Report}
    (hr : r ∈ t.database.reports) : t.findReport r.submissionId = some r :=
  Rows.find?_key hids hr

end Tables

/-! ## What every step keeps -/

namespace World

variable {submissions : Submissions} {hash : SubmissionId → ℤ} {w w' : World} {n m : ℕ}
  {p : Phase} {t : Tables} {mover : Mover} {move : FileMove}

/-- Where those that hold a thing hold different ones, and the one that goes on takes none that is
held, those that hold it after hold different ones. -/
theorem injOn_goTo {κ : Type} {holds : Phase → Bool} {key : ℕ → κ}
    (hinj : Set.InjOn key {m | holds (w.phase m) = true})
    (hfree : holds p = true → ∀ m, m ≠ n → holds (w.phase m) = true → key m ≠ key n) :
    Set.InjOn key {m | holds ((w.goTo n p).phase m) = true} := by
  intro i hi j hj heq
  change holds _ = true at hi hj
  by_cases hin : i = n <;> by_cases hjn : j = n
  · rw [hin, hjn]
  · subst hin
    rw [goTo_self] at hi
    rw [goTo_of_ne hjn] at hj
    exact absurd heq.symm (hfree hi j hjn hj)
  · subst hjn
    rw [goTo_self] at hj
    rw [goTo_of_ne hin] at hi
    exact absurd heq (hfree hj i hin hi)
  · rw [goTo_of_ne hin] at hi
    rw [goTo_of_ne hjn] at hj
    exact hinj hi hj heq

variable (submissions) in
/-- No report has the ID of the submission. -/
def Unmatched (w : World) (n : ℕ) : Prop :=
  ∀ r ∈ w.tables.database.reports, r.submissionId ≠ (submissions n).request.submission

variable (submissions) in
/-- What holds of every reachable state. -/
structure Wf (w : World) : Prop where
  submissionIds : (w.tables.database.reports.map (·.submissionId)).Nodup
  issued : ∀ c ∈ w.tables.database.challenges, c.id ∈ w.challengeIds
  acceptedIssued : ∀ a ∈ w.accepted, a.1 ∈ w.challengeIds
  consumed : ∀ a ∈ w.accepted, ∀ c ∈ w.tables.database.challenges,
    c.id = a.1 → c.reportId = some a.2
  acceptedOnce : (w.accepted.map Prod.fst).Nodup
  oneHolder : Set.InjOn (fun n => (submissions n).request.submission)
    {n | (w.phase n).holdsSubmission = true}
  oneChallengeHolder : Set.InjOn (fun n => (submissions n).request.challengeId)
    {n | (w.phase n).holdsChallenge = true}
  unmatched : ∀ n, (w.phase n).foundNone = true → w.Unmatched submissions n
  challenged : ∀ n now, w.phase n = .challenged now →
    w.tables.database.challengeIsOpen (submissions n).request now = true

theorem Wf.init (clock : Timestamp) : (init clock).Wf submissions where
  submissionIds := List.nodup_nil
  issued := List.forall_mem_nil _
  acceptedIssued := List.forall_mem_nil _
  consumed := List.forall_mem_nil _
  acceptedOnce := List.nodup_nil
  oneHolder _ h := by cases h
  oneChallengeHolder _ h := by cases h
  unmatched _ h := by cases h
  challenged _ _ h := by cases h

/-- A submission goes on, and what it claims to hold in its new phase it holds. -/
theorem Wf.goTo (hwf : w.Wf submissions)
    (hlock : p.holdsSubmission = true → ∀ m, m ≠ n → (w.phase m).holdsSubmission = true →
      (submissions m).request.submission ≠ (submissions n).request.submission)
    (hchallenge : p.holdsChallenge = true → ∀ m, m ≠ n → (w.phase m).holdsChallenge = true →
      (submissions m).request.challengeId ≠ (submissions n).request.challengeId)
    (hnone : p.foundNone = true → w.Unmatched submissions n)
    (hopen : ∀ now, p = .challenged now →
      w.tables.database.challengeIsOpen (submissions n).request now = true) :
    (w.goTo n p).Wf submissions where
  submissionIds := hwf.submissionIds
  issued := hwf.issued
  acceptedIssued := hwf.acceptedIssued
  consumed := hwf.consumed
  acceptedOnce := hwf.acceptedOnce
  oneHolder := injOn_goTo hwf.oneHolder hlock
  oneChallengeHolder := injOn_goTo hwf.oneChallengeHolder hchallenge
  unmatched i hi := by
    by_cases hin : i = n
    · subst hin
      rw [goTo_self] at hi
      exact hnone hi
    · rw [goTo_of_ne hin] at hi
      exact hwf.unmatched i hi
  challenged i now hi := by
    by_cases hin : i = n
    · subst hin
      rw [goTo_self] at hi
      exact hopen now hi
    · rw [goTo_of_ne hin] at hi
      exact hwf.challenged i now hi

/-- A submission that lets go of everything. -/
theorem Wf.goTo_free (hwf : w.Wf submissions) (hp : p.holdsSubmission = false) :
    (w.goTo n p).Wf submissions := by
  have hchallenge : p.holdsChallenge = false := by cases p <;> first | rfl | cases hp
  have hnone : p.foundNone = false := by cases p <;> first | rfl | cases hp
  refine hwf.goTo (fun h => ?_) (fun h => ?_) (fun h => ?_) fun now h => ?_
  · exact absurd h (ne_true_of_eq_false hp)
  · exact absurd h (ne_true_of_eq_false hchallenge)
  · exact absurd h (ne_true_of_eq_false hnone)
  · subst h
    cases hp

/-- The directories and the recoveries are nothing to the tables and the locks. -/
theorem Wf.congr (hwf : w.Wf submissions) (htables : w'.tables = w.tables)
    (hphase : w'.phase = w.phase) (haccepted : w'.accepted = w.accepted)
    (hids : w'.challengeIds = w.challengeIds) : w'.Wf submissions := by
  obtain ⟨clock, tables, files, phase, recovery, accepted, challengeIds⟩ := w'
  subst htables hphase haccepted hids
  exact ⟨hwf.submissionIds, hwf.issued, hwf.acceptedIssued, hwf.consumed, hwf.acceptedOnce,
    hwf.oneHolder, hwf.oneChallengeHolder, hwf.unmatched, hwf.challenged⟩

theorem holdsSubmission_of_isSettled (h : p.isSettled = true) : p.holdsSubmission = false := by
  cases p <;> first | rfl | cases h

theorem holdsSubmission_withMove {move' : FileMove} (h : p.move? = some move) :
    (p.withMove move').holdsSubmission = false := by
  cases p <;> first | rfl | cases h

/-- A submission that lets go of everything, of its upload too maybe. -/
theorem Wf.goTo_files {files : FileAttachmentStore} (hwf : w.Wf submissions)
    (hp : p.holdsSubmission = false) : { w.goTo n p with files := files }.Wf submissions :=
  (hwf.goTo_free hp).congr rfl rfl rfl rfl

theorem Wf.setMove (hwf : w.Wf submissions) {move' : FileMove}
    (hmove : w.move? mover = some move) : (w.setMove move' mover).Wf submissions := by
  cases mover with
  | submission n => exact hwf.goTo_free (holdsSubmission_withMove hmove)
  | recovery run => exact hwf.congr rfl rfl rfl rfl

theorem Wf.failMove (hwf : w.Wf submissions) : (w.failMove mover).Wf submissions := by
  cases mover with
  | submission n =>
    exact hwf.goTo_free (holdsSubmission_of_isSettled Phase.done_unstored.isSettled)
  | recovery run => exact hwf.congr rfl rfl rfl rfl

theorem Wf.endMove {report : ReportId} {marked : Bool} (hwf : w.Wf submissions) :
    (w.endMove report marked mover).Wf submissions := by
  cases mover with
  | submission n =>
    exact hwf.goTo_free (holdsSubmission_of_isSettled Phase.done_stored.isSettled)
  | recovery run => exact hwf.congr rfl rfl rfl rfl

/-- Reports may be changed and deleted, as long as none gets another submission ID. -/
theorem Wf.setTables (hwf : w.Wf submissions)
    (hreports : List.Sublist (t.database.reports.map (·.submissionId))
      (w.tables.database.reports.map (·.submissionId)))
    (hchallenges : t.database.challenges = w.tables.database.challenges) :
    { w with tables := t }.Wf submissions where
  submissionIds := hwf.submissionIds.sublist hreports
  issued := by rw [hchallenges]; exact hwf.issued
  acceptedIssued := hwf.acceptedIssued
  consumed := by rw [hchallenges]; exact hwf.consumed
  acceptedOnce := hwf.acceptedOnce
  oneHolder := hwf.oneHolder
  oneChallengeHolder := hwf.oneChallengeHolder
  unmatched i hi r hr heq := by
    have hmem := hreports.subset (List.mem_map_of_mem (f := (·.submissionId)) hr)
    obtain ⟨s, hs, hsr⟩ := List.mem_map.mp hmem
    exact hwf.unmatched i hi s hs (hsr.trans heq)
  challenged i now hi := by
    have hopen := hwf.challenged i now hi
    unfold Database.challengeIsOpen at hopen ⊢
    rw [hchallenges]
    exact hopen

theorem holdsSubmission_of_holdsChallenge (h : p.holdsChallenge = true) :
    p.holdsSubmission = true := by
  cases p <;> first | rfl | cases h

theorem holdsSubmission_of_foundNone (h : p.foundNone = true) : p.holdsSubmission = true := by
  cases p <;> first | rfl | cases h

/-- A challenge that is open has a row, which refers to no report. -/
theorem exists_of_challengeIsOpen {db : Database} {request : AcceptReportRequest} {now : Timestamp}
    (h : db.challengeIsOpen request now = true) :
    ∃ c ∈ db.challenges, c.id = request.challengeId ∧ c.reportId = none := by
  obtain ⟨c, hc, h⟩ := List.any_eq_true.mp h
  simp only [Bool.and_eq_true, decide_eq_true_eq, Option.isNone_iff_eq_none] at h
  exact ⟨c, hc, h.1.1.1.1, h.1.2⟩

/-- The challenge of another submission stays open. -/
theorem challengeIsOpen_consumeChallenge {challenge : ChallengeId} {report : ReportId}
    {request : AcceptReportRequest} {now : Timestamp} (hne : request.challengeId ≠ challenge)
    (h : t.database.challengeIsOpen request now = true) :
    (t.consumeChallenge challenge report).database.challengeIsOpen request now = true := by
  obtain ⟨c, hc, h⟩ := List.any_eq_true.mp h
  refine List.any_eq_true.mpr ⟨c, Tables.mem_consumeChallenge.mpr (.inl ⟨hc, ?_⟩), h⟩
  simp only [Bool.and_eq_true, decide_eq_true_eq] at h
  exact h.1.1.1.1 ▸ hne

/-- What is accepted is accepted for a challenge that nothing was accepted for before. -/
theorem Wf.accept {now : Timestamp} (hwf : w.Wf submissions) (hphase : w.phase n = .challenged now)
    (hinsert : w.tables.insertSubmission (submissions n) now = .ok t) :
    { w.goTo n (.storing move) with
      tables := t
      accepted := w.accepted ++
        [((submissions n).request.challengeId, (submissions n).request.reportId)] }.Wf
      submissions := by
  obtain ⟨-, hreports, hchallenges, -, -⟩ := Tables.inserted_of_ok hinsert
  obtain ⟨c, hc, hid, hnull⟩ := exists_of_challengeIsOpen (hwf.challenged n now hphase)
  have hnone : w.Unmatched submissions n := hwf.unmatched n (by rw [hphase]; rfl)
  have hfresh : ∀ a ∈ w.accepted, a.1 ≠ (submissions n).request.challengeId := fun a ha heq => by
    have := hwf.consumed a ha c hc (hid.trans heq.symm)
    rw [hnull] at this
    cases this
  have hfree := hwf.goTo_free (n := n) (p := .storing move) rfl
  have hother : ∀ {i : ℕ}, i ≠ n → (w.goTo n (.storing move)).phase i = w.phase i := goTo_of_ne
  refine ⟨?_, ?_, ?_, ?_, ?_, hfree.oneHolder, hfree.oneChallengeHolder, ?_, ?_⟩
  · rw [hreports, List.map_append, List.nodup_append]
    refine ⟨hwf.submissionIds, List.nodup_singleton _, fun s hs s' hs' heq => ?_⟩
    obtain ⟨r, hr, rfl⟩ := List.mem_map.mp hs
    obtain rfl := List.mem_singleton.mp hs'
    exact hnone r hr heq
  · intro d hd
    rw [hchallenges] at hd
    rcases Tables.mem_consumeChallenge.mp hd with ⟨hd, -⟩ | ⟨-, d', hd', -, rfl⟩
    · exact hwf.issued d hd
    · exact hwf.issued d' hd'
  · intro a ha
    rcases List.mem_append.mp ha with ha | ha
    · exact hwf.acceptedIssued a ha
    · obtain rfl := List.mem_singleton.mp ha
      exact hid ▸ hwf.issued c hc
  · intro a ha d hd hda
    rw [hchallenges] at hd
    rcases List.mem_append.mp ha with ha | ha <;>
      rcases Tables.mem_consumeChallenge.mp hd with ⟨hd, hne⟩ | ⟨heq, d', hd', -, rfl⟩
    · exact hwf.consumed a ha d hd hda
    · exact absurd (hda.symm.trans heq) (hfresh a ha)
    · obtain rfl := List.mem_singleton.mp ha
      exact absurd hda hne
    · obtain rfl := List.mem_singleton.mp ha
      rfl
  · rw [List.map_append, List.nodup_append]
    refine ⟨hwf.acceptedOnce, List.nodup_singleton _, fun i hi j hj heq => ?_⟩
    obtain ⟨a, ha, rfl⟩ := List.mem_map.mp hi
    obtain rfl := List.mem_singleton.mp hj
    exact hfresh a ha heq
  · intro i hi r hr heq
    have hin : i ≠ n := by
      rintro rfl
      rw [goTo_self] at hi
      cases hi
    rw [hother hin] at hi
    change r ∈ t.database.reports at hr
    rw [hreports] at hr
    rcases List.mem_append.mp hr with hr | hr
    · exact hwf.unmatched i hi r hr heq
    · obtain rfl := List.mem_singleton.mp hr
      have hholds : (w.phase n).holdsSubmission = true := by rw [hphase]; rfl
      exact hin (hwf.oneHolder (holdsSubmission_of_foundNone hi) hholds heq.symm)
  · intro i now' hi
    have hin : i ≠ n := by
      rintro rfl
      rw [goTo_self] at hi
      cases hi
    rw [hother hin] at hi
    have hne : (submissions i).request.challengeId ≠ (submissions n).request.challengeId :=
      fun heq => hin (hwf.oneChallengeHolder (by simp [hi, Phase.holdsChallenge])
        (by simp [hphase, Phase.holdsChallenge]) heq)
    have hopen : (w.tables.consumeChallenge (submissions n).request.challengeId
        (submissions n).request.reportId).database.challengeIsOpen (submissions i).request now' =
          true :=
      challengeIsOpen_consumeChallenge hne (hwf.challenged i now' hi)
    unfold Database.challengeIsOpen at hopen ⊢
    rwa [← hchallenges] at hopen

/-- A new challenge has an id of its own. -/
theorem Wf.issueChallenge {id : ChallengeId} {digest tokenHash : String} {expiresAt : Timestamp}
    {db : Database} (hwf : w.Wf submissions) (hnew : id ∉ w.challengeIds)
    (hissue : w.tables.database.issueChallenge id digest tokenHash expiresAt = .ok db) :
    { w with
      tables := { w.tables with database := db }
      challengeIds := w.challengeIds ++ [id] }.Wf submissions := by
  obtain ⟨u, -, h⟩ := bind_eq_ok.mp hissue
  obtain rfl := pure_eq_ok.mp h
  refine ⟨hwf.submissionIds, ?_, ?_, ?_, hwf.acceptedOnce, hwf.oneHolder, hwf.oneChallengeHolder,
    hwf.unmatched, ?_⟩
  · intro c hc
    rcases List.mem_append.mp hc with hc | hc
    · exact List.mem_append_left _ (hwf.issued c hc)
    · obtain rfl := List.mem_singleton.mp hc
      exact List.mem_append_right _ (List.mem_singleton_self id)
  · exact fun a ha => List.mem_append_left _ (hwf.acceptedIssued a ha)
  · intro a ha c hc heq
    rcases List.mem_append.mp hc with hc | hc
    · exact hwf.consumed a ha c hc heq
    · obtain rfl := List.mem_singleton.mp hc
      exact absurd (hwf.acceptedIssued a ha) (heq ▸ hnew)
  · intro i now hi
    obtain ⟨c, hc, h⟩ := List.any_eq_true.mp (hwf.challenged i now hi)
    exact List.any_eq_true.mpr ⟨c, List.mem_append_left _ hc, h⟩

/-- No challenge is swept that a submission holds. -/
theorem Wf.sweepChallenges {now : Timestamp} (hwf : w.Wf submissions)
    (hfree : ∀ n, (w.phase n).holdsChallenge = true → ∀ c ∈ w.tables.database.challenges,
      c.id = (submissions n).request.challengeId → now < c.expiresAt) :
    { w with tables := w.tables.sweepChallenges now }.Wf submissions := by
  have hsub : ∀ c ∈ (w.tables.sweepChallenges now).database.challenges,
      c ∈ w.tables.database.challenges := fun c hc => List.mem_of_mem_filter hc
  refine ⟨hwf.submissionIds, fun c hc => hwf.issued c (hsub c hc), hwf.acceptedIssued,
    fun a ha c hc => hwf.consumed a ha c (hsub c hc), hwf.acceptedOnce, hwf.oneHolder,
    hwf.oneChallengeHolder, hwf.unmatched, fun i now' hi => ?_⟩
  obtain ⟨c, hc, h⟩ := List.any_eq_true.mp (hwf.challenged i now' hi)
  refine List.any_eq_true.mpr ⟨c, List.mem_filter.mpr ⟨hc, ?_⟩, h⟩
  simp only [Bool.and_eq_true, decide_eq_true_eq] at h
  have hlive := hfree i (by rw [hi]; rfl) c hc h.1.1.1.1
  simpa using hlive

@[simp] theorem endMove_tables {report : ReportId} {marked : Bool} :
    (w.endMove report marked mover).tables = w.tables := by
  cases mover <;> rfl

theorem Wf.setTables_of_keys (hwf : w.Wf submissions)
    (hkeys : List.Sublist t.receiptKeys w.tables.receiptKeys)
    (hchallenges : t.database.challenges = w.tables.database.challenges) :
    { w with tables := t }.Wf submissions := by
  refine hwf.setTables ?_ hchallenges
  rw [Tables.submissionIds_eq, Tables.submissionIds_eq]
  exact hkeys.map _

theorem Step.wf {l : Label} (h : Step submissions hash w l w') (hwf : w.Wf submissions) :
    w'.Wf submissions := by
  have hheld : ∀ {n : ℕ}, (w.phase n).holdsSubmission = true → ∀ m, m ≠ n →
      (w.phase m).holdsSubmission = true →
      (submissions m).request.submission ≠ (submissions n).request.submission :=
    fun hn m hmn hm heq => hmn (hwf.oneHolder hm hn heq)
  cases h with
  | findReceipt n r hphase hfound =>
    refine hwf.goTo_free ?_
    unfold foundReport recoverReceipt
    split
    · split <;> rfl
    · rfl
  | prepare n hphase hnone hclaims hnew => exact hwf.goTo_files rfl
  | refuse n error hphase hnone => exact hwf.goTo_free rfl
  | refuseUpload n error hphase => exact hwf.goTo_free rfl
  | begin n now hphase hnow => exact hwf.goTo_free rfl
  | lock n now hphase hfree =>
    refine hwf.goTo (fun _ m _ hm heq => ?_) nofun nofun nofun
    exact hfree m hm (congrArg hash heq)
  | findExisting n now r hphase hfound =>
    refine hwf.goTo_free ?_
    split <;> rfl
  | findNone n now hphase hnone =>
    refine hwf.goTo (fun _ => hheld (by rw [hphase]; rfl)) nofun (fun _ r hr heq => ?_) nofun
    unfold Tables.findReport at hnone
    simpa [heq] using List.find?_eq_none.mp hnone r hr
  | lockChallenge n now hphase hopen hfree =>
    refine hwf.goTo (fun _ => hheld (by rw [hphase]; rfl)) (fun _ m _ hm => hfree m hm)
      (fun _ => hwf.unmatched n (by rw [hphase]; rfl)) fun now' heq => ?_
    cases heq
    exact hopen
  | rejectChallenge n now hphase hclosed => exact hwf.goTo_free rfl
  | accept n now tables hphase hinsert => exact hwf.accept hphase hinsert
  | rollback n now error hphase hinsert => exact hwf.goTo_free rfl
  | findAccepted n r hphase hfound =>
    refine hwf.goTo_files ?_
    unfold recoverReceipt
    split <;> rfl
  | startRecovery run r hidle hr hpending => exact hwf.congr rfl rfl rfl rfl
  | moveOn mover move files next hmove hpoint hstep =>
    exact (hwf.setMove hmove).congr rfl rfl rfl rfl
  | moveFails mover move error hmove hstep => exact hwf.failMove
  | markReady mover move hmove hpoint =>
    refine hwf.endMove.setTables_of_keys ?_ ?_
    · rw [endMove_tables, Tables.receiptKeys_markStorageReady]
    · rw [endMove_tables, Tables.challenges_markStorageReady]
  | fail n hphase =>
    exact hwf.goTo_free (holdsSubmission_of_isSettled Phase.done_failed.isSettled)
  | stop n hphase => exact hwf.goTo_free rfl
  | abandon n answer hphase => exact hwf.goTo_files rfl
  | leaveUpload n answer hphase => exact hwf.goTo_free rfl
  | sweepStaging upload hover hunreferenced => exact hwf.congr rfl rfl rfl rfl
  | removeReport report => exact hwf.congr rfl rfl rfl rfl
  | tick now hnow =>
    exact ⟨hwf.submissionIds, hwf.issued, hwf.acceptedIssued, hwf.consumed, hwf.acceptedOnce,
      hwf.oneHolder, hwf.oneChallengeHolder, hwf.unmatched, hwf.challenged⟩
  | issueChallenge id digest tokenHash expiresAt database hnew hissue =>
    exact hwf.issueChallenge hnew hissue
  | sweepChallenges now hfree => exact hwf.sweepChallenges hfree
  | deleteReport report hunreferenced =>
    exact hwf.setTables_of_keys (List.filter_sublist.map _) rfl
  | review tables change hreports hchallenges hid hsubmission hdigest hstaging hstorage =>
    refine hwf.setTables_of_keys ?_ hchallenges
    rw [Tables.receiptKeys_map hreports hid hsubmission hdigest]

/-- What is accepted under the locks is what would be accepted by itself. -/
theorem Wf.acceptReport {now : Timestamp} (hwf : w.Wf submissions)
    (hphase : w.phase n = .challenged now)
    (hinsert : w.tables.insertSubmission (submissions n) now = .ok t) :
    w.tables.database.acceptReport (submissions n).request now =
      .ok (.accepted (submissions n).request.reportId, t.database) := by
  refine Tables.acceptReport_of_insertSubmission ?_ (hwf.challenged n now hphase) hinsert
  have hnone := hwf.unmatched n (by rw [hphase]; rfl)
  exact List.find?_eq_none.mpr fun r hr => by simpa using hnone r hr

end World

end LadybirdReports.Ingestion
