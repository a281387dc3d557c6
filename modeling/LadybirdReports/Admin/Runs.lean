import LadybirdReports.Admin.IngestChanges
import LadybirdReports.Admin.MergeChanges

/-!
# Runs

Every operation is a sequence of changes with the licences that its lapses give
(`Operation.exec_changes`). So what every change with no licence of some causes keeps, every run
keeps whose operations do not have the lapses (`invariant_of_changes`, `related_of_changes`).
-/

namespace LadybirdReports.Admin

open Transition

section

variable {may : Cause → Prop} {db db' : Database}

theorem commit_changes {transaction : Except AppError Database}
    (h : ∀ db', transaction = .ok db' → Changes may db db') :
    Changes may db (commit transaction db) := by
  cases transaction with
  | error e => exact .refl
  | ok db' => exact h db' rfl

theorem commit_map_changes {α : Type} {transaction : Except AppError (α × Database)}
    (h : ∀ result db', transaction = .ok (result, db') → Changes may db db') :
    Changes may db (commit ((·.2) <$> transaction) db) := by
  cases transaction with
  | error e => exact .refl
  | ok result => exact h result.1 result.2 rfl

theorem isRejectedWithIssue_of {r : Report} {i : Issue} (hi : i ∈ db.issues)
    (hready : r.ready = true) (hstate : r.state = .rejected) (hd : r.issueId = some i.id)
    (hrejected : i.state = .rejected) : db.isRejectedWithIssue r = true := by
  have hany : (db.issues.any fun i => r.issueId = some i.id && i.state = .rejected) = true :=
    List.any_eq_true.mpr ⟨i, hi, by simp [hd, hrejected]⟩
  unfold Database.isRejectedWithIssue
  simp [hready, hstate, hany]

theorem Operation.exec_changes (op : Operation) (hwf : db.Wf) :
    Changes (op.May db) db (op.exec db) := by
  cases op with
  | passTime elapsed =>
    exact .single (.of_same [] hwf rfl rfl rfl (List.append_nil _).symm fun _ => rfl)
  | issueChallenge id digest tokenHash expiresAt =>
    exact commit_changes fun _ h => .single (issueChallenge_change hwf h)
  | acceptReport request now =>
    have hunnamed : history db.events request.reportId = [] ∨
        Operation.May (.acceptReport request now) db .reuse := by
      by_cases hnone : history db.events request.reportId = []
      · exact .inl hnone
      · exact .inr (decide_eq_true hnone)
    exact commit_map_changes fun _ _ h => acceptReport_changes hunnamed hwf h
  | markStorageReady reportId uploadId => exact markStorageReady_changes hwf
  | storeStackSignature trace now =>
    exact commit_changes fun _ h => storeStackSignature_changes (fun hc => .inr (.inr hc)) hwf h
  | assignReportsToIssue reportIds issueId actor =>
    exact commit_changes fun _ h => assignReportsToIssue_changes (.inl rfl) hwf h
  | linkToGithubIssue issue reportIds repository actor newId plan =>
    refine commit_changes fun _ h => ?_
    obtain ⟨u, -, h⟩ := Rust.bind_eq_ok.mp h
    cases hlink : db.linkToGithubIssue issue reportIds repository actor newId plan with
    | error e => rw [hlink] at h; cases h
    | ok linked =>
      rw [hlink] at h
      cases h
      exact linkToGithubIssue_changes (.inl rfl)
        (fun hn hc => by simp [Operation.May, Operation.createsAgain, hn, hc]) hwf hlink
  | unlinkReportFromIssue issueId reportId actor =>
    exact commit_changes fun _ h => .single (unlinkReportFromIssue_change (.inl rfl) hwf h)
  | setReportState reportId target actor reason =>
    refine commit_map_changes fun _ _ h => setReportState_change (.inl rfl)
      (fun r hr i hi hid hready hstate htarget hd hrejected => ?_) hwf h
    subst htarget
    exact List.any_eq_true.mpr
      ⟨r, hr, by simp [hid, isRejectedWithIssue_of hi hready hstate hd hrejected]⟩
  | resolveReportsWithFix reportIds fix actor =>
    exact commit_map_changes fun _ _ h => resolveReportsWithFix_changes (.inl rfl) hwf h
  | applyReportStateAction reportIds action actor reason =>
    refine commit_map_changes fun _ _ h => applyReportStateAction_changes (.inl rfl)
      (fun haction r hr i hi hid hready hstate hd hrejected => ?_) hwf h
    subst haction
    exact List.any_eq_true.mpr
      ⟨r, hr, by simp [hid, isRejectedWithIssue_of hi hready hstate hd hrejected]⟩
  | blockReportSource reportId actor removeTriageReports now =>
    exact commit_map_changes fun _ _ h => blockReportSource_changes (.inl rfl) hwf h
  | rejectIssue issueId actor action =>
    exact commit_map_changes fun _ _ h => .single (rejectIssue_change (.inl rfl) hwf h)
  | replaceGithubIssue issueId repository replacement actor now =>
    exact commit_changes fun _ h => replaceGithubIssue_changes hwf h
  | syncGithubIssue repository issue actor source installationId now plan =>
    exact commit_map_changes fun _ _ h => syncGithubIssueWithInstallation_changes hwf h
  | markGithubIssueUnavailable repository number githubId state source plan =>
    exact commit_map_changes fun _ _ h => markGithubIssueUnavailable_changes hwf h
  | recordGithubReportsLink issueId githubIssueId fieldId link =>
    exact commit_changes fun _ h => recordGithubReportsLink_changes hwf h
  | claimGithubDuplicate leaseId now plan => exact claimGithubDuplicate_changes hwf
  | retryGithubDuplicate job now => exact retryGithubDuplicate_changes hwf
  | finishGithubDuplicate job canonical newId now plan =>
    exact commit_map_changes fun _ _ h => finishGithubDuplicate_changes hwf (fun _ hc => hc) h
  | sweepExpiredIngestionState => exact .single (sweepExpiredIngestionState_change hwf)
  | beginMaintenanceSweep reportDays sourceHours auditDays =>
    refine .single (beginMaintenanceSweep_change (fun hlost => ?_) hwf)
    obtain ⟨r, hr, hne⟩ := hlost
    exact List.any_eq_true.mpr ⟨r, hr, decide_eq_true hne⟩
  | finishReportPurge reportId =>
    exact commit_map_changes fun _ _ h => finishReportPurge_changes ⟨reportId, rfl⟩ hwf h

/-! ## Well formed databases -/

theorem Step.wf {op : Operation} (h : Step db op db') (hwf : db.Wf) : db'.Wf := by
  rw [h]
  exact (op.exec_changes hwf).wf hwf

theorem Database.IsReachable.wf (h : db.IsReachable) : db.Wf :=
  Reachable.invariant (fun _ _ _ hwf hstep => hstep.wf hwf) h Database.wf_empty

end

/-! ## Runs that avoid some lapses -/

section

variable {ok : Database → Operation → Prop} {db db' : Database}
  {ops : List Operation}

/-- The operations give no licence for the causes. -/
def Avoids (bad : Cause → Prop) (ok : Database → Operation → Prop) : Prop :=
  ∀ db op, ok db op → ∀ cause, bad cause → ¬ op.May db cause

theorem Changes.related {may : Cause → Prop} {R : Database → Database → Prop} (hrefl : ∀ s, R s s)
    (htrans : ∀ s t u, R s t → R t u → R s u)
    (hchange : ∀ s t, s.Wf → Change may s t → R s t) (h : Changes may db db') (hwf : db.Wf) :
    R db db' := by
  induction h with
  | refl => exact hrefl _
  | tail hfirst hlast ih => exact htrans _ _ _ ih (hchange _ _ (Changes.wf hfirst hwf) hlast)

/-- What holds across changes holds across runs. -/
theorem related_of_changes {R : Database → Database → Prop} (bad : Cause → Prop)
    (havoids : Avoids bad ok)
    (hrefl : ∀ s, R s s) (htrans : ∀ s t u, R s t → R t u → R s u)
    (hchange : ∀ may s t, (∀ cause, bad cause → ¬ may cause) → s.Wf → Change may s t → R s t)
    (h : Run (Where ok Step) db ops db') (hwf : db.Wf) : R db db' := by
  refine h.related (fun s op t hs hstep => hstep.2.wf hs) hrefl htrans
    (fun s op t hs hstep => ?_) hwf
  obtain ⟨hok, rfl⟩ := hstep
  exact (op.exec_changes hs).related hrefl htrans (fun s t => hchange _ s t (havoids _ op hok)) hs

theorem invariant_of_changes {I : Database → Prop} (bad : Cause → Prop) (havoids : Avoids bad ok)
    (hchange : ∀ may s t, (∀ cause, bad cause → ¬ may cause) → s.Wf → Change may s t → I s → I t)
    (h : Run (Where ok Step) db ops db') (hwf : db.Wf) : I db → I db' :=
  related_of_changes (R := fun s t => I s → I t) bad havoids (fun _ hs => hs)
    (fun _ _ _ h₁ h₂ hs => h₂ (h₁ hs)) hchange h hwf

end

/-! ## Runs that compute -/

/-- The database after some operations. -/
def execAll (ops : List Operation) (db : Database) : Database :=
  ops.foldl (fun db op => op.exec db) db

/-- Each operation meets the condition when it comes. -/
def allMeet (ok : Database → Operation → Prop) [∀ db op, Decidable (ok db op)] :
    List Operation → Database → Bool
  | [], _ => true
  | op :: ops, db => decide (ok db op) && allMeet ok ops (op.exec db)

theorem run_execAll {ok : Database → Operation → Prop} [∀ db op, Decidable (ok db op)]
    {ops : List Operation} {db : Database} (h : allMeet ok ops db = true) :
    Run (Where ok Step) db ops (execAll ops db) := by
  induction ops generalizing db with
  | nil => exact .nil db
  | cons op ops ih =>
    rw [allMeet, Bool.and_eq_true, decide_eq_true_eq] at h
    exact (Run.single ⟨h.1, rfl⟩ : Run (Where ok Step) db [op] (op.exec db)).append (ih h.2)

theorem isReachable_execAll (ops : List Operation) : (execAll ops .empty).IsReachable :=
  ⟨ops, by
    generalize Database.empty = db
    induction ops generalizing db with
    | nil => exact .nil db
    | cons op ops ih =>
      exact (Run.single rfl : Run Step db [op] (op.exec db)).append (ih (op.exec db))⟩

theorem mem_findReport? {db : Database} (id : ReportId) (h : (db.findReport? id).isSome = true) :
    (db.findReport? id).get h ∈ db.reports :=
  List.mem_of_find?_eq_some (Option.some_get h).symm

theorem mem_findIssue? {db : Database} (id : IssueId) (h : (db.findIssue? id).isSome = true) :
    (db.findIssue? id).get h ∈ db.issues :=
  List.mem_of_find?_eq_some (Option.some_get h).symm

/-! ## Sample operations -/

def sampleDigest : String := String.ofList (List.replicate 64 'a')

/-- A report is submitted and its files are stored. -/
def submit (n : ℕ) : List Operation :=
  [.issueChallenge ⟨n⟩ sampleDigest sampleDigest 10,
    .acceptReport
      { challengeId := ⟨n⟩
        tokenHash := sampleDigest
        digest := sampleDigest
        reportId := ⟨n⟩
        submission := ⟨n⟩
        kind := .crash
        version := "1"
        build := ""
        uploadStagingId := ⟨n⟩
        sourceClientKey := none
        fieldCount := 0
        attachmentCount := 0
        stackSignature := none
        retentionDays := 30 } 0,
    .markStorageReady ⟨n⟩ ⟨n⟩]

/-- An issue of the repository `o/r`. -/
def sampleIssue (id number : ℤ) (text : String) (state : GithubIssueState) (updatedAt : Timestamp)
    (stateReason : Option String) : GithubIssue where
  id := id
  number := number
  title := "T"
  body := none
  htmlUrl := ""
  url := some ⟨"https", some "github.com", some ["o", "r", "issues", text]⟩
  state := state
  updatedAt := updatedAt
  stateReason := stateReason

/-- A report is submitted, and goes to an issue of its own that tracks an open GitHub issue. -/
def submitLinked (n : ℕ) (text : String) : List Operation :=
  submit n ++ [.linkToGithubIssue (sampleIssue (10 + n) n text .open 1 none) [⟨n⟩] "o/r" 7 ⟨n⟩ 0]

/-- GitHub closes that issue as a duplicate, and a worker takes the job. -/
def queueDuplicate (n : ℕ) (text : String) : List Operation :=
  [.syncGithubIssue "o/r" (sampleIssue (10 + n) n text .closed 2 (some "duplicate")) none .webhook
      (some 3) 2 0,
    .claimGithubDuplicate ⟨n⟩ 3 0]

def sampleJob (n : ℕ) : GithubDuplicateJob := ⟨⟨n⟩, 10 + n, "o/r", n, 3, ⟨n⟩, 1⟩

/-- Issue 1 is closed as a duplicate and rejected with its report before the job is finished. -/
def rejectedDuplicate : Database :=
  execAll (submitLinked 1 "1" ++ queueDuplicate 1 "1" ++ [.rejectIssue ⟨1⟩ 7 .reject]) .empty

/-- The job of issue 1 is finished: issue 2 is the canonical one. -/
def finishFirst : Operation :=
  .finishGithubDuplicate (sampleJob 1) (some (sampleIssue 12 2 "2" .open 1 none)) ⟨2⟩ 4 0

end LadybirdReports.Admin
