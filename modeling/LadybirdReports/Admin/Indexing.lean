import LadybirdReports.Admin.Runs
import LadybirdReports.Domain.ReportSignature
import LadybirdReports.Ingestion.Acceptance

/-!
# Indexing

`stack_signatures.rs` as replicas run it: a run reads what is to be indexed, and stores one
signature after the other, each in a transaction that waits for the lock on issue operations.
Between the two other runs, maintainers and clients may do anything to the reports. A release of the
service has its own signature version; replicas of an earlier one may go on for a while.
-/

namespace LadybirdReports.Admin

open Ingestion (StoredAttachment Submission Tables)
open Rust Transition

/-! ## The functions of a release -/

namespace Database

section

variable (version : ℕ)

/-- `accept_stack_signature`. -/
def acceptStackSignatureAt (db : Database) (reportId : ReportId) (fingerprint : Option String) :
    Except AppError Database := do
  ensure (fingerprint.all isHexDigest) (.database "report_stack_signatures_fingerprint_check")
  ensure (db.signatures.all (·.reportId ≠ reportId)) (.database "report_stack_signatures_pkey")
  return { db with signatures := db.signatures ++ [⟨reportId, version, fingerprint, none⟩] }

/-- The other ready reports of the kind with the signature. -/
def reportsWithSignatureAt (db : Database) (trace : PendingStackTrace) (fingerprint : String) :
    List Report :=
  db.reports.filter fun r => r.id ≠ trace.reportId && r.kind = trace.kind && r.ready &&
    db.signatures.any fun s => s.reportId = r.id && s.algorithmVersion = version &&
      s.fingerprint = some fingerprint

def matchingIssuesAt (db : Database) (trace : PendingStackTrace) (fingerprint : String) :
    List Issue :=
  db.issues.filter fun i => i.active && i.resolvedAt.isNone && i.githubState = .open &&
    (db.reportsWithSignatureAt version trace fingerprint).any fun r =>
      r.state = .confirmed && r.issueId = some i.id

def recentDuplicateAt (db : Database) (trace : PendingStackTrace) (fingerprint : String) : Bool :=
  (db.reportsWithSignatureAt version trace fingerprint).any fun r => r.state ≠ .rejected &&
    db.reports.any fun incoming => incoming.id = trace.reportId &&
      incoming.createdAt - recentTime ≤ r.createdAt && r.createdAt ≤ incoming.createdAt

def matchIndexedReportAt (db : Database) (trace : PendingStackTrace) (fingerprint : String) :
    Except AppError Database :=
  match db.matchingIssuesAt version trace fingerprint with
  | [issue] => do
    let db ← db.assignMatch trace.reportId issue.id fingerprint
    return db.deleteNotification trace.reportId
  | _ :: _ :: _ => .ok db
  | [] => .ok (if db.recentDuplicateAt version trace fingerprint
      then db.deleteNotification trace.reportId else db)

def upsertSignatureAt (db : Database) (trace : PendingStackTrace) : Database :=
  if db.signatures.any (·.reportId = trace.reportId) then
    { db with
      signatures := db.signatures.map fun s => if s.reportId = trace.reportId then
        { s with algorithmVersion := version, fingerprint := trace.fingerprint } else s }
  else
    { db with
      signatures := db.signatures ++ [⟨trace.reportId, version, trace.fingerprint, none⟩] }

/-- `store_stack_signatures`, for one trace. -/
def storeStackSignatureAt (db : Database) (trace : PendingStackTrace) (now : Timestamp) :
    Except AppError Database := do
  let isMatched := db.signatures.any fun s => s.reportId = trace.reportId && s.matchedAt.isSome
  ensure (db.reports.any (·.id = trace.reportId))
    (.database "report_stack_signatures_report_id_fkey")
  ensure (trace.fingerprint.all isHexDigest)
    (.database "report_stack_signatures_fingerprint_check")
  let db := db.upsertSignatureAt version trace
  if isMatched then
    return db
  let db ← match trace.autoMatchEligible, trace.fingerprint with
    | true, some fingerprint => db.matchIndexedReportAt version trace fingerprint
    | _, _ => .ok db
  return db.markMatched trace.reportId now

end

end Database

/-! ## The rows that are indexed -/

/-- What a run under way is still to store, with the version of its release. -/
structure WorkItem where
  version : ℕ
  trace : PendingStackTrace
  deriving DecidableEq, Repr

/-- The tables, the definitions of fields, the version of the latest release, and what the runs
under way have read. -/
structure Indexing where
  tables : Tables
  definitions : FieldDefinitions
  version : ℕ
  work : List WorkItem

/-- The rows of `report_fields` of a report. -/
def fieldsOf (t : Tables) (report : ReportId) : List StoredField :=
  (t.fields.filter (·.1 = report)).map Prod.snd

/-- The statements of `accept_report` in the transaction that accepts a report. -/
def acceptSubmission (t : Tables) (version : ℕ) (s : Submission) (now : Timestamp) :
    Except AppError Tables := do
  let t ← t.insertSubmission
    { s with request := { s.request with stackSignature := none } } now
  match s.request.stackSignature with
  | some fingerprint =>
    t.setDatabase (t.database.acceptStackSignatureAt version s.request.reportId fingerprint)
  | none => return t

/-- `finish_failure_reason`: a report that has a failure reason keeps it. -/
def finishFailureReason (t : Tables) (report : ReportId) (reason : Option Str) : Tables :=
  match reason with
  | some text =>
    if (fieldsOf t report).any (·.key = failureReasonKey) then t
    else { t with
      fields := t.fields ++ [(report, ⟨failureReasonKey, .text, .string text, false⟩)] }
  | none => t

/-- `upsert_field_definition`; a new one gets the next position. -/
def upsertFieldDefinition (definitions : FieldDefinitions) (key label : Str) (kind : FieldKind)
    (position : ℤ) : FieldDefinitions :=
  Function.update definitions key
    (some ⟨key, label, kind, ((definitions key).map (·.position)).getD position⟩)

namespace Indexing

section

variable (u : Unicode) (sha256 : List UInt8 → Str) (numberText : JsonNumber → Str) (w : Indexing)

/-- The stack trace of a report as the rows have it, with its fingerprint. -/
def trace? (r : Report) : Option PendingStackTrace :=
  match indexedSignature u sha256 numberText r.kind (fieldsOf w.tables r.id) w.definitions with
  | .ok (some fingerprint) =>
    some ⟨r.id, r.kind, fingerprint.map String.ofList, r.autoMatchEligible⟩
  | _ => none

/-- The signature of the report is missing, of another version, or still to be matched. -/
def awaitsIndexing (version : ℕ) (r : Report) : Bool :=
  r.ready && w.tables.database.signatures.all fun s =>
    s.reportId ≠ r.id || s.algorithmVersion ≠ version || s.matchedAt.isNone

/-- `ORDER BY reports.created_at, reports.id`. -/
def indexedBefore (a b : Report) : Bool :=
  a.createdAt < b.createdAt || (a.createdAt = b.createdAt && a.id.value ≤ b.id.value)

def stackIndexBatchSize : ℕ := 50

def stackTracesToIndex (version : ℕ) (reportId : Option ReportId) (limit : ℕ) :
    List PendingStackTrace :=
  let rows := w.tables.database.reports.filter fun r => reportId.all (· = r.id) &&
    w.awaitsIndexing version r && (w.trace? u sha256 numberText r).isSome
  ((rows.insertionSort (indexedBefore · ·)).take limit).filterMap (w.trace? u sha256 numberText)

/-- Whatever else is done to reports and issues: signatures stay, and reports do not go back. -/
structure Review (db db' : Database) (change : Report → Report) : Prop where
  reports : db'.reports = db.reports.map change
  signatures : db'.signatures = db.signatures
  id : ∀ r, (change r).id = r.id
  kind : ∀ r, (change r).kind = r.kind
  createdAt : ∀ r, (change r).createdAt = r.createdAt
  autoMatchEligible : ∀ r, (change r).autoMatchEligible = r.autoMatchEligible
  ready : ∀ r, r.ready = true → (change r).ready = true

inductive Label
  | accept (s : Submission) (version : ℕ)
  | deleteReport (report : ReportId)
  | finishFailureReason (report : ReportId) (reason : Option Str)
  | upsertFieldDefinition (key label : Str) (kind : FieldKind) (position : ℤ)
  | release (version : ℕ)
  | read
  | store (item : WorkItem)
  | giveUp
  | review

inductive Step : Indexing → Label → Indexing → Prop
  /-- A report is accepted under an ID of its own, with its signature, and with the kinds of the
  definitions that the submission was prepared with. -/
  | accept {w : Indexing} (s : Submission) (version : ℕ) (fields : List DiagnosticField)
      (definitions : FieldDefinitions) (signature : Option (Option Str)) (now : Timestamp)
      (tables : Tables) (hversion : version ≤ w.version)
      (hnew : ∀ item ∈ w.work, item.trace.reportId ≠ s.request.reportId)
      (hfields : s.fields = fields.map (·.stored definitions))
      (hsignature : acceptedSignature u sha256 s.request.kind fields definitions = .ok signature)
      (hrequest : s.request.stackSignature = signature.map (·.map String.ofList))
      (haccept : acceptSubmission w.tables version s now = .ok tables) :
      Step w (.accept s version) { w with tables := tables }
  /-- A report that expired is purged. -/
  | deleteReport {w : Indexing} (report : ReportId) :
      Step w (.deleteReport report) { w with tables := w.tables.deleteReport report }
  /-- What the diagnostics of a report say is written. -/
  | finishFailureReason {w : Indexing} (r : Report) (a : StoredAttachment) (reason : Option Str)
      (hr : r ∈ w.tables.database.reports) (hready : r.ready = true)
      (ha : (r.id, a) ∈ w.tables.attachments) (hname : a.name = "crash-diagnostics.txt")
      (hmedia : a.mediaType = "text/plain") :
      Step w (.finishFailureReason r.id reason)
        { w with tables := finishFailureReason w.tables r.id reason }
  | upsertFieldDefinition {w : Indexing} (key label : Str) (kind : FieldKind) (position : ℤ) :
      Step w (.upsertFieldDefinition key label kind position)
        { w with definitions := upsertFieldDefinition w.definitions key label kind position }
  | release {w : Indexing} (version : ℕ) (hversion : w.version < version) :
      Step w (.release version) { w with version := version }
  /-- A run of a replica begins. -/
  | read {w : Indexing} (version : ℕ) (reportId : Option ReportId) (limit : ℕ)
      (hversion : version ≤ w.version) :
      Step w .read
        { w with
          work := w.work ++
            (w.stackTracesToIndex u sha256 numberText version reportId limit).map (⟨version, ·⟩) }
  | store {w : Indexing} (item : WorkItem) (now : Timestamp) (db : Database)
      (hitem : item ∈ w.work)
      (hstore : w.tables.database.storeStackSignatureAt item.version item.trace now = .ok db) :
      Step w (.store item)
        { w with tables := { w.tables with database := db }, work := w.work.erase item }
  /-- A run ends early. -/
  | giveUp {w : Indexing} (item : WorkItem) : Step w .giveUp { w with work := w.work.erase item }
  | review {w : Indexing} (db : Database) (change : Report → Report)
      (hreview : Review w.tables.database db change) :
      Step w .review { w with tables := { w.tables with database := db } }

def init (definitions : FieldDefinitions) (version : ℕ) : Indexing :=
  ⟨⟨.empty, [], []⟩, definitions, version, []⟩

def IsReachable : Prop :=
  ∃ definitions version, Reachable (Step u sha256 numberText) (init definitions version) w

end

/-! ## What is done otherwise -/

theorem exists_settle_eq (issues : List Issue) (r : Report) :
    ∃ s f, r.settle issues = r.put r.issueId s f := by
  obtain ⟨s, hs⟩ := followIssueStateOnReport_eq r issues
  unfold Report.settle Report.dropFixOfUnresolvedReport
  rw [hs]
  split
  · exact ⟨s, .null, rfl⟩
  · exact ⟨s, r.fix, rfl⟩

/-- The tables after some review. -/
def Reviewed (db db' : Database) : Prop := ∃ change, Review db db' change

section

variable {db db' : Database} {actor : ℤ}

theorem Reviewed.of_same (hreports : db'.reports = db.reports)
    (hsignatures : db'.signatures = db.signatures) : Reviewed db db' :=
  ⟨id, by rw [List.map_id, hreports], hsignatures, fun _ => rfl, fun _ => rfl, fun _ => rfl,
    fun _ => rfl, fun _ h => h⟩

theorem Reviewed.trans {db₁ : Database} (h₁ : Reviewed db db₁) (h₂ : Reviewed db₁ db') :
    Reviewed db db' := by
  obtain ⟨f, h₁⟩ := h₁
  obtain ⟨g, h₂⟩ := h₂
  refine ⟨g ∘ f, ?_, h₂.signatures.trans h₁.signatures, fun r => ?_, fun r => ?_, fun r => ?_,
    fun r => ?_, fun r hr => h₂.ready _ (h₁.ready r hr)⟩
  · rw [h₂.reports, h₁.reports, List.map_map]
  · exact (h₂.id _).trans (h₁.id r)
  · exact (h₂.kind _).trans (h₁.kind r)
  · exact (h₂.createdAt _).trans (h₁.createdAt r)
  · exact (h₂.autoMatchEligible _).trans (h₁.autoMatchEligible r)

theorem Reviewed.of_updateReports {p : Report → Bool} {set : Report → Report}
    (hset : ∀ r, ∃ o s f, set r = r.put o s f) (h : db.updateReports p set = .ok db') :
    Reviewed db db' := by
  obtain rfl := Database.updateReports_eq_ok h
  have hput : ∀ r, ∃ o s f, (if p r then (set r).settle db.issues else r) = r.put o s f := by
    intro r
    split
    · obtain ⟨o, s, f, hr⟩ := hset r
      obtain ⟨s', f', hs⟩ := exists_settle_eq db.issues (set r)
      exact ⟨_, s', f', by rw [hs, hr]; rfl⟩
    · exact ⟨_, _, _, (put_self r).symm⟩
  refine ⟨_, rfl, rfl, fun r => ?_, fun r => ?_, fun r => ?_, fun r => ?_, fun r hr => ?_⟩
  all_goals obtain ⟨o, s, f, heq⟩ := hput r; rw [heq]; try exact rfl
  exact hr

theorem linkReport_reviewed {reportId : ReportId} {issueId : IssueId}
    (h : db.linkReport reportId issueId actor = .ok db') : Reviewed db db' := by
  unfold Database.linkReport at h
  obtain ⟨previous, -, h⟩ := bind_eq_ok.mp h
  obtain ⟨state, -, h⟩ := bind_eq_ok.mp h
  dsimp only at h
  split at h
  · exact pure_eq_ok.mp h ▸ .of_same rfl rfl
  obtain ⟨u, -, h⟩ := bind_eq_ok.mp h
  obtain ⟨db₁, h₁, h⟩ := bind_eq_ok.mp h
  obtain rfl := pure_eq_ok.mp h
  refine (Reviewed.of_updateReports (fun r => ⟨_, _, r.fix, rfl⟩) h₁).trans (.of_same ?_ ?_) <;>
    split <;> split <;> rfl

theorem linkReports_reviewed {reportIds : List ReportId} {issueId : IssueId}
    (h : db.linkReports reportIds issueId actor = .ok db') : Reviewed db db' := by
  unfold Database.linkReports at h
  obtain ⟨u, -, h⟩ := bind_eq_ok.mp h
  exact (foldlM_related (I := fun _ => True) (R := Reviewed) (fun _ => .of_same rfl rfl)
    (fun _ _ _ => .trans) (fun _ _ _ _ hst => ⟨trivial, linkReport_reviewed hst⟩) trivial h).2

theorem assignReportsToIssue_reviewed {reportIds : List ReportId} {issueId : IssueId}
    (h : db.assignReportsToIssue reportIds issueId actor = .ok db') : Reviewed db db' := by
  unfold Database.assignReportsToIssue at h
  obtain ⟨u, -, h⟩ := bind_eq_ok.mp h
  exact linkReports_reviewed h

theorem linkToGithubIssue_reviewed {issue : GithubIssue} {reportIds : List ReportId}
    {repository : String} {newId : IssueId} {plan : ℕ} {result : IssueId × Bool}
    (h : db.linkToGithubIssue issue reportIds repository actor newId plan = .ok (result, db')) :
    Reviewed db db' := by
  unfold Database.linkToGithubIssue at h
  split at h
  · obtain ⟨u, -, h⟩ := bind_eq_ok.mp h
    obtain ⟨db₁, h₁, h⟩ := bind_eq_ok.mp h
    obtain ⟨-, rfl⟩ := Prod.mk.inj (pure_eq_ok.mp h)
    exact linkReports_reviewed h₁
  · obtain ⟨db₁, h₁, h⟩ := bind_eq_ok.mp h
    obtain ⟨db₂, h₂, h⟩ := bind_eq_ok.mp h
    obtain ⟨-, rfl⟩ := Prod.mk.inj (pure_eq_ok.mp h)
    unfold Database.createIssue at h₁
    obtain ⟨db₃, h₃, h₁⟩ := bind_eq_ok.mp h₁
    obtain rfl := pure_eq_ok.mp h₁
    obtain ⟨-, rfl⟩ := insertIssue_eq_ok h₃
    refine .trans ?_ (linkReports_reviewed h₂)
    exact .of_same rfl rfl

theorem unlinkReportFromIssue_reviewed {issueId : IssueId} {reportId : ReportId}
    (h : db.unlinkReportFromIssue issueId reportId actor = .ok db') : Reviewed db db' := by
  unfold Database.unlinkReportFromIssue at h
  obtain ⟨u, -, h⟩ := bind_eq_ok.mp h
  obtain ⟨report, -, h⟩ := bind_eq_ok.mp h
  unfold Database.unlinkReport at h
  obtain ⟨db₁, h₁, h⟩ := bind_eq_ok.mp h
  obtain rfl := pure_eq_ok.mp h
  refine (Reviewed.of_updateReports (fun r => ⟨_, _, r.fix, rfl⟩) h₁).trans (.of_same ?_ ?_) <;>
    split <;> rfl

theorem markStorageReady_reviewed (reportId : ReportId) (uploadId : UploadId) :
    Reviewed db (db.markStorageReady reportId uploadId).2 := by
  unfold Database.markStorageReady
  dsimp only
  split
  · refine ⟨fun r => if r.id = reportId && r.stagingId = uploadId && !r.ready then
      { r with storageState := .ready } else r, rfl, rfl, fun r => ?_, fun r => ?_, fun r => ?_,
      fun r => ?_, fun r hr => ?_⟩
    all_goals split
    all_goals first | rfl | exact hr
  · exact .of_same rfl rfl

end

end Indexing

/-- The files of a report are stored, reports are linked to an issue, or one is unlinked. -/
def Operation.reviews : Operation → Bool
  | .markStorageReady .. | .assignReportsToIssue .. | .linkToGithubIssue ..
  | .unlinkReportFromIssue .. => true
  | _ => false

namespace Indexing

theorem reviewed_of_reviews (op : Operation) (h : op.reviews = true) (db : Database) :
    Reviewed db (op.exec db) := by
  cases op with
  | markStorageReady reportId uploadId => exact markStorageReady_reviewed reportId uploadId
  | assignReportsToIssue reportIds issueId actor =>
    change Reviewed db (commit (db.assignReportsToIssue reportIds issueId actor) db)
    cases hlink : db.assignReportsToIssue reportIds issueId actor with
    | error error => exact .of_same rfl rfl
    | ok db' => exact assignReportsToIssue_reviewed hlink
  | linkToGithubIssue issue reportIds repository actor newId plan =>
    change Reviewed db (commit _ db)
    cases hcheck : Database.checkGithubAssignment issue reportIds repository with
    | error error => exact .of_same rfl rfl
    | ok u =>
      rw [ok_bind]
      cases hlink : db.linkToGithubIssue issue reportIds repository actor newId plan with
      | error error => exact .of_same rfl rfl
      | ok result => exact linkToGithubIssue_reviewed hlink
  | unlinkReportFromIssue issueId reportId actor =>
    change Reviewed db (commit (db.unlinkReportFromIssue issueId reportId actor) db)
    cases hunlink : db.unlinkReportFromIssue issueId reportId actor with
    | error error => exact .of_same rfl rfl
    | ok db' => exact unlinkReportFromIssue_reviewed hunlink
  | _ => cases h

def operate (w : Indexing) (op : Operation) : Indexing :=
  { w with tables := { w.tables with database := op.exec w.tables.database } }

theorem step_operate {u : Unicode} {sha256 : List UInt8 → Str} {numberText : JsonNumber → Str}
    (w : Indexing) (op : Operation) (h : op.reviews = true) :
    Step u sha256 numberText w .review (w.operate op) :=
  let ⟨change, hreview⟩ := reviewed_of_reviews op h w.tables.database
  .review _ change hreview

/-! ## Sample reports -/

/-- Every text has one digest. -/
def sampleSha256 (_ : List UInt8) : Str := List.replicate 64 'a'

def sampleNumberText (_ : JsonNumber) : Str := "0".toList

def sampleFields (stack : Str) : List DiagnosticField := [⟨stackKey, .stackTrace stack⟩]

/-- A stack of one frame. -/
def sampleStack : Str := "#0 0x1 in f".toList

/-- The submission of a crash with this stack, and with diagnostics. -/
def sampleReport (n : ℕ) (stack : Str) (fingerprint : Option String) : Submission where
  request :=
    { challengeId := ⟨n⟩
      tokenHash := sampleDigest
      digest := sampleDigest
      reportId := ⟨n⟩
      submission := ⟨n⟩
      kind := .crash
      version := "1"
      build := ""
      uploadStagingId := ⟨n⟩
      sourceClientKey := none
      fieldCount := 1
      attachmentCount := 1
      stackSignature := some fingerprint
      retentionDays := 30 }
  fields := (sampleFields stack).map (·.stored fun _ => none)
  attachments := [⟨⟨n⟩, "a", "crash-diagnostics.txt", "text/plain", 1, sampleDigest⟩]
  claimsExpireAt := 10
  fieldCount := rfl
  attachmentCount := rfl

/-- The challenges of two reports. -/
def sampleStart : Indexing where
  tables := ⟨{ Database.empty with
    challenges := [⟨⟨0⟩, sampleDigest, sampleDigest, none, 10⟩,
      ⟨⟨1⟩, sampleDigest, sampleDigest, none, 10⟩] }, [], []⟩
  definitions := fun _ => none
  version := 0
  work := []

def acceptSample (w : Indexing) (n : ℕ) (stack : Str) (fingerprint : Option String)
    (now : Timestamp) : Indexing :=
  { w with tables :=
      (acceptSubmission w.tables 0 (sampleReport n stack fingerprint) now).toOption.getD w.tables }

/-- The files of a report are stored. -/
def storeSample (w : Indexing) (n : ℕ) : Indexing := w.operate (.markStorageReady ⟨n⟩ ⟨n⟩)

variable {w : Indexing}

theorem step_acceptSample {n : ℕ} {stack : Str} {fingerprint : Option String} {now : Timestamp}
    (hnew : ∀ item ∈ w.work, item.trace.reportId ≠ ⟨n⟩)
    (hsignature :
      acceptedSignature .ascii sampleSha256 .crash (sampleFields stack) (fun _ => none) =
        .ok (some (fingerprint.map String.toList)))
    (haccept : (acceptSubmission w.tables 0 (sampleReport n stack fingerprint) now).isOk = true) :
    Step .ascii sampleSha256 sampleNumberText w (.accept (sampleReport n stack fingerprint) 0)
      (w.acceptSample n stack fingerprint now) := by
  refine .accept (sampleReport n stack fingerprint) 0 (sampleFields stack) (fun _ => none) _ now _
    (Nat.zero_le _) hnew rfl hsignature ?_ ?_
  · cases fingerprint <;> simp [sampleReport]
  · exact eq_ok_of_isOk _ haccept

theorem step_storeSample (n : ℕ) :
    Step .ascii sampleSha256 sampleNumberText w .review (w.storeSample n) :=
  step_operate w (.markStorageReady ⟨n⟩ ⟨n⟩) rfl

theorem isReachable_sampleStart : sampleStart.IsReachable .ascii sampleSha256 sampleNumberText :=
  ⟨fun _ => none, 0, _, .single (.review _ id
    ⟨rfl, rfl, fun _ => rfl, fun _ => rfl, fun _ => rfl, fun _ => rfl, fun _ h => h⟩)⟩

end Indexing

end LadybirdReports.Admin
