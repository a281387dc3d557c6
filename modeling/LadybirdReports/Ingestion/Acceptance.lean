import LadybirdReports.Admin.IngestChanges
import LadybirdReports.Domain.Field

/-!
# Accepting a submission

The tables that a submission writes, and the transaction of `accept_report` that writes them: the
report, its fields and attachments, the challenge that is used up, the event and the signature.
-/

namespace LadybirdReports.Ingestion

open Admin (AppError AcceptReportRequest Challenge Database Report StackSignature Timestamp check
  isHexDigest insertReport_eq_ok acceptStackSignature_eq_ok)
open Rust

/-! ## Tables -/

/-- What `accept_report` is told of an attachment. -/
structure StoredAttachment where
  id : AttachmentId
  clientReference : String
  name : String
  mediaType : String
  size : ℕ
  sha256 : String
  deriving DecidableEq, Repr

/-- The tables that submissions write: `report_fields` and `attachments` next to the others. -/
structure Tables where
  database : Database
  fields : List (ReportId × StoredField)
  attachments : List (ReportId × StoredAttachment)
  deriving DecidableEq, Repr

/-- A submission whose token and proof of work were verified, with what `accept_report` is called
with and when its claims expire. -/
structure Submission where
  request : AcceptReportRequest
  fields : List StoredField
  attachments : List StoredAttachment
  claimsExpireAt : Timestamp
  fieldCount : request.fieldCount = fields.length
  attachmentCount : request.attachmentCount = attachments.length

/-- `^[A-Za-z0-9_-]{1,64}$`. -/
def isClientReference (value : String) : Bool :=
  value ≠ "" && value.length ≤ 64 &&
    value.toList.all fun c => isAsciiAlphanumeric c || c = '_' || c = '-'

namespace Tables

variable (t : Tables)

def insertField (report : ReportId) (field : StoredField) : Except AppError Tables := do
  check [("report_fields_key_check", isValidFieldKey field.key),
    ("report_fields_pkey", t.fields.all fun f => f.1 ≠ report || f.2.key ≠ field.key)]
  return { t with fields := t.fields ++ [(report, field)] }

def insertAttachment (report : ReportId) (attachment : StoredAttachment) :
    Except AppError Tables := do
  check [("attachments_client_reference_check", isClientReference attachment.clientReference),
    ("attachments_media_type_check", ["image/png", "text/plain"].contains attachment.mediaType),
    ("attachments_name_check", 1 ≤ attachment.name.length && attachment.name.length ≤ 128),
    ("attachments_sha256_check", isHexDigest attachment.sha256),
    ("attachments_size_check", attachment.size ≤ 67108864),
    ("attachments_pkey", t.attachments.all (·.2.id ≠ attachment.id)),
    ("attachments_report_id_client_reference_key", t.attachments.all fun a =>
      a.1 ≠ report || a.2.clientReference ≠ attachment.clientReference)]
  return { t with attachments := t.attachments ++ [(report, attachment)] }

/-- The challenge is used up. -/
def consumeChallenge (challenge : ChallengeId) (report : ReportId) : Tables :=
  { t with
    database := { t.database with
      challenges := t.database.challenges.map fun c : Challenge =>
        if c.id = challenge then { c with reportId := some report } else c } }

/-- The database after a statement on the other tables. -/
def setDatabase (database : Except AppError Database) : Except AppError Tables := do
  return { t with database := ← database }

/-- The statements of `accept_report` after the challenge's row is locked, and those that follow it
in the same transaction. -/
def insertSubmission (s : Submission) (now : Timestamp) : Except AppError Tables := do
  ensure (s.request.fieldCount ≤ 256 && s.request.attachmentCount ≤ 16)
    (.invalidRequest "Invalid report payload")
  let t ← t.setDatabase (t.database.insertReport (s.request.report now))
  let t := t.consumeChallenge s.request.challengeId s.request.reportId
  let t ← s.fields.foldlM (fun t field => t.insertField s.request.reportId field) t
  let t ← s.attachments.foldlM (fun t a => t.insertAttachment s.request.reportId a) t
  let t := { t with
    database := t.database.audit none (.report s.request.reportId)
      (.reportSubmitted s.request.kind) }
  ensure s.request.retainable (.database "invalid report retention")
  match s.request.stackSignature with
  | some fingerprint =>
    t.setDatabase (t.database.acceptStackSignature s.request.reportId fingerprint)
  | none => return t

/-- `find_report_receipt`, and the look `accept_report` takes at the reports. -/
def findReport (submission : SubmissionId) : Option Report :=
  t.database.reports.find? (·.submissionId = submission)

/-- `mark_report_storage_ready`. -/
def markStorageReady (report : ReportId) (upload : UploadId) : Tables :=
  { t with database := (t.database.markStorageReady report upload).2 }

/-- A report is purged, with the rows that cascade. -/
def deleteReport (report : ReportId) : Tables where
  database := { t.database with
    reports := t.database.reports.filter (·.id ≠ report)
    signatures := t.database.signatures.filter (·.reportId ≠ report)
    notifications := t.database.notifications.filter (·.reportId ≠ report) }
  fields := t.fields.filter (·.1 ≠ report)
  attachments := t.attachments.filter (·.1 ≠ report)

/-- `DELETE FROM challenges WHERE expires_at <= now()`. -/
def sweepChallenges (now : Timestamp) : Tables :=
  { t with
    database := { t.database with
      challenges := t.database.challenges.filter fun c => !decide (c.expiresAt ≤ now) } }

end Tables

/-! ## What is inserted -/

namespace Tables

variable {t t' : Tables}

theorem insertField_eq_ok {report : ReportId} {field : StoredField}
    (h : t.insertField report field = .ok t') :
    t' = { t with fields := t.fields ++ [(report, field)] } := by
  unfold insertField at h
  obtain ⟨u, -, h⟩ := bind_eq_ok.mp h
  exact (pure_eq_ok.mp h).symm

theorem insertAttachment_eq_ok {report : ReportId} {attachment : StoredAttachment}
    (h : t.insertAttachment report attachment = .ok t') :
    t' = { t with attachments := t.attachments ++ [(report, attachment)] } := by
  unfold insertAttachment at h
  obtain ⟨u, -, h⟩ := bind_eq_ok.mp h
  exact (pure_eq_ok.mp h).symm

theorem setDatabase_eq_ok {database : Except AppError Database}
    (h : t.setDatabase database = .ok t') :
    ∃ db, database = .ok db ∧ t' = { t with database := db } := by
  obtain ⟨db, hdb, h⟩ := bind_eq_ok.mp h
  exact ⟨db, hdb, (pure_eq_ok.mp h).symm⟩

theorem insertFields_eq_ok {report : ReportId} {rows : List StoredField}
    (h : rows.foldlM (fun t field => t.insertField report field) t = .ok t') :
    t' = { t with fields := t.fields ++ rows.map (report, ·) } := by
  induction rows generalizing t with
  | nil =>
    rw [List.foldlM_nil, pure_eq_ok] at h
    rw [← h, List.map_nil, List.append_nil]
  | cons field rows ih =>
    rw [List.foldlM_cons, bind_eq_ok] at h
    obtain ⟨m, hm, h⟩ := h
    rw [ih h, insertField_eq_ok hm, List.map_cons, List.append_assoc, List.singleton_append]

theorem insertAttachments_eq_ok {report : ReportId} {rows : List StoredAttachment}
    (h : rows.foldlM (fun t a => t.insertAttachment report a) t = .ok t') :
    t' = { t with attachments := t.attachments ++ rows.map (report, ·) } := by
  induction rows generalizing t with
  | nil =>
    rw [List.foldlM_nil, pure_eq_ok] at h
    rw [← h, List.map_nil, List.append_nil]
  | cons attachment rows ih =>
    rw [List.foldlM_cons, bind_eq_ok] at h
    obtain ⟨m, hm, h⟩ := h
    rw [ih h, insertAttachment_eq_ok hm, List.map_cons, List.append_assoc, List.singleton_append]

/-- What the transaction of a submission leaves in the tables. -/
structure Inserted (t : Tables) (s : Submission) (now : Timestamp) (t' : Tables) : Prop where
  fresh : ∀ r ∈ t.database.reports, r.id ≠ s.request.reportId
  reports : t'.database.reports = t.database.reports ++ [s.request.report now]
  challenges : t'.database.challenges =
    (t.consumeChallenge s.request.challengeId s.request.reportId).database.challenges
  fields : t'.fields = t.fields ++ s.fields.map (s.request.reportId, ·)
  signatures : s.request.stackSignature = none →
    t'.database.signatures = t.database.signatures

theorem inserted_of_ok {s : Submission} {now : Timestamp}
    (h : t.insertSubmission s now = .ok t') : Inserted t s now t' := by
  unfold insertSubmission at h
  obtain ⟨u, -, h⟩ := bind_eq_ok.mp h
  obtain ⟨t₁, h₁, h⟩ := bind_eq_ok.mp h
  obtain ⟨db, hdb, rfl⟩ := setDatabase_eq_ok h₁
  obtain ⟨hfresh, rfl⟩ := insertReport_eq_ok rfl hdb
  obtain ⟨t₂, h₂, h⟩ := bind_eq_ok.mp h
  obtain rfl := insertFields_eq_ok h₂
  obtain ⟨t₃, h₃, h⟩ := bind_eq_ok.mp h
  obtain rfl := insertAttachments_eq_ok h₃
  obtain ⟨v, -, h⟩ := bind_eq_ok.mp h
  split at h
  · rename_i fingerprint hsignature
    obtain ⟨db, hdb, rfl⟩ := setDatabase_eq_ok h
    obtain ⟨signatures, rfl⟩ := acceptStackSignature_eq_ok hdb
    exact ⟨hfresh, rfl, rfl, rfl, fun hnone => by rw [hnone] at hsignature; cases hsignature⟩
  · obtain rfl := pure_eq_ok.mp h
    exact ⟨hfresh, rfl, rfl, rfl, fun _ => rfl⟩

/-- What is inserted is what `acceptReport` does to the tables it knows. -/
theorem acceptReport_of_insertSubmission {s : Submission} {now : Timestamp}
    (hnone : t.findReport s.request.submission = none)
    (hopen : t.database.challengeIsOpen s.request now = true)
    (h : t.insertSubmission s now = .ok t') :
    t.database.acceptReport s.request now = .ok (.accepted s.request.reportId, t'.database) := by
  unfold insertSubmission at h
  obtain ⟨u, hpayload, h⟩ := bind_eq_ok.mp h
  obtain ⟨t₁, h₁, h⟩ := bind_eq_ok.mp h
  obtain ⟨db, hdb, rfl⟩ := setDatabase_eq_ok h₁
  obtain ⟨t₂, h₂, h⟩ := bind_eq_ok.mp h
  obtain ⟨t₃, h₃, h⟩ := bind_eq_ok.mp h
  obtain rfl := insertFields_eq_ok h₂
  obtain rfl := insertAttachments_eq_ok h₃
  obtain ⟨v, hretention, h⟩ := bind_eq_ok.mp h
  unfold findReport at hnone
  unfold Database.acceptReport
  rw [hnone]
  dsimp only
  rw [(ensure_eq_ok (u := ())).mpr hopen, hpayload, hdb]
  simp only [ok_bind]
  rw [hretention]
  simp only [ok_bind]
  cases hsignature : s.request.stackSignature with
  | none =>
    rw [hsignature] at h
    obtain rfl := pure_eq_ok.mp h
    rfl
  | some fingerprint =>
    rw [hsignature] at h
    obtain ⟨db', hdb', rfl⟩ := setDatabase_eq_ok h
    exact bind_eq_ok.mpr ⟨db', hdb', rfl⟩

/-- The challenges are those there were, except that the one answered refers to the report. -/
theorem mem_consumeChallenge {challenge : ChallengeId} {report : ReportId} {c : Challenge} :
    c ∈ (t.consumeChallenge challenge report).database.challenges ↔
      (c ∈ t.database.challenges ∧ c.id ≠ challenge) ∨
        (c.id = challenge ∧ ∃ d ∈ t.database.challenges, d.id = challenge ∧
          c = { d with reportId := some report }) := by
  unfold consumeChallenge
  simp only [List.mem_map]
  constructor
  · rintro ⟨d, hd, rfl⟩
    by_cases hid : d.id = challenge
    · rw [if_pos hid]
      exact .inr ⟨hid, d, hd, hid, rfl⟩
    · rw [if_neg hid]
      exact .inl ⟨hd, hid⟩
  · rintro (⟨hc, hid⟩ | ⟨-, d, hd, hid, rfl⟩)
    · exact ⟨c, hc, if_neg hid⟩
    · exact ⟨d, hd, if_pos hid⟩

end Tables

end LadybirdReports.Ingestion
