import LadybirdReports.Admin.Schema
import LadybirdReports.Domain.SignatureAgreement
import LadybirdReports.Ingestion.ReportManifest

/-!
# The rows of a manifest

What `accept_report` inserts for a manifest, with the constraints of the tables and the types of
their columns. The limits of a valid configuration are within the constraints but for two: a `text`
has no character U+0000, which only attachment names and what has a pattern exclude, and an
attachment may take up 64 MiB where a submission may be of 66 MiB. Those are all that an insertion
of a valid manifest fails for (`insert_succeeds_iff`).
-/

namespace LadybirdReports.Ingestion

open Admin (AppError check check_eq_ok check_of_forall)
open Rust

/-! ## Types and patterns -/

/-- `text` has every character but U+0000. -/
def isText (value : Str) : Bool := !value.contains '\x00'

/-- `bigint`. -/
def isBigint (value : ℕ) : Bool := value < 2 ^ 63

/-- `public.is_uuid`. -/
def isUuid (value : Uuid) : Bool :=
  [['8'], ['9'], ['a'], ['b']].contains ((value.text.drop 19).take 1)

/-- `public.is_uuid_v7`. -/
def isUuidV7 (value : Uuid) : Bool := (value.text.drop 14).take 1 = ['7'] && isUuid value

/-- `value ~ '^[0-9a-f]{64}$'`. -/
def isDigestText (value : Str) : Bool :=
  value.length = 64 && value.all fun c => isAsciiDigit c || ('a' ≤ c && c ≤ 'f')

/-- `value ~ '^[A-Za-z0-9_-]{1,64}$'`. -/
def isReferenceText (value : Str) : Bool :=
  1 ≤ value.length && value.length ≤ 64 &&
    value.all fun c => isAsciiAlphanumeric c || c = '_' || c = '-'

/-- `value ~ '^[A-Za-z0-9._-]+$'`. -/
def isKeyText (value : Str) : Bool :=
  1 ≤ value.length && value.all fun c => isAsciiAlphanumeric c || "._-".toList.contains c

/-! ## Tables -/

/-- A row of `reports`, less its times. -/
structure ReportsRow where
  id : Uuid
  submissionId : Uuid
  manifestDigest : Str
  kind : Str
  clientVersion : Str
  build : Str
  storageState : Str
  stagingId : Uuid
  sourceClientKey : Option Str
  issueId : Option Uuid
  state : Str
  fixKind : Option Str
  fixReference : Option Str
  fixTitle : Option Str
  fixUrl : Option Str

def ReportsRow.constraints (row : ReportsRow) : List (String × Bool) :=
  [("manifest_digest text", isText row.manifestDigest),
    ("kind text", isText row.kind),
    ("client_version text", isText row.clientVersion),
    ("build text", isText row.build),
    ("storage_state text", isText row.storageState),
    ("source_client_key text", row.sourceClientKey.all isText),
    ("state text", isText row.state),
    ("fix_kind text", row.fixKind.all isText),
    ("fix_reference text", row.fixReference.all isText),
    ("fix_title text", row.fixTitle.all isText),
    ("fix_url text", row.fixUrl.all isText),
    ("reports_build_check", row.build.length ≤ 1024),
    ("reports_client_version_check",
      1 ≤ row.clientVersion.length && row.clientVersion.length ≤ 256),
    ("reports_id_check", isUuidV7 row.id),
    ("reports_issue_id_check", row.issueId.all isUuidV7),
    ("reports_kind_check", ["crash".toList, "web_compat".toList].contains row.kind),
    ("reports_linked_state_valid", row.issueId.isNone || row.state ≠ "triage".toList),
    ("reports_manifest_digest_check", isDigestText row.manifestDigest),
    ("reports_source_client_key_check", row.sourceClientKey.all isDigestText),
    ("reports_staging_id_check", isUuidV7 row.stagingId),
    ("reports_state_valid", ["triage".toList, "confirmed".toList, "resolved".toList,
      "rejected".toList].contains row.state),
    ("reports_storage_state_check",
      ["pending_files".toList, "ready".toList].contains row.storageState),
    ("reports_submission_id_check", isUuid row.submissionId),
    ("reports_fix_kind_valid", row.fixKind.all ["pull_request".toList, "commit".toList].contains),
    ("reports_fix_complete", row.fixKind.isNone = row.fixReference.isNone &&
      row.fixKind.isNone = row.fixTitle.isNone && row.fixKind.isNone = row.fixUrl.isNone),
    ("reports_fix_lengths", row.fixReference.all (·.length ≤ 64) &&
      row.fixTitle.all (·.length ≤ 512) && row.fixUrl.all (·.length ≤ 2048)),
    ("reports_fix_resolves_unlinked",
      row.fixKind.isNone || (row.state = "resolved".toList && row.issueId.isNone))]

/-- A row of `report_fields`. -/
structure ReportFieldsRow where
  reportId : Uuid
  key : Str
  kind : Str
  value : JsonValue
  recognizedAtSubmission : Bool

def ReportFieldsRow.constraints (row : ReportFieldsRow) : List (String × Bool) :=
  [("key text", isText row.key),
    ("kind text", isText row.kind),
    ("value jsonb", row.value.isStorable),
    ("report_fields_key_check", 1 ≤ row.key.length && row.key.length ≤ 64 && isKeyText row.key),
    ("report_fields_kind_check", ["text".toList, "multiline".toList, "stack_trace".toList,
      "url".toList, "commit_id".toList, "number".toList, "boolean".toList,
      "attachment".toList].contains row.kind),
    ("report_fields_report_id_check", isUuidV7 row.reportId)]

/-- A row of `attachments`, less its times. -/
structure AttachmentsRow where
  id : Uuid
  reportId : Uuid
  clientReference : Str
  name : Str
  mediaType : Str
  size : ℕ
  sha256 : Str
  storageKey : Str

def AttachmentsRow.constraints (row : AttachmentsRow) : List (String × Bool) :=
  [("client_reference text", isText row.clientReference),
    ("name text", isText row.name),
    ("media_type text", isText row.mediaType),
    ("size bigint", isBigint row.size),
    ("sha256 text", isText row.sha256),
    ("storage_key text", isText row.storageKey),
    ("attachments_client_reference_check", isReferenceText row.clientReference),
    ("attachments_id_check", isUuidV7 row.id),
    ("attachments_media_type_check",
      ["image/png".toList, "text/plain".toList].contains row.mediaType),
    ("attachments_name_check", 1 ≤ row.name.length && row.name.length ≤ 128),
    ("attachments_report_id_check", isUuidV7 row.reportId),
    ("attachments_sha256_check", isDigestText row.sha256),
    ("attachments_size_check", row.size ≤ 67108864)]

/-- The rows of one report. -/
structure ManifestRows where
  report : ReportsRow
  fields : List ReportFieldsRow
  attachments : List AttachmentsRow

/-! ## What is inserted -/

/-- What the service adds to a manifest. Its identifiers are new, so that no other report has rows
with them. -/
structure Acceptance where
  reportId : ServerUuid
  uploadId : ServerUuid
  manifestDigest : Sha256Hex
  sourceClientKey : Sha256Hex
  attachmentIds : AttachmentReference → ServerUuid

namespace Acceptance

variable (acceptance : Acceptance)

def reportRow (manifest : ReportManifest) : ReportsRow where
  id := acceptance.reportId.uuid
  submissionId := manifest.submissionId.uuid
  manifestDigest := acceptance.manifestDigest.value
  kind := manifest.kind.asStr.toList
  clientVersion := manifest.clientVersion
  build := manifest.build
  storageState := "pending_files".toList
  stagingId := acceptance.uploadId.uuid
  sourceClientKey := some acceptance.sourceClientKey.value
  issueId := none
  state := "triage".toList
  fixKind := none
  fixReference := none
  fixTitle := none
  fixUrl := none

def fieldRow (definitions : FieldDefinitions) (field : DiagnosticField) : ReportFieldsRow where
  reportId := acceptance.reportId.uuid
  key := (field.stored definitions).key
  kind := (field.stored definitions).kind.asStr.toList
  value := (field.stored definitions).value
  recognizedAtSubmission := (field.stored definitions).recognized

def attachmentRow (attachment : AttachmentManifest) : AttachmentsRow where
  id := (acceptance.attachmentIds attachment.id).uuid
  reportId := acceptance.reportId.uuid
  clientReference := attachment.id.value
  name := attachment.name
  mediaType := attachment.mediaType.asStr
  size := attachment.size
  sha256 := attachment.sha256
  storageKey := "reports/".toList ++ acceptance.reportId.uuid.text ++ '/' ::
    (acceptance.attachmentIds attachment.id).uuid.text

end Acceptance

/-- A row is inserted after those of its report: its constraints hold, and none of them has its
key. -/
def insertRow {ρ : Type} (constraints : ρ → List (String × Bool)) (unique : String) (key : ρ → Str)
    (rows : List ρ) (row : ρ) : Except AppError (List ρ) := do
  check (constraints row ++ [(unique, rows.all fun r => key r ≠ key row)])
  return rows ++ [row]

/-- The insertions of `accept_report`. -/
def Acceptance.insert (acceptance : Acceptance) (manifest : ReportManifest)
    (definitions : FieldDefinitions) : Except AppError ManifestRows := do
  ensure (manifest.fields.length ≤ 256 && manifest.attachments.length ≤ 16)
    (.invalidRequest "Invalid report payload")
  check (acceptance.reportRow manifest).constraints
  let fields ← (manifest.fields.map (acceptance.fieldRow definitions)).foldlM
    (insertRow ReportFieldsRow.constraints "report_fields_pkey" (·.key)) []
  let attachments ← (manifest.attachments.map acceptance.attachmentRow).foldlM
    (insertRow AttachmentsRow.constraints "attachments_report_id_client_reference_key"
      (·.clientReference)) []
  return ⟨acceptance.reportRow manifest, fields, attachments⟩

/-- No text of the manifest has the character U+0000, and no attachment is larger than 64 MiB. -/
structure ReportManifest.Storable (manifest : ReportManifest) : Prop where
  clientVersion : '\x00' ∉ manifest.clientVersion
  build : '\x00' ∉ manifest.build
  fields : ∀ field ∈ manifest.fields, field.value.jsonValue.isStorable = true
  attachments : ∀ a ∈ manifest.attachments, a.size ≤ 64 * 1024 * 1024

/-! ## When the insertions succeed -/

section

variable {ρ : Type} {constraints : ρ → List (String × Bool)} {unique : String} {key : ρ → Str}
  {rows rows' new : List ρ} {row : ρ} {acceptance : Acceptance} {manifest : ReportManifest}
  {definitions : FieldDefinitions} {inserted : ManifestRows}

theorem insertRow_eq_ok_iff : insertRow constraints unique key rows row = .ok rows' ↔
    ((∀ c ∈ constraints row, c.2 = true) ∧ key row ∉ rows.map key) ∧ rows ++ [row] = rows' := by
  have hchecked : check (constraints row ++ [(unique, rows.all fun r => key r ≠ key row)]) =
      .ok () ↔ (∀ c ∈ constraints row, c.2 = true) ∧ key row ∉ rows.map key := by
    refine ⟨fun h => ?_, fun h => check_of_forall ?_⟩
    · obtain ⟨hrow, hkey⟩ := List.forall_mem_append.mp (check_eq_ok h)
      exact ⟨hrow, by simpa using hkey⟩
    · exact List.forall_mem_append.mpr ⟨h.1, by simpa using h.2⟩
  unfold insertRow
  rw [bind_eq_ok]
  constructor
  · rintro ⟨_, hcheck, h⟩
    exact ⟨hchecked.mp hcheck, pure_eq_ok.mp h⟩
  · rintro ⟨h, rfl⟩
    exact ⟨(), hchecked.mpr h, rfl⟩

/-- Rows are inserted one after the other if each meets its constraints and no two have one key. -/
theorem foldlM_insertRow_eq_ok_iff :
    new.foldlM (insertRow constraints unique key) rows = .ok rows' ↔
      ((∀ row ∈ new, ∀ c ∈ constraints row, c.2 = true) ∧ (new.map key).Nodup ∧
        ∀ row ∈ new, key row ∉ rows.map key) ∧ rows ++ new = rows' := by
  induction new generalizing rows with
  | nil => simp [pure_eq_ok]
  | cons row new ih =>
    rw [List.foldlM_cons, bind_eq_ok]
    simp only [insertRow_eq_ok_iff, ih, List.forall_mem_cons, List.map_cons, List.nodup_cons]
    constructor
    · rintro ⟨_, ⟨⟨hrow, hkey⟩, rfl⟩, ⟨hnew, hnodup, hkeys⟩, rfl⟩
      simp only [List.map_append, List.map_cons, List.map_nil, List.mem_append,
        List.mem_singleton, not_or] at hkeys
      refine ⟨⟨⟨hrow, hnew⟩, ⟨fun hmem => ?_, hnodup⟩, hkey, fun r hr => (hkeys r hr).1⟩,
        by rw [List.append_assoc]; rfl⟩
      obtain ⟨r, hr, heq⟩ := List.mem_map.mp hmem
      exact (hkeys r hr).2 heq
    · rintro ⟨⟨⟨hrow, hnew⟩, ⟨hne, hnodup⟩, hkey, hkeys⟩, rfl⟩
      refine ⟨_, ⟨⟨hrow, hkey⟩, rfl⟩, ⟨hnew, hnodup, fun r hr hmem => ?_⟩,
        by rw [List.append_assoc]; rfl⟩
      rw [List.map_append, List.mem_append] at hmem
      rcases hmem with hmem | hmem
      · exact hkeys r hr hmem
      · exact hne (List.mem_map.mpr ⟨r, hr, List.mem_singleton.mp hmem⟩)

/-- An insertion is the rows of the manifest, each of which meets the constraints of its table. -/
theorem insert_eq_ok_iff : acceptance.insert manifest definitions = .ok inserted ↔
    (manifest.fields.length ≤ 256 ∧ manifest.attachments.length ≤ 16) ∧
    (∀ c ∈ (acceptance.reportRow manifest).constraints, c.2 = true) ∧
    ((∀ field ∈ manifest.fields, ∀ c ∈ (acceptance.fieldRow definitions field).constraints,
        c.2 = true) ∧ (manifest.fields.map (·.key)).Nodup) ∧
    ((∀ a ∈ manifest.attachments, ∀ c ∈ (acceptance.attachmentRow a).constraints, c.2 = true) ∧
      (manifest.attachments.map (·.id.value)).Nodup) ∧
    ⟨acceptance.reportRow manifest, manifest.fields.map (acceptance.fieldRow definitions),
      manifest.attachments.map acceptance.attachmentRow⟩ = inserted := by
  unfold Acceptance.insert
  simp only [bind_eq_ok, ensure_eq_ok, Bool.and_eq_true, decide_eq_true_eq,
    foldlM_insertRow_eq_ok_iff, pure_eq_ok, List.forall_mem_map, List.map_map, List.map_nil,
    List.not_mem_nil, not_false_eq_true, implies_true, and_true, List.nil_append]
  constructor
  · rintro ⟨_, hlength, _, hreport, _, ⟨hfields, rfl⟩, _, ⟨hattachments, rfl⟩, rfl⟩
    exact ⟨hlength, check_eq_ok hreport, hfields, hattachments, rfl⟩
  · rintro ⟨hlength, hreport, hfields, hattachments, rfl⟩
    exact ⟨(), hlength, (), check_of_forall hreport, _, ⟨hfields, rfl⟩, _, ⟨hattachments, rfl⟩, rfl⟩

end

/-! ## What is valid is within the constraints -/

section

variable {acceptance : Acceptance} {manifest : ReportManifest} {definitions : FieldDefinitions}
  {limits : IngestionLimits} {field : DiagnosticField} {attachment : AttachmentManifest}
  {value : Str} {p : Char → Bool}

theorem isText_iff : isText value = true ↔ '\x00' ∉ value := by simp [isText]

theorem isText_of_all (hzero : p '\x00' = false) (h : value.all p = true) : isText value = true :=
  isText_iff.mpr fun hmem => by
    have hp := List.all_eq_true.mp h _ hmem
    rw [hzero] at hp
    cases hp

theorem isUuid_of_isRfc4122 {uuid : Uuid} (h : uuid.isRfc4122 = true) : isUuid uuid = true :=
  List.contains_iff_mem.mpr (uuid.variantDigit_mem_iff.mpr h)

theorem ServerUuid.isUuidV7_uuid (id : ServerUuid) : Ingestion.isUuidV7 id.uuid = true := by
  have h := id.isUuidV7
  simp only [Bool.and_eq_true, decide_eq_true_eq] at h
  unfold Ingestion.isUuidV7
  rw [isUuid_of_isRfc4122 h.1, Bool.and_true, decide_eq_true_eq]
  exact id.uuid.versionDigit_eq_iff.mpr h.2

theorem isText_of_isSha256Hex (h : isSha256Hex value = true) : isText value = true := by
  unfold isSha256Hex at h
  rw [Bool.and_eq_true] at h
  exact isText_of_all (by decide) h.2

/-- A digest has as many characters as bytes. -/
theorem isDigestText_of_isSha256Hex (h : isSha256Hex value = true) : isDigestText value = true := by
  unfold isSha256Hex at h
  simp only [Bool.and_eq_true, decide_eq_true_eq] at h
  obtain ⟨hlength, hall⟩ := h
  unfold isDigestText
  rw [hall, ← byteLen_of_ascii fun c hc => ?_, hlength]
  · rfl
  · have hdigit := List.all_eq_true.mp hall c hc
    simp only [isAsciiDigit, Bool.or_eq_true, Bool.and_eq_true, decide_eq_true_eq] at hdigit
    have hle : c.toNat ≤ 127 := by
      rcases hdigit with ⟨-, hle⟩ | ⟨-, hle⟩
      · exact le_trans hle (by decide)
      · exact le_trans (show c.toNat ≤ 'f'.toNat from hle) (by decide)
    exact Char.utf8Size_eq_one_iff.mpr hle

/-- Of a row of `reports`, the texts that the client chooses decide. -/
theorem reportRow_constraints_iff (hvalid : manifest.Valid definitions limits) :
    (∀ c ∈ (acceptance.reportRow manifest).constraints, c.2 = true) ↔
      '\x00' ∉ manifest.clientVersion ∧ '\x00' ∉ manifest.build := by
  have hkind : isText manifest.kind.asStr.toList = true ∧
      ["crash".toList, "web_compat".toList].contains manifest.kind.asStr.toList = true := by
    cases manifest.kind <;> decide
  have hdigest := acceptance.manifestDigest.valid
  have hsource := acceptance.sourceClientKey.valid
  have hversion : 1 ≤ manifest.clientVersion.length ∧ manifest.clientVersion.length ≤ 256 :=
    ⟨List.length_pos_iff.mpr hvalid.clientVersion.1,
      (length_le_byteLen _).trans hvalid.clientVersion.2⟩
  have hbuild : manifest.build.length ≤ 1024 := (length_le_byteLen _).trans hvalid.build
  unfold ReportsRow.constraints Acceptance.reportRow
  simp only [List.forall_mem_cons, Option.all_some, Option.all_none, hkind, hversion, hbuild,
    isText_of_isSha256Hex hdigest, isDigestText_of_isSha256Hex hdigest,
    isText_of_isSha256Hex hsource, isDigestText_of_isSha256Hex hsource, ServerUuid.isUuidV7_uuid,
    isUuid_of_isRfc4122 manifest.submissionId.isUuid, isText_iff]
  simp

/-- Of a row of `report_fields`, the value does. -/
theorem fieldRow_constraints_iff (hkey : isValidFieldKey field.key = true) :
    (∀ c ∈ (acceptance.fieldRow definitions field).constraints, c.2 = true) ↔
      field.value.jsonValue.isStorable = true := by
  unfold isValidFieldKey at hkey
  simp only [Bool.and_eq_true, decide_eq_true_eq] at hkey
  obtain ⟨⟨hne, hlength⟩, hchars⟩ := hkey
  have hkeyText : isText field.key = true := isText_of_all (by decide) hchars
  have hpos : 1 ≤ field.key.length := List.length_pos_iff.mpr hne
  have hshort : field.key.length ≤ 64 := (length_le_byteLen _).trans hlength
  have hpattern : isKeyText field.key = true := by
    unfold isKeyText
    rw [hchars, decide_eq_true hpos]
    rfl
  have hkind : isText field.value.kind.asStr.toList = true ∧
      ["text".toList, "multiline".toList, "stack_trace".toList, "url".toList, "commit_id".toList,
        "number".toList, "boolean".toList, "attachment".toList].contains
          field.value.kind.asStr.toList = true := by
    cases field.value.kind <;> decide
  unfold ReportFieldsRow.constraints Acceptance.fieldRow DiagnosticField.stored
  simp only [List.forall_mem_cons, hkeyText, hpos, hshort, hpattern, hkind,
    ServerUuid.isUuidV7_uuid]
  simp

/-- A reference has as many characters as bytes. -/
theorem isReferenceText_of_isAttachmentReference (h : isAttachmentReference value = true) :
    isReferenceText value = true := by
  unfold isAttachmentReference at h
  simp only [Bool.and_eq_true, decide_eq_true_eq] at h
  obtain ⟨⟨hpos, hlength⟩, hchars⟩ := h
  have hne : value ≠ [] := by
    rintro rfl
    exact absurd hpos (by decide)
  have hpos' : 1 ≤ value.length := List.length_pos_iff.mpr hne
  have hlength' : value.length ≤ 64 := (length_le_byteLen _).trans hlength
  unfold isReferenceText
  rw [decide_eq_true hpos', decide_eq_true hlength']
  refine List.all_eq_true.mpr fun c hc => ?_
  have hchar := List.all_eq_true.mp hchars c hc
  rwa [Bool.or_right_comm] at hchar

theorem isText_storageKey (report attachment : ServerUuid) :
    isText ("reports/".toList ++ report.uuid.text ++ '/' :: attachment.uuid.text) = true := by
  have huuid (id : Uuid) : '\x00' ∉ id.text := fun hmem => by
    rcases Uuid.mem_text hmem with h | h
    · exact absurd h (by decide)
    · exact absurd h (by decide)
  rw [isText_iff]
  simp only [List.mem_append, List.mem_cons, huuid, or_false]
  decide

/-- Of a row of `attachments`, its size does. -/
theorem attachmentRow_constraints_iff (hvalid : attachment.Valid limits) :
    (∀ c ∈ (acceptance.attachmentRow attachment).constraints, c.2 = true) ↔
      attachment.size ≤ 64 * 1024 * 1024 := by
  have hreference := attachment.id.valid
  unfold isAttachmentReference at hreference
  rw [Bool.and_eq_true] at hreference
  have hchars := hreference.2
  have hname := ensure_eq_ok.mp hvalid.name
  simp only [Bool.and_eq_true, decide_eq_true_eq] at hname
  obtain ⟨⟨hne, hbytes⟩, hcharacters⟩ := hname
  have hnameText : isText attachment.name = true := isText_iff.mpr fun hmem => by
    rw [Bool.not_eq_true', List.any_eq_false] at hcharacters
    exact hcharacters _ hmem (by decide)
  have hnameLength : 1 ≤ attachment.name.length ∧ attachment.name.length ≤ 128 :=
    ⟨List.length_pos_iff.mpr hne, (length_le_byteLen _).trans hbytes⟩
  have hreferenceText : isText attachment.id.value = true := isText_of_all (by decide) hchars
  have hpattern : isReferenceText attachment.id.value = true :=
    isReferenceText_of_isAttachmentReference attachment.id.valid
  have hmediaType : isText attachment.mediaType.asStr = true ∧
      ["image/png".toList, "text/plain".toList].contains attachment.mediaType.asStr = true := by
    cases attachment.mediaType <;> decide
  have hkey := isText_storageKey acceptance.reportId (acceptance.attachmentIds attachment.id)
  unfold AttachmentsRow.constraints Acceptance.attachmentRow
  simp only [List.forall_mem_cons, hnameText, hnameLength, hreferenceText, hpattern, hmediaType,
    hkey, isText_of_isSha256Hex hvalid.sha256, isDigestText_of_isSha256Hex hvalid.sha256,
    ServerUuid.isUuidV7_uuid, isBigint, decide_eq_true_eq]
  simp only [decide_true, Bool.and_self, true_and, List.not_mem_nil, false_implies, implies_true,
    and_true]
  exact ⟨fun h => h.2, fun h => ⟨by omega, h⟩⟩

end

/-! ## The manifests that are inserted -/

section

variable {parseUrl : Str → Option UrlParts} {configuration : RuntimeConfiguration}
  {acceptance : Acceptance} {manifest : ReportManifest} {definitions : FieldDefinitions}

/-- A valid manifest is inserted exactly if the database can store its texts and its sizes. -/
theorem insert_succeeds_iff (hconfiguration : configuration.validate parseUrl = .ok ())
    (hmanifest : manifest.validate definitions configuration.limits = .ok ()) :
    (∃ rows, acceptance.insert manifest definitions = .ok rows) ↔ manifest.Storable := by
  have hvalid := valid_of_validate hmanifest
  obtain ⟨hmaximumFields, hmaximumAttachments, -, -⟩ := limits_of_validate hconfiguration
  obtain ⟨references, hfields⟩ := hvalid.fields
  obtain ⟨hfieldCount, hchecked⟩ := checked_of_validateFields hfields
  have hnodup := nodup_of_validateFields hfields
  have hids : (manifest.attachments.map (·.id.value)).Nodup := by
    have hinjective : Function.Injective AttachmentReference.value := by
      rintro ⟨a, _⟩ ⟨b, _⟩ rfl
      rfl
    exact List.map_map ▸ hvalid.references.map hinjective
  simp only [insert_eq_ok_iff, reportRow_constraints_iff hvalid]
  constructor
  · rintro ⟨_, -, ⟨hversion, hbuild⟩, ⟨hrows, -⟩, ⟨hattachments, -⟩, -⟩
    exact {
      clientVersion := hversion
      build := hbuild
      fields := fun field hfield =>
        (fieldRow_constraints_iff (hchecked field hfield).1).mp (hrows field hfield)
      attachments := fun a ha =>
        (attachmentRow_constraints_iff (hvalid.attachments a ha)).mp (hattachments a ha) }
  · intro h
    refine ⟨_, ⟨hfieldCount.trans hmaximumFields,
      hvalid.attachmentCount.trans hmaximumAttachments⟩, ⟨h.clientVersion, h.build⟩,
      ⟨fun field hfield => ?_, hnodup⟩, ⟨fun a ha => ?_, hids⟩, rfl⟩
    · exact (fieldRow_constraints_iff (hchecked field hfield).1).mpr (h.fields field hfield)
    · exact (attachmentRow_constraints_iff (hvalid.attachments a ha)).mpr (h.attachments a ha)

end

/-! ## Manifests that are refused -/

def sampleParseUrl (url : Str) : Option UrlParts :=
  if url = RuntimeConfiguration.default.publicBaseUrl then
    some (.origin "https".toList "reports.app.ladybird.org".toList)
  else if url = RuntimeConfiguration.default.adminBaseUrl then
    some (.origin "http".toList "localhost".toList)
  else none

/-- As large a submission as a configuration can allow, in one attachment. -/
def largeConfiguration : RuntimeConfiguration :=
  { RuntimeConfiguration.default with
    limits := { IngestionLimits.default with
      attachmentBytes := hardMaxBodyBytes
      submissionBytes := hardMaxBodyBytes } }

def sampleUuid : Uuid :=
  ⟨fun i => ⟨if i.val = 6 then 0x70 else if i.val = 8 then 0x80 else 0, by grind⟩⟩

def sampleDigest : Sha256Hex := ⟨List.replicate 64 '0', by decide +kernel⟩

def sampleAcceptance : Acceptance where
  reportId := ⟨sampleUuid, by decide +kernel⟩
  uploadId := ⟨sampleUuid, by decide +kernel⟩
  manifestDigest := sampleDigest
  sourceClientKey := sampleDigest
  attachmentIds := fun _ => ⟨sampleUuid, by decide +kernel⟩

def sampleManifest (build : Str) (size : ℕ) : ReportManifest where
  protocol := 1
  submissionId := ⟨sampleUuid, by decide +kernel⟩
  kind := .crash
  clientVersion := "1.0".toList
  build := build
  fields := [⟨"process".toList, .text "WebContent".toList⟩,
    ⟨"log".toList, .attachment "log".toList⟩]
  attachments := [⟨⟨"log".toList, by decide +kernel⟩, "log.txt".toList, .plainText, size,
    sampleDigest.value⟩]

theorem ordinary_manifest_is_inserted :
    ∃ rows, sampleAcceptance.insert (sampleManifest "Release".toList 10) (fun _ => none) =
      .ok rows := by
  refine (@insert_succeeds_iff sampleParseUrl RuntimeConfiguration.default _ _ _ ?_ ?_).mpr
    ⟨?_, ?_, ?_, ?_⟩
  all_goals decide +kernel

/-- A build with the character U+0000, and an attachment of more than 64 MiB. -/
theorem valid_manifests_are_refused :
    (RuntimeConfiguration.default.validate sampleParseUrl = .ok () ∧
      (sampleManifest ['\x00'] 10).validate (fun _ => none) IngestionLimits.default = .ok () ∧
      ¬ ∃ rows, sampleAcceptance.insert (sampleManifest ['\x00'] 10) (fun _ => none) = .ok rows) ∧
    (largeConfiguration.validate sampleParseUrl = .ok () ∧
      (sampleManifest [] 67108865).validate (fun _ => none) largeConfiguration.limits = .ok () ∧
      ¬ ∃ rows, sampleAcceptance.insert (sampleManifest [] 67108865) (fun _ => none) =
        .ok rows) := by
  refine ⟨⟨by decide +kernel, by decide +kernel, ?_⟩, by decide +kernel, by decide +kernel, ?_⟩
  · rintro ⟨rows, hrows⟩
    have hrefused : (sampleAcceptance.insert (sampleManifest ['\x00'] 10) fun _ => none).isOk =
        false := by decide +kernel
    rw [hrows] at hrefused
    cases hrefused
  · rintro ⟨rows, hrows⟩
    have hrefused : (sampleAcceptance.insert (sampleManifest [] 67108865) fun _ => none).isOk =
        false := by decide +kernel
    rw [hrows] at hrefused
    cases hrefused

end LadybirdReports.Ingestion
