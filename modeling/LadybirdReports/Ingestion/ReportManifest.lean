import LadybirdReports.Domain.Field
import LadybirdReports.Domain.States
import LadybirdReports.Ingestion.Limits
import LadybirdReports.Lib.Uuid

/-!
# Report manifests

A manifest as it is read from JSON, and what `ReportManifest::validate` lets pass. Values that are
checked when they are read, or that the service makes itself, carry what they are checked for.
-/

namespace LadybirdReports.Ingestion

open Rust

/-! ## Values that are checked when they are read -/

/-- `uuid_identifier!(SubmissionId, is_uuid, ..)`: clients generate UUIDs of any version. -/
structure ClientUuid where
  uuid : Uuid
  isUuid : uuid.isRfc4122 = true

/-- `uuid_identifier!`: an identifier of the service. -/
structure ServerUuid where
  uuid : Uuid
  isUuidV7 : (uuid.isRfc4122 && uuid.version = 7) = true

def isAttachmentReference (value : Str) : Bool :=
  1 ≤ byteLen value && byteLen value ≤ 64 &&
    value.all fun c => isAsciiAlphanumeric c || c = '-' || c = '_'

/-- Names an attachment within one submission. -/
structure AttachmentReference where
  value : Str
  valid : isAttachmentReference value = true
  deriving DecidableEq

def isSha256Hex (value : Str) : Bool :=
  byteLen value = 64 && value.all fun c => isAsciiDigit c || ('a' ≤ c && c ≤ 'f')

/-- A digest that the service has computed. -/
structure Sha256Hex where
  value : Str
  valid : isSha256Hex value = true

inductive AttachmentMediaType
  | png
  | plainText

def AttachmentMediaType.asStr : AttachmentMediaType → Str
  | .png => "image/png".toList
  | .plainText => "text/plain".toList

structure AttachmentManifest where
  id : AttachmentReference
  name : Str
  mediaType : AttachmentMediaType
  size : ℕ
  sha256 : Str

structure ReportManifest where
  protocol : ℕ
  submissionId : ClientUuid
  kind : ReportKind
  clientVersion : Str
  build : Str
  fields : List DiagnosticField
  attachments : List AttachmentManifest

/-! ## Validation -/

def IngestionLimits.fields (limits : IngestionLimits) : FieldLimits :=
  ⟨limits.maximumFields, limits.shortTextBytes, limits.multilineTextBytes⟩

def validateAttachmentName (name : Str) : Except String Unit :=
  ensure (name ≠ [] && byteLen name ≤ 128 && !name.any fun c => isControl c || c = '/' || c = '\\')
    "Invalid attachment name"

/-- The loop of `validate_attachments`, after the references it has seen and their total size. -/
def validateAttachmentsFrom (limits : IngestionLimits) :
    List AttachmentReference → ℕ → List AttachmentManifest →
      Except String (List AttachmentReference)
  | references, totalSize, [] => do
    ensure (totalSize ≤ limits.submissionBytes) "Attachments are too large"
    return references
  | references, totalSize, attachment :: attachments => do
    ensure (!references.contains attachment.id) "Duplicate attachment reference"
    validateAttachmentName attachment.name
    ensure (attachment.size ≤ limits.attachmentBytes) "Attachment is too large"
    ensure (isSha256Hex attachment.sha256) "Invalid attachment digest"
    -- `checked_add` of 64-bit numbers.
    ensure (totalSize + attachment.size < 2 ^ 64) "Attachments are too large"
    validateAttachmentsFrom limits (attachment.id :: references) (totalSize + attachment.size)
      attachments

def ReportManifest.validateAttachments (manifest : ReportManifest) (limits : IngestionLimits) :
    Except String (List AttachmentReference) :=
  validateAttachmentsFrom limits [] 0 manifest.attachments

/-- The error is the message of `AppError::InvalidRequest`. -/
def ReportManifest.validate (manifest : ReportManifest) (definitions : FieldDefinitions)
    (limits : IngestionLimits) : Except String Unit := do
  ensure (manifest.protocol = 1) "Unsupported report protocol"
  ensure (manifest.clientVersion ≠ [] && byteLen manifest.clientVersion ≤ 256)
    "Invalid client version"
  ensure (byteLen manifest.build ≤ 1024) "Build description is too large"
  ensure (manifest.attachments.length ≤ limits.maximumAttachments) "Too many attachments"
  let references ← manifest.validateAttachments limits
  validateFields manifest.fields (references.map (·.value)) definitions limits.fields

/-! ## What passes -/

section

variable {limits : IngestionLimits} {definitions : FieldDefinitions} {manifest : ReportManifest}
  {references seen : List AttachmentReference} {attachments : List AttachmentManifest} {total : ℕ}

/-- What is checked of an attachment by itself. -/
structure AttachmentManifest.Valid (limits : IngestionLimits) (attachment : AttachmentManifest) :
    Prop where
  name : validateAttachmentName attachment.name = .ok ()
  size : attachment.size ≤ limits.attachmentBytes
  sha256 : isSha256Hex attachment.sha256 = true

theorem valid_of_validateAttachmentsFrom
    (h : validateAttachmentsFrom limits seen total attachments = .ok references) :
    (∀ a ∈ attachments, a.Valid limits) ∧ (attachments.map (·.id)).Nodup ∧
      (∀ a ∈ attachments, a.id ∉ seen) := by
  induction attachments generalizing seen total with
  | nil => exact ⟨List.forall_mem_nil _, List.nodup_nil, List.forall_mem_nil _⟩
  | cons a attachments ih =>
    rw [validateAttachmentsFrom] at h
    obtain ⟨_, hnew, h⟩ := bind_eq_ok.mp h
    obtain ⟨_, hname, h⟩ := bind_eq_ok.mp h
    obtain ⟨_, hsize, h⟩ := bind_eq_ok.mp h
    obtain ⟨_, hdigest, h⟩ := bind_eq_ok.mp h
    obtain ⟨_, -, h⟩ := bind_eq_ok.mp h
    obtain ⟨hvalid, hnodup, hseen⟩ := ih h
    have hnotSeen : a.id ∉ seen := by simpa using ensure_eq_ok.mp hnew
    have hnotNext : a.id ∉ attachments.map (·.id) := by
      intro hmem
      obtain ⟨b, hb, hid⟩ := List.mem_map.mp hmem
      exact hseen b hb (hid ▸ List.mem_cons_self)
    refine ⟨List.forall_mem_cons.mpr ⟨⟨hname, ?_, ensure_eq_ok.mp hdigest⟩, hvalid⟩,
      List.nodup_cons.mpr ⟨hnotNext, hnodup⟩, List.forall_mem_cons.mpr ⟨hnotSeen, ?_⟩⟩
    · exact of_decide_eq_true (ensure_eq_ok.mp hsize)
    · exact fun b hb hmem => hseen b hb (List.mem_cons_of_mem _ hmem)

/-- What a manifest has that passes the checks. -/
structure ReportManifest.Valid (definitions : FieldDefinitions) (limits : IngestionLimits)
    (manifest : ReportManifest) : Prop where
  clientVersion : manifest.clientVersion ≠ [] ∧ byteLen manifest.clientVersion ≤ 256
  build : byteLen manifest.build ≤ 1024
  attachmentCount : manifest.attachments.length ≤ limits.maximumAttachments
  attachments : ∀ a ∈ manifest.attachments, a.Valid limits
  references : (manifest.attachments.map (·.id)).Nodup
  fields : ∃ references : List AttachmentReference,
    validateFields manifest.fields (references.map (·.value)) definitions limits.fields = .ok ()

theorem valid_of_validate (h : manifest.validate definitions limits = .ok ()) :
    manifest.Valid definitions limits := by
  unfold ReportManifest.validate at h
  obtain ⟨_, -, h⟩ := bind_eq_ok.mp h
  obtain ⟨_, hversion, h⟩ := bind_eq_ok.mp h
  obtain ⟨_, hbuild, h⟩ := bind_eq_ok.mp h
  obtain ⟨_, hcount, h⟩ := bind_eq_ok.mp h
  obtain ⟨references, hattachments, hfields⟩ := bind_eq_ok.mp h
  obtain ⟨hvalid, hnodup, -⟩ := valid_of_validateAttachmentsFrom hattachments
  exact {
    clientVersion := by simpa using ensure_eq_ok.mp hversion
    build := of_decide_eq_true (ensure_eq_ok.mp hbuild)
    attachmentCount := of_decide_eq_true (ensure_eq_ok.mp hcount)
    attachments := hvalid
    references := hnodup
    fields := ⟨references, hfields⟩ }

end

end LadybirdReports.Ingestion
