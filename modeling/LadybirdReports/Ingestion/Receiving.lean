import LadybirdReports.Ingestion.ManifestRows
import Mathlib.Data.Fintype.Pi

/-!
# Receiving the attachments

`receive_and_accept` takes the parts that follow the manifest, each in chunks. The bytes of a part
are counted twice, for the part and for the submission, and a digest is made of them as they come.

1. What becomes of the chunks of a part depends only on what they are together
   (`receivePart_eq_ok`).
2. The parts that are all received are the attachments of the manifest, in some order
   (`receive_eq_ok`).

The bytes of the manifest are counted with those of the first chunk, and every part has one, if only
an empty one. If no part comes they never are, and so a manifest of any size is accepted that has no
attachments (`receives_exactly_iff`).
-/

namespace LadybirdReports.Ingestion

open Rust

abbrev Bytes := List UInt8

/-- A digest that is made of bytes as they come. -/
structure Sha256 where
  State : Type
  new : State
  update : State → Bytes → State
  /-- The hexadecimal digits of the digest. -/
  finalize : State → Str
  update_nil : ∀ state, update state [] = state
  update_update : ∀ state bytes bytes', update (update state bytes) bytes' =
    update state (bytes ++ bytes')

def Sha256.digest (sha256 : Sha256) (bytes : Bytes) : Str :=
  sha256.finalize (sha256.update sha256.new bytes)

inductive ReceiveError
  | invalidRequest (message : String)
  | payloadTooLarge
  | io
  deriving DecidableEq, Repr

/-! ## A multipart body -/

/-- A part, in the chunks in which it arrives. -/
structure Part where
  name : Option Str
  chunks : List Bytes
  /-- The stream does not break off after them. -/
  intact : Bool
  /-- The last chunk of a part is the one before its end, and may be empty. -/
  chunks_ne_nil : intact = true → chunks ≠ []

/-- The parts that follow the manifest. -/
structure Multipart where
  parts : List Part
  /-- Nothing follows them that is no part. -/
  intact : Bool

def Part.content (part : Part) : Bytes := part.chunks.flatten

/-- What is sent, however it is split into chunks. -/
def Multipart.contents (body : Multipart) : List (Option Str × Bytes × Bool) × Bool :=
  (body.parts.map fun part => (part.name, part.content, part.intact), body.intact)

def Multipart.size (body : Multipart) : ℕ := (body.parts.map fun part => part.content.length).sum

/-! ## Staged files -/

instance : DecidableEq ServerUuid := fun id other =>
  decidable_of_iff (id.uuid.bytes = other.uuid.bytes)
    ⟨fun h => by
      obtain ⟨⟨bytes⟩, _⟩ := id
      obtain ⟨⟨_⟩, _⟩ := other
      obtain rfl : bytes = _ := h
      rfl, fun h => by rw [h]⟩

/-- The files of a staging directory, by the attachments that they are named after. -/
abbrev StagedFiles := List (ServerUuid × Bytes)

structure AttachmentWriter (sha256 : Sha256) where
  file : Bytes
  maximumBytes : ℕ
  bytesWritten : ℕ
  digest : sha256.State

section

variable (sha256 : Sha256)

/-- `create_new`: there is no file of that name. -/
def createWriter (files : StagedFiles) (id : ServerUuid) (maximumBytes : ℕ) :
    Except ReceiveError (AttachmentWriter sha256) := do
  ensure (files.all fun file => file.1 ≠ id) .io
  return ⟨[], maximumBytes, 0, sha256.new⟩

variable {sha256}

def AttachmentWriter.write (writer : AttachmentWriter sha256) (bytes : Bytes) :
    Except ReceiveError (AttachmentWriter sha256) := do
  -- `checked_add` of 64-bit numbers.
  ensure (writer.bytesWritten + bytes.length < 2 ^ 64) .payloadTooLarge
  ensure (writer.bytesWritten + bytes.length ≤ writer.maximumBytes) .payloadTooLarge
  return { writer with
    file := writer.file ++ bytes
    digest := sha256.update writer.digest bytes
    bytesWritten := writer.bytesWritten + bytes.length }

/-- What is in the file, if it is as the manifest says. -/
def AttachmentWriter.finish (writer : AttachmentWriter sha256) (expectedSize : ℕ)
    (expectedDigest : Str) : Except ReceiveError Bytes := do
  ensure (writer.bytesWritten = expectedSize && sha256.finalize writer.digest = expectedDigest)
    (.invalidRequest "Attachment size or digest does not match its manifest")
  return writer.file

end

/-! ## The loop over the parts -/

/-- `PreparedSubmission`: a manifest, and an identifier that was made for each attachment. -/
structure PreparedSubmission where
  manifest : ReportManifest
  attachmentIds : AttachmentReference → ServerUuid
  fresh : ∀ attachment ∈ manifest.attachments, ∀ other ∈ manifest.attachments,
    attachmentIds attachment.id = attachmentIds other.id → attachment.id = other.id

/-- `AttachmentReference::try_from`. -/
def AttachmentReference.ofText? (text : Str) : Option AttachmentReference :=
  if h : isAttachmentReference text = true then some ⟨text, h⟩ else none

section

variable (sha256 : Sha256) (limits : IngestionLimits) (prepared : PreparedSubmission)

/-- Of attachments with the same reference the last one is found. -/
def PreparedSubmission.attachment? (reference : AttachmentReference) : Option AttachmentManifest :=
  prepared.manifest.attachments.reverse.find? (·.id = reference)

def PreparedSubmission.attachmentCount : ℕ :=
  (prepared.manifest.attachments.map (·.id)).dedup.length

variable {sha256} in
/-- The loop over the chunks of a part. -/
def receiveChunks : ℕ → AttachmentWriter sha256 → List Bytes →
    Except ReceiveError (ℕ × AttachmentWriter sha256)
  | totalBytes, writer, [] => .ok (totalBytes, writer)
  | totalBytes, writer, chunk :: chunks => do
    ensure (totalBytes + chunk.length < 2 ^ 64) .payloadTooLarge
    ensure (totalBytes + chunk.length ≤ limits.submissionBytes) .payloadTooLarge
    let writer ← writer.write chunk
    receiveChunks (totalBytes + chunk.length) writer chunks

/-- What has been received: the references of the attachments, the bytes and the files. -/
structure Received where
  references : List AttachmentReference
  totalBytes : ℕ
  files : StagedFiles

/-- One round of the loop over the parts. -/
def receivePart (received : Received) (part : Part) : Except ReceiveError Received := do
  let reference ← okOr (part.name.bind AttachmentReference.ofText?)
    (.invalidRequest "Invalid attachment part name")
  let attachment ← okOr (prepared.attachment? reference) (.invalidRequest "Unexpected attachment")
  ensure (!received.references.contains reference) (.invalidRequest "Duplicate attachment")
  let writer ← createWriter sha256 received.files (prepared.attachmentIds reference) attachment.size
  let (totalBytes, writer) ← receiveChunks limits received.totalBytes writer part.chunks
  ensure part.intact (.invalidRequest "Invalid attachment stream")
  let file ← writer.finish attachment.size attachment.sha256
  return ⟨received.references ++ [reference], totalBytes,
    received.files ++ [(prepared.attachmentIds reference, file)]⟩

/-- `receive_and_accept` up to where it goes on to `accept_submission`: the files in staging. -/
def receive (manifestSize : ℕ) (body : Multipart) : Except ReceiveError StagedFiles := do
  let received ← body.parts.foldlM (receivePart sha256 limits prepared) ⟨[], manifestSize, []⟩
  ensure body.intact (.invalidRequest "Invalid multipart body")
  ensure (received.references.length = prepared.attachmentCount)
    (.invalidRequest "Missing attachment")
  return received.files

/-- The answer, and the database after it. -/
def receiveAndAccept {δ : Type}
    (acceptSubmission : StagedFiles → δ → Except ReceiveError ServerUuid × δ) (manifestSize : ℕ)
    (body : Multipart) (database : δ) : Except ReceiveError ServerUuid × δ :=
  match receive sha256 limits prepared manifestSize body with
  | .ok files => acceptSubmission files database
  | .error error => (.error error, database)

/-! ## What is received -/

/-- The part is the attachment. -/
structure Carries (attachment : AttachmentManifest) (part : Part) : Prop where
  name : part.name = some attachment.id.value
  intact : part.intact = true
  size : part.content.length = attachment.size
  digest : sha256.digest part.content = attachment.sha256

/-- The parts are the attachments of the manifest, in some order. -/
def IsComplete (body : Multipart) : Prop :=
  body.intact = true ∧ ∃ attachments : List AttachmentManifest,
    attachments.Perm prepared.manifest.attachments ∧
      List.Forall₂ (Carries sha256) attachments body.parts

/-- What is to be accepted: the attachments, and no more bytes than a submission may have. -/
def IsSubmission (manifestSize : ℕ) (body : Multipart) : Prop :=
  IsComplete sha256 prepared body ∧ manifestSize + body.size ≤ limits.submissionBytes

/-- The file of a part. -/
def stagedFile (part : Part) : Option (ServerUuid × Bytes) :=
  (part.name.bind AttachmentReference.ofText?).map fun reference =>
    (prepared.attachmentIds reference, part.content)

/-- Exactly the submissions are accepted, with the files that were sent, in whatever chunks. -/
structure ReceivesExactly {δ : Type}
    (acceptSubmission : StagedFiles → δ → Except ReceiveError ServerUuid × δ) (manifestSize : ℕ)
    (body : Multipart) : Prop where
  accepted : IsSubmission sha256 limits prepared manifestSize body →
    receive sha256 limits prepared manifestSize body =
      .ok (body.parts.filterMap (stagedFile prepared))
  /-- Nothing is written for any other body. -/
  refused : ¬ IsSubmission sha256 limits prepared manifestSize body →
    ∃ error, receive sha256 limits prepared manifestSize body = .error error ∧
      ∀ database, receiveAndAccept sha256 limits prepared acceptSubmission manifestSize body
        database = (.error error, database)
  chunks : ∀ other : Multipart, other.contents = body.contents →
    (receive sha256 limits prepared manifestSize other).toOption =
      (receive sha256 limits prepared manifestSize body).toOption

end

section

variable {sha256 : Sha256} {limits : IngestionLimits} {prepared : PreparedSubmission}
  {received received' : Received} {part : Part} {parts : List Part} {body : Multipart}
  {writer writer' : AttachmentWriter sha256} {totalBytes totalBytes' manifestSize : ℕ}
  {chunks : List Bytes}

/-! ## The chunks of a part -/

/-- The writer after some bytes. -/
def AttachmentWriter.after (writer : AttachmentWriter sha256) (bytes : Bytes) :
    AttachmentWriter sha256 :=
  { writer with
    file := writer.file ++ bytes
    digest := sha256.update writer.digest bytes
    bytesWritten := writer.bytesWritten + bytes.length }

theorem AttachmentWriter.after_nil : writer.after [] = writer := by
  unfold AttachmentWriter.after
  rw [List.append_nil, sha256.update_nil, List.length_nil, Nat.add_zero]

theorem AttachmentWriter.after_after (bytes bytes' : Bytes) :
    (writer.after bytes).after bytes' = writer.after (bytes ++ bytes') := by
  unfold AttachmentWriter.after
  dsimp only
  rw [List.append_assoc, sha256.update_update, List.length_append, Nat.add_assoc]

theorem AttachmentWriter.write_eq_ok (hmaximum : writer.maximumBytes < 2 ^ 64) {bytes : Bytes} :
    writer.write bytes = .ok writer' ↔
      writer.bytesWritten + bytes.length ≤ writer.maximumBytes ∧ writer' = writer.after bytes := by
  unfold AttachmentWriter.write
  simp only [bind_eq_ok, ensure_eq_ok, pure_eq_ok, decide_eq_true_eq, exists_const]
  constructor
  · rintro ⟨-, hsize, rfl⟩
    exact ⟨hsize, rfl⟩
  · rintro ⟨hsize, rfl⟩
    exact ⟨hsize.trans_lt hmaximum, hsize, rfl⟩

/-- The chunks of a part are counted as one, and not at all if there is none. -/
theorem receiveChunks_eq_ok (hlimit : limits.submissionBytes < 2 ^ 64)
    (hmaximum : writer.maximumBytes < 2 ^ 64) :
    receiveChunks limits totalBytes writer chunks = .ok (totalBytes', writer') ↔
      (chunks = [] ∨ totalBytes + chunks.flatten.length ≤ limits.submissionBytes ∧
        writer.bytesWritten + chunks.flatten.length ≤ writer.maximumBytes) ∧
      totalBytes' = totalBytes + chunks.flatten.length ∧ writer' = writer.after chunks.flatten := by
  induction chunks generalizing totalBytes writer with
  | nil =>
    rw [receiveChunks, List.flatten_nil, AttachmentWriter.after_nil, Except.ok.injEq, Prod.mk.injEq]
    simp only [true_or, true_and, List.length_nil, Nat.add_zero]
    exact ⟨fun ⟨h, h'⟩ => ⟨h.symm, h'.symm⟩, fun ⟨h, h'⟩ => ⟨h.symm, h'.symm⟩⟩
  | cons chunk chunks ih =>
    have hnext : (writer.after chunk).maximumBytes < 2 ^ 64 := hmaximum
    rw [receiveChunks]
    simp only [bind_eq_ok, ensure_eq_ok, decide_eq_true_eq, exists_const,
      AttachmentWriter.write_eq_ok hmaximum, List.flatten_cons, List.length_append]
    constructor
    · rintro ⟨-, htotal, _, ⟨hwritten, rfl⟩, h⟩
      obtain ⟨hfits, rfl, rfl⟩ := (ih hnext).mp h
      refine ⟨.inr ?_, by omega, AttachmentWriter.after_after _ _⟩
      rcases hfits with rfl | ⟨hrest, hwritten'⟩
      · exact ⟨by simpa using htotal, by simpa using hwritten⟩
      · have hafter : (writer.after chunk).bytesWritten = writer.bytesWritten + chunk.length := rfl
        have hmax : (writer.after chunk).maximumBytes = writer.maximumBytes := rfl
        omega
    · rintro ⟨hfits | ⟨htotal, hwritten⟩, rfl, rfl⟩
      · cases hfits
      · refine ⟨by omega, by omega, _, ⟨by omega, rfl⟩,
          (ih hnext).mpr ⟨.inr ⟨by omega, ?_⟩, ?_, ?_⟩⟩
        · have hafter :
            (writer.after chunk).bytesWritten = writer.bytesWritten + chunk.length := rfl
          have hmax : (writer.after chunk).maximumBytes = writer.maximumBytes := rfl
          omega
        · omega
        · rw [AttachmentWriter.after_after]

/-! ## A part -/

theorem attachmentReference_ofText? {text : Str} {reference : AttachmentReference} :
    AttachmentReference.ofText? text = some reference ↔ text = reference.value := by
  unfold AttachmentReference.ofText?
  split_ifs with h
  · constructor
    · rintro ⟨rfl⟩
      rfl
    · rintro rfl
      rfl
  · refine ⟨nofun, ?_⟩
    rintro rfl
    exact absurd reference.valid h

theorem attachment?_eq_some (hnodup : (prepared.manifest.attachments.map (·.id)).Nodup)
    {reference : AttachmentReference} {attachment : AttachmentManifest} :
    prepared.attachment? reference = some attachment ↔
      attachment ∈ prepared.manifest.attachments ∧ attachment.id = reference := by
  unfold PreparedSubmission.attachment?
  constructor
  · intro h
    exact ⟨List.mem_reverse.mp (List.mem_of_find?_eq_some h), by simpa using List.find?_some h⟩
  · rintro ⟨hmem, rfl⟩
    obtain ⟨found, hfound⟩ := Option.isSome_iff_exists.mp (List.find?_isSome.mpr
      ⟨attachment, List.mem_reverse.mpr hmem, by simp⟩ :
        (prepared.manifest.attachments.reverse.find? (·.id = attachment.id)).isSome = true)
    have hid : found.id = attachment.id := by simpa using List.find?_some hfound
    rw [hfound, List.inj_on_of_nodup_map hnodup
      (List.mem_reverse.mp (List.mem_of_find?_eq_some hfound)) hmem hid]

/-- The bytes are counted, unless no part comes. -/
def WithinBudget (limits : IngestionLimits) (totalBytes : ℕ) (parts : List Part) : Prop :=
  parts = [] ∨
    totalBytes + (parts.map fun part => part.content.length).sum ≤ limits.submissionBytes

/-- What has been received after the parts of some attachments. -/
def Received.after (prepared : PreparedSubmission) (received : Received)
    (attachments : List AttachmentManifest) (parts : List Part) : Received where
  references := received.references ++ attachments.map (·.id)
  totalBytes := received.totalBytes + (parts.map fun part => part.content.length).sum
  files := received.files ++ parts.filterMap (stagedFile prepared)

/-- The files are those of the references. -/
def Received.Agree (prepared : PreparedSubmission) (received : Received) : Prop :=
  received.files.map Prod.fst = received.references.map prepared.attachmentIds

theorem stagedFile_of_carries {attachment : AttachmentManifest}
    (h : Carries sha256 attachment part) :
    stagedFile prepared part = some (prepared.attachmentIds attachment.id, part.content) := by
  unfold stagedFile
  rw [h.name, Option.bind_some, attachmentReference_ofText?.mpr rfl, Option.map_some]

theorem createWriter_eq_ok {files : StagedFiles} {id : ServerUuid} {maximumBytes : ℕ} :
    createWriter sha256 files id maximumBytes = .ok writer ↔
      id ∉ files.map Prod.fst ∧ writer = ⟨[], maximumBytes, 0, sha256.new⟩ := by
  unfold createWriter
  simp only [bind_eq_ok, ensure_eq_ok, exists_const, pure_eq_ok, List.all_eq_true,
    decide_eq_true_eq, List.mem_map, not_exists, not_and]
  exact and_congr_right fun _ => eq_comm

/-- What a new writer has written is a file if its size and its digest are those of the manifest. -/
theorem finish_eq_ok {attachment : AttachmentManifest} {content file : Bytes} :
    ((⟨[], attachment.size, 0, sha256.new⟩ : AttachmentWriter sha256).after content).finish
        attachment.size attachment.sha256 = .ok file ↔
      content.length = attachment.size ∧ sha256.digest content = attachment.sha256 ∧
        file = content := by
  unfold AttachmentWriter.finish AttachmentWriter.after
  simp only [bind_eq_ok, ensure_eq_ok, exists_const, pure_eq_ok, Bool.and_eq_true,
    decide_eq_true_eq, Nat.zero_add, List.nil_append]
  rw [and_assoc]
  exact and_congr_right fun _ => and_congr_right fun _ => eq_comm

theorem receivePart_eq_ok (hlimit : limits.submissionBytes < 2 ^ 64)
    (hnodup : (prepared.manifest.attachments.map (·.id)).Nodup)
    (hsizes : ∀ attachment ∈ prepared.manifest.attachments, attachment.size < 2 ^ 64)
    (hagree : received.Agree prepared)
    (hknown : ∀ reference ∈ received.references,
      ∃ attachment ∈ prepared.manifest.attachments, attachment.id = reference) :
    receivePart sha256 limits prepared received part = .ok received' ↔
      ∃ attachment ∈ prepared.manifest.attachments, Carries sha256 attachment part ∧
        attachment.id ∉ received.references ∧
        received.totalBytes + part.content.length ≤ limits.submissionBytes ∧
        received' = received.after prepared [attachment] [part] := by
  have hfree (attachment : AttachmentManifest) (hmem : attachment ∈ prepared.manifest.attachments) :
      prepared.attachmentIds attachment.id ∉ received.files.map Prod.fst ↔
        attachment.id ∉ received.references := by
    rw [hagree, List.mem_map, not_iff_not]
    constructor
    · rintro ⟨reference, hreference, hid⟩
      obtain ⟨other, hother, rfl⟩ := hknown reference hreference
      exact prepared.fresh other hother attachment hmem hid ▸ hreference
    · exact fun hreference => ⟨_, hreference, rfl⟩
  unfold receivePart
  simp only [bind_eq_ok, okOr_eq_ok, ensure_eq_ok, exists_const, pure_eq_ok]
  constructor
  · rintro ⟨reference, hname, attachment, hfound, hnew, writer, hwriter, ⟨totalBytes, writer'⟩,
      hchunks, hintact, file, hfile, rfl⟩
    obtain ⟨text, htext, hreference⟩ := Option.bind_eq_some_iff.mp hname
    obtain ⟨hmem, rfl⟩ := (attachment?_eq_some hnodup).mp hfound
    obtain ⟨-, rfl⟩ := createWriter_eq_ok.mp hwriter
    obtain ⟨hcounted, rfl, rfl⟩ := (receiveChunks_eq_ok hlimit (hsizes attachment hmem)).mp hchunks
    obtain ⟨hsize, hdigest, rfl⟩ := finish_eq_ok.mp hfile
    have hcarries : Carries sha256 attachment part :=
      ⟨htext.trans (congrArg some (attachmentReference_ofText?.mp hreference)), hintact, hsize,
        hdigest⟩
    have hbudget := (hcounted.resolve_left (part.chunks_ne_nil hintact)).1
    refine ⟨attachment, hmem, hcarries, by simpa using hnew, hbudget, ?_⟩
    unfold Received.after
    rw [List.filterMap_cons_some (stagedFile_of_carries hcarries)]
    rfl
  · rintro ⟨attachment, hmem, hcarries, hnew, hcounted, rfl⟩
    refine ⟨attachment.id, ?_, attachment, (attachment?_eq_some hnodup).mpr ⟨hmem, rfl⟩,
      by simpa using hnew, _, createWriter_eq_ok.mpr ⟨(hfree attachment hmem).mpr hnew, rfl⟩,
      (received.totalBytes + part.content.length, _),
      (receiveChunks_eq_ok hlimit (hsizes attachment hmem)).mpr ⟨?_, rfl, rfl⟩, hcarries.intact,
      part.content, finish_eq_ok.mpr ⟨hcarries.size, hcarries.digest, rfl⟩, ?_⟩
    · rw [hcarries.name, Option.bind_some, attachmentReference_ofText?]
    · refine .inr ⟨hcounted, ?_⟩
      rw [Nat.zero_add]
      exact hcarries.size.le
    · unfold Received.after
      rw [List.filterMap_cons_some (stagedFile_of_carries hcarries)]
      rfl

/-! ## The parts -/

theorem withinBudget_cons : WithinBudget limits totalBytes (part :: parts) ↔
    totalBytes + part.content.length ≤ limits.submissionBytes ∧
      WithinBudget limits (totalBytes + part.content.length) parts := by
  unfold WithinBudget
  rw [List.map_cons, List.sum_cons, ← Nat.add_assoc]
  constructor
  · rintro (hnil | hfits)
    · cases hnil
    · exact ⟨by omega, .inr hfits⟩
  · rintro ⟨hpart, rfl | hfits⟩
    · exact .inr hpart
    · exact .inr hfits

theorem Received.after_nil : received.after prepared [] [] = received := by
  unfold Received.after
  rw [List.map_nil, List.append_nil, List.filterMap_nil, List.append_nil, List.map_nil,
    List.sum_nil, Nat.add_zero]

theorem Received.after_after {attachment : AttachmentManifest}
    {attachments : List AttachmentManifest} :
    (received.after prepared [attachment] [part]).after prepared attachments parts =
      received.after prepared (attachment :: attachments) (part :: parts) := by
  have hfiles : (part :: parts).filterMap (stagedFile prepared) =
      [part].filterMap (stagedFile prepared) ++ parts.filterMap (stagedFile prepared) :=
    List.filterMap_append (l := [part])
  unfold Received.after
  rw [hfiles]
  simp only [List.map_cons, List.map_nil, List.sum_cons, List.sum_nil, Nat.add_zero,
    List.append_assoc, Nat.add_assoc, List.cons_append, List.nil_append]

variable (sha256 received received' parts) in
/-- The parts that are received are attachments, none of them twice, and fit into a submission. -/
theorem receiveParts_eq_ok (hlimit : limits.submissionBytes < 2 ^ 64)
    (hnodup : (prepared.manifest.attachments.map (·.id)).Nodup)
    (hsizes : ∀ attachment ∈ prepared.manifest.attachments, attachment.size < 2 ^ 64)
    (hagree : received.Agree prepared)
    (hknown : ∀ reference ∈ received.references,
      ∃ attachment ∈ prepared.manifest.attachments, attachment.id = reference)
    (honce : received.references.Nodup) :
    parts.foldlM (receivePart sha256 limits prepared) received = .ok received' ↔
      ∃ attachments ⊆ prepared.manifest.attachments,
        List.Forall₂ (Carries sha256) attachments parts ∧
        (received.references ++ attachments.map (·.id)).Nodup ∧
        WithinBudget limits received.totalBytes parts ∧
        received' = received.after prepared attachments parts := by
  induction parts generalizing received with
  | nil =>
    rw [List.foldlM_nil, pure_eq_ok]
    constructor
    · rintro rfl
      exact ⟨[], List.nil_subset _, .nil, by simpa using honce, .inl rfl,
        Received.after_nil.symm⟩
    · rintro ⟨_, -, hcarries, -, -, rfl⟩
      obtain rfl := List.forall₂_nil_right_iff.mp hcarries
      exact Received.after_nil.symm
  | cons part parts ih =>
    have hstep {attachment : AttachmentManifest}
        (hmem : attachment ∈ prepared.manifest.attachments)
        (hcarries : Carries sha256 attachment part)
        (hnew : attachment.id ∉ received.references) :=
      @ih (received.after prepared [attachment] [part])
        (by
          unfold Received.Agree Received.after
          rw [List.map_append, List.map_append, hagree,
            List.filterMap_cons_some (stagedFile_of_carries hcarries)]
          rfl)
        (by
          intro reference hreference
          rcases List.mem_append.mp hreference with hreference | hreference
          · exact hknown reference hreference
          · exact ⟨attachment, hmem, (List.mem_singleton.mp hreference).symm⟩)
        (by
          refine List.nodup_append.mpr ⟨honce, List.nodup_singleton _, ?_⟩
          intro reference hreference other hother
          rintro rfl
          have hid : reference = attachment.id := List.mem_singleton.mp hother
          exact hnew (hid ▸ hreference))
    have htotal {attachment : AttachmentManifest} :
        (received.after prepared [attachment] [part]).totalBytes =
          received.totalBytes + part.content.length := rfl
    have hreferences {attachment : AttachmentManifest} :
        (received.after prepared [attachment] [part]).references =
          received.references ++ [attachment.id] := rfl
    rw [List.foldlM_cons, bind_eq_ok]
    constructor
    · rintro ⟨next, hpart, hparts⟩
      obtain ⟨attachment, hmem, hcarries, hnew, hbudget, rfl⟩ :=
        (receivePart_eq_ok hlimit hnodup hsizes hagree hknown).mp hpart
      obtain ⟨attachments, hsub, hall, hdistinct, hrest, rfl⟩ :=
        (hstep hmem hcarries hnew).mp hparts
      rw [hreferences, List.append_assoc] at hdistinct
      rw [htotal] at hrest
      exact ⟨attachment :: attachments, List.cons_subset.mpr ⟨hmem, hsub⟩, .cons hcarries hall,
        hdistinct, withinBudget_cons.mpr ⟨hbudget, hrest⟩, Received.after_after⟩
    · rintro ⟨_, hsub, hall, hdistinct, hbudget, rfl⟩
      obtain ⟨attachment, attachments, hcarries, hothers, rfl⟩ :=
        List.forall₂_cons_right_iff.mp hall
      obtain ⟨hmem, hsub⟩ := List.cons_subset.mp hsub
      obtain ⟨hfirst, hrest⟩ := withinBudget_cons.mp hbudget
      have hnew : attachment.id ∉ received.references := fun hreference =>
        (List.nodup_append.mp hdistinct).2.2 _ hreference _ List.mem_cons_self rfl
      refine ⟨_, (receivePart_eq_ok hlimit hnodup hsizes hagree hknown).mpr
        ⟨attachment, hmem, hcarries, hnew, hfirst, rfl⟩, (hstep hmem hcarries hnew).mpr
          ⟨attachments, hsub, hothers, ?_, hrest, Received.after_after.symm⟩⟩
      rw [hreferences, List.append_assoc]
      exact hdistinct

/-! ## A body -/

theorem sizes_of_validateAttachmentsFrom {attachments : List AttachmentManifest}
    {references seen : List AttachmentReference} {total : ℕ}
    (h : validateAttachmentsFrom limits seen total attachments = .ok references) :
    ∀ attachment ∈ attachments, attachment.size < 2 ^ 64 := by
  induction attachments generalizing seen total with
  | nil => exact List.forall_mem_nil _
  | cons a attachments ih =>
    rw [validateAttachmentsFrom] at h
    obtain ⟨_, -, h⟩ := bind_eq_ok.mp h
    obtain ⟨_, -, h⟩ := bind_eq_ok.mp h
    obtain ⟨_, -, h⟩ := bind_eq_ok.mp h
    obtain ⟨_, -, h⟩ := bind_eq_ok.mp h
    obtain ⟨_, htotal, h⟩ := bind_eq_ok.mp h
    have hsize : total + a.size < 2 ^ 64 := of_decide_eq_true (ensure_eq_ok.mp htotal)
    exact List.forall_mem_cons.mpr ⟨by omega, ih h⟩

theorem sizes_of_validate {definitions : FieldDefinitions} {manifest : ReportManifest}
    (h : manifest.validate definitions limits = .ok ()) :
    ∀ attachment ∈ manifest.attachments, attachment.size < 2 ^ 64 := by
  unfold ReportManifest.validate at h
  obtain ⟨_, -, h⟩ := bind_eq_ok.mp h
  obtain ⟨_, -, h⟩ := bind_eq_ok.mp h
  obtain ⟨_, -, h⟩ := bind_eq_ok.mp h
  obtain ⟨_, -, h⟩ := bind_eq_ok.mp h
  obtain ⟨references, hattachments, -⟩ := bind_eq_ok.mp h
  exact sizes_of_validateAttachmentsFrom hattachments

/-- A manifest that was found valid, by whatever limits were in force then. -/
def PreparedSubmission.IsValidated (prepared : PreparedSubmission) : Prop :=
  ∃ definitions limits, prepared.manifest.validate definitions limits = .ok ()

/-- A body is received if its parts are the attachments, and the bytes fit or no part comes. -/
theorem receive_eq_ok (hlimit : limits.submissionBytes < 2 ^ 64) (hvalid : prepared.IsValidated)
    {files : StagedFiles} :
    receive sha256 limits prepared manifestSize body = .ok files ↔
      IsComplete sha256 prepared body ∧ WithinBudget limits manifestSize body.parts ∧
        files = body.parts.filterMap (stagedFile prepared) := by
  obtain ⟨definitions, limits', hvalidate⟩ := hvalid
  have hnodup := (valid_of_validate hvalidate).references
  have hparts (received : Received) := receiveParts_eq_ok sha256 ⟨[], manifestSize, []⟩ received
    body.parts hlimit hnodup (sizes_of_validate hvalidate) rfl (List.forall_mem_nil _)
    List.nodup_nil
  have hcount : prepared.attachmentCount = prepared.manifest.attachments.length := by
    unfold PreparedSubmission.attachmentCount
    rw [hnodup.dedup, List.length_map]
  unfold receive IsComplete
  simp only [bind_eq_ok, ensure_eq_ok, exists_const, pure_eq_ok, hparts, decide_eq_true_eq, hcount,
    List.nil_append]
  constructor
  · rintro ⟨_, ⟨attachments, hsub, hall, hdistinct, hbudget, rfl⟩, hintact, hlength, rfl⟩
    refine ⟨⟨hintact, attachments, ?_, hall⟩, hbudget, rfl⟩
    refine (hdistinct.of_map.subperm hsub).perm_of_length_le (le_of_eq ?_)
    rw [← hlength]
    exact List.length_map _
  · rintro ⟨⟨hintact, attachments, hperm, hall⟩, hbudget, rfl⟩
    refine ⟨_, ⟨attachments, hperm.subset, hall, ((hperm.map _).nodup_iff).mpr hnodup, hbudget,
      rfl⟩, hintact, ?_, rfl⟩
    rw [← hperm.length_eq]
    exact List.length_map _

/-! ## What depends on the chunks -/

theorem filterMap_stagedFile_eq {other : Multipart} (h : other.contents = body.contents) :
    other.parts.filterMap (stagedFile prepared) = body.parts.filterMap (stagedFile prepared) := by
  have hparts := congrArg Prod.fst h
  have hfiles (b : Multipart) : b.parts.filterMap (stagedFile prepared) =
      b.contents.1.filterMap fun part => (part.1.bind AttachmentReference.ofText?).map
        fun reference => (prepared.attachmentIds reference, part.2.1) := by
    unfold Multipart.contents
    rw [List.filterMap_map]
    rfl
  rw [hfiles, hfiles, hparts]

theorem size_eq {other : Multipart} (h : other.contents = body.contents) :
    other.size = body.size := by
  have hsize (b : Multipart) : b.size = (b.contents.1.map fun part => part.2.1.length).sum := by
    unfold Multipart.size Multipart.contents
    rw [List.map_map]
    rfl
  rw [hsize, hsize, h]

theorem isComplete_iff {other : Multipart} (h : other.contents = body.contents) :
    IsComplete sha256 prepared other ↔ IsComplete sha256 prepared body := by
  have hcomplete (b : Multipart) : IsComplete sha256 prepared b ↔ b.contents.2 = true ∧
      ∃ attachments : List AttachmentManifest, attachments.Perm prepared.manifest.attachments ∧
        List.Forall₂ (fun attachment part => part.1 = some attachment.id.value ∧
          part.2.2 = true ∧ part.2.1.length = attachment.size ∧
          sha256.digest part.2.1 = attachment.sha256) attachments b.contents.1 := by
    unfold IsComplete Multipart.contents
    simp only [List.forall₂_map_right_iff]
    refine and_congr_right fun _ => exists_congr fun attachments => and_congr_right fun _ => ?_
    exact ⟨fun hall => hall.imp fun _ _ hcarries =>
      ⟨hcarries.name, hcarries.intact, hcarries.size, hcarries.digest⟩,
      fun hall => hall.imp fun _ _ ⟨hname, hintact, hsize, hdigest⟩ =>
        ⟨hname, hintact, hsize, hdigest⟩⟩
  rw [hcomplete, hcomplete, h]

/-- The bytes of the manifest fit, or are counted with a part, or the body is refused anyway. -/
def BudgetIsChecked (sha256 : Sha256) (limits : IngestionLimits) (prepared : PreparedSubmission)
    (manifestSize : ℕ) (body : Multipart) : Prop :=
  manifestSize ≤ limits.submissionBytes ∨ body.parts ≠ [] ∨ ¬ IsComplete sha256 prepared body

theorem parts_eq_nil_iff {other : Multipart} (h : other.contents = body.contents) :
    other.parts = [] ↔ body.parts = [] := by
  have hlength : other.parts.length = body.parts.length := by
    simpa [Multipart.contents] using congrArg (·.1.length) h
  rw [← List.length_eq_zero_iff, hlength, List.length_eq_zero_iff]

theorem size_eq_zero (h : body.parts = []) : body.size = 0 := by
  rw [Multipart.size, h]
  rfl

/-- Where the bytes are counted, whatever is received is a submission. -/
theorem receive_eq_ok_of_checked (hlimit : limits.submissionBytes < 2 ^ 64)
    (hvalid : prepared.IsValidated)
    (hchecked : BudgetIsChecked sha256 limits prepared manifestSize body) {files : StagedFiles} :
    receive sha256 limits prepared manifestSize body = .ok files ↔
      IsSubmission sha256 limits prepared manifestSize body ∧
        files = body.parts.filterMap (stagedFile prepared) := by
  rw [receive_eq_ok hlimit hvalid, IsSubmission, and_assoc]
  refine and_congr_right fun hcomplete => and_congr_left fun _ => ?_
  constructor
  · rintro (hempty | hfits)
    · rcases hchecked with hmanifest | hsome | hincomplete
      · rwa [size_eq_zero hempty]
      · exact absurd hempty hsome
      · exact absurd hcomplete hincomplete
    · exact hfits
  · exact .inr

/-- Exactly the submissions are accepted, however they are split into chunks, unless the manifest is
too large by itself and has no attachments. -/
theorem receives_exactly_iff {δ : Type}
    {acceptSubmission : StagedFiles → δ → Except ReceiveError ServerUuid × δ}
    (hlimit : limits.submissionBytes < 2 ^ 64) (hvalid : prepared.IsValidated) :
    ReceivesExactly sha256 limits prepared acceptSubmission manifestSize body ↔
      BudgetIsChecked sha256 limits prepared manifestSize body := by
  constructor
  · intro h
    by_contra hunchecked
    obtain ⟨hmanifest, hempty, hcomplete⟩ := not_or.mp hunchecked |>.imp_right not_or.mp
    rw [not_not] at hempty hcomplete
    obtain ⟨error, hrefused, -⟩ := h.refused fun hsubmission => by
      have hfits := hsubmission.2
      omega
    have haccepted : receive sha256 limits prepared manifestSize body = .ok _ :=
      (receive_eq_ok hlimit hvalid).mpr ⟨hcomplete, .inl hempty, rfl⟩
    rw [hrefused] at haccepted
    cases haccepted
  · intro hchecked
    have hreceived {files : StagedFiles} :
        receive sha256 limits prepared manifestSize body = .ok files ↔ _ :=
      receive_eq_ok_of_checked hlimit hvalid hchecked
    have hrefused (h : ¬ IsSubmission sha256 limits prepared manifestSize body) :
        ∃ error, receive sha256 limits prepared manifestSize body = .error error := by
      cases hreceive : receive sha256 limits prepared manifestSize body with
      | ok files => exact absurd (hreceived.mp hreceive).1 h
      | error error => exact ⟨error, rfl⟩
    refine ⟨fun h => hreceived.mpr ⟨h, rfl⟩, fun h => ?_, fun other hother => ?_⟩
    · obtain ⟨error, herror⟩ := hrefused h
      refine ⟨error, herror, fun database => ?_⟩
      unfold receiveAndAccept
      rw [herror]
    · have hcheckedOther : BudgetIsChecked sha256 limits prepared manifestSize other := by
        unfold BudgetIsChecked
        rw [ne_eq, parts_eq_nil_iff hother, isComplete_iff hother]
        exact hchecked
      have hsubmission : IsSubmission sha256 limits prepared manifestSize other ↔
          IsSubmission sha256 limits prepared manifestSize body := by
        unfold IsSubmission
        rw [size_eq hother, isComplete_iff hother]
      by_cases h : IsSubmission sha256 limits prepared manifestSize body
      · rw [hreceived.mpr ⟨h, rfl⟩, (receive_eq_ok_of_checked hlimit hvalid hcheckedOther).mpr
          ⟨hsubmission.mpr h, rfl⟩, filterMap_stagedFile_eq hother]
      · obtain ⟨error, herror⟩ := hrefused h
        rw [herror]
        cases hreceive : receive sha256 limits prepared manifestSize other with
        | ok files =>
          exact absurd (hsubmission.mp
            ((receive_eq_ok_of_checked hlimit hvalid hcheckedOther).mp hreceive).1) h
        | error => rfl

end

/-! ## Manifests without attachments -/

/-- What the digests of two texts are. -/
def sampleSha256 : Sha256 where
  State := Bytes
  new := []
  update state bytes := state ++ bytes
  finalize bytes :=
    if bytes = [97, 98, 99] then
      "ba7816bf8f01cfea414140de5dae2223b00361a396177a9cb410ff61f20015ad".toList
    else "e3b0c44298fc1c149afbf4c8996fb92427ae41e4649b934ca495991b7852b855".toList
  update_nil _ := List.append_nil _
  update_update _ _ _ := List.append_assoc _ _ _

/-- A log of three bytes. -/
def loggedSubmission : PreparedSubmission where
  manifest := { sampleManifest [] 3 with
    attachments := (sampleManifest [] 3).attachments.map fun attachment =>
      { attachment with sha256 := sampleSha256.digest [97, 98, 99] } }
  attachmentIds _ := sampleAcceptance.uploadId
  fresh := by
    intro attachment hattachment other hother _
    rw [List.mem_singleton.mp hattachment, List.mem_singleton.mp hother]

/-- The log arrives in two chunks. -/
def loggedBody : Multipart :=
  ⟨[⟨some "log".toList, [[97], [98, 99]], true, fun _ => List.cons_ne_nil _ _⟩], true⟩

/-- A database that stores what it is sent. -/
def storeReport (_ : StagedFiles) (reports : List ServerUuid) :
    Except ReceiveError ServerUuid × List ServerUuid :=
  (.ok sampleAcceptance.reportId, reports ++ [sampleAcceptance.reportId])

theorem logged_submission_is_received :
    ReceivesExactly sampleSha256 IngestionLimits.default loggedSubmission storeReport 500
      loggedBody :=
  (receives_exactly_iff (by decide) ⟨fun _ => none, IngestionLimits.default, by decide +kernel⟩).mpr
    (.inl (by decide))

/-- Submissions of one byte. -/
def tinyConfiguration : RuntimeConfiguration :=
  { RuntimeConfiguration.default with
    limits := { IngestionLimits.default with attachmentBytes := 1, submissionBytes := 1 } }

def bareSubmission : PreparedSubmission where
  manifest := { sampleManifest [] 0 with fields := [], attachments := [] }
  attachmentIds _ := sampleAcceptance.uploadId
  fresh _ hattachment := absurd hattachment List.not_mem_nil

/-- A manifest of two hundred bytes is a submission of one byte. -/
theorem bare_manifest_is_too_large :
    tinyConfiguration.validate sampleParseUrl = .ok () ∧
      bareSubmission.manifest.validate (fun _ => none) tinyConfiguration.limits = .ok () ∧
      tinyConfiguration.limits.submissionBytes < 200 ∧
      receive sampleSha256 tinyConfiguration.limits bareSubmission 200 ⟨[], true⟩ = .ok [] ∧
      ¬ ReceivesExactly sampleSha256 tinyConfiguration.limits bareSubmission storeReport 200
        ⟨[], true⟩ := by
  refine ⟨by decide +kernel, by decide +kernel, by decide, by decide +kernel, fun h => ?_⟩
  obtain ⟨error, hrefused, -⟩ := h.refused fun hsubmission => absurd hsubmission.2 (by decide)
  have haccepted : receive sampleSha256 tinyConfiguration.limits bareSubmission 200 ⟨[], true⟩ =
      .ok [] := by decide +kernel
  rw [haccepted] at hrefused
  cases hrefused

end LadybirdReports.Ingestion
