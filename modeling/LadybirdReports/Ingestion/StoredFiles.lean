import LadybirdReports.Domain.Identifiers
import LadybirdReports.Ingestion.Receiving
import LadybirdReports.Lib.Run
import Mathlib.Logic.Function.Basic

/-!
# Stored files

The file of an attachment is stored as it was uploaded, or compressed, and which of the two it is
can be told from its first bytes. A pass that compresses a file writes another one beside it and
renames that over it, and may stop anywhere.

1. No accepted attachment begins like a compressed file: in UTF-8 no character begins with the
   second of the magic bytes, and a PNG begins with others (`not_magic`).
2. A step of a pass leaves the file in one of its two forms (`FileOk`, `passStep_keeps`), and so
   does every step of the store (`storeStep_keeps`).

So whatever passes there were, and wherever they stopped, reading a file that was moved to its
report returns what was uploaded (`stored_files_read_back`).

Passes over one file come one after the other, as one service makes them. Nothing in the store keeps
two services apart: they would write one and the same file beside it, and either may rename it while
the other has just emptied it.
-/

namespace LadybirdReports.Ingestion

open Rust Transition

/-! ## Contents -/

def gzipMagic : Bytes := [0x1f, 0x8b]

def maximumAttachmentBytes : ℕ := 64 * 1024 * 1024

def pngSignature : Bytes := [0x89, 0x50, 0x4e, 0x47, 0x0d, 0x0a, 0x1a, 0x0a]

/-- Compressed files, and the first bytes of what they hold. -/
structure Gzip where
  encode : Bytes → Bytes
  decode : ℕ → Bytes → Option Bytes
  decode_encode : ∀ n bytes, decode n (encode bytes) = some (bytes.take n)
  magic : ∀ bytes, gzipMagic <+: encode bytes

/-- An attachment that was found valid: `validate_utf8_text` and `validate_png`. -/
structure AcceptedAttachment where
  mediaType : AttachmentMediaType
  content : Bytes
  accepted : match mediaType with
    | .plainText => (∃ text : Str, Rust.bytes text = content) ∧
        content.length ≤ maximumAttachmentBytes
    | .png => pngSignature <+: content

def AcceptedAttachment.isText (attachment : AcceptedAttachment) : Bool :=
  match attachment.mediaType with
  | .plainText => true
  | .png => false

def isCompressed (file : Bytes) : Bool := gzipMagic.isPrefixOf file

inductive ReadError
  | io
  | internal (message : String)
  deriving DecidableEq, Repr

section

variable (gzip : Gzip)

def readUncompressed (file : Bytes) : Except ReadError Bytes :=
  if isCompressed file then do
    let uncompressed ← okOr (gzip.decode (maximumAttachmentBytes + 1) file) .io
    ensure (uncompressed.length ≤ maximumAttachmentBytes)
      (.internal "stored attachment is larger than an attachment may be")
    return uncompressed
  else return file

/-! ## Passes -/

/-- `compress_in_place`, with the bytes that it has read: before the other file is opened, while it
is written, and when it is complete. -/
inductive Pass
  | opening (bytes : Bytes)
  | writing (bytes : Bytes)
  | written (bytes : Bytes)
  deriving DecidableEq, Repr

def Pass.bytes : Pass → Bytes
  | .opening bytes | .writing bytes | .written bytes => bytes

/-- A file, what is beside it, and the one pass over it. -/
structure AttachmentFile where
  stored : Bytes
  compressing : Option Bytes
  pass : Option Pass
  deriving DecidableEq, Repr

inductive PassAction
  | read
  | openTemporary
  /-- Some bytes are written. -/
  | write (n : ℕ)
  | finish
  | rename
  /-- An error, after which the other file may be removed. -/
  | fail (removed : Bool)
  deriving DecidableEq, Repr

/-- A step of the pass over a file. -/
def passStep (action : PassAction) (file : AttachmentFile) : Option AttachmentFile :=
  match action, file.pass with
  | .read, none =>
    some (if isCompressed file.stored then file
      else { file with pass := some (.opening file.stored) })
  | .openTemporary, some (.opening bytes) =>
    some { file with compressing := some [], pass := some (.writing bytes) }
  | .write n, some (.writing bytes) =>
    some { file with compressing := some ((gzip.encode bytes).take n) }
  | .finish, some (.writing bytes) =>
    some { file with compressing := some (gzip.encode bytes), pass := some (.written bytes) }
  | .rename, some (.written _) =>
    file.compressing.map fun compressed => ⟨compressed, none, none⟩
  | .fail removed, some _ =>
    some { file with compressing := if removed then none else file.compressing, pass := none }
  | _, _ => none

/-! ## The store -/

inductive Place
  | staging (upload : UploadId)
  | report (report : ReportId)
  deriving DecidableEq, Repr

/-- The directories that there are, with their files. -/
abbrev Directories := Place → Option (List (AttachmentId × AttachmentFile))

inductive StoreAction
  /-- An attachment is received and found valid. -/
  | stage (upload : UploadId) (attachment : AttachmentId)
  | pass (place : Place) (attachment : AttachmentId) (action : PassAction)
  /-- The process stops, and with it every pass. -/
  | stop
  | finalize (upload : UploadId) (report : ReportId)
  | removeStaging (upload : UploadId)
  deriving DecidableEq, Repr

variable (uploaded : AttachmentId → AcceptedAttachment)

/-- Only what is text is compressed, one pass over a file at a time. A directory is moved when the
passes of its upload have ended. -/
def storeStep (s : Directories) : StoreAction → Option Directories
  | .stage upload attachment =>
    let files := (s (.staging upload)).getD []
    if (files.lookup attachment).isSome then none
    else some (Function.update s (.staging upload)
      (some (files ++ [(attachment, ⟨(uploaded attachment).content, none, none⟩)])))
  | .pass place attachment action => do
    guard (uploaded attachment).isText
    let files ← s place
    let file ← files.lookup attachment
    let changed ← passStep gzip action file
    return Function.update s place (some (files.map fun entry =>
      if entry.1 = attachment then (attachment, changed) else entry))
  | .stop => some fun place => (s place).map fun files =>
      files.map fun entry => (entry.1, { entry.2 with pass := none })
  | .finalize upload report =>
    match s (.staging upload), s (.report report) with
    | some files, none =>
      if files.all fun entry => entry.2.pass.isNone then
        some (Function.update (Function.update s (.staging upload) none) (.report report)
          (some files))
      else none
    -- The request is a retry, after the directory was moved.
    | none, some _ => some s
    | _, _ => none
  | .removeStaging upload => some (Function.update s (.staging upload) none)

/-- `FileAttachmentStore::read`. -/
def readAttachment (s : Directories) (report : ReportId) (attachment : AttachmentId) :
    Except ReadError Bytes := do
  let files ← okOr (s (.report report)) .io
  let file ← okOr (files.lookup attachment) .io
  readUncompressed gzip file.stored

end

/-! ## What files begin with -/

section

variable {gzip : Gzip} {uploaded : AttachmentId → AcceptedAttachment}
  {attachment : AcceptedAttachment} {file file' : AttachmentFile} {text : Str}

theorem head_bytes {b : UInt8} (h : (Rust.bytes text).head? = some b) : b.IsUTF8FirstByte := by
  cases text with
  | nil => cases h
  | cons c text =>
    have hlength : 0 < (String.utf8EncodeChar c).length := by
      rw [String.length_utf8EncodeChar]
      exact c.utf8Size_pos
    change (String.utf8EncodeChar c ++ Rust.bytes text).head? = some b at h
    rw [List.head?_append_of_ne_nil _ (List.ne_nil_of_length_pos hlength),
      List.head?_eq_getElem?, List.getElem?_eq_getElem hlength] at h
    rw [← Option.some.inj h]
    exact UInt8.isUTF8FirstByte_getElem_zero_utf8EncodeChar

/-- Text never begins like a compressed file. -/
theorem bytes_not_magic : ¬ gzipMagic <+: Rust.bytes text := by
  rintro ⟨rest, hrest⟩
  have hfirst : (Rust.bytes text)[0]? = some 0x1f := by rw [← hrest]; rfl
  obtain ⟨before, c, after, rfl, hbefore, hsize, -⟩ := ascii_boundary hfirst (by decide)
  cases before with
  | cons d before =>
    rw [byteLen_cons] at hbefore
    have hpositive := d.utf8Size_pos
    omega
  | nil =>
    have hone : ∃ b, String.utf8EncodeChar c = [b] := by
      rw [← List.length_eq_one_iff, String.length_utf8EncodeChar, hsize]
    obtain ⟨b, hb⟩ := hone
    change gzipMagic ++ rest = String.utf8EncodeChar c ++ Rust.bytes after at hrest
    rw [hb] at hrest
    have hsecond : (Rust.bytes after).head? = some 0x8b := by
      have htail := congrArg List.tail hrest
      change 0x8b :: rest = Rust.bytes after at htail
      rw [← htail]
      rfl
    exact absurd (head_bytes hsecond) (by decide)

theorem not_magic (attachment : AcceptedAttachment) : ¬ gzipMagic <+: attachment.content := by
  obtain ⟨mediaType, content, accepted⟩ := attachment
  cases mediaType with
  | plainText =>
    obtain ⟨⟨text, rfl⟩, -⟩ := accepted
    exact bytes_not_magic
  | png =>
    rintro ⟨rest, rfl⟩
    obtain ⟨image, himage⟩ := accepted
    cases himage

/-! ## The two forms of a file -/

/-- A file is stored as it was uploaded, or compressed when no pass is over it. -/
structure FileOk (gzip : Gzip) (attachment : AcceptedAttachment) (file : AttachmentFile) :
    Prop where
  stored : file.stored = attachment.content ∨
    attachment.isText = true ∧ file.stored = gzip.encode attachment.content
  pass : ∀ pass ∈ file.pass, pass.bytes = attachment.content ∧ file.stored = attachment.content
  written : ∀ bytes, file.pass = some (.written bytes) →
    file.compressing = some (gzip.encode attachment.content)

theorem isCompressed_iff {bytes : Bytes} : isCompressed bytes = true ↔ gzipMagic <+: bytes :=
  List.isPrefixOf_iff_prefix

theorem isCompressed_encode (bytes : Bytes) : isCompressed (gzip.encode bytes) = true :=
  isCompressed_iff.mpr (gzip.magic bytes)

theorem isCompressed_content (attachment : AcceptedAttachment) :
    isCompressed attachment.content = false := by
  rw [← Bool.not_eq_true, isCompressed_iff]
  exact not_magic attachment

/-- What a file is can be told from what it begins with. -/
theorem FileOk.stored_eq (h : FileOk gzip attachment file) :
    file.stored = if isCompressed file.stored then gzip.encode attachment.content
      else attachment.content := by
  rcases h.stored with hstored | ⟨-, hstored⟩
  · rw [hstored, isCompressed_content]
    rfl
  · rw [hstored, isCompressed_encode]
    rfl

theorem passStep_keeps (htext : attachment.isText = true) (h : FileOk gzip attachment file)
    {action : PassAction} (hstep : passStep gzip action file = some file') :
    FileOk gzip attachment file' := by
  obtain ⟨stored, compressing, pass⟩ := file
  have hnone {file : AttachmentFile} (hpass : file.pass = none) (hstored : file.stored = stored) :
      FileOk gzip attachment file :=
    ⟨hstored ▸ h.stored, fun p hp => (by rw [hpass] at hp; cases hp),
      fun bytes hp => (by rw [hpass] at hp; cases hp)⟩
  cases pass with
  | none =>
    cases action with
    | read =>
      have hform := h.stored_eq
      simp only [passStep] at hstep
      split_ifs at hstep with hcompressed
      · cases hstep
        exact h
      · cases hstep
        rw [if_neg hcompressed] at hform
        refine ⟨.inl hform, ?_, nofun⟩
        rintro _ ⟨rfl⟩
        exact ⟨hform, hform⟩
    | _ => cases hstep
  | some pass =>
    obtain ⟨hbytes, hstored⟩ := h.pass pass rfl
    cases action with
    | read => cases pass <;> cases hstep
    | fail removed => cases pass <;> cases hstep <;> exact hnone rfl rfl
    | openTemporary =>
      cases pass <;> cases hstep
      exact ⟨.inl hstored, by rintro _ ⟨rfl⟩; exact ⟨hbytes, hstored⟩, nofun⟩
    | write n =>
      cases pass <;> cases hstep
      exact ⟨.inl hstored, by rintro _ ⟨rfl⟩; exact ⟨hbytes, hstored⟩, nofun⟩
    | finish =>
      cases pass <;> cases hstep
      refine ⟨.inl hstored, by rintro _ ⟨rfl⟩; exact ⟨hbytes, hstored⟩, fun _ _ => ?_⟩
      exact congrArg (fun bytes => some (gzip.encode bytes)) hbytes
    | rename =>
      cases pass with
      | written bytes =>
        have hwritten : compressing = some (gzip.encode attachment.content) := h.written bytes rfl
        rw [hwritten] at hstep
        cases hstep
        exact ⟨.inr ⟨htext, rfl⟩, nofun, nofun⟩
      | _ => cases hstep

/-- A pass over a compressed file changes nothing. -/
theorem FileOk.passStep_eq (h : FileOk gzip attachment file)
    (hcompressed : isCompressed file.stored = true) {action : PassAction}
    (hstep : passStep gzip action file = some file') : file' = file := by
  obtain ⟨stored, compressing, pass⟩ := file
  cases pass with
  | some pass =>
    have hplain := isCompressed_content attachment
    rw [← (h.pass pass rfl).2, hcompressed] at hplain
    cases hplain
  | none =>
    cases action with
    | read =>
      simp only [passStep] at hstep
      rw [if_pos hcompressed] at hstep
      exact (Option.some.inj hstep).symm
    | _ => cases hstep

theorem FileOk.readUncompressed_eq (h : FileOk gzip attachment file) :
    readUncompressed gzip file.stored = .ok attachment.content := by
  unfold readUncompressed
  rcases h.stored with hstored | ⟨htext, hstored⟩
  · rw [hstored, isCompressed_content]
    rfl
  · obtain ⟨mediaType, content, accepted⟩ := attachment
    cases mediaType with
    | png => cases htext
    | plainText =>
      have hlength : content.length ≤ maximumAttachmentBytes := accepted.2
      have htake : content.take (maximumAttachmentBytes + 1) = content :=
        List.take_of_length_le (by omega)
      rw [hstored, isCompressed_encode, if_pos rfl, gzip.decode_encode, htake, okOr, ok_bind,
        ensure, if_pos (decide_eq_true hlength)]
      rfl

/-! ## The files of a store -/

variable {s s' t : Directories} {actions : List StoreAction} {action : StoreAction}
  {upload : UploadId} {report : ReportId} {a : AttachmentId} {place : Place}

/-- Every file is in one of its forms. -/
def StoreOk (gzip : Gzip) (uploaded : AttachmentId → AcceptedAttachment) (s : Directories) : Prop :=
  ∀ place files, s place = some files → ∀ entry ∈ files, FileOk gzip (uploaded entry.1) entry.2

/-- The directory has a file of the attachment. -/
def HasFile (s : Directories) (place : Place) (a : AttachmentId) : Prop :=
  ∃ files, s place = some files ∧ a ∈ files.map Prod.fst

theorem mem_of_lookup {files : List (AttachmentId × AttachmentFile)} {file : AttachmentFile}
    (h : files.lookup a = some file) : (a, file) ∈ files := by
  obtain ⟨before, after, rfl, -⟩ := List.lookup_eq_some_iff.mp h
  exact List.mem_append_right _ List.mem_cons_self

/-- A directory after a step of a pass over one of its files. -/
theorem pass_eq_some {passAction : PassAction}
    (h : storeStep gzip uploaded s (.pass place a passAction) = some s') :
    (uploaded a).isText = true ∧ ∃ files file changed, s place = some files ∧
      files.lookup a = some file ∧ passStep gzip passAction file = some changed ∧
      s' = Function.update s place (some (files.map fun entry =>
        if entry.1 = a then (a, changed) else entry)) := by
  obtain ⟨_, htext, h⟩ := Option.bind_eq_some_iff.mp h
  obtain ⟨files, hfiles, h⟩ := Option.bind_eq_some_iff.mp h
  obtain ⟨file, hfile, h⟩ := Option.bind_eq_some_iff.mp h
  obtain ⟨changed, hchanged, h⟩ := Option.bind_eq_some_iff.mp h
  refine ⟨?_, files, file, changed, hfiles, hfile, hchanged, (Option.some.inj h).symm⟩
  unfold guard at htext
  split_ifs at htext with hguard
  exact hguard

theorem stage_eq_some (h : storeStep gzip uploaded s (.stage upload a) = some s') :
    s' = Function.update s (.staging upload) (some ((s (.staging upload)).getD [] ++
      [(a, ⟨(uploaded a).content, none, none⟩)])) := by
  simp only [storeStep] at h
  split_ifs at h
  exact (Option.some.inj h).symm

theorem finalize_eq_some (h : storeStep gzip uploaded s (.finalize upload report) = some s') :
    (s (.staging upload) = none ∧ s' = s) ∨
      ∃ files, s (.staging upload) = some files ∧ s (.report report) = none ∧
        s' = Function.update (Function.update s (.staging upload) none) (.report report)
          (some files) := by
  simp only [storeStep] at h
  split at h
  · rename_i files hstaging hreport
    split_ifs at h
    exact .inr ⟨files, hstaging, hreport, (Option.some.inj h).symm⟩
  · exact .inl ⟨‹_›, (Option.some.inj h).symm⟩
  · cases h

/-- A file that is received is one of its forms. -/
theorem fileOk_received (a : AttachmentId) :
    FileOk gzip (uploaded a) ⟨(uploaded a).content, none, none⟩ :=
  ⟨.inl rfl, nofun, nofun⟩

theorem storeStep_keeps (h : StoreOk gzip uploaded s)
    (hstep : storeStep gzip uploaded s action = some s') : StoreOk gzip uploaded s' := by
  intro place files hfiles entry hentry
  cases action with
  | stage upload attachment =>
    obtain rfl := stage_eq_some hstep
    by_cases hplace : place = .staging upload
    · rw [hplace, Function.update_self] at hfiles
      cases hfiles
      rcases List.mem_append.mp hentry with hentry | hentry
      · cases hstaging : s (.staging upload) with
        | none =>
          rw [hstaging] at hentry
          cases hentry
        | some files =>
          rw [hstaging] at hentry
          exact h _ files hstaging entry hentry
      · rw [List.mem_singleton.mp hentry]
        exact fileOk_received attachment
    · rw [Function.update_of_ne hplace] at hfiles
      exact h place files hfiles entry hentry
  | pass changedPlace attachment passAction =>
    obtain ⟨htext, before, file, changed, hbefore, hfile, hchanged, rfl⟩ := pass_eq_some hstep
    by_cases hplace : place = changedPlace
    · rw [hplace, Function.update_self] at hfiles
      cases hfiles
      obtain ⟨old, hold, rfl⟩ := List.mem_map.mp hentry
      have hchangedOk : FileOk gzip (uploaded attachment) changed :=
        passStep_keeps htext (h _ before hbefore _ (mem_of_lookup hfile)) hchanged
      split_ifs
      · exact hchangedOk
      · exact h _ before hbefore old hold
    · rw [Function.update_of_ne hplace] at hfiles
      exact h place files hfiles entry hentry
  | stop =>
    cases hstep
    obtain ⟨before, hbefore, rfl⟩ := Option.map_eq_some_iff.mp hfiles
    obtain ⟨old, hold, rfl⟩ := List.mem_map.mp hentry
    exact ⟨(h place before hbefore old hold).stored, nofun, nofun⟩
  | finalize upload report =>
    obtain ⟨-, rfl⟩ | ⟨moved, hstaging, -, rfl⟩ := finalize_eq_some hstep
    · exact h place files hfiles entry hentry
    by_cases hreport : place = .report report
    · rw [hreport, Function.update_self] at hfiles
      cases hfiles
      exact h _ _ hstaging entry hentry
    · rw [Function.update_of_ne hreport] at hfiles
      by_cases hplace : place = .staging upload
      · rw [hplace, Function.update_self] at hfiles
        cases hfiles
      · rw [Function.update_of_ne hplace] at hfiles
        exact h place files hfiles entry hentry
  | removeStaging upload =>
    cases hstep
    by_cases hplace : place = .staging upload
    · rw [hplace, Function.update_self] at hfiles
      cases hfiles
    · rw [Function.update_of_ne hplace] at hfiles
      exact h place files hfiles entry hentry

/-- The file of a report stays. -/
theorem storeStep_keeps_file (h : HasFile s (.report report) a)
    (hstep : storeStep gzip uploaded s action = some s') : HasFile s' (.report report) a := by
  obtain ⟨files, hfiles, hmem⟩ := h
  cases action with
  | stage upload attachment =>
    obtain rfl := stage_eq_some hstep
    exact ⟨files, by rw [Function.update_of_ne (by simp), hfiles], hmem⟩
  | pass place attachment passAction =>
    obtain ⟨-, before, file, changed, hbefore, -, -, rfl⟩ := pass_eq_some hstep
    by_cases hplace : Place.report report = place
    · subst hplace
      rw [hfiles] at hbefore
      cases hbefore
      refine ⟨_, Function.update_self .., ?_⟩
      have hkeys : (files.map fun entry =>
          if entry.1 = attachment then (attachment, changed) else entry).map Prod.fst =
            files.map Prod.fst := by
        rw [List.map_map]
        refine List.map_congr_left fun entry _ => ?_
        by_cases hentry : entry.1 = attachment
        · simp [hentry]
        · simp [hentry]
      rw [hkeys]
      exact hmem
    · exact ⟨files, by rw [Function.update_of_ne hplace, hfiles], hmem⟩
  | stop =>
    cases hstep
    refine ⟨_, congrArg (Option.map _) hfiles, ?_⟩
    rw [List.map_map]
    exact hmem
  | finalize upload other =>
    obtain ⟨-, rfl⟩ | ⟨moved, -, hnone, rfl⟩ := finalize_eq_some hstep
    · exact ⟨files, hfiles, hmem⟩
    have hother : Place.report report ≠ .report other := by
      rintro hsame
      rw [← hsame, hfiles] at hnone
      cases hnone
    exact ⟨files, by rw [Function.update_of_ne hother, Function.update_of_ne (by simp), hfiles],
      hmem⟩
  | removeStaging upload =>
    cases hstep
    exact ⟨files, by rw [Function.update_of_ne (by simp), hfiles], hmem⟩

/-- A finalized upload has its files in the directory of the report. -/
theorem hasFile_of_finalize (h : HasFile s (.staging upload) a)
    (hstep : storeStep gzip uploaded s (.finalize upload report) = some s') :
    HasFile s' (.report report) a := by
  obtain ⟨files, hfiles, hmem⟩ := h
  obtain ⟨hnone, -⟩ | ⟨moved, hstaging, -, rfl⟩ := finalize_eq_some hstep
  · rw [hfiles] at hnone
    cases hnone
  rw [hfiles] at hstaging
  cases hstaging
  exact ⟨files, Function.update_self .., hmem⟩

def storedFile? (s : Directories) (report : ReportId) (a : AttachmentId) : Option AttachmentFile :=
  (s (.report report)).bind (·.lookup a)

/-- Where a file is found, it reads as it was uploaded, and its first bytes say which form it has; a
pass over a compressed one changes nothing. -/
structure ReadsBack (gzip : Gzip) (uploaded : AttachmentId → AcceptedAttachment) (s : Directories)
    (report : ReportId) (a : AttachmentId) (file : AttachmentFile) : Prop where
  read : readAttachment gzip s report a = .ok (uploaded a).content
  plain : isCompressed file.stored = false → file.stored = (uploaded a).content
  compressed : isCompressed file.stored = true →
    file.stored = gzip.encode (uploaded a).content ∧
      ∀ action file', passStep gzip action file = some file' → file' = file

theorem readsBack_of_hasFile (h : StoreOk gzip uploaded s) (hfile : HasFile s (.report report) a) :
    ∃ file, storedFile? s report a = some file ∧ ReadsBack gzip uploaded s report a file := by
  obtain ⟨files, hfiles, hmem⟩ := hfile
  obtain ⟨entry, hentry, hkey⟩ := List.mem_map.mp hmem
  have hsome : (files.lookup a).isSome :=
    List.lookup_isSome_iff.mpr ⟨entry, hentry, beq_iff_eq.mpr hkey.symm⟩
  obtain ⟨file, hlookup⟩ := Option.isSome_iff_exists.mp hsome
  have hform : FileOk gzip (uploaded a) file := h _ files hfiles _ (mem_of_lookup hlookup)
  refine ⟨file, ?_, ?_, fun hplain => ?_, fun hcompressed => ⟨?_, fun _ _ hstep => ?_⟩⟩
  · unfold storedFile?
    rw [hfiles]
    exact hlookup
  · unfold readAttachment
    rw [hfiles, okOr, ok_bind, hlookup, okOr, ok_bind]
    exact hform.readUncompressed_eq
  · have hstored := hform.stored_eq
    rwa [hplain] at hstored
  · have hstored := hform.stored_eq
    rwa [if_pos hcompressed] at hstored
  · exact hform.passStep_eq hcompressed hstep

theorem stored_files_read_back
    (hrun : Run (Steps (storeStep gzip uploaded)) (fun _ => none) actions s)
    (hstaged : HasFile s (.staging upload) a)
    (hfinalize : storeStep gzip uploaded s (.finalize upload report) = some s')
    {later : List StoreAction} (hlater : Run (Steps (storeStep gzip uploaded)) s' later t) :
    ∃ file, storedFile? t report a = some file ∧ ReadsBack gzip uploaded t report a file := by
  have hkeeps (s : Directories) (action : StoreAction) (s' : Directories)
      (h : StoreOk gzip uploaded s) (hstep : Steps (storeStep gzip uploaded) s action s') :
      StoreOk gzip uploaded s' := storeStep_keeps h hstep
  have hok : StoreOk gzip uploaded s := hrun.invariant hkeeps fun _ _ h => by cases h
  have hmoved : HasFile s' (.report report) a := hasFile_of_finalize hstaged hfinalize
  have hstays : HasFile t (.report report) a := by
    refine hlater.invariant (I := fun s => HasFile s (.report report) a) ?_ hmoved
    exact fun s action s' h hstep => storeStep_keeps_file h hstep
  exact readsBack_of_hasFile (hlater.invariant hkeeps (storeStep_keeps hok hfinalize)) hstays

/-! ## A run -/

/-- The text `abc`, and the file it is compressed to. -/
def sampleText : Bytes := [0x61, 0x62, 0x63]

def sampleCompressed : Bytes :=
  [0x1f, 0x8b, 0x08, 0, 0, 0, 0, 0, 0, 0xff, 0x4b, 0x4c, 0x4a, 0x06, 0, 0xc2, 0x41, 0x24, 0x35,
    0x03, 0, 0, 0]

def sampleDecode (n : ℕ) (file : Bytes) : Option Bytes :=
  if file = sampleCompressed then some (sampleText.take n)
  else if [0x1f, 0x8b, 0] <+: file then some ((file.drop 3).take n)
  else none

/-- The text is compressed as it is by the encoder, anything else to a file that begins alike. -/
def sampleGzip : Gzip where
  encode bytes := if bytes = sampleText then sampleCompressed else [0x1f, 0x8b, 0] ++ bytes
  decode := sampleDecode
  decode_encode n bytes := by
    unfold sampleDecode
    by_cases htext : bytes = sampleText
    · rw [if_pos htext, if_pos rfl, htext]
    · have hother : [0x1f, 0x8b, 0] ++ bytes ≠ sampleCompressed := by
        intro hsame
        cases hsame
      rw [if_neg htext, if_neg hother, if_pos (List.prefix_append _ _)]
      rfl
  magic bytes := by
    split_ifs
    · exact List.prefix_append gzipMagic (sampleCompressed.drop 2)
    · exact List.prefix_append gzipMagic (0 :: bytes)

def sampleUploaded : AttachmentId → AcceptedAttachment :=
  fun _ => ⟨.plainText, sampleText, ⟨['a', 'b', 'c'], rfl⟩, by decide⟩

def sampleRun (s : Directories) (actions : List StoreAction) : Directories :=
  (run? (storeStep sampleGzip sampleUploaded) s actions).getD s

/-- A text is received, and a pass over it fails. -/
def sampleUpload : List StoreAction :=
  .stage ⟨1⟩ ⟨5⟩ ::
    [.read, .openTemporary, .write 4, .fail false].map (.pass (.staging ⟨1⟩) ⟨5⟩)

def sampleStaged : Directories := sampleRun (fun _ => none) sampleUpload

def sampleMoved : Directories := sampleRun sampleStaged [.finalize ⟨1⟩ ⟨7⟩]

/-- Another pass over it. -/
def samplePass : List StoreAction :=
  [.read, .openTemporary, .finish, .rename].map (.pass (.report ⟨7⟩) ⟨5⟩)

def sampleStore : Directories := sampleRun sampleMoved samplePass

example : (storedFile? sampleStore ⟨7⟩ ⟨5⟩).map AttachmentFile.stored = some sampleCompressed := by
  decide +kernel

theorem stored_files_read_back_sample :
    ∃ file, storedFile? sampleStore ⟨7⟩ ⟨5⟩ = some file ∧
      ReadsBack sampleGzip sampleUploaded sampleStore ⟨7⟩ ⟨5⟩ file :=
  have hrun : Run (Steps (storeStep sampleGzip sampleUploaded)) (fun _ => none) sampleUpload
    sampleStaged := run?_eq_some rfl
  have hfinalize : storeStep sampleGzip sampleUploaded sampleStaged (.finalize ⟨1⟩ ⟨7⟩) =
    some sampleMoved := rfl
  have hlater : Run (Steps (storeStep sampleGzip sampleUploaded)) sampleMoved samplePass
    sampleStore := run?_eq_some rfl
  stored_files_read_back hrun ⟨_, rfl, by decide +kernel⟩ hfinalize hlater

end

end LadybirdReports.Ingestion
