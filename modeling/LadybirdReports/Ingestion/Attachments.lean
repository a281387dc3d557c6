import LadybirdReports.Domain.Identifiers
import Mathlib.Data.List.Basic
import Mathlib.Logic.Function.Basic

/-!
# The attachment directories

An upload is received in a staging directory under its upload ID and, once its report is accepted,
moved by one rename to the directory of the report. `FileAttachmentStore` holds which files are in
each directory that exists.
-/

namespace LadybirdReports.Ingestion

/-- The files in a directory. -/
abbrev Directory := List AttachmentId

/-- The directories `staging/<upload ID>` and `reports/<report ID>`. -/
structure FileAttachmentStore where
  staging : UploadId → Option Directory
  reports : ReportId → Option Directory

/-- Why an operation on the directories fails. -/
inductive StoreError
  | conflict (message : String)
  | io
  deriving DecidableEq, Repr

namespace FileAttachmentStore

variable (store : FileAttachmentStore)

def empty : FileAttachmentStore := ⟨fun _ => none, fun _ => none⟩

def setStaging (upload : UploadId) (files : Option Directory) : FileAttachmentStore :=
  { store with staging := Function.update store.staging upload files }

def beginStaging (upload : UploadId) : Except StoreError FileAttachmentStore :=
  if store.staging upload = none then .ok (store.setStaging upload (some []))
  else .error (.conflict "Upload staging area already exists")

/-- A file is written to a staging directory. -/
def writeStaged (upload : UploadId) (file : AttachmentId) : FileAttachmentStore :=
  store.setStaging upload ((store.staging upload).map (· ++ [file]))

/-- The rename of a staging directory; it replaces an empty directory, but no other. -/
def rename (upload : UploadId) (report : ReportId) : Except StoreError FileAttachmentStore :=
  match store.staging upload, store.reports report with
  | some files, none | some files, some [] =>
    .ok ⟨Function.update store.staging upload none,
      Function.update store.reports report (some files)⟩
  | _, _ => .error .io

/-- One file of a staging directory is removed. -/
def unlink (upload : UploadId) (file : AttachmentId) : FileAttachmentStore :=
  store.setStaging upload ((store.staging upload).map (·.filter (· ≠ file)))

/-- The end of `remove_dir_all` on a staging directory. -/
def removeStaging (upload : UploadId) : FileAttachmentStore := store.setStaging upload none

/-- `remove_report`. -/
def removeReport (report : ReportId) : FileAttachmentStore :=
  { store with reports := Function.update store.reports report none }

@[simp] theorem setStaging_reports (upload : UploadId) (files : Option Directory) :
    (store.setStaging upload files).reports = store.reports := rfl

@[simp] theorem setStaging_same (upload : UploadId) (files : Option Directory) :
    (store.setStaging upload files).staging upload = files := by
  unfold setStaging; exact Function.update_self ..

theorem rename_eq_ok {store after : FileAttachmentStore} {upload : UploadId} {report : ReportId}
    (h : store.rename upload report = .ok after) :
    ∃ files, store.staging upload = some files ∧
      after = ⟨Function.update store.staging upload none,
        Function.update store.reports report (some files)⟩ := by
  unfold rename at h
  split at h
  · rename_i files hs _
    cases h
    exact ⟨files, hs, rfl⟩
  · rename_i files hs _
    cases h
    exact ⟨files, hs, rfl⟩
  · cases h

theorem setStaging_other {upload other : UploadId} (files : Option Directory) (h : other ≠ upload) :
    (store.setStaging upload files).staging other = store.staging other := by
  unfold setStaging; exact Function.update_of_ne h ..

end FileAttachmentStore

/-! ## Finalizing -/

/-- What `finalize` and the update that follows it wait for. -/
inductive FinalizePoint
  | reportExists
  | stagingExists
  | rename
  | sync
  | markReady
  deriving DecidableEq, Repr

/-- One awaited operation of `finalize`: the directories after it, and what comes next. -/
def finalizeStep (store : FileAttachmentStore) (upload : UploadId) (report : ReportId) :
    FinalizePoint → Except StoreError (FileAttachmentStore × FinalizePoint)
  | .reportExists =>
    .ok (store, if (store.reports report).isSome then .stagingExists else .rename)
  | .stagingExists =>
    if (store.staging upload).isSome
    then .error (.conflict "Report attachment directory already exists")
    else .ok (store, .markReady)
  | .rename => (store.rename upload report).map (·, .sync)
  | .sync | .markReady => .ok (store, .markReady)

/-- `finalize`, run to its end: a look at the report's directory, then the rename or a look at the
staging directory. -/
def finalize (store : FileAttachmentStore) (upload : UploadId) (report : ReportId) :
    Except StoreError FileAttachmentStore := do
  let (store, point) ← finalizeStep store upload report .reportExists
  let (store, _) ← finalizeStep store upload report point
  return store

/-- The files are in the staging directory, or else in the directory of the report. -/
def Stored (staging report : Option Directory) (attachments : List AttachmentId) : Prop :=
  (∃ files, staging = some files ∧ attachments ⊆ files ∧ report = none) ∨
    (staging = none ∧ ∃ files, report = some files ∧ attachments ⊆ files)

section

variable {store after : FileAttachmentStore} {upload : UploadId} {report : ReportId}
  {attachments : List AttachmentId} {point next : FinalizePoint}

/-- Files that are stored can be finalized, which leaves them in the directory of the report. -/
theorem Stored.finalize (h : Stored (store.staging upload) (store.reports report) attachments) :
    ∃ after files, finalize store upload report = .ok after ∧ after.staging upload = none ∧
      after.reports report = some files ∧ attachments ⊆ files := by
  rcases h with ⟨files, hs, hsub, hr⟩ | ⟨hs, files, hr, hsub⟩
  · refine ⟨⟨Function.update store.staging upload none,
      Function.update store.reports report (some files)⟩, files, ?_, ?_, ?_, hsub⟩
    · simp [Ingestion.finalize, finalizeStep, FileAttachmentStore.rename, hs, hr, bind, Except.bind,
        Except.map, pure, Except.pure]
    · exact Function.update_self ..
    · exact Function.update_self ..
  · refine ⟨store, files, ?_, hs, hr, hsub⟩
    simp [Ingestion.finalize, finalizeStep, hs, hr, bind, Except.bind, pure, Except.pure]

/-- What a step of `finalize` does: nothing to the directories, or the rename. It looks into staging
only where there is a directory of the report, is to rename only where there is none, and takes that
one for the files only where there is none in staging. -/
theorem finalizeStep_cases (h : finalizeStep store upload report point = .ok (after, next)) :
    (after = store ∧ (next = .rename ∧ point = .reportExists ∧ store.reports report = none ∨
        next = .stagingExists ∧ store.reports report ≠ none ∨
        next = .markReady ∧ (point = .sync ∨ point = .markReady ∨ store.staging upload = none))) ∨
      (point = .rename ∧ ∃ files, store.staging upload = some files ∧ next = .sync ∧
        after = ⟨Function.update store.staging upload none,
          Function.update store.reports report (some files)⟩) := by
  cases point with
  | reportExists =>
    cases h
    by_cases hr : (store.reports report).isSome
    · exact .inl ⟨rfl, .inr (.inl ⟨if_pos hr, Option.isSome_iff_ne_none.mp hr⟩)⟩
    · exact .inl ⟨rfl, .inl ⟨if_neg hr, rfl, Option.not_isSome_iff_eq_none.mp hr⟩⟩
  | stagingExists =>
    by_cases hs : (store.staging upload).isSome
    · simp [finalizeStep, hs] at h
    · simp only [finalizeStep, if_neg hs, Except.ok.injEq, Prod.mk.injEq] at h
      obtain ⟨rfl, rfl⟩ := h
      exact .inl ⟨rfl, .inr (.inr ⟨rfl, .inr (.inr (by simpa using hs))⟩)⟩
  | rename =>
    have hmap : (store.rename upload report).map (·, FinalizePoint.sync) = .ok (after, next) := h
    cases hr : store.rename upload report with
    | error e => rw [hr] at hmap; cases hmap
    | ok moved =>
      rw [hr] at hmap
      cases hmap
      obtain ⟨files, hs, rfl⟩ := FileAttachmentStore.rename_eq_ok hr
      exact .inr ⟨rfl, files, hs, rfl, rfl⟩
  | sync => cases h; exact .inl ⟨rfl, .inr (.inr ⟨rfl, .inl rfl⟩)⟩
  | markReady => cases h; exact .inl ⟨rfl, .inr (.inr ⟨rfl, .inr (.inl rfl)⟩)⟩

end

end LadybirdReports.Ingestion
