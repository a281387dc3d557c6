import Mathlib.Data.Nat.Notation

/-!
# Identifiers

The UUIDs of the service, one type for each kind of thing they name. They are drawn at random and
taken to be distinct; `report.id < other.id` is the order of their values.
-/

namespace LadybirdReports

structure SubmissionId where
  value : ℕ
  deriving DecidableEq, Repr

structure UploadId where
  value : ℕ
  deriving DecidableEq, Repr

structure AttachmentId where
  value : ℕ
  deriving DecidableEq, Repr

structure ChallengeId where
  value : ℕ
  deriving DecidableEq, Repr

structure ReportId where
  value : ℕ
  deriving DecidableEq, Repr

structure IssueId where
  value : ℕ
  deriving DecidableEq, Repr

/-- The lease a worker holds on a duplicate job. -/
structure LeaseId where
  value : ℕ
  deriving DecidableEq, Repr

structure DiscordDeliveryLeaseId where
  value : ℕ
  deriving DecidableEq, Repr

end LadybirdReports
