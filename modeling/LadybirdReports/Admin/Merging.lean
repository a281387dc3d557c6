import LadybirdReports.Admin.Runs

/-!
# Merges

In every database the service comes to, the merges form a forest and a merged issue has no reports.
Finishing a job changes no issue and no report, or merges its source as the one that holds the lease
(`finishGithubDuplicate_cases`): each report of the source goes to the destination, once. Operations
that take the advisory lock of issues come one after the other, in any order.
-/

namespace LadybirdReports.Admin

open Forest Transition

section

variable {db db' : Database}

/-- The source of the job, which is current and leased, is merged into the destination. -/
structure Merges (job : GithubDuplicateJob) (destination : IssueId) (db db' : Database) : Prop where
  lease : ∃ j ∈ db.jobs, j.sourceIssueId = job.sourceIssueId ∧ j.leaseId = some job.leaseId
  current : ∃ s ∈ db.issues, s.id = job.sourceIssueId ∧ s.githubIssueId = some job.githubIssueId ∧
    s.githubState = .closed ∧ s.mergedInto = none
  into : mergedInto? db'.issues job.sourceIssueId = some destination
  other : destination ≠ job.sourceIssueId
  moves : MovesReports job.sourceIssueId destination db db'

/-- A job of some source, finished with some canonical issue, changes nothing or merges the source.
-/
theorem finishGithubDuplicate_cases (hwf : db.Wf) (job : GithubDuplicateJob)
    (canonical : Option GithubIssue) (newId : IssueId) (now : Timestamp) (plan : ℕ) :
    let db' := (Operation.finishGithubDuplicate job canonical newId now plan).exec db
    (db'.issues = db.issues ∧ db'.reports = db.reports) ∨
      ∃ destination, Merges job destination db db' := by
  intro db'
  have hexec : db' =
      commit ((·.2) <$> db.finishGithubDuplicate job canonical newId now plan) db := rfl
  cases hfinish : db.finishGithubDuplicate job canonical newId now plan with
  | error e =>
    rw [hexec, hfinish]
    exact .inl ⟨rfl, rfl⟩
  | ok finished =>
    obtain ⟨result, next⟩ := finished
    have hnext : db' = next := by rw [hexec, hfinish]; rfl
    rw [hnext]
    unfold Database.finishGithubDuplicate at hfinish
    split at hfinish
    · split at hfinish
      all_goals
        obtain ⟨-, rfl⟩ := Prod.mk.inj (Rust.pure_eq_ok.mp hfinish)
        exact .inl ⟨rfl, rfl⟩
    obtain ⟨repository, -, hfinish⟩ := Rust.bind_eq_ok.mp hfinish
    split at hfinish
    · obtain ⟨-, rfl⟩ := Prod.mk.inj (Rust.pure_eq_ok.mp hfinish)
      exact .inl ⟨rfl, rfl⟩
    rename_i hlease
    split at hfinish
    · obtain ⟨-, rfl⟩ := Prod.mk.inj (Rust.pure_eq_ok.mp hfinish)
      exact .inl ⟨rfl, rfl⟩
    rename_i hcurrent
    simp only [Bool.not_eq_true', Bool.not_eq_false] at hlease hcurrent
    obtain ⟨⟨destination, db₁⟩, h₁, hfinish⟩ := Rust.bind_eq_ok.mp hfinish
    obtain ⟨-, rfl⟩ := Prod.mk.inj (Rust.pure_eq_ok.mp hfinish)
    have hmerge : Changes (fun _ => True) db db₁ ∧ _ := mergeInto_changes hwf hcurrent
      (fun _ => trivial) (fun _ => trivial) (fun _ _ => trivial) (fun _ => trivial)
      (fun _ => trivial) h₁
    obtain ⟨-, hmoves, hinto, hother⟩ := hmerge
    obtain ⟨j, hj, hholds⟩ := List.any_eq_true.mp hlease
    refine .inr ⟨destination, ⟨j, hj, by simpa [Database.holdsLease] using hholds⟩,
      (sourceIsCurrent_iff hwf).mp hcurrent, hinto, hother, ?_⟩
    exact hmoves.before (.of_same rfl (List.append_nil _).symm fun _ => rfl)

/-- The merges form a forest, merged issues have no reports, and finishing a job either changes no
issue and no report, or moves every report of its source, once, by the one that holds the lease of a
source that is current. -/
theorem merges_conserve_reports (h : db.IsReachable) :
    (∀ id, ¬ Above (mergedInto? db.issues) id id ∧ ∃! r, RootOf (mergedInto? db.issues) id r) ∧
    (∀ i ∈ db.issues, i.mergedInto ≠ none → ∀ r ∈ db.reports, r.issueId ≠ some i.id) ∧
    ∀ (job : GithubDuplicateJob) (canonical : Option GithubIssue) (newId : IssueId)
      (now : Timestamp) (plan : ℕ),
      let db' := (Operation.finishGithubDuplicate job canonical newId now plan).exec db
      (db'.issues = db.issues ∧ db'.reports = db.reports) ∨
        ∃ destination, Merges job destination db db' := by
  have hwf := h.wf
  refine ⟨fun id => ⟨hwf.forest.not_above_self id, ?_⟩, fun i hi hmerged r hr hlink => ?_,
    finishGithubDuplicate_cases hwf⟩
  · obtain ⟨r, hr⟩ := hwf.forest id
    exact ⟨r, hr, fun s hs => hs.unique hr⟩
  · obtain ⟨j, hj, hji, hnone, -⟩ := (hwf.settled r hr).linked i.id hlink
    exact hmerged (Rows.eq_of_key hwf.issueIds hj hi hji ▸ hnone)

/-- Issue 2 is merged into issue 1: its report goes there. -/
theorem second_issue_is_merged :
    let db := execAll (submitLinked 1 "1" ++ submitLinked 2 "2" ++ queueDuplicate 2 "2") .empty
    let db' := (Operation.finishGithubDuplicate (sampleJob 2)
      (some (sampleIssue 11 1 "1" .open 1 none)) ⟨9⟩ 4 0).exec db
    ¬ Above (mergedInto? db.issues) ⟨2⟩ ⟨2⟩ ∧
      ∃ destination, Merges (sampleJob 2) destination db db' :=
  ⟨((merges_conserve_reports (isReachable_execAll _)).1 ⟨2⟩).1,
    ((merges_conserve_reports (isReachable_execAll _)).2.2 _ _ _ _ _).resolve_left
      (by decide +kernel)⟩

end

end LadybirdReports.Admin
