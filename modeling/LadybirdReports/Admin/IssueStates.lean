import LadybirdReports.Admin.Constraints

/-!
# The state of an issue and when it was resolved

Six statements write `state` and `resolved_at` of an issue, each by its own `CASE`. Every row they
write, whatever row they find, is resolved with a time or unresolved without one (`Issue.Dated`), so
all rows are, at all times. What an issue that is not rejected is in is also what
`IssueState::tracking` makes of its GitHub link (`IsReachable.tracked`).
-/

namespace LadybirdReports.Admin

open Rust Transition

/-- A resolved issue has the time it was resolved, an unresolved one has none. -/
structure Issue.Dated (i : Issue) : Prop where
  resolved : i.state = .resolved → i.resolvedAt.isSome = true
  unresolved : i.state = .unresolved → i.resolvedAt = none

/-- Dated issues stay dated. -/
def KeepsDates (db db' : Database) : Prop :=
  (∀ i ∈ db.issues, i.Dated) → ∀ i ∈ db'.issues, i.Dated

section

variable {rows : Issue → Issue → Prop} {inserts : Prop} {db db' : Database} {i : Issue}

theorem KeepsDates.refl (db : Database) : KeepsDates db db := fun h => h

theorem KeepsDates.trans {s t u : Database} (h₁ : KeepsDates s t) (h₂ : KeepsDates t u) :
    KeepsDates s u := fun h => h₂ (h₁ h)

theorem KeepsDates.of_issues (h : db'.issues = db.issues) : KeepsDates db db' := fun hdb => by
  rwa [h]

/-! ## Rows -/

theorem dated_rejected (i : Issue) : ({ i with state := .rejected } : Issue).Dated :=
  ⟨fun h => (by cases h), fun h => (by cases h)⟩

theorem dated_merged (i : Issue) (destination : IssueId) (now : Timestamp) :
    ({ i with
      mergedInto := some destination
      state := .resolved
      resolvedAt := some (i.resolvedAt.getD now) } : Issue).Dated :=
  ⟨fun _ => rfl, fun h => (by cases h)⟩

/-- An issue that needs attention has whatever time it had. -/
theorem dated_of_tracking_unreachable {link : GithubLinkState} (hlink : link.isUnreachable = true)
    (hstate : i.state = .tracking link) : i.Dated := by
  have hattention := IssueState.tracking_needsAttention_iff.mpr hlink
  rw [hattention] at hstate
  constructor
  · intro h
    rw [hstate] at h
    cases h
  · intro h
    rw [hstate] at h
    cases h

/-- `CASE WHEN $8 = 'closed' THEN 'resolved' ELSE 'unresolved' END`, with the time to match. -/
theorem dated_of_closed (closed : Prop) [Decidable closed] {former : Option Timestamp}
    {now : Timestamp} (hstate : i.state = if closed then .resolved else .unresolved)
    (htime : i.resolvedAt = if closed then some (former.getD now) else none) : i.Dated := by
  by_cases h : closed
  · rw [if_pos h] at hstate htime
    constructor
    · intro _
      rw [htime]
      rfl
    · intro hs
      rw [hstate] at hs
      cases hs
  · rw [if_neg h] at hstate htime
    constructor
    · intro hs
      rw [hstate] at hs
      cases hs
    · intro _
      exact htime

/-! ## Statements -/

theorem updateIssues_issues {p : Issue → Bool} {set : Issue → Issue}
    (h : db.updateIssues p set = .ok db') :
    db'.issues = db.issues.map fun i => if p i then set i else i := by
  have hbranch : ∀ {s t : Database} {issue : IssueId} {previous next : ReportState},
      s.followIssueState issue previous next = .ok t → t.issues = s.issues := by
    intro s t issue previous next hst
    unfold Database.followIssueState at hst
    obtain ⟨s₁, hs₁, hst⟩ := bind_eq_ok.mp hst
    obtain rfl := pure_eq_ok.mp hst
    rw [Database.updateReports_eq_ok hs₁]
    rfl
  unfold Database.updateIssues at h
  dsimp only at h
  obtain ⟨u, -, h⟩ := bind_eq_ok.mp h
  obtain ⟨v, -, h⟩ := bind_eq_ok.mp h
  refine (foldlM_related (I := fun _ => True) (R := fun s t : Database => t.issues = s.issues)
    (fun _ => rfl) (fun _ _ _ h₁ h₂ => h₂.trans h₁) (fun s i t _ hst => ⟨trivial, ?_⟩) trivial h).2
  unfold Database.followIssueStateOnIssue at hst
  split at hst
  · exact hbranch hst
  · exact hbranch hst

theorem updateIssues_keepsDates {p : Issue → Bool} {set : Issue → Issue}
    (h : db.updateIssues p set = .ok db') (hset : ∀ i : Issue, i.Dated → (set i).Dated) :
    KeepsDates db db' := by
  intro hdb i' hi'
  rw [updateIssues_issues h] at hi'
  obtain ⟨i, hi, rfl⟩ := List.mem_map.mp hi'
  split
  · exact hset i (hdb i hi)
  · exact hdb i hi

theorem insertIssue_keepsDates (h : db.insertIssue i = .ok db') (hi : i.Dated) :
    KeepsDates db db' := by
  unfold Database.insertIssue at h
  obtain ⟨u, -, h⟩ := bind_eq_ok.mp h
  obtain rfl := pure_eq_ok.mp h
  intro hdb j hj
  rcases List.mem_append.mp hj with hj | hj
  · exact hdb j hj
  · rw [List.mem_singleton.mp hj]
    exact hi

/-- Statements that update and insert no issue leave the issues alone. -/
theorem Statements.issues_eq (h : Statements (fun _ _ => False) False db db') :
    db'.issues = db.issues := by
  induction h with
  | refl => rfl
  | tail _ hlast ih =>
    rw [← ih]
    cases hlast with
    | updateReports p set h => rw [Database.updateReports_eq_ok h]
    | insertReport r h =>
      unfold Database.insertReport at h
      obtain ⟨u, -, h⟩ := bind_eq_ok.mp h
      rw [← pure_eq_ok.mp h]
    | storeFiles p reports issues aliases => exact issues
    | ageReports source expiresAt cleared reports issues aliases => exact issues
    | deleteReports p reports issues aliases => exact issues
    | updateIssues p set id allowed h =>
      rw [updateIssues_issues h]
      conv_rhs => rw [← List.map_id' (Database.issues _)]
      refine List.map_congr_left fun i hi => ?_
      by_cases hp : p i = true
      · exact (allowed i hi hp).elim
      · rw [if_neg hp]
    | insertIssue allowed i h => exact allowed.elim
    | insertAlias allowed a h => exact allowed.elim
    | other reports issues aliases => exact issues

/-! ## Operations -/

theorem rejectIssue_keepsDates {issueId : IssueId} {actor : ℤ} {action : IssueReportAction}
    {count : ℕ} (h : db.rejectIssue issueId actor action = .ok (count, db')) :
    KeepsDates db db' := by
  unfold Database.rejectIssue at h
  obtain ⟨issue, -, h⟩ := bind_eq_ok.mp h
  obtain ⟨db₁, h₁, h⟩ := bind_eq_ok.mp h
  obtain ⟨db₂, h₂, h⟩ := bind_eq_ok.mp h
  obtain ⟨⟨n, db₃⟩, h₃, h⟩ := bind_eq_ok.mp h
  obtain ⟨-, rfl⟩ := Prod.mk.inj (pure_eq_ok.mp h)
  unfold Database.settleReportsOfRejected at h₃
  obtain ⟨db₄, h₄, h₃⟩ := bind_eq_ok.mp h₃
  obtain ⟨-, rfl⟩ := Prod.mk.inj (pure_eq_ok.mp h₃)
  have hissue : KeepsDates db db₁ := updateIssues_keepsDates h₁ fun i _ => dated_rejected i
  have hsources : KeepsDates db₁ db₂ := updateIssues_keepsDates h₂ fun i _ => dated_rejected i
  refine (hissue.trans hsources).trans (.of_issues ?_)
  have hreports : db₄.issues = db₂.issues := by rw [Database.updateReports_eq_ok h₄]
  rw [← hreports]
  split <;> rfl

theorem syncIssue_keepsDates {row : Issue} {issue : GithubIssue} {state : GithubLinkState}
    {actor : Option ℤ} {source : GithubSyncSource} {now : Timestamp}
    (hstate : state = issue.state.linkState ∨ state = .moved)
    (h : db.syncIssue row issue state actor source now = .ok db') : KeepsDates db db' := by
  unfold Database.syncIssue at h
  obtain ⟨db₁, h₁, h⟩ := bind_eq_ok.mp h
  obtain rfl := pure_eq_ok.mp h
  have hupdate : KeepsDates db db₁ := by
    refine updateIssues_keepsDates h₁ fun i _ => ?_
    rcases hstate with rfl | rfl
    · cases hs : issue.state with
      | «open» => exact ⟨fun hc => (by cases hc), fun _ => rfl⟩
      | closed => exact ⟨fun _ => rfl, fun hc => (by cases hc)⟩
    · have hmoved : GithubLinkState.moved.isUnreachable = true := rfl
      exact dated_of_tracking_unreachable hmoved rfl
  refine hupdate.trans (.of_issues ?_)
  split <;> rfl

theorem syncGithubIssueWithInstallation_keepsDates {repository : String} {issue : GithubIssue}
    {actor : Option ℤ} {source : GithubSyncSource} {installationId : Option ℤ} {now : Timestamp}
    {plan : ℕ} {result : Option IssueId}
    (h : db.syncGithubIssueWithInstallation repository issue actor source installationId now plan =
      .ok (result, db')) : KeepsDates db db' := by
  unfold Database.syncGithubIssueWithInstallation at h
  obtain ⟨u, -, h⟩ := bind_eq_ok.mp h
  obtain ⟨currentRepository, -, h⟩ := bind_eq_ok.mp h
  split at h
  · obtain ⟨-, rfl⟩ := Prod.mk.inj (pure_eq_ok.mp h)
    exact .refl _
  rename_i row hrow
  obtain ⟨v, -, h⟩ := bind_eq_ok.mp h
  split at h
  · obtain ⟨-, rfl⟩ := Prod.mk.inj (pure_eq_ok.mp h)
    exact .refl _
  split at h
  · obtain ⟨-, rfl⟩ := Prod.mk.inj (pure_eq_ok.mp h)
    exact .refl _
  obtain ⟨db₁, h₁, h⟩ := bind_eq_ok.mp h
  obtain ⟨-, rfl⟩ := Prod.mk.inj (pure_eq_ok.mp h)
  have hjobs : (if source = .webhook then
      db.updateDuplicateJob row.id repository issue installationId now else db).issues =
      db.issues := by
    split
    · obtain ⟨jobs, hjobs⟩ := updateDuplicateJob_eq db row.id repository issue installationId now
      rw [hjobs]
    · rfl
  refine (KeepsDates.of_issues hjobs).trans (syncIssue_keepsDates ?_ h₁)
  split
  · exact .inl rfl
  · exact .inr rfl

theorem markGithubIssueUnavailable_keepsDates {repository : String} {number : ℤ}
    {githubId : Option ℤ} {state : GithubLinkState} {source : GithubSyncSource} {plan : ℕ}
    {result : Option IssueId}
    (h : db.markGithubIssueUnavailable repository number githubId state source plan =
      .ok (result, db')) : KeepsDates db db' := by
  unfold Database.markGithubIssueUnavailable at h
  obtain ⟨u, hstate, h⟩ := bind_eq_ok.mp h
  rw [ensure_eq_ok] at hstate
  split at h
  · obtain ⟨-, rfl⟩ := Prod.mk.inj (pure_eq_ok.mp h)
    exact .refl _
  obtain ⟨v, -, h⟩ := bind_eq_ok.mp h
  obtain ⟨db₁, h₁, h⟩ := bind_eq_ok.mp h
  obtain ⟨-, rfl⟩ := Prod.mk.inj (pure_eq_ok.mp h)
  have hupdate : KeepsDates db db₁ :=
    updateIssues_keepsDates h₁ fun i _ => dated_of_tracking_unreachable hstate rfl
  refine hupdate.trans (.of_issues ?_)
  split <;> rfl

theorem recordGithubReportsLink_keepsDates {issueId : IssueId} {githubIssueId : Option ℤ}
    {fieldId : ℤ} {link : String}
    (h : db.recordGithubReportsLink issueId githubIssueId fieldId link = .ok db') :
    KeepsDates db db' := by
  unfold Database.recordGithubReportsLink at h
  obtain ⟨u, -, h⟩ := bind_eq_ok.mp h
  exact updateIssues_keepsDates h fun i hi => ⟨hi.resolved, hi.unresolved⟩

theorem replaceGithubIssue_keepsDates {issueId : IssueId} {repository : String}
    {replacement : GithubIssue} {actor : ℤ} {now : Timestamp}
    (h : db.replaceGithubIssue issueId repository replacement actor now = .ok db') :
    KeepsDates db db' := by
  unfold Database.replaceGithubIssue at h
  obtain ⟨u, -, h⟩ := bind_eq_ok.mp h
  obtain ⟨v, -, h⟩ := bind_eq_ok.mp h
  obtain ⟨current, -, h⟩ := bind_eq_ok.mp h
  obtain ⟨w, -, h⟩ := bind_eq_ok.mp h
  obtain ⟨x, -, h⟩ := bind_eq_ok.mp h
  obtain ⟨y, -, h⟩ := bind_eq_ok.mp h
  obtain ⟨db₁, h₁, h⟩ := bind_eq_ok.mp h
  obtain ⟨db₂, h₂, h⟩ := bind_eq_ok.mp h
  obtain rfl := pure_eq_ok.mp h
  have halias : db₁.issues = db.issues := by
    unfold Database.insertAlias at h₁
    obtain ⟨u, -, h₁⟩ := bind_eq_ok.mp h₁
    rw [← pure_eq_ok.mp h₁]
  have hupdate : KeepsDates db₁ db₂ :=
    updateIssues_keepsDates h₂ fun i _ => dated_of_closed _ rfl rfl
  exact (KeepsDates.of_issues halias).trans hupdate

theorem linkReports_issues {reportIds : List ReportId} {issueId : IssueId} {actor : ℤ}
    (h : db.linkReports reportIds issueId actor = .ok db') : db'.issues = db.issues :=
  Statements.issues_eq (linkReports_statements h)

theorem linkToGithubIssue_keepsDates {issue : GithubIssue} {reportIds : List ReportId}
    {repository : String} {actor : ℤ} {newId : IssueId} {plan : ℕ} {result : IssueId × Bool}
    (h : db.linkToGithubIssue issue reportIds repository actor newId plan = .ok (result, db')) :
    KeepsDates db db' := by
  unfold Database.linkToGithubIssue at h
  split at h
  · obtain ⟨u, -, h⟩ := bind_eq_ok.mp h
    obtain ⟨db₁, h₁, h⟩ := bind_eq_ok.mp h
    obtain ⟨-, rfl⟩ := Prod.mk.inj (pure_eq_ok.mp h)
    exact .of_issues (linkReports_issues h₁)
  · obtain ⟨db₁, h₁, h⟩ := bind_eq_ok.mp h
    obtain ⟨db₂, h₂, h⟩ := bind_eq_ok.mp h
    obtain ⟨-, rfl⟩ := Prod.mk.inj (pure_eq_ok.mp h)
    unfold Database.createIssue at h₁
    obtain ⟨db₃, h₃, h₁⟩ := bind_eq_ok.mp h₁
    obtain rfl := pure_eq_ok.mp h₁
    have hcreate : KeepsDates db db₃ :=
      insertIssue_keepsDates h₃ ⟨fun hs => (by cases hs), fun _ => rfl⟩
    have hlinked := linkReports_issues h₂
    exact hcreate.trans (.of_issues hlinked)

theorem ensureDestination_keepsDates {source id : IssueId} {repository : String}
    {issue : GithubIssue} {newId : IssueId} {now : Timestamp} {plan : ℕ}
    (h : db.ensureDestination source repository issue newId now plan = .ok (id, db')) :
    KeepsDates db db' := by
  unfold Database.ensureDestination at h
  split at h
  · obtain ⟨u, -, h⟩ := bind_eq_ok.mp h
    obtain ⟨db₁, h₁, h⟩ := bind_eq_ok.mp h
    obtain ⟨-, rfl⟩ := Prod.mk.inj (pure_eq_ok.mp h)
    exact updateIssues_keepsDates h₁ fun i _ => dated_of_closed _ rfl rfl
  · obtain ⟨db₁, h₁, h⟩ := bind_eq_ok.mp h
    obtain ⟨-, rfl⟩ := Prod.mk.inj (pure_eq_ok.mp h)
    unfold Database.createDestination at h₁
    obtain ⟨db₂, h₂, h₁⟩ := bind_eq_ok.mp h₁
    obtain rfl := pure_eq_ok.mp h₁
    have hcreate : KeepsDates db db₂ := by
      refine insertIssue_keepsDates h₂ ?_
      cases hs : issue.state with
      | «open» => exact ⟨fun hc => (by cases hc), fun _ => rfl⟩
      | closed => exact ⟨fun _ => rfl, fun hc => (by cases hc)⟩
    exact hcreate

theorem finishGithubDuplicate_keepsDates {job : GithubDuplicateJob} {canonical : Option GithubIssue}
    {newId : IssueId} {now : Timestamp} {plan : ℕ} {result : Option IssueId}
    (h : db.finishGithubDuplicate job canonical newId now plan = .ok (result, db')) :
    KeepsDates db db' := by
  unfold Database.finishGithubDuplicate at h
  split at h
  · split at h
    · obtain ⟨-, rfl⟩ := Prod.mk.inj (pure_eq_ok.mp h)
      exact .of_issues rfl
    · obtain ⟨-, rfl⟩ := Prod.mk.inj (pure_eq_ok.mp h)
      exact .refl _
  · obtain ⟨repository, -, h⟩ := bind_eq_ok.mp h
    split at h
    · obtain ⟨-, rfl⟩ := Prod.mk.inj (pure_eq_ok.mp h)
      exact .refl _
    split at h
    · obtain ⟨-, rfl⟩ := Prod.mk.inj (pure_eq_ok.mp h)
      exact .of_issues rfl
    obtain ⟨⟨destination, db₁⟩, h₁, h⟩ := bind_eq_ok.mp h
    obtain ⟨-, rfl⟩ := Prod.mk.inj (pure_eq_ok.mp h)
    unfold Database.mergeInto at h₁
    obtain ⟨u, -, h₁⟩ := bind_eq_ok.mp h₁
    obtain ⟨⟨id, db₂⟩, h₂, h₁⟩ := bind_eq_ok.mp h₁
    obtain ⟨db₃, h₃, h₁⟩ := bind_eq_ok.mp h₁
    obtain ⟨db₄, h₄, h₁⟩ := bind_eq_ok.mp h₁
    obtain ⟨rfl, rfl⟩ := Prod.mk.inj (pure_eq_ok.mp h₁)
    unfold Database.moveReports at h₃
    obtain ⟨db₅, h₅, h₃⟩ := bind_eq_ok.mp h₃
    obtain rfl := pure_eq_ok.mp h₃
    unfold Database.markMerged at h₄
    obtain ⟨db₆, h₆, h₄⟩ := bind_eq_ok.mp h₄
    obtain rfl := pure_eq_ok.mp h₄
    have hmoved : KeepsDates db₂ db₅ := .of_issues (by rw [Database.updateReports_eq_ok h₅])
    have hmerged := updateIssues_keepsDates h₆ fun i _ => dated_merged i id now
    exact ((ensureDestination_keepsDates h₂).trans hmoved).trans hmerged

/-! ## Runs -/

theorem commit_keepsDates {transaction : Except AppError Database}
    (h : ∀ db', transaction = .ok db' → KeepsDates db db') :
    KeepsDates db (commit transaction db) := by
  cases transaction with
  | error e => exact .refl db
  | ok db' => exact h db' rfl

theorem commit_map_keepsDates {α : Type} {transaction : Except AppError (α × Database)}
    (h : ∀ result db', transaction = .ok (result, db') → KeepsDates db db') :
    KeepsDates db (commit ((·.2) <$> transaction) db) := by
  cases transaction with
  | error e => exact .refl db
  | ok result => exact h result.1 result.2 rfl

/-- Whatever an operation writes is dated; the others write no issues. -/
theorem Operation.exec_keepsDates (op : Operation) (hids : (db.issues.map (·.id)).Nodup) :
    KeepsDates db (op.exec db) := by
  have hother : op.retracks = false → op.keepsRefs = false → KeepsDates db (op.exec db) := by
    intro hretracks hkeeps
    refine .of_issues (Statements.issues_eq ?_)
    have h := op.exec_statements hids
    rw [hretracks, hkeeps] at h
    exact h.mono (fun _ _ hrow => by simp at hrow) (by simp)
  cases op with
  | linkToGithubIssue issue reportIds repository actor newId plan =>
    refine commit_keepsDates fun _ h => ?_
    obtain ⟨u, -, h⟩ := bind_eq_ok.mp h
    cases hlink : db.linkToGithubIssue issue reportIds repository actor newId plan with
    | error e => rw [hlink] at h; cases h
    | ok linked =>
      rw [hlink] at h
      cases h
      exact linkToGithubIssue_keepsDates hlink
  | rejectIssue => exact commit_map_keepsDates fun _ _ => rejectIssue_keepsDates
  | replaceGithubIssue => exact commit_keepsDates fun _ => replaceGithubIssue_keepsDates
  | syncGithubIssue =>
    exact commit_map_keepsDates fun _ _ => syncGithubIssueWithInstallation_keepsDates
  | markGithubIssueUnavailable =>
    exact commit_map_keepsDates fun _ _ => markGithubIssueUnavailable_keepsDates
  | recordGithubReportsLink => exact commit_keepsDates fun _ => recordGithubReportsLink_keepsDates
  | finishGithubDuplicate =>
    exact commit_map_keepsDates fun _ _ => finishGithubDuplicate_keepsDates
  | _ => exact hother rfl rfl

theorem Database.IsReachable.dated (h : db.IsReachable) : ∀ i ∈ db.issues, i.Dated := by
  have hboth : db.Wf ∧ ∀ i ∈ db.issues, i.Dated := by
    refine Reachable.invariant (I := fun db => db.Wf ∧ ∀ i ∈ db.issues, i.Dated)
      (fun s op t hs hstep => ⟨hstep.wf hs.1, ?_⟩) h ⟨Database.wf_empty, fun _ hi => (by cases hi)⟩
    rw [hstep]
    exact op.exec_keepsDates hs.1.issueIds hs.2
  exact hboth.2

/-- At all times an issue that is not rejected, and so one that never was, is in the state its
GitHub link calls for, with the time it was resolved if it is resolved and none if it is
unresolved. -/
theorem Database.IsReachable.tracked (h : db.IsReachable) :
    ∀ i ∈ db.issues, i.state ≠ .rejected → i.state = .tracking i.githubState ∧
      (i.state = .resolved → i.resolvedAt.isSome = true) ∧
      (i.state = .unresolved → i.resolvedAt = none) := by
  intro i hi hstate
  have hdated := h.dated i hi
  exact ⟨h.wf.tracking i hi hstate, hdated.resolved, hdated.unresolved⟩

end

/-- GitHub closes the issue that a report is on. -/
def closedIssue : Database :=
  execAll (submitLinked 1 "1" ++
    [.syncGithubIssue "o/r" (sampleIssue 11 1 "1" .closed 2 none) none .webhook none 2 0]) .empty

theorem closedIssue_isSome : (closedIssue.findIssue? ⟨1⟩).isSome = true := by decide +kernel

theorem closedIssue_tracked :
    ((closedIssue.findIssue? ⟨1⟩).get closedIssue_isSome).state = .resolved ∧
      ((closedIssue.findIssue? ⟨1⟩).get closedIssue_isSome).resolvedAt.isSome = true := by
  have hstate : ((closedIssue.findIssue? ⟨1⟩).get closedIssue_isSome).state = .resolved := by
    decide +kernel
  refine ⟨hstate, ?_⟩
  have hne : ((closedIssue.findIssue? ⟨1⟩).get closedIssue_isSome).state ≠ .rejected := by
    rw [hstate]
    decide
  exact ((isReachable_execAll _).tracked _ (mem_findIssue? ⟨1⟩ closedIssue_isSome) hne).2.1 hstate

end LadybirdReports.Admin
