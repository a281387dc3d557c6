import LadybirdReports.Admin.IssueChanges
import LadybirdReports.Admin.Operation

/-!
# What the operations write

Every operation is a sequence of statements (`Operation.exec_statements`). What they may do to the
rows of issues is a parameter: the operations on reports and jobs update none, the ones that follow
GitHub or reject leave an issue with the GitHub issue it tracks (`KeepsRef`), and only three may do
more.
-/

namespace LadybirdReports.Admin

open Rust

/-- One statement, as far as reports, issues and aliases go: an update may turn the row of an issue
into one that `rows` allows, and issues and aliases are inserted if `inserts` holds. -/
inductive Statement (rows : Issue → Issue → Prop) (inserts : Prop) (db db' : Database) : Prop
  | updateReports (p : Report → Bool) (set : Report → Report) (h : db.updateReports p set = .ok db')
  | insertReport (r : Report) (h : db.insertReport r = .ok db')
  | storeFiles (p : Report → Bool)
      (reports : db'.reports =
        db.reports.map fun r => if p r then { r with storageState := .ready } else r)
      (issues : db'.issues = db.issues) (aliases : db'.aliases = db.aliases)
  | ageReports (source : Report → Option String) (expiresAt : Report → Option Timestamp)
      (cleared : ∀ r, source r = none ∨ source r = r.sourceClientKey)
      (reports : db'.reports = db.reports.map fun r =>
        { r with sourceClientKey := source r, expiresAt := expiresAt r })
      (issues : db'.issues = db.issues) (aliases : db'.aliases = db.aliases)
  | deleteReports (p : Report → Bool) (reports : db'.reports = db.reports.filter p)
      (issues : db'.issues = db.issues) (aliases : db'.aliases = db.aliases)
  | updateIssues (p : Issue → Bool) (set : Issue → Issue) (id : ∀ i, (set i).id = i.id)
      (allowed : ∀ i ∈ db.issues, p i = true → rows i (set i)) (h : db.updateIssues p set = .ok db')
  | insertIssue (allowed : inserts) (i : Issue) (h : db.insertIssue i = .ok db')
  | insertAlias (allowed : inserts) (a : GithubAlias) (h : db.insertAlias a = .ok db')
  | other (reports : db'.reports = db.reports) (issues : db'.issues = db.issues)
      (aliases : db'.aliases = db.aliases)

/-- Some statements, one after the other. -/
abbrev Statements (rows : Issue → Issue → Prop) (inserts : Prop) :=
  Relation.ReflTransGen (Statement rows inserts)

/-- The row goes on tracking what it tracked, in the same place, and does not come back from being
rejected. -/
structure KeepsRef (i i' : Issue) : Prop where
  id : i'.id = i.id
  mergedInto : i'.mergedInto = i.mergedInto
  identity : i'.identity = i.identity
  githubIssueId : ∀ g, i.githubIssueId = some g → i'.githubIssueId = some g
  state : i'.state ≠ .rejected → i.state ≠ .rejected

section

variable {rows rows' : Issue → Issue → Prop} {inserts inserts' : Prop} {db db' : Database}

theorem Statement.of_updateIssues {p : Issue → Bool} {set : Issue → Issue}
    (h : db.updateIssues p set = .ok db') (hid : ∀ i, (set i).id = i.id)
    (hallowed : ∀ i ∈ db.issues, p i = true → rows i (set i)) : Statement rows inserts db db' :=
  .updateIssues p set hid hallowed h

theorem Statement.mono (hrows : ∀ i i', rows i i' → rows' i i') (hinserts : inserts → inserts')
    (h : Statement rows inserts db db') : Statement rows' inserts' db db' := by
  cases h with
  | updateReports p set h => exact .updateReports p set h
  | insertReport r h => exact .insertReport r h
  | storeFiles p reports issues aliases => exact .storeFiles p reports issues aliases
  | ageReports source expiresAt cleared reports issues aliases =>
    exact .ageReports source expiresAt cleared reports issues aliases
  | deleteReports p reports issues aliases => exact .deleteReports p reports issues aliases
  | updateIssues p set id allowed h =>
    exact .updateIssues p set id (fun i hi hp => hrows i _ (allowed i hi hp)) h
  | insertIssue allowed i h => exact .insertIssue (hinserts allowed) i h
  | insertAlias allowed a h => exact .insertAlias (hinserts allowed) a h
  | other reports issues aliases => exact .other reports issues aliases

theorem Statements.mono (hrows : ∀ i i', rows i i' → rows' i i') (hinserts : inserts → inserts')
    (h : Statements rows inserts db db') : Statements rows' inserts' db db' :=
  Relation.ReflTransGen.mono (fun _ _ => Statement.mono hrows hinserts) _ _ h

/-! ## Reports -/

theorem foldlM_statements {α : Type} {round : Database → α → Except AppError Database}
    {items : List α} (hround : ∀ s a t, round s a = .ok t → Statements rows inserts s t)
    (h : items.foldlM round db = .ok db') : Statements rows inserts db db' :=
  (foldlM_related (I := fun _ => True) (fun _ => .refl) (fun _ _ _ => .trans)
    (fun s a t _ hst => ⟨trivial, hround s a t hst⟩) trivial h).2

theorem linkReport_statements {reportId : ReportId} {issueId : IssueId} {actor : ℤ}
    (h : db.linkReport reportId issueId actor = .ok db') : Statements rows inserts db db' := by
  unfold Database.linkReport at h
  obtain ⟨previous, -, h⟩ := bind_eq_ok.mp h
  obtain ⟨state, -, h⟩ := bind_eq_ok.mp h
  dsimp only at h
  split at h
  · exact pure_eq_ok.mp h ▸ .refl
  obtain ⟨u, -, h⟩ := bind_eq_ok.mp h
  obtain ⟨db₁, h₁, h⟩ := bind_eq_ok.mp h
  obtain rfl := pure_eq_ok.mp h
  refine .tail (.single (.updateReports _ _ h₁)) (.other ?_ ?_ ?_) <;> split <;> split <;> rfl

theorem linkReports_statements {reportIds : List ReportId} {issueId : IssueId} {actor : ℤ}
    (h : db.linkReports reportIds issueId actor = .ok db') : Statements rows inserts db db' := by
  unfold Database.linkReports at h
  obtain ⟨u, -, h⟩ := bind_eq_ok.mp h
  exact foldlM_statements (fun _ _ _ => linkReport_statements) h

theorem unlinkReport_statements {reportId : ReportId} {issueId : IssueId} {previous : ReportState}
    {actor : ℤ} (h : db.unlinkReport reportId issueId previous actor = .ok db') :
    Statements rows inserts db db' := by
  unfold Database.unlinkReport at h
  obtain ⟨db₁, h₁, h⟩ := bind_eq_ok.mp h
  obtain rfl := pure_eq_ok.mp h
  refine .tail (.single (.updateReports _ _ h₁)) (.other ?_ ?_ ?_) <;> split <;> rfl

theorem assignReportsToIssue_statements {reportIds : List ReportId} {issueId : IssueId} {actor : ℤ}
    (h : db.assignReportsToIssue reportIds issueId actor = .ok db') :
    Statements rows inserts db db' := by
  unfold Database.assignReportsToIssue at h
  obtain ⟨u, -, h⟩ := bind_eq_ok.mp h
  exact linkReports_statements h

theorem unlinkReportFromIssue_statements {issueId : IssueId} {reportId : ReportId} {actor : ℤ}
    (h : db.unlinkReportFromIssue issueId reportId actor = .ok db') :
    Statements rows inserts db db' := by
  unfold Database.unlinkReportFromIssue at h
  obtain ⟨u, -, h⟩ := bind_eq_ok.mp h
  obtain ⟨report, -, h⟩ := bind_eq_ok.mp h
  exact unlinkReport_statements h

theorem setReportState_statements {reportId : ReportId} {target : ReportState} {actor : ℤ}
    {reason : Option String} {result : Option ReportState}
    (h : db.setReportState reportId target actor reason = .ok (result, db')) :
    Statements rows inserts db db' := by
  unfold Database.setReportState at h
  obtain ⟨previous, -, h⟩ := bind_eq_ok.mp h
  split at h
  · obtain ⟨-, rfl⟩ := Prod.mk.inj (pure_eq_ok.mp h)
    exact .refl
  obtain ⟨u, -, h⟩ := bind_eq_ok.mp h
  obtain ⟨state, -, h⟩ := bind_eq_ok.mp h
  obtain ⟨db₁, h₁, h⟩ := bind_eq_ok.mp h
  obtain ⟨-, rfl⟩ := Prod.mk.inj (pure_eq_ok.mp h)
  exact .tail (.single (.updateReports _ _ h₁)) (.other rfl rfl rfl)

theorem resolveReportsWithFix_statements {reportIds : List ReportId} {fix : ReportFix} {actor : ℤ}
    {count : ℕ} (h : db.resolveReportsWithFix reportIds fix actor = .ok (count, db')) :
    Statements rows inserts db db' := by
  unfold Database.resolveReportsWithFix at h
  obtain ⟨u, -, h⟩ := bind_eq_ok.mp h
  obtain ⟨changes, -, h⟩ := bind_eq_ok.mp h
  obtain ⟨db₁, h₁, h⟩ := bind_eq_ok.mp h
  obtain ⟨-, rfl⟩ := Prod.mk.inj (pure_eq_ok.mp h)
  refine foldlM_statements (fun s change t hst => ?_) h₁
  unfold Database.resolveWithFix at hst
  obtain ⟨s₁, hs₁, hst⟩ := bind_eq_ok.mp hst
  obtain rfl := pure_eq_ok.mp hst
  exact .tail (.single (.updateReports _ _ hs₁)) (.other rfl rfl rfl)

theorem applyReportStateAction_statements {reportIds : List ReportId} {action : ReportStateAction}
    {actor : ℤ} {reason : Option String} {count : ℕ}
    (h : db.applyReportStateAction reportIds action actor reason = .ok (count, db')) :
    Statements rows inserts db db' := by
  unfold Database.applyReportStateAction at h
  obtain ⟨u, -, h⟩ := bind_eq_ok.mp h
  obtain ⟨changes, -, h⟩ := bind_eq_ok.mp h
  obtain ⟨db₁, h₁, h⟩ := bind_eq_ok.mp h
  obtain ⟨-, rfl⟩ := Prod.mk.inj (pure_eq_ok.mp h)
  refine foldlM_statements (fun s change t hst => ?_) h₁
  unfold Database.applyChange at hst
  split at hst
  · obtain ⟨s₁, hs₁, hst⟩ := bind_eq_ok.mp hst
    obtain rfl := pure_eq_ok.mp hst
    exact .tail (.single (.updateReports _ _ hs₁)) (.other rfl rfl rfl)
  · exact unlinkReport_statements hst

theorem blockReportSource_statements {reportId : ReportId} {actor : ℤ} {remove : Bool}
    {now : Timestamp} {count : ℕ}
    (h : db.blockReportSource reportId actor remove now = .ok (count, db')) :
    Statements rows inserts db db' := by
  unfold Database.blockReportSource at h
  obtain ⟨report, -, h⟩ := bind_eq_ok.mp h
  obtain ⟨clientKey, -, h⟩ := bind_eq_ok.mp h
  obtain ⟨db₁, h₁, h⟩ := bind_eq_ok.mp h
  obtain ⟨-, rfl⟩ := Prod.mk.inj (pure_eq_ok.mp h)
  refine .tail (.head ?_ (.single (.updateReports _ _ h₁))) (.other rfl rfl rfl)
  exact .other rfl rfl rfl

/-! ## Reports that come in -/

theorem issueChallenge_statements {id : ChallengeId} {digest tokenHash : String}
    {expiresAt : Timestamp} (h : db.issueChallenge id digest tokenHash expiresAt = .ok db') :
    Statements rows inserts db db' := by
  unfold Database.issueChallenge at h
  obtain ⟨u, -, h⟩ := bind_eq_ok.mp h
  exact pure_eq_ok.mp h ▸ .single (.other rfl rfl rfl)

theorem acceptReport_statements {request : AcceptReportRequest} {now : Timestamp}
    {outcome : AcceptReportOutcome} (h : db.acceptReport request now = .ok (outcome, db')) :
    Statements rows inserts db db' := by
  unfold Database.acceptReport at h
  split at h
  · split at h
    · obtain ⟨-, rfl⟩ := Prod.mk.inj (Except.ok.inj h)
      exact .refl
    · cases h
  obtain ⟨u, -, h⟩ := bind_eq_ok.mp h
  obtain ⟨v, -, h⟩ := bind_eq_ok.mp h
  obtain ⟨db₁, h₁, h⟩ := bind_eq_ok.mp h
  have hinsert : Statements rows inserts db db₁ := .single (.insertReport _ h₁)
  obtain ⟨w, -, h⟩ := bind_eq_ok.mp h
  split at h
  · obtain ⟨db₂, h₂, h⟩ := bind_eq_ok.mp h
    unfold Database.acceptStackSignature at h₂
    obtain ⟨u, -, h₂⟩ := bind_eq_ok.mp h₂
    obtain ⟨v, -, h₂⟩ := bind_eq_ok.mp h₂
    obtain rfl := pure_eq_ok.mp h₂
    obtain ⟨-, rfl⟩ := Prod.mk.inj (pure_eq_ok.mp h)
    exact .tail hinsert (.other rfl rfl rfl)
  · obtain ⟨-, rfl⟩ := Prod.mk.inj (pure_eq_ok.mp h)
    exact .tail hinsert (.other rfl rfl rfl)

theorem markStorageReady_statements {reportId : ReportId} {uploadId : UploadId} :
    Statements rows inserts db (db.markStorageReady reportId uploadId).2 := by
  unfold Database.markStorageReady
  dsimp only
  split
  · exact .single (.storeFiles _ rfl rfl rfl)
  · exact .refl

theorem upsertSignature_statement {trace : PendingStackTrace} :
    Statement rows inserts db (db.upsertSignature trace) := by
  unfold Database.upsertSignature
  split <;> exact .other rfl rfl rfl

theorem matchIndexedReport_statements {trace : PendingStackTrace} {fingerprint : String}
    (h : db.matchIndexedReport trace fingerprint = .ok db') : Statements rows inserts db db' := by
  unfold Database.matchIndexedReport at h
  split at h
  · obtain ⟨db₁, h₁, h⟩ := bind_eq_ok.mp h
    obtain rfl := pure_eq_ok.mp h
    unfold Database.assignMatch at h₁
    obtain ⟨db₂, h₂, h₁⟩ := bind_eq_ok.mp h₁
    obtain rfl := pure_eq_ok.mp h₁
    exact .tail (.single (.updateReports _ _ h₂)) (.other rfl rfl rfl)
  · exact Except.ok.inj h ▸ .refl
  · obtain rfl := Except.ok.inj h
    split
    · exact .single (.other rfl rfl rfl)
    · exact .refl

theorem storeStackSignature_statements {trace : PendingStackTrace} {now : Timestamp}
    (h : db.storeStackSignature trace now = .ok db') : Statements rows inserts db db' := by
  unfold Database.storeStackSignature at h
  dsimp only at h
  obtain ⟨u, -, h⟩ := bind_eq_ok.mp h
  obtain ⟨v, -, h⟩ := bind_eq_ok.mp h
  split at h
  · exact pure_eq_ok.mp h ▸ .single upsertSignature_statement
  split at h
  · obtain ⟨db₁, h₁, h⟩ := bind_eq_ok.mp h
    obtain rfl := pure_eq_ok.mp h
    exact .head upsertSignature_statement
      (.tail (matchIndexedReport_statements h₁) (.other rfl rfl rfl))
  · obtain rfl := pure_eq_ok.mp h
    exact .head upsertSignature_statement (.single (.other rfl rfl rfl))

/-! ## Reports that grow old -/

theorem beginMaintenanceSweep_statements {reportRetentionDays sourceRetentionHours
    auditRetentionDays : ℕ} : Statements rows inserts db (db.beginMaintenanceSweep
      reportRetentionDays sourceRetentionHours auditRetentionDays).2 := by
  unfold Database.beginMaintenanceSweep Database.sweptReport
  refine .single (.ageReports _ _ (fun r => ?_) rfl rfl rfl)
  split
  · exact .inl rfl
  · exact .inr rfl

theorem finishReportPurge_statements {reportId : ReportId} {deleted : Bool}
    (h : db.finishReportPurge reportId = .ok (deleted, db')) : Statements rows inserts db db' := by
  unfold Database.finishReportPurge at h
  split at h
  · obtain ⟨u, -, h⟩ := bind_eq_ok.mp h
    obtain ⟨-, rfl⟩ := Prod.mk.inj (pure_eq_ok.mp h)
    exact .single (.deleteReports _ rfl rfl rfl)
  · obtain ⟨-, rfl⟩ := Prod.mk.inj (Except.ok.inj h)
    exact .refl

/-! ## Issues -/

theorem rejectIssue_statements {issueId : IssueId} {actor : ℤ} {action : IssueReportAction}
    {count : ℕ} (h : db.rejectIssue issueId actor action = .ok (count, db')) :
    Statements KeepsRef inserts db db' := by
  have hreject (i : Issue) : KeepsRef i { i with state := .rejected } :=
    ⟨rfl, rfl, rfl, fun _ hg => hg, fun hne => absurd rfl hne⟩
  unfold Database.rejectIssue at h
  obtain ⟨issue, -, h⟩ := bind_eq_ok.mp h
  obtain ⟨db₁, h₁, h⟩ := bind_eq_ok.mp h
  obtain ⟨db₂, h₂, h⟩ := bind_eq_ok.mp h
  obtain ⟨⟨n, db₃⟩, h₃, h⟩ := bind_eq_ok.mp h
  obtain ⟨-, rfl⟩ := Prod.mk.inj (pure_eq_ok.mp h)
  unfold Database.settleReportsOfRejected at h₃
  obtain ⟨db₄, h₄, h₃⟩ := bind_eq_ok.mp h₃
  obtain ⟨-, rfl⟩ := Prod.mk.inj (pure_eq_ok.mp h₃)
  have hissue : Statement KeepsRef inserts db db₁ :=
    .of_updateIssues h₁ (fun _ => rfl) fun i _ _ => hreject i
  have hsources : Statement KeepsRef inserts db₁ db₂ :=
    .of_updateIssues h₂ (fun _ => rfl) fun i _ _ => hreject i
  refine .head hissue (.head hsources (.tail (.single (.updateReports _ _ h₄)) (.other ?_ ?_ ?_)))
  all_goals split <;> rfl

theorem syncGithubIssueWithInstallation_statements {repository : String} {issue : GithubIssue}
    {actor : Option ℤ} {source : GithubSyncSource} {installationId : Option ℤ} {now : Timestamp}
    {plan : ℕ} {result : Option IssueId} (hids : (db.issues.map (·.id)).Nodup)
    (h : db.syncGithubIssueWithInstallation repository issue actor source installationId now plan =
      .ok (result, db')) : Statements KeepsRef inserts db db' := by
  unfold Database.syncGithubIssueWithInstallation at h
  obtain ⟨u, -, h⟩ := bind_eq_ok.mp h
  obtain ⟨currentRepository, -, h⟩ := bind_eq_ok.mp h
  split at h
  · obtain ⟨-, rfl⟩ := Prod.mk.inj (pure_eq_ok.mp h)
    exact .refl
  rename_i row hrow
  obtain ⟨hmem, hactive⟩ := mem_of_lookupGithub hrow
  obtain ⟨v, hsame, h⟩ := bind_eq_ok.mp h
  rw [ensure_eq_ok] at hsame
  split at h
  · obtain ⟨-, rfl⟩ := Prod.mk.inj (pure_eq_ok.mp h)
    exact .refl
  split at h
  · obtain ⟨-, rfl⟩ := Prod.mk.inj (pure_eq_ok.mp h)
    exact .refl
  obtain ⟨db₁, h₁, h⟩ := bind_eq_ok.mp h
  obtain ⟨-, rfl⟩ := Prod.mk.inj (pure_eq_ok.mp h)
  unfold Database.syncIssue at h₁
  obtain ⟨db₂, h₂, h₁⟩ := bind_eq_ok.mp h₁
  obtain rfl := pure_eq_ok.mp h₁
  obtain ⟨jobs, hjobs⟩ : ∃ jobs, (if source = .webhook then
      db.updateDuplicateJob row.id repository issue installationId now else db) =
      { db with jobs := jobs } := by
    split
    · exact updateDuplicateJob_eq db row.id repository issue installationId now
    · exact ⟨db.jobs, rfl⟩
  rw [hjobs] at h₂
  have hupdate : Statement KeepsRef inserts { db with jobs := jobs } db₂ := by
    refine .of_updateIssues h₂ (fun _ => rfl) fun i hi hp => ?_
    obtain rfl := Rows.eq_of_key hids hi hmem (by simpa using hp)
    refine ⟨rfl, rfl, rfl, fun g hg => ?_, fun _ => hactive⟩
    have hid : g = issue.id := by simpa [hg] using hsame
    rw [hid]
  have hrest : Statement KeepsRef inserts db { db with jobs := jobs } := .other rfl rfl rfl
  refine .tail (.head hrest (.single hupdate)) (.other ?_ ?_ ?_) <;> repeat' split
  all_goals rfl

theorem markGithubIssueUnavailable_statements {repository : String} {number : ℤ}
    {githubId : Option ℤ} {state : GithubLinkState} {source : GithubSyncSource} {plan : ℕ}
    {result : Option IssueId} (hids : (db.issues.map (·.id)).Nodup)
    (h : db.markGithubIssueUnavailable repository number githubId state source plan =
      .ok (result, db')) : Statements KeepsRef inserts db db' := by
  unfold Database.markGithubIssueUnavailable at h
  obtain ⟨u, -, h⟩ := bind_eq_ok.mp h
  split at h
  · obtain ⟨-, rfl⟩ := Prod.mk.inj (pure_eq_ok.mp h)
    exact .refl
  rename_i row hrow
  obtain ⟨hmem, hactive⟩ := mem_of_lookupGithub hrow
  obtain ⟨v, -, h⟩ := bind_eq_ok.mp h
  obtain ⟨db₁, h₁, h⟩ := bind_eq_ok.mp h
  obtain ⟨-, rfl⟩ := Prod.mk.inj (pure_eq_ok.mp h)
  refine .tail (.single (.of_updateIssues h₁ (fun _ => rfl) fun i hi hp => ?_)) (.other ?_ ?_ ?_)
  · obtain rfl := Rows.eq_of_key hids hi hmem (by simpa using hp)
    exact ⟨rfl, rfl, rfl, fun g hg => by rw [hg]; rfl, fun _ => hactive⟩
  all_goals split <;> rfl

theorem recordGithubReportsLink_statements {issueId : IssueId} {githubIssueId : Option ℤ}
    {fieldId : ℤ} {link : String}
    (h : db.recordGithubReportsLink issueId githubIssueId fieldId link = .ok db') :
    Statements KeepsRef inserts db db' := by
  unfold Database.recordGithubReportsLink at h
  obtain ⟨u, -, h⟩ := bind_eq_ok.mp h
  refine .single (.of_updateIssues h (fun _ => rfl) fun _ _ _ => ?_)
  exact ⟨rfl, rfl, rfl, fun _ hg => hg, fun hne => hne⟩

theorem replaceGithubIssue_statements {issueId : IssueId} {repository : String}
    {replacement : GithubIssue} {actor : ℤ} {now : Timestamp}
    (h : db.replaceGithubIssue issueId repository replacement actor now = .ok db') :
    Statements (fun _ _ => True) True db db' := by
  unfold Database.replaceGithubIssue at h
  obtain ⟨u, -, h⟩ := bind_eq_ok.mp h
  obtain ⟨v, -, h⟩ := bind_eq_ok.mp h
  obtain ⟨current, -, h⟩ := bind_eq_ok.mp h
  obtain ⟨w, -, h⟩ := bind_eq_ok.mp h
  obtain ⟨x, -, h⟩ := bind_eq_ok.mp h
  obtain ⟨y, -, h⟩ := bind_eq_ok.mp h
  obtain ⟨db₁, h₁, h⟩ := bind_eq_ok.mp h
  obtain ⟨db₂, h₂, h⟩ := bind_eq_ok.mp h
  obtain rfl := pure_eq_ok.mp h
  exact .tail (.tail (.single (.insertAlias trivial _ h₁))
    (.of_updateIssues h₂ (fun _ => rfl) fun _ _ _ => trivial)) (.other rfl rfl rfl)

theorem linkToGithubIssue_statements {issue : GithubIssue} {reportIds : List ReportId}
    {repository : String} {actor : ℤ} {newId : IssueId} {plan : ℕ} {result : IssueId × Bool}
    (h : db.linkToGithubIssue issue reportIds repository actor newId plan = .ok (result, db')) :
    Statements (fun _ _ => True) True db db' := by
  unfold Database.linkToGithubIssue at h
  split at h
  · obtain ⟨u, -, h⟩ := bind_eq_ok.mp h
    obtain ⟨db₁, h₁, h⟩ := bind_eq_ok.mp h
    obtain ⟨-, rfl⟩ := Prod.mk.inj (pure_eq_ok.mp h)
    exact linkReports_statements h₁
  · obtain ⟨db₁, h₁, h⟩ := bind_eq_ok.mp h
    obtain ⟨db₂, h₂, h⟩ := bind_eq_ok.mp h
    obtain ⟨-, rfl⟩ := Prod.mk.inj (pure_eq_ok.mp h)
    unfold Database.createIssue at h₁
    obtain ⟨db₃, h₃, h₁⟩ := bind_eq_ok.mp h₁
    obtain rfl := pure_eq_ok.mp h₁
    refine .head (.insertIssue trivial _ h₃) (.head ?_ (linkReports_statements h₂))
    exact .other rfl rfl rfl

theorem ensureDestination_statements {source id : IssueId} {repository : String}
    {issue : GithubIssue} {newId : IssueId} {now : Timestamp} {plan : ℕ}
    (h : db.ensureDestination source repository issue newId now plan = .ok (id, db')) :
    Statements (fun _ _ => True) True db db' := by
  unfold Database.ensureDestination at h
  split at h
  · obtain ⟨u, -, h⟩ := bind_eq_ok.mp h
    obtain ⟨db₁, h₁, h⟩ := bind_eq_ok.mp h
    obtain ⟨-, rfl⟩ := Prod.mk.inj (pure_eq_ok.mp h)
    exact .single (.of_updateIssues h₁ (fun _ => rfl) fun _ _ _ => trivial)
  · obtain ⟨db₁, h₁, h⟩ := bind_eq_ok.mp h
    obtain ⟨-, rfl⟩ := Prod.mk.inj (pure_eq_ok.mp h)
    unfold Database.createDestination at h₁
    obtain ⟨db₂, h₂, h₁⟩ := bind_eq_ok.mp h₁
    obtain rfl := pure_eq_ok.mp h₁
    exact .tail (.single (.insertIssue trivial _ h₂)) (.other rfl rfl rfl)

theorem finishGithubDuplicate_statements {job : GithubDuplicateJob} {canonical : Option GithubIssue}
    {newId : IssueId} {now : Timestamp} {plan : ℕ} {result : Option IssueId}
    (h : db.finishGithubDuplicate job canonical newId now plan = .ok (result, db')) :
    Statements (fun _ _ => True) True db db' := by
  unfold Database.finishGithubDuplicate at h
  split at h
  · split at h
    · obtain ⟨-, rfl⟩ := Prod.mk.inj (pure_eq_ok.mp h)
      exact .single (.other rfl rfl rfl)
    · obtain ⟨-, rfl⟩ := Prod.mk.inj (pure_eq_ok.mp h)
      exact .refl
  · rename_i canonical
    obtain ⟨repository, -, h⟩ := bind_eq_ok.mp h
    split at h
    · obtain ⟨-, rfl⟩ := Prod.mk.inj (pure_eq_ok.mp h)
      exact .refl
    split at h
    · obtain ⟨-, rfl⟩ := Prod.mk.inj (pure_eq_ok.mp h)
      exact .single (.other rfl rfl rfl)
    obtain ⟨⟨destination, db₁⟩, h₁, h⟩ := bind_eq_ok.mp h
    obtain ⟨-, rfl⟩ := Prod.mk.inj (pure_eq_ok.mp h)
    unfold Database.mergeInto at h₁
    obtain ⟨u, -, h₁⟩ := bind_eq_ok.mp h₁
    obtain ⟨⟨id, db₂⟩, h₂, h₁⟩ := bind_eq_ok.mp h₁
    obtain ⟨db₃, h₃, h₁⟩ := bind_eq_ok.mp h₁
    obtain ⟨db₄, h₄, h₁⟩ := bind_eq_ok.mp h₁
    obtain ⟨rfl, rfl⟩ := Prod.mk.inj (pure_eq_ok.mp h₁)
    unfold Database.moveReports at h₃
    obtain ⟨db₅, h₅, h₃⟩ := bind_eq_ok.mp h₃
    obtain rfl := pure_eq_ok.mp h₃
    unfold Database.markMerged at h₄
    obtain ⟨db₆, h₆, h₄⟩ := bind_eq_ok.mp h₄
    obtain rfl := pure_eq_ok.mp h₄
    refine (ensureDestination_statements h₂).trans (.head (.updateReports _ _ h₅)
      (.head ?_ (.tail (.single (.of_updateIssues h₆ (fun _ => rfl) fun _ _ _ => trivial))
        (.other rfl rfl rfl))))
    exact .other rfl rfl rfl

/-! ## Operations -/

/-- The operations that change issues and leave them with the GitHub issue they track. -/
def Operation.keepsRefs : Operation → Bool
  | .rejectIssue .. | .syncGithubIssue .. | .markGithubIssueUnavailable ..
  | .recordGithubReportsLink .. => true
  | _ => false

/-- The operations that may change what an issue tracks, or create one. -/
def Operation.retracks : Operation → Bool
  | .replaceGithubIssue .. | .linkToGithubIssue .. | .finishGithubDuplicate .. => true
  | _ => false

theorem commit_statements {transaction : Except AppError Database}
    (h : ∀ db', transaction = .ok db' → Statements rows inserts db db') :
    Statements rows inserts db (commit transaction db) := by
  cases transaction with
  | error e => exact .refl
  | ok db' => exact h db' rfl

theorem commit_map_statements {α : Type} {transaction : Except AppError (α × Database)}
    (h : ∀ result db', transaction = .ok (result, db') → Statements rows inserts db db') :
    Statements rows inserts db (commit ((·.2) <$> transaction) db) := by
  cases transaction with
  | error e => exact .refl
  | ok result => exact h result.1 result.2 rfl

/-- What an operation writes is what its kind may write. -/
theorem Operation.exec_statements (op : Operation) (hids : (db.issues.map (·.id)).Nodup) :
    Statements (fun i i' => op.retracks = true ∨ op.keepsRefs = true ∧ KeepsRef i i')
      (op.retracks = true) db (op.exec db) := by
  have hkeeps : ∀ {s t : Database}, op.keepsRefs = true → Statements KeepsRef False s t →
      Statements (fun i i' => op.retracks = true ∨ op.keepsRefs = true ∧ KeepsRef i i')
        (op.retracks = true) s t := fun hop h => h.mono (fun _ _ hk => .inr ⟨hop, hk⟩) False.elim
  have hretracks : ∀ {s t : Database}, op.retracks = true → Statements (fun _ _ => True) True s t →
      Statements (fun i i' => op.retracks = true ∨ op.keepsRefs = true ∧ KeepsRef i i')
        (op.retracks = true) s t := fun hop h => h.mono (fun _ _ _ => .inl hop) fun _ => hop
  cases op with
  | passTime => exact .single (.other rfl rfl rfl)
  | sweepExpiredIngestionState => exact .single (.other rfl rfl rfl)
  | beginMaintenanceSweep => exact beginMaintenanceSweep_statements
  | finishReportPurge => exact commit_map_statements fun _ _ => finishReportPurge_statements
  | issueChallenge => exact commit_statements fun _ => issueChallenge_statements
  | acceptReport => exact commit_map_statements fun _ _ => acceptReport_statements
  | markStorageReady => exact markStorageReady_statements
  | storeStackSignature => exact commit_statements fun _ => storeStackSignature_statements
  | assignReportsToIssue => exact commit_statements fun _ => assignReportsToIssue_statements
  | linkToGithubIssue issue reportIds repository actor newId plan =>
    refine commit_statements fun _ h => ?_
    obtain ⟨u, -, h⟩ := bind_eq_ok.mp h
    cases hlink : db.linkToGithubIssue issue reportIds repository actor newId plan with
    | error e => rw [hlink] at h; cases h
    | ok linked =>
      rw [hlink] at h
      cases h
      exact hretracks rfl (linkToGithubIssue_statements hlink)
  | unlinkReportFromIssue => exact commit_statements fun _ => unlinkReportFromIssue_statements
  | setReportState => exact commit_map_statements fun _ _ => setReportState_statements
  | resolveReportsWithFix => exact commit_map_statements fun _ _ => resolveReportsWithFix_statements
  | applyReportStateAction =>
    exact commit_map_statements fun _ _ => applyReportStateAction_statements
  | blockReportSource => exact commit_map_statements fun _ _ => blockReportSource_statements
  | rejectIssue =>
    exact hkeeps rfl (commit_map_statements fun _ _ => rejectIssue_statements)
  | replaceGithubIssue =>
    exact hretracks rfl (commit_statements fun _ => replaceGithubIssue_statements)
  | syncGithubIssue =>
    refine hkeeps rfl (commit_map_statements fun _ _ => ?_)
    exact syncGithubIssueWithInstallation_statements hids
  | markGithubIssueUnavailable =>
    refine hkeeps rfl (commit_map_statements fun _ _ => ?_)
    exact markGithubIssueUnavailable_statements hids
  | recordGithubReportsLink =>
    exact hkeeps rfl (commit_statements fun _ => recordGithubReportsLink_statements)
  | claimGithubDuplicate leaseId now plan =>
    unfold Operation.exec Database.claimGithubDuplicate
    dsimp only
    split
    · exact .refl
    · exact .single (.other rfl rfl rfl)
  | retryGithubDuplicate => exact .single (.other rfl rfl rfl)
  | finishGithubDuplicate =>
    exact hretracks rfl (commit_map_statements fun _ _ => finishGithubDuplicate_statements)

end

end LadybirdReports.Admin
