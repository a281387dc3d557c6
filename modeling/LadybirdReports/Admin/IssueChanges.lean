import LadybirdReports.Admin.Lapses
import LadybirdReports.Admin.ReportChanges

/-!
# Changes of issues

What following GitHub, creating an issue and rejecting one amounts to. An issue that changes takes
its reports along, by the trigger; the events of issues are in the history of no report.
-/

namespace LadybirdReports.Admin

open Forest Rust

section

variable {may : Cause → Prop} {db db' db₀ db₁ : Database} {i : Issue}

theorem mem_of_choose {α : Type} {plan : ℕ} {rows : List α} {a : α}
    (h : choose plan rows = some a) :
    a ∈ rows :=
  List.mem_of_getElem? h

theorem exists_choose {α : Type} {rows : List α} {a : α} (ha : a ∈ rows) (plan : ℕ) :
    ∃ b, choose plan rows = some b :=
  ⟨_, List.getElem?_eq_getElem (Nat.mod_lt _ (List.length_pos_of_mem ha))⟩

/-! ## Updates of one issue -/

section

variable {issues : List Issue} {p : Issue → Bool} {set : Issue → Issue} {j : Issue}

theorem mem_updated (hissues : issues = db.issues.map fun i => if p i then set i else i)
    (hj : j ∈ db.issues) (hp : p j = true) : set j ∈ issues := by
  rw [hissues]
  exact List.mem_map.mpr ⟨j, hj, if_pos hp⟩

theorem mem_of_not_updated (hissues : issues = db.issues.map fun i => if p i then set i else i)
    (hj : j ∈ db.issues) (hp : p j = false) : j ∈ issues := by
  rw [hissues]
  exact List.mem_map.mpr ⟨j, hj, if_neg (by simp [hp])⟩

end

/-- One issue that is not rejected is updated, in a database with the reports, issues and events of
the one before, and events of issues are written. -/
theorem Change.of_updateIssues {p : Issue → Bool} {set : Issue → Issue} {events : List AuditEvent}
    (hwf : db.Wf) (h : db₀.updateIssues p set = .ok db₁)
    (hsame : db₀.reports = db.reports ∧ db₀.issues = db.issues ∧ db₀.events = db.events)
    (hi : i ∈ db.issues) (hp : ∀ j ∈ db.issues, p j = true ↔ j = i)
    (hset : ∀ j, (set j).id = j.id) (notRejected : i.state ≠ .rejected)
    (merged : (set i).mergedInto = i.mergedInto)
    (tracking : (set i).state = .tracking (set i).githubState)
    (hdb' : db'.reports = db₁.reports ∧ db'.issues = db₁.issues ∧ db'.events = db₁.events ++ events)
    (hsilent : ∀ id, history events id = [])
    (retrack : db₁.aliases = db₀.aliases → Retrack may db db' i (set i)) :
    Change may db db' := by
  obtain ⟨hreports, hissues, hevents⟩ := hsame
  obtain ⟨issues, told, rfl, rfl, htells, -⟩ := Database.updateIssues_eq_ok
    (hreports ▸ hwf.reportIds) (hissues ▸ hwf.issueIds) hset
    (by rw [hreports, hissues]; exact hwf.settled) h
  obtain ⟨hreports', hissues', hevents'⟩ := hdb'
  have hrow : (db.issues.map fun j => if p j then set j else j) =
      replaceIssue (set i) db.issues := by
    refine List.map_congr_left fun j hj => ?_
    by_cases hji : j = i
    · rw [if_pos ((hp j hj).mpr hji), hji, if_pos (hset i).symm]
    · rw [if_neg fun hc => hji ((hp j hj).mp hc), if_neg fun hc => hji ?_]
      exact Rows.eq_of_key hwf.issueIds hj hi (hc.trans (hset i))
  rw [hissues, hrow] at hissues' hreports' htells
  rw [hreports] at hreports' htells
  constructor
  · exact .track i (set i) hi notRejected (hset i) merged tracking (retrack rfl)
      (by rw [hissues']; exact hreports') hissues'
  · exact .of_tells hwf (fun r _ => followIssueStateOnReport_id r _) (htells.append_silent hsilent)
      hreports' (by rw [hevents', ← List.append_assoc, ← hevents])

/-- One issue, by its key. -/
theorem Change.of_updateIssue {set : Issue → Issue} {events : List AuditEvent} (hwf : db.Wf)
    (h : db₀.updateIssue i.id set = .ok db₁)
    (hsame : db₀.reports = db.reports ∧ db₀.issues = db.issues ∧ db₀.events = db.events)
    (hi : i ∈ db.issues) (hset : ∀ j, (set j).id = j.id) (notRejected : i.state ≠ .rejected)
    (merged : (set i).mergedInto = i.mergedInto)
    (tracking : (set i).state = .tracking (set i).githubState)
    (hdb' : db'.reports = db₁.reports ∧ db'.issues = db₁.issues ∧ db'.events = db₁.events ++ events)
    (hsilent : ∀ id, history events id = [])
    (retrack : db₁.aliases = db₀.aliases → Retrack may db db' i (set i)) :
    Change may db db' := by
  refine .of_updateIssues hwf h hsame hi (fun j hj => ?_) hset notRejected merged tracking hdb'
    hsilent retrack
  rw [decide_eq_true_eq]
  exact ⟨fun hid => Rows.eq_of_key hwf.issueIds hj hi hid, fun hji => by rw [hji]⟩

/-! ## Following GitHub -/

theorem mem_of_lookupGithub {githubId : Option ℤ} {repository : String} {number : ℤ} {plan : ℕ}
    (h : db.lookupGithub githubId repository number plan = some i) :
    i ∈ db.issues ∧ i.state ≠ .rejected := by
  unfold Database.lookupGithub at h
  have hi := mem_of_choose h
  have hmem : i ∈ db.issues.filter (·.matchesGithub githubId repository number) := by
    split at hi
    · exact hi
    · exact List.mem_of_mem_filter hi
  rw [List.mem_filter] at hmem
  simp only [Issue.matchesGithub, Bool.and_eq_true, decide_eq_true_eq] at hmem
  exact ⟨hmem.1, hmem.2.1⟩

theorem updateDuplicateJob_eq (db : Database) (issueId : IssueId) (repository : String)
    (issue : GithubIssue) (installationId : Option ℤ) (now : Timestamp) :
    ∃ jobs, db.updateDuplicateJob issueId repository issue installationId now =
      { db with jobs := jobs } := by
  unfold Database.updateDuplicateJob
  split
  · split
    · exact ⟨_, rfl⟩
    · exact ⟨db.jobs, rfl⟩
  · exact ⟨_, rfl⟩

theorem syncIssue_change {issue : GithubIssue} {state : GithubLinkState} {actor : Option ℤ}
    {source : GithubSyncSource} {now : Timestamp} (jobs : List DuplicateJob) (hwf : db.Wf)
    (hi : i ∈ db.issues) (notRejected : i.state ≠ .rejected)
    (h : ({ db with jobs := jobs } : Database).syncIssue i issue state actor source now = .ok db') :
    Change may db db' := by
  unfold Database.syncIssue at h
  obtain ⟨db₁, h₁, h⟩ := bind_eq_ok.mp h
  obtain rfl := pure_eq_ok.mp h
  split
  · exact .of_updateIssue hwf h₁ ⟨rfl, rfl, rfl⟩ hi (fun _ => rfl) notRejected rfl rfl
      ⟨rfl, rfl, rfl⟩ (fun id => history_issue _ _ _ _) (fun haliases => .same rfl haliases)
  · exact .of_updateIssue hwf h₁ ⟨rfl, rfl, rfl⟩ hi (fun _ => rfl) notRejected rfl rfl
      ⟨rfl, rfl, (List.append_nil _).symm⟩ (fun id => rfl) (fun haliases => .same rfl haliases)

theorem syncGithubIssueWithInstallation_changes {repository : String} {issue : GithubIssue}
    {actor installationId : Option ℤ} {source : GithubSyncSource} {now : Timestamp} {plan : ℕ}
    {result : Option IssueId} (hwf : db.Wf)
    (h : db.syncGithubIssueWithInstallation repository issue actor source installationId now plan =
      .ok (result, db')) : Changes may db db' := by
  unfold Database.syncGithubIssueWithInstallation at h
  obtain ⟨u, -, h⟩ := bind_eq_ok.mp h
  obtain ⟨currentRepository, -, h⟩ := bind_eq_ok.mp h
  split at h
  · obtain ⟨-, rfl⟩ := Prod.mk.inj (pure_eq_ok.mp h)
    exact .refl
  rename_i row hrow
  obtain ⟨hi, notRejected⟩ := mem_of_lookupGithub hrow
  dsimp only at h
  obtain ⟨v, -, h⟩ := bind_eq_ok.mp h
  split at h
  · obtain ⟨-, rfl⟩ := Prod.mk.inj (pure_eq_ok.mp h)
    exact .refl
  split at h
  · obtain ⟨-, rfl⟩ := Prod.mk.inj (pure_eq_ok.mp h)
    exact .refl
  obtain ⟨db₁, h₁, h⟩ := bind_eq_ok.mp h
  obtain ⟨-, rfl⟩ := Prod.mk.inj (pure_eq_ok.mp h)
  split at h₁
  · obtain ⟨jobs, hjobs⟩ := updateDuplicateJob_eq db row.id repository issue installationId now
    rw [hjobs] at h₁
    exact .single (syncIssue_change jobs hwf hi notRejected h₁)
  · exact .single (syncIssue_change db.jobs hwf hi notRejected h₁)

theorem markGithubIssueUnavailable_changes {repository : String} {number : ℤ}
    {githubId : Option ℤ} {state : GithubLinkState} {source : GithubSyncSource} {plan : ℕ}
    {result : Option IssueId} (hwf : db.Wf)
    (h : db.markGithubIssueUnavailable repository number githubId state source plan =
      .ok (result, db')) : Changes may db db' := by
  unfold Database.markGithubIssueUnavailable at h
  obtain ⟨u, -, h⟩ := bind_eq_ok.mp h
  split at h
  · obtain ⟨-, rfl⟩ := Prod.mk.inj (pure_eq_ok.mp h)
    exact .refl
  rename_i row hrow
  obtain ⟨hi, notRejected⟩ := mem_of_lookupGithub hrow
  obtain ⟨v, -, h⟩ := bind_eq_ok.mp h
  obtain ⟨db₁, h₁, h⟩ := bind_eq_ok.mp h
  obtain ⟨-, rfl⟩ := Prod.mk.inj (pure_eq_ok.mp h)
  refine .single ?_
  split
  · exact .of_updateIssue hwf h₁ ⟨rfl, rfl, rfl⟩ hi (fun _ => rfl) notRejected rfl rfl
      ⟨rfl, rfl, rfl⟩ (fun id => history_issue _ _ _ _) (fun haliases => .same rfl haliases)
  · exact .of_updateIssue hwf h₁ ⟨rfl, rfl, rfl⟩ hi (fun _ => rfl) notRejected rfl rfl
      ⟨rfl, rfl, (List.append_nil _).symm⟩ (fun id => rfl) (fun haliases => .same rfl haliases)

theorem Issue.active_iff : i.active = true ↔ i.mergedInto = none ∧ i.state ≠ .rejected := by
  simp [Issue.active]

theorem recordGithubReportsLink_changes {issueId : IssueId} {githubIssueId : Option ℤ}
    {fieldId : ℤ} {link : String} (hwf : db.Wf)
    (h : db.recordGithubReportsLink issueId githubIssueId fieldId link = .ok db') :
    Changes may db db' := by
  unfold Database.recordGithubReportsLink at h
  dsimp only at h
  obtain ⟨u, hany, h⟩ := bind_eq_ok.mp h
  rw [ensure_eq_ok, List.any_eq_true] at hany
  obtain ⟨i, hi, hp⟩ := hany
  have hactive : i.id = issueId ∧ i.state ≠ .rejected := by
    simp only [Bool.and_eq_true, decide_eq_true_eq] at hp
    exact ⟨hp.1.1, (Issue.active_iff.mp hp.2).2⟩
  refine .single (.of_updateIssues hwf h ⟨rfl, rfl, rfl⟩ hi
    (fun j hj => ⟨fun hj' => ?_, fun hji => ?_⟩)
    (fun _ => rfl) hactive.2 rfl (hwf.tracking i hi hactive.2)
    ⟨rfl, rfl, (List.append_nil _).symm⟩ (fun id => rfl) (fun haliases => .same rfl haliases))
  · simp only [Bool.and_eq_true, decide_eq_true_eq] at hj'
    exact Rows.eq_of_key hwf.issueIds hj hi (hj'.1.1.trans hactive.1.symm)
  · rw [hji]; exact hp

/-! ## Replacing the GitHub issue -/

theorem insertAlias_eq_ok {a : GithubAlias} (h : db.insertAlias a = .ok db') :
    db' = { db with aliases := db.aliases ++ [a] } := by
  unfold Database.insertAlias at h
  obtain ⟨u, -, h⟩ := bind_eq_ok.mp h
  exact (pure_eq_ok.mp h).symm

theorem identity_of_eqIgnoreAsciiCase {a b : String} {m n : ℤ} :
    GithubIdentity.of a m = .of b n ↔ eqIgnoreAsciiCase a b = true ∧ m = n := by
  unfold GithubIdentity.of eqIgnoreAsciiCase
  simp

/-- Where no alias of an issue that is not rejected matches, none is of a GitHub issue. -/
theorem matchingAliases_eq_nil {githubId : ℤ} {repository : String} {number : ℤ} {a : GithubAlias}
    (h : db.matchingAliases githubId repository number = []) (ha : a ∈ db.aliases)
    (hi : i ∈ db.issues) (hstate : i.state ≠ .rejected) (hid : a.issueId = i.id) :
    a.identity ≠ .of repository number := by
  intro hidentity
  have hmem : i ∈ db.matchingAliases githubId repository number := by
    unfold Database.matchingAliases
    refine List.mem_flatMap.mpr ⟨a, List.mem_filter.mpr ⟨ha, ?_⟩, List.mem_filter.mpr ⟨hi, ?_⟩⟩
    · unfold GithubAlias.matchesGithub
      rw [decide_eq_true hidentity, Bool.true_or]
    · simp [hid, hstate]
  rw [h] at hmem
  cases hmem

theorem replaceGithubIssue_changes {issueId : IssueId} {repository : String}
    {replacement : GithubIssue} {actor : ℤ} {now : Timestamp} (hwf : db.Wf)
    (h : db.replaceGithubIssue issueId repository replacement actor now = .ok db') :
    Changes may db db' := by
  unfold Database.replaceGithubIssue at h
  obtain ⟨u, -, h⟩ := bind_eq_ok.mp h
  obtain ⟨v, -, h⟩ := bind_eq_ok.mp h
  obtain ⟨i, hi, h⟩ := bind_eq_ok.mp h
  rw [okOr_eq_ok, Option.filter_eq_some_iff, Issue.active_iff] at hi
  obtain ⟨hfind, -, notRejected⟩ := hi
  obtain ⟨hi, rfl⟩ := (Rows.find?_key_eq_some_iff hwf.issueIds).mp hfind
  obtain ⟨w, -, h⟩ := bind_eq_ok.mp h
  obtain ⟨x, hother, h⟩ := bind_eq_ok.mp h
  obtain ⟨y, huntracked, h⟩ := bind_eq_ok.mp h
  rw [ensure_eq_ok] at hother huntracked
  obtain ⟨db₀, h₀, h⟩ := bind_eq_ok.mp h
  obtain rfl := insertAlias_eq_ok h₀
  obtain ⟨db₁, h₁, h⟩ := bind_eq_ok.mp h
  obtain rfl := pure_eq_ok.mp h
  simp only [Bool.not_eq_true', Bool.or_eq_false_iff, decide_eq_false_iff_not, ne_eq,
    not_not] at huntracked
  refine .single (.of_updateIssue hwf h₁ ⟨rfl, rfl, rfl⟩ hi (fun _ => rfl) notRejected rfl ?_
    ⟨rfl, rfl, rfl⟩ (fun id => history_issue _ _ _ _)
    (fun haliases => .replaced _ haliases rfl rfl ?_))
  · cases hstate : replacement.state <;> rfl
  · rintro j hj hjstate (hcurrent | ⟨a, ha, hid, hidentity⟩)
    · by_cases hji : j.id = i.id
      · rw [Rows.eq_of_key hwf.issueIds hj hi hji] at hcurrent
        obtain ⟨hrepository, hnumber⟩ := identity_of_eqIgnoreAsciiCase.mp hcurrent
        simp [hrepository, hnumber] at hother
      · have hnone := List.any_eq_false.mp huntracked.1 j hj
        have hcurrent' : j.identity = .of repository replacement.number := hcurrent
        simp [hji, Issue.matchesGithub, hjstate, hcurrent'] at hnone
    · exact matchingAliases_eq_nil huntracked.2 ha hj hjstate hid hidentity

/-! ## Creating an issue -/

theorem insertIssue_eq_ok (h : db.insertIssue i = .ok db') :
    (∀ j ∈ db.issues, j.id ≠ i.id) ∧ db' = { db with issues := db.issues ++ [i] } := by
  unfold Database.insertIssue at h
  obtain ⟨u, hcheck, h⟩ := bind_eq_ok.mp h
  refine ⟨?_, (pure_eq_ok.mp h).symm⟩
  simpa using check_eq_ok hcheck _ List.mem_cons_self

theorem isTracked_of_tracks {identity : GithubIdentity} (hi : i ∈ db.issues)
    (hstate : i.state ≠ .rejected) (h : i.Tracks db.aliases identity) :
    db.isTracked identity = true := by
  refine List.any_eq_true.mpr ⟨i, hi, ?_⟩
  rcases h with h | ⟨a, ha, hid, hidentity⟩
  · simp [hstate, h]
  · have hany : (db.aliases.any fun a => a.issueId = i.id && a.identity = identity) = true :=
      List.any_eq_true.mpr ⟨a, ha, by simp [hid, hidentity]⟩
    simp [hstate, hany]

/-- An issue is inserted, and an event of it is written. -/
theorem insertIssue_change {actor : Option ℤ} {details : AuditDetails} (hwf : db.Wf)
    (h : db.insertIssue i = .ok db₁) (hmerged : i.mergedInto = none)
    (htracking : i.state = .tracking i.githubState)
    (hagain : db.isTracked i.identity = true → may .again) :
    Change may db (db₁.audit actor (.issue i.id) details) ∧
      i ∈ (db₁.audit actor (.issue i.id) details).issues := by
  obtain ⟨hfresh, rfl⟩ := insertIssue_eq_ok h
  refine ⟨⟨.create i hfresh hmerged htracking
    (fun j hj hstate htracks => hagain (isTracked_of_tracks hj hstate htracks)) rfl rfl rfl,
    .of_append [⟨actor, .issue i.id, details, db.clock⟩] rfl (fun id _ => history_issue _ _ _ _)
      (.inr fun r hr r' hr' hid => ?_)⟩, List.mem_append_right _ (List.mem_singleton_self i)⟩
  rw [history_issue, replay_nil, Rows.eq_of_key hwf.reportIds hr' hr hid]

/-! ## Rejecting an issue -/

theorem IssueState.reportState_inactive {s : ReportState} (h : s = .triage ∨ s = .rejected) :
    ¬ (s = .confirmed ∨ s = .resolved) := by
  rcases h with rfl | rfl <;> decide

/-- A report whose issue keeps its state has nothing to follow. -/
theorem Report.Settled.follow_eq {issues issues' : List Issue} {r : Report} (h : r.Settled issues)
    (hissues : ∀ i ∈ issues, r.issueId = some i.id → i.mergedInto = none →
      issueState? issues' i.id = some i.state) :
    r.followIssueStateOnReport issues' = r := by
  cases hd : r.issueId with
  | none => exact followIssueStateOnReport_of_unlinked r _ hd
  | some d =>
    obtain ⟨i, hi, rfl, hmerged, hcalls⟩ := h.linked d hd
    by_cases hs : r.state = .confirmed ∨ r.state = .resolved
    · have hne : r.state ≠ .rejected := by rcases hs with hs | hs <;> rw [hs] <;> decide
      rw [followIssueStateOnReport_of_linked r _ hd hs, hissues i hi hd hmerged, ← hcalls hne, ← hd,
        put_self]
    · exact followIssueStateOnReport_of_inactive r _ hs

/-- What becomes of a report of a rejected issue does not depend on its state. -/
theorem ofRejected_follow {issues : List Issue} {r : Report} {id : IssueId}
    {action : IssueReportAction}
    (h : r.issueId = some id ∨ r.followIssueStateOnReport issues = r) :
    (r.followIssueStateOnReport issues).ofRejected id action = r.ofRejected id action := by
  rcases h with h | h
  · obtain ⟨s, hs⟩ := followIssueStateOnReport_eq r issues
    unfold Report.ofRejected
    rw [followIssueStateOnReport_issueId, if_pos h, if_pos h, hs]
    cases action <;> rfl
  · rw [h]

@[simp] theorem ofRejected_id {r : Report} {id : IssueId} {action : IssueReportAction} :
    (r.ofRejected id action).id = r.id := by
  unfold Report.ofRejected
  split
  · cases action <;> rfl
  · rfl

/-- The reports of a rejected issue, with the events of those that change. -/
theorem settleReportsOfRejected_eq_ok {id : IssueId} {actor : ℤ} {action : IssueReportAction}
    {count : ℕ} (hids : (db.reports.map (·.id)).Nodup)
    (hfix : ∀ r ∈ db.reports, r.fix.Complete ∨ r.fix = .null)
    (h : db.settleReportsOfRejected id actor action = .ok (count, db')) :
    ∃ events, db' = { db with
        reports := db.reports.map (·.ofRejected id action)
        events := db.events ++ events } ∧
      Tells events db.reports (·.ofRejected id action) := by
  unfold Database.settleReportsOfRejected at h
  dsimp only at h
  obtain ⟨db₁, h₁, h⟩ := bind_eq_ok.mp h
  obtain ⟨-, rfl⟩ := Prod.mk.inj (pure_eq_ok.mp h)
  rw [Database.updateReports_eq_ok h₁]
  have hrow : ∀ r ∈ db.reports, (if (r.issueId = some id : Bool) then
      ({ r with
        issueId := if action = .reject then r.issueId else none
        state := if action = .reject then .rejected else .triage } : Report).settle db.issues
      else r) = r.ofRejected id action := by
    intro r hr
    unfold Report.ofRejected
    by_cases hd : r.issueId = some id
    · rw [if_pos (by simpa using hd), if_pos hd]
      cases action with
      | reject => rw [← hd]; exact settle_put_inactive _ r (.inr rfl) (hfix r hr)
      | unlink => exact settle_put_inactive _ r (.inl rfl) (hfix r hr)
    · rw [if_neg (by simpa using hd), if_neg hd]
  rw [List.map_congr_left hrow, List.filter_filter]
  cases action with
  | reject =>
    refine ⟨_, rfl, fun _ hid => history_selected_of_not_mem hid _ _ _ _, fun r hr => ?_⟩
    rw [history_selected hids hr]
    unfold Report.ofRejected
    by_cases hd : r.issueId = some id <;> by_cases hs : r.state = .rejected <;>
      simp [AuditDetails.toEntry, replay_cons, HistoryEntry.apply, Report.standing, hd, hs]
  | unlink =>
    refine ⟨_, by
      rw [if_neg (by decide), Database.auditReports, Database.auditReports, List.append_assoc],
      fun id' hid => ?_, fun r hr => ?_⟩
    · rw [history_append, history_selected_of_not_mem hid, history_selected_of_not_mem hid]
      rfl
    · rw [history_append, history_selected hids hr, history_selected hids hr]
      unfold Report.ofRejected
      by_cases hd : r.issueId = some id <;> by_cases hs : r.state = .triage <;>
        simp [AuditDetails.toEntry, replay_cons, HistoryEntry.apply, Report.standing, hd, hs]

/-- The issue and then its merged sources. -/
theorem rejectAll_eq {issues : List Issue} {id : IssueId} :
    (issues.map fun j => if (j.id = id : Bool) then { j with state := .rejected } else j).map
        (fun j : Issue => if (j.id ∈ mergedSources issues id && j.state ≠ .rejected : Bool)
          then { j with state := .rejected } else j) = rejectAll issues id := by
  rw [List.map_map]
  refine List.map_congr_left fun j _ => ?_
  by_cases hid : j.id = id
  · simp [hid]
  · by_cases hs : j.state = .rejected
    · obtain ⟨⟩ := j
      simp_all
    · simp [hid, hs]

theorem mergedSources_map {issues : List Issue} {f : Issue → Issue} {id : IssueId}
    (hid : ∀ i, (f i).id = i.id) (hmerged : ∀ i, (f i).mergedInto = i.mergedInto) :
    mergedSources (issues.map f) id = mergedSources issues id := by
  unfold mergedSources
  rw [List.length_map]
  congr 1
  funext id
  rw [List.filter_map, List.map_map]
  simp only [Function.comp_def, hid, hmerged]

/-- A report that is not on an issue has nothing to follow when the others stay. -/
theorem linked_or_follow_eq {issues : List Issue} {id : IssueId} (hwf : db.Wf)
    (hids : (issues.map (·.id)).Nodup)
    (hstay : ∀ j ∈ db.issues, j.id ≠ id → j.mergedInto = none → j ∈ issues) {r : Report}
    (hr : r ∈ db.reports) : r.issueId = some id ∨ r.followIssueStateOnReport issues = r := by
  by_cases hd : r.issueId = some id
  · exact .inl hd
  · refine .inr ((hwf.settled r hr).follow_eq fun j hj hlink hmerged => ?_)
    exact issueState?_of_mem hids (hstay j hj (fun hc => hd (hc ▸ hlink)) hmerged)

theorem rejectIssue_change {issueId : IssueId} {actor : ℤ} {action : IssueReportAction} {count : ℕ}
    (hmay : may .override) (hwf : db.Wf)
    (h : db.rejectIssue issueId actor action = .ok (count, db')) : Change may db db' := by
  unfold Database.rejectIssue at h
  obtain ⟨i, hfind, h⟩ := bind_eq_ok.mp h
  rw [okOr_eq_ok, Option.filter_eq_some_iff] at hfind
  obtain ⟨hi, rfl⟩ := (Rows.find?_key_eq_some_iff hwf.issueIds).mp hfind.1
  obtain ⟨db₁, h₁, h⟩ := bind_eq_ok.mp h
  obtain ⟨issues₁, events₁, hissues₁, rfl, htells₁, -⟩ :=
    Database.updateIssues_eq_ok hwf.reportIds hwf.issueIds (by exact fun _ => rfl) hwf.settled h₁
  dsimp only at h
  obtain ⟨db₂, h₂, h⟩ := bind_eq_ok.mp h
  have hids₁ : (issues₁.map (·.id)).Nodup := by
    rw [hissues₁, Rows.map_key fun j _ => by split <;> rfl]
    exact hwf.issueIds
  have hsources : mergedSources issues₁ i.id = mergedSources db.issues i.id := by
    rw [hissues₁]
    exact mergedSources_map (fun j => by split <;> rfl) fun j => by split <;> rfl
  have hsettled₁ : ∀ r ∈ db.reports.map (·.followIssueStateOnReport issues₁),
      r.Settled issues₁ := by
    intro s hs
    obtain ⟨r, hr, rfl⟩ := List.mem_map.mp hs
    refine (hwf.settled r hr).follow hids₁ fun j hj _ hmerged => ?_
    rw [hissues₁]
    exact ⟨_, List.mem_map_of_mem hj, by split <;> rfl, by split <;> exact hmerged⟩
  have hkey₁ : ∀ r ∈ db.reports, (r.followIssueStateOnReport issues₁).id = r.id :=
    fun r _ => followIssueStateOnReport_id r _
  obtain ⟨issues₂, events₂, hissues₂, rfl, htells₂, -⟩ :=
    Database.updateIssues_eq_ok (by rw [Rows.map_key hkey₁]; exact hwf.reportIds) hids₁
      (by exact fun _ => rfl) hsettled₁ h₂
  obtain ⟨⟨count', db₃⟩, h₃, h⟩ := bind_eq_ok.mp h
  obtain ⟨details, rfl⟩ : ∃ details, db' = db₃.audit (some actor) (.issue i.id) details :=
    ⟨_, (Prod.mk.inj (pure_eq_ok.mp h)).2.symm⟩
  have hissues : issues₂ = rejectAll db.issues i.id := by
    rw [hissues₂, hsources, hissues₁]
    exact rejectAll_eq
  have hids₂ : (issues₂.map (·.id)).Nodup := by
    rw [hissues₂, Rows.map_key fun j _ => by split <;> rfl]
    exact hids₁
  have hkey₂ : ∀ r ∈ db.reports.map (·.followIssueStateOnReport issues₁),
      (r.followIssueStateOnReport issues₂).id = r.id := fun r _ => followIssueStateOnReport_id r _
  have hfix : ∀ r ∈ (db.reports.map (·.followIssueStateOnReport issues₁)).map
      (·.followIssueStateOnReport issues₂), r.fix.Complete ∨ r.fix = .null := by
    intro r hr
    obtain ⟨s, hs, rfl⟩ := List.mem_map.mp hr
    rw [followIssueStateOnReport_fix]
    exact (hsettled₁ s hs).fixOrNull
  obtain ⟨events₃, rfl, htells₃⟩ := settleReportsOfRejected_eq_ok
    (by rw [Rows.map_key hkey₂, Rows.map_key hkey₁]; exact hwf.reportIds) hfix h₃
  have hstay₁ : ∀ j ∈ db.issues, j.id ≠ i.id → j.mergedInto = none → j ∈ issues₁ :=
    fun j hj hne _ => mem_of_not_updated hissues₁ hj (by simpa using hne)
  have hstay₂ : ∀ j ∈ db.issues, j.id ≠ i.id → j.mergedInto = none → j ∈ issues₂ := by
    intro j hj hne hmerged
    rw [hissues]
    refine List.mem_map.mpr ⟨j, hj, if_neg ?_⟩
    exact not_or.mpr ⟨hne, not_mem_mergedSources hwf.issueIds hwf.forest hj hmerged⟩
  -- What the two updates make of the state of a report of the issue is overwritten.
  have hrow : ∀ r ∈ db.reports, ((r.followIssueStateOnReport issues₁).followIssueStateOnReport
      issues₂).ofRejected i.id action = r.ofRejected i.id action := by
    intro r hr
    have hkeep₁ := linked_or_follow_eq hwf hids₁ hstay₁ hr
    rw [ofRejected_follow, ofRejected_follow hkeep₁]
    rcases hkeep₁ with hd | hsame
    · exact .inl ((followIssueStateOnReport_issueId r _).trans hd)
    · rw [hsame]; exact linked_or_follow_eq hwf hids₂ hstay₂ hr
  have htells : Tells (events₁ ++ (events₂ ++ events₃)) db.reports (·.ofRejected i.id action) :=
    (htells₁.append (htells₂.append htells₃ hkey₂) hkey₁).congr fun r hr =>
      congrArg Report.standing (hrow r hr).symm
  have hreports : ((db.reports.map (·.followIssueStateOnReport issues₁)).map
      (·.followIssueStateOnReport issues₂)).map (·.ofRejected i.id action) =
      db.reports.map (·.ofRejected i.id action) := by
    rw [List.map_map, List.map_map]
    exact List.map_congr_left hrow
  refine ⟨.reject i hi action hmay hreports hissues rfl, .of_tells hwf (fun _ _ => ofRejected_id)
    (htells.append_silent fun id => history_issue (some actor) i.id details db.clock) hreports ?_⟩
  simp only [Database.audit, List.append_assoc]

/-! ## Lookups through merges -/

theorem mem_mergeChain {issues : List Issue} {through : Issue → Bool} {steps depth : ℕ}
    {row : Issue × ℕ} (hi : i ∈ issues) (h : row ∈ mergeChain issues through steps depth i) :
    row.1 ∈ issues := by
  induction steps generalizing depth i with
  | zero =>
    rw [List.mem_singleton.mp h]
    exact hi
  | succ steps ih =>
    rcases List.mem_cons.mp h with rfl | h
    · exact hi
    · split at h
      · rename_i next hnext
        obtain ⟨d, -, hfind⟩ := Option.bind_eq_some_iff.mp hnext
        split at h
        · exact ih (List.mem_of_find?_eq_some hfind) h
        · cases h
      · cases h

theorem deepestRoot?_eq_some {chain : List (Issue × ℕ)} {plan : ℕ} {id : IssueId}
    (h : deepestRoot? chain plan = some id) :
    ∃ row ∈ chain, row.1.id = id ∧ row.1.mergedInto = none := by
  unfold deepestRoot? at h
  obtain ⟨row, hrow, rfl⟩ := Option.map_eq_some_iff.mp h
  have hmem := List.mem_of_mem_filter (mem_of_choose hrow)
  rw [List.mem_filter, Option.isNone_iff_eq_none] at hmem
  exact ⟨row, hmem.1, rfl, hmem.2⟩

theorem mem_matchingAliases {githubId : ℤ} {repository : String} {number : ℤ}
    (h : i ∈ db.matchingAliases githubId repository number) :
    i ∈ db.issues ∧ i.state ≠ .rejected ∧
      ∃ a ∈ db.aliases, a.issueId = i.id ∧ a.matchesGithub githubId repository number = true := by
  unfold Database.matchingAliases at h
  obtain ⟨a, ha, hi⟩ := List.mem_flatMap.mp h
  rw [List.mem_filter] at ha hi
  simp only [Bool.and_eq_true, decide_eq_true_eq] at hi
  exact ⟨hi.1, hi.2.2, a, ha.1, hi.2.1.symm, ha.2⟩

theorem trackedIssue?_eq_some {issue : GithubIssue} {repository : String} {plan : ℕ} {id : IssueId}
    (h : db.trackedIssue? issue repository plan = some id) :
    ∃ i ∈ db.issues, i.id = id ∧ i.mergedInto = none := by
  obtain ⟨row, hrow, hid, hmerged⟩ := deepestRoot?_eq_some h
  obtain ⟨i, hi, hrow⟩ := List.mem_flatMap.mp hrow
  refine ⟨row.1, mem_mergeChain ?_ hrow, hid, hmerged⟩
  rcases List.mem_append.mp hi with hi | hi
  · exact List.mem_of_mem_filter hi
  · exact (mem_matchingAliases hi).1

theorem linkToGithubIssue_changes {issue : GithubIssue} {reportIds : List ReportId}
    {repository : String} {actor : ℤ} {newId : IssueId} {plan : ℕ} {result : IssueId × Bool}
    (hmay : may .override)
    (hagain : db.trackedIssue? issue repository plan = none →
      db.isTracked (.of repository issue.number) = true → may .again)
    (hwf : db.Wf)
    (h : db.linkToGithubIssue issue reportIds repository actor newId plan = .ok (result, db')) :
    Changes may db db' := by
  unfold Database.linkToGithubIssue at h
  split at h
  · rename_i issueId hissue
    obtain ⟨u, hopen, h⟩ := bind_eq_ok.mp h
    obtain ⟨db₁, h₁, h⟩ := bind_eq_ok.mp h
    obtain ⟨-, rfl⟩ := Prod.mk.inj (pure_eq_ok.mp h)
    obtain ⟨i, hi, rfl, hmerged⟩ := trackedIssue?_eq_some hissue
    rw [ensure_eq_ok, List.any_eq_true] at hopen
    obtain ⟨j, hj, hp⟩ := hopen
    simp only [Bool.and_eq_true, decide_eq_true_eq] at hp
    rw [Rows.eq_of_key hwf.issueIds hj hi hp.1.1.1] at hp
    exact (linkReports_changes hmay hwf hi ⟨hmerged, hp.1.1.2⟩ h₁).1
  · rename_i hnone
    obtain ⟨db₁, h₁, h⟩ := bind_eq_ok.mp h
    obtain ⟨db₂, h₂, h⟩ := bind_eq_ok.mp h
    obtain ⟨-, rfl⟩ := Prod.mk.inj (pure_eq_ok.mp h)
    unfold Database.createIssue at h₁
    obtain ⟨db₀, h₀, h₁⟩ := bind_eq_ok.mp h₁
    obtain rfl := pure_eq_ok.mp h₁
    obtain ⟨hcreate, hmem⟩ := insertIssue_change hwf h₀ rfl rfl (hagain hnone)
    exact .trans (.single hcreate)
      (linkReports_changes hmay (hcreate.wf hwf) hmem ⟨rfl, fun hc => by cases hc⟩ h₂).1

end

end LadybirdReports.Admin
