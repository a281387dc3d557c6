import LadybirdReports.Admin.IssueChanges

/-!
# Changes when a duplicate is merged

What finishing a job amounts to: the destination is found or created and follows GitHub, the reports
of the source move to it, and the source is marked as merged. The destination is neither merged nor
rejected, since it is the root of an issue that is not rejected.
-/

namespace LadybirdReports.Admin

open Forest Rust

section

variable {may : Cause → Prop} {db db' : Database} {i : Issue} {issues : List Issue}

/-! ## Jobs -/

theorem Change.of_jobs (jobs : List DuplicateJob) (hwf : db.Wf) :
    Change may db { db with jobs := jobs } :=
  .of_same [] hwf rfl rfl rfl (List.append_nil _).symm fun _ => rfl

theorem claimGithubDuplicate_changes {leaseId : LeaseId} {now : Timestamp} {plan : ℕ}
    (hwf : db.Wf) : Changes may db (db.claimGithubDuplicate leaseId now plan).2 := by
  unfold Database.claimGithubDuplicate
  dsimp only
  split
  · exact .refl
  · exact .single (.of_jobs _ hwf)

theorem retryGithubDuplicate_changes {job : GithubDuplicateJob} {now : Timestamp} (hwf : db.Wf) :
    Changes may db (db.retryGithubDuplicate job now) :=
  .single (.of_jobs _ hwf)

/-! ## The destination -/

/-- A row of the chain that is merged into none is the root of where the chain starts. -/
theorem mergeChain_rootOf {through : Issue → Bool} {steps depth : ℕ} {row : Issue × ℕ}
    (hids : (issues.map (·.id)).Nodup) (hi : i ∈ issues)
    (h : row ∈ mergeChain issues through steps depth i) (hroot : row.1.mergedInto = none) :
    RootOf (mergedInto? issues) i.id row.1.id := by
  induction steps generalizing depth i with
  | zero =>
    obtain rfl := List.mem_singleton.mp h
    exact .here ((mergedInto?_of_mem hids hi).trans hroot)
  | succ steps ih =>
    rcases List.mem_cons.mp h with rfl | h
    · exact .here ((mergedInto?_of_mem hids hi).trans hroot)
    · split at h
      · rename_i next hnext
        obtain ⟨d, hd, hfind⟩ := Option.bind_eq_some_iff.mp hnext
        obtain ⟨hmem, rfl⟩ := (Rows.find?_key_eq_some_iff hids).mp hfind
        split at h
        · exact .up ((mergedInto?_of_mem hids hi).trans hd) (ih hmem h)
        · cases h
      · cases h

/-- The root of an issue that is not rejected is not rejected. -/
theorem Database.Wf.root_not_rejected {d : Issue} (hwf : db.Wf) (hi : i ∈ db.issues)
    (hd : d ∈ db.issues) (hroot : RootOf (mergedInto? db.issues) i.id d.id)
    (hstate : i.state ≠ .rejected) : d.state ≠ .rejected := by
  have hnot := hroot.not_of_not (P := fun id => ∃ j ∈ db.issues, j.id = id ∧ j.state = .rejected)
    (fun a b hab hb => ?_) ?_
  · exact fun hc => hnot ⟨d, hd, rfl, hc⟩
  · obtain ⟨j, hj, rfl, hmerged⟩ := mergedInto?_eq_some hab
    obtain ⟨k, hk, rfl, hrejected⟩ := hb
    exact ⟨j, hj, rfl, hwf.rejected j hj k hk hmerged hrejected⟩
  · rintro ⟨j, hj, hid, hrejected⟩
    exact hstate (Rows.eq_of_key hwf.issueIds hj hi hid ▸ hrejected)

theorem destination?_eq_some {repository : String} {issue : GithubIssue} {plan : ℕ} {id : IssueId}
    (hwf : db.Wf) (h : db.destination? repository issue plan = some id) :
    ∃ d ∈ db.issues, d.id = id ∧ d.mergedInto = none ∧ d.state ≠ .rejected := by
  obtain ⟨row, hrow, rfl, hmerged⟩ := deepestRoot?_eq_some h
  obtain ⟨base, hbase, hrow⟩ := List.mem_flatMap.mp hrow
  rw [List.mem_filter] at hbase
  have hmatches := hbase.2
  simp only [Issue.matchesGithub, Bool.and_eq_true, decide_eq_true_eq] at hmatches
  have hd := mem_mergeChain hbase.1 hrow
  exact ⟨row.1, hd, rfl, hmerged, hwf.root_not_rejected hbase.1 hd
    (mergeChain_rootOf hwf.issueIds hbase.1 hrow hmerged) hmatches.1⟩

/-- Every report stays, on the issue it is on, and no event says otherwise. -/
structure KeepsLinks (db db' : Database) : Prop where
  reports : ∃ g : Report → Report, db'.reports = db.reports.map g ∧
    ∀ r, (g r).id = r.id ∧ (g r).issueId = r.issueId
  events : ∃ events, db'.events = db.events ++ events ∧ MovesNone events

theorem KeepsLinks.of_updateIssues {p : Issue → Bool} {set : Issue → Issue} (hwf : db.Wf)
    (hset : ∀ j, (set j).id = j.id) (h : db.updateIssues p set = .ok db') : KeepsLinks db db' := by
  obtain ⟨issues, events, -, rfl, -, hnone, -⟩ :=
    Database.updateIssues_eq_ok hwf.reportIds hwf.issueIds hset hwf.settled h
  exact ⟨⟨_, rfl, fun r => ⟨followIssueStateOnReport_id r _, followIssueStateOnReport_issueId r _⟩⟩,
    events, rfl, hnone⟩

theorem KeepsLinks.of_same {events : List AuditEvent} (hreports : db'.reports = db.reports)
    (hevents : db'.events = db.events ++ events) (hsilent : ∀ id, history events id = []) :
    KeepsLinks db db' :=
  ⟨⟨id, by rw [hreports, List.map_id], fun _ => ⟨rfl, rfl⟩⟩, events, hevents, .of_silent hsilent⟩

/-- The destination is there, with the state it is to have, and nothing that is not of it has
changed. -/
structure Prepared (may : Cause → Prop) (db : Database) (id : IssueId) (state : IssueState)
    (db' : Database) : Prop where
  changes : Changes may db db'
  links : KeepsLinks db db'
  destination : ∃ d ∈ db'.issues, d.id = id ∧ d.mergedInto = none ∧ d.state ≠ .rejected ∧
    d.state = state
  issues : ∀ j ∈ db.issues, j.id ≠ id → j ∈ db'.issues
  reports : ∀ r ∈ db'.reports, r.issueId ≠ some id → r ∈ db.reports

/-- An update of issues that are not there. -/
theorem Change.of_updateIssues_none {p : Issue → Bool} {set : Issue → Issue} (hwf : db.Wf)
    (hp : ∀ j ∈ db.issues, p j = false) (hset : ∀ j, (set j).id = j.id)
    (h : db.updateIssues p set = .ok db') :
    Change may db db' ∧ db'.issues = db.issues ∧ db'.reports = db.reports := by
  obtain ⟨issues, events, hissues, rfl, htells, -⟩ :=
    Database.updateIssues_eq_ok hwf.reportIds hwf.issueIds hset hwf.settled h
  have hsame : issues = db.issues := by
    rw [hissues]
    exact (List.map_congr_left fun j hj => if_neg (by simp [hp j hj])).trans (List.map_id' _)
  have hfollow : ∀ r ∈ db.reports, r.followIssueStateOnReport issues = r := fun r hr =>
    (hwf.settled r hr).follow_eq fun j hj _ _ => by
      rw [hsame]; exact issueState?_of_mem hwf.issueIds hj
  have hreports : db.reports.map (·.followIssueStateOnReport issues) = db.reports :=
    (List.map_congr_left hfollow).trans (List.map_id' _)
  exact ⟨.of_move hwf (fun r hr => by rw [hfollow r hr]; exact .keep) htells rfl hsame rfl rfl,
    hsame, hreports⟩

theorem updateDestination_prepared {repository : String} {issue : GithubIssue} {now : Timestamp}
    {d : Issue} (hwf : db.Wf) (hd : d ∈ db.issues)
    (hactive : d.mergedInto = none ∧ d.state ≠ .rejected)
    (hforget : Database.takesCanonical d issue = true →
      d.identity ≠ .of repository issue.number → may .forget)
    (h : db.updateDestination d.id repository issue now = .ok db') :
    Prepared may db d.id (if Database.takesCanonical d issue
      then .tracking issue.state.linkState else d.state) db' := by
  unfold Database.updateDestination at h
  by_cases htakes : Database.takesCanonical d issue = true
  · obtain ⟨issues, events, hissues, hdb', -, -⟩ := Database.updateIssues_eq_ok hwf.reportIds
      hwf.issueIds (by exact fun _ => rfl) hwf.settled h
    have hids : (issues.map (·.id)).Nodup := by
      rw [hissues, Rows.map_key fun j _ => by split <;> rfl]
      exact hwf.issueIds
    have hstay : ∀ j ∈ db.issues, j.id ≠ d.id → j ∈ issues := fun j hj hne =>
      mem_of_not_updated hissues hj (by simp [hne])
    have hstate : (if issue.state = .closed then IssueState.resolved else .unresolved) =
        .tracking issue.state.linkState := by cases issue.state <;> rfl
    have hp : ∀ j ∈ db.issues, (j.id = d.id && j.githubUpdatedAt.all (· ≤ issue.updatedAt) : Bool) =
        true ↔ j = d := by
      intro j hj
      rw [Bool.and_eq_true, decide_eq_true_eq]
      refine ⟨fun hc => Rows.eq_of_key hwf.issueIds hj hd hc.1, ?_⟩
      rintro rfl
      exact ⟨rfl, htakes⟩
    constructor
    · refine .single (.of_updateIssues hwf h ⟨rfl, rfl, rfl⟩ hd hp (fun _ => rfl) hactive.2 rfl
        hstate ⟨rfl, rfl, (List.append_nil _).symm⟩ (fun _ => rfl) fun haliases => ?_)
      by_cases hidentity : d.identity = .of repository issue.number
      · exact .same hidentity.symm haliases
      · exact .rewritten (hforget htakes hidentity) haliases
    · exact .of_updateIssues hwf (by exact fun _ => rfl) h
    · rw [if_pos htakes, hdb']
      exact ⟨_, mem_updated hissues hd ((hp d hd).mpr rfl), rfl, hactive.1,
        fun hc => IssueState.tracking_ne_rejected _ (hstate.symm.trans hc), hstate⟩
    · rw [hdb']
      exact hstay
    · rw [hdb']
      intro r' hr' hne
      obtain ⟨r, hr, rfl⟩ := List.mem_map.mp hr'
      rw [followIssueStateOnReport_issueId] at hne
      rw [(linked_or_follow_eq hwf hids (fun j hj hji _ => hstay j hj hji) hr).resolve_left hne]
      exact hr
  · have hp : ∀ j ∈ db.issues, (j.id = d.id && j.githubUpdatedAt.all (· ≤ issue.updatedAt) : Bool) =
        false := by
      intro j hj
      by_cases hjd : j.id = d.id
      · rw [Rows.eq_of_key hwf.issueIds hj hd hjd]
        simpa [Database.takesCanonical] using htakes
      · simp [hjd]
    obtain ⟨hchange, hissues, hreports⟩ :=
      Change.of_updateIssues_none hwf hp (by exact fun _ => rfl) h
    rw [if_neg htakes]
    exact ⟨.single hchange, .of_updateIssues hwf (by exact fun _ => rfl) h,
      ⟨d, hissues ▸ hd, rfl, hactive.1, hactive.2, rfl⟩, fun j hj _ => hissues ▸ hj,
      fun r hr _ => hreports ▸ hr⟩

theorem createDestination_prepared {repository : String} {issue : GithubIssue} {newId : IssueId}
    {now : Timestamp} (hwf : db.Wf)
    (hagain : db.isTracked (.of repository issue.number) = true → may .again)
    (h : db.createDestination repository issue newId now = .ok db') :
    Prepared may db newId (.tracking issue.state.linkState) db' ∧
      ∀ j ∈ db.issues, j.id ≠ newId := by
  unfold Database.createDestination at h
  obtain ⟨db₁, h₁, h⟩ := bind_eq_ok.mp h
  obtain rfl := pure_eq_ok.mp h
  obtain ⟨hchange, hmem⟩ := insertIssue_change hwf h₁ rfl rfl hagain
  obtain ⟨hfresh, rfl⟩ := insertIssue_eq_ok h₁
  exact ⟨⟨.single hchange, .of_same rfl rfl fun _ => history_issue _ _ _ _,
    ⟨_, hmem, rfl, rfl, IssueState.tracking_ne_rejected _, rfl⟩,
    fun j hj _ => List.mem_append_left _ hj, fun r hr _ => hr⟩, hfresh⟩

theorem ensureDestination_prepared {source id : IssueId} {repository : String} {issue : GithubIssue}
    {newId : IssueId} {now : Timestamp} {plan : ℕ} (hwf : db.Wf)
    (hsource : ∃ i ∈ db.issues, i.id = source)
    (hforget : db.destinationForgets issue repository plan = true → may .forget)
    (hagain : db.destination? repository issue plan = none →
      db.isTracked (.of repository issue.number) = true → may .again)
    (h : db.ensureDestination source repository issue newId now plan = .ok (id, db')) :
    Prepared may db id (db.destinationState issue repository plan) db' ∧ id ≠ source := by
  unfold Database.ensureDestination at h
  unfold Database.destinationState
  unfold Database.destinationForgets at hforget
  split at h
  · rename_i issueId hid
    obtain ⟨u, hne, h⟩ := bind_eq_ok.mp h
    rw [ensure_eq_ok, decide_eq_true_eq] at hne
    obtain ⟨db₁, h₁, h⟩ := bind_eq_ok.mp h
    obtain ⟨rfl, rfl⟩ := Prod.mk.inj (pure_eq_ok.mp h)
    obtain ⟨d, hd, rfl, hactive⟩ := destination?_eq_some hwf hid
    have hfind : db.findIssue? d.id = some d := Rows.find?_key hwf.issueIds hd
    rw [hid, Option.bind_some, hfind] at hforget ⊢
    refine ⟨updateDestination_prepared hwf hd hactive (fun htakes hother => hforget ?_) h₁, hne⟩
    simp [htakes, hother]
  · rename_i hnone
    obtain ⟨db₁, h₁, h⟩ := bind_eq_ok.mp h
    obtain ⟨rfl, rfl⟩ := Prod.mk.inj (pure_eq_ok.mp h)
    obtain ⟨hprepared, hfresh⟩ := createDestination_prepared hwf (hagain hnone) h₁
    rw [hnone, Option.bind_none]
    obtain ⟨i, hi, rfl⟩ := hsource
    exact ⟨hprepared, (hfresh i hi).symm⟩

/-! ## The merge -/

/-- A report of the source goes to the destination. -/
def Report.moved (r : Report) (source : IssueId) (destination : Issue) : Report :=
  if r.issueId = some source
  then r.put (some destination.id) (IssueState.reportState (some destination.state)) .null else r

@[simp] theorem moved_id {r : Report} {source : IssueId} {d : Issue} :
    (r.moved source d).id = r.id := by
  unfold Report.moved
  split <;> rfl

/-- The reports of the source, with one event for each. -/
theorem moveReports_eq_ok {source : IssueId} {d : Issue} (hwf : db.Wf) (hd : d ∈ db.issues)
    (h : db.moveReports source d.id = .ok db') :
    db' = { db with
      reports := db.reports.map (·.moved source d)
      events := db.events ++ (db.reports.filter (·.issueId = some source)).map fun r =>
        ⟨none, .report r.id, .reportUpdateIssue (some source) (some d.id) none none,
          db.clock⟩ } := by
  unfold Database.moveReports at h
  dsimp only at h
  obtain ⟨db₁, h₁, h⟩ := bind_eq_ok.mp h
  obtain rfl := pure_eq_ok.mp h
  rw [Database.updateReports_eq_ok h₁]
  have hrow : ∀ r ∈ db.reports, (if (r.issueId = some source : Bool) then
      ({ r with issueId := some d.id, state := .confirmed } : Report).settle db.issues else r) =
      r.moved source d := by
    intro r hr
    unfold Report.moved
    by_cases hlink : r.issueId = some source
    · rw [if_pos (by simpa using hlink), if_pos hlink, ← issueState?_of_mem hwf.issueIds hd]
      exact settle_put_linked db.issues r (.inl rfl) (hwf.settled r hr).fixOrNull
    · rw [if_neg (by simpa using hlink), if_neg hlink]
  rw [List.map_congr_left hrow]
  rfl

theorem moveReports_change {source : IssueId} {d : Issue} (hwf : db.Wf) (hd : d ∈ db.issues)
    (hactive : d.mergedInto = none ∧ d.state ≠ .rejected)
    (hdecided : ∀ r ∈ db.reports, r.issueId = some source → r.state = .rejected → may .override)
    (hstate : ∀ r ∈ db.reports, r.issueId = some source →
      r.state ≠ IssueState.reportState (some d.state) → may .unrecorded)
    (h : db.moveReports source d.id = .ok db') : Change may db db' := by
  rw [moveReports_eq_ok hwf hd h]
  refine ⟨.move (·.moved source d) (fun r hr => ?_) rfl rfl rfl, .of_append _ rfl
    (fun id hid => history_selected_of_not_mem hid _ _ _ _) ?_⟩
  · unfold Report.moved
    split
    · rename_i hlink
      refine .follow d hd hactive.1 (fun hc => absurd hc hactive.2) fun hr' => ?_
      exact hdecided r hr hlink
        (hr'.resolve_right fun hfix => hfix ((hwf.settled r hr).fix_eq_null_of_linked hlink))
    · exact .keep
  · by_cases hall : ∀ r ∈ db.reports, r.issueId = some source →
      r.state = IssueState.reportState (some d.state)
    · refine .inr fun r hr r' hr' hid => ?_
      rw [Rows.eq_update_of_key hwf.reportIds (fun s _ => moved_id) hr hr' hid,
        history_selected hwf.reportIds hr]
      unfold Report.moved
      by_cases hlink : r.issueId = some source
      · simp [hlink, AuditDetails.toEntry, replay_cons, HistoryEntry.apply, Report.standing,
          hall r hr hlink]
      · simp [hlink]
    · push Not at hall
      obtain ⟨r, hr, hlink, hne⟩ := hall
      exact .inl (hstate r hr hlink hne)

/-- The source is marked as merged; the reports have left it. -/
theorem markMerged_change {job : GithubDuplicateJob} {s d : Issue} {now : Timestamp} (hwf : db.Wf)
    (hs : s ∈ db.issues) (hid : s.id = job.sourceIssueId) (hunmerged : s.mergedInto = none)
    (hclosed : s.githubState = .closed) (hrejected : s.state = .rejected → may .unreject)
    (hd : d ∈ db.issues) (hactive : d.mergedInto = none ∧ d.state ≠ .rejected)
    (hother : d.id ≠ s.id) (hempty : ∀ r ∈ db.reports, r.issueId ≠ some s.id)
    (h : db.markMerged job d.id now = .ok db') :
    Change may db db' ∧ KeepsLinks db db' ∧ mergedInto? db'.issues s.id = some d.id := by
  unfold Database.markMerged at h
  obtain ⟨db₁, h₁, h⟩ := bind_eq_ok.mp h
  obtain rfl := pure_eq_ok.mp h
  rw [← hid] at h₁ ⊢
  obtain ⟨issues, events, hissues, rfl, htells, hnone, -⟩ := Database.updateIssues_eq_ok
    hwf.reportIds hwf.issueIds (by exact fun _ => rfl) hwf.settled h₁
  have hids : (issues.map (·.id)).Nodup := by
    rw [hissues, Rows.map_key fun j _ => by split <;> rfl]
    exact hwf.issueIds
  have hfollow : ∀ r ∈ db.reports, r.followIssueStateOnReport issues = r := by
    intro r hr
    refine (linked_or_follow_eq hwf hids (fun j hj hne _ => ?_) hr).resolve_left (hempty r hr)
    exact mem_of_not_updated hissues hj (by simpa using hne)
  have hreports : db.reports.map (·.followIssueStateOnReport issues) = db.reports :=
    (List.map_congr_left hfollow).trans (List.map_id' _)
  let merged : Issue := { s with
    mergedInto := some d.id
    state := .resolved
    resolvedAt := some (s.resolvedAt.getD now) }
  have hrow : issues = replaceIssue merged db.issues := by
    rw [hissues]
    refine List.map_congr_left fun j hj => ?_
    by_cases hji : j.id = s.id
    · rw [Rows.eq_of_key hwf.issueIds hj hs hji, if_pos (by simp), if_pos rfl]
    · rw [if_neg (by simpa using hji), if_neg hji]
  have hsilent : ∀ id, history [⟨none, .issue s.id,
      .issueMerge "github_duplicate" d.id job.number, db.clock⟩] id = [] := fun _ => rfl
  refine ⟨?_, ?_, mergedInto?_of_mem hids (mem_updated hissues hs (by simp))⟩
  · refine ⟨.merge s merged d hs hd hunmerged hclosed hrejected hactive hother hempty rfl rfl rfl
      rfl rfl hreports hrow rfl, .of_tells hwf (fun r _ => followIssueStateOnReport_id r _)
        (htells.append_silent hsilent) rfl ?_⟩
    simp only [Database.audit, List.append_assoc]
  · refine ⟨⟨id, by rw [List.map_id]; exact hreports, fun _ => ⟨rfl, rfl⟩⟩, events ++ _, ?_,
      hnone.append (.of_silent hsilent)⟩
    simp only [Database.audit, List.append_assoc]

/-- The reports of one issue go to another, each with one event, and no other report moves. -/
structure MovesReports (source destination : IssueId) (db db' : Database) : Prop where
  reports : ∃ g : Report → Report, db'.reports = db.reports.map g ∧ ∀ r, (g r).id = r.id ∧
    (g r).issueId = if r.issueId = some source then some destination else r.issueId
  events : ∃ events, db'.events = db.events ++ events ∧ ∀ r ∈ db.reports,
    moves events r.id = if r.issueId = some source then [(some source, some destination)] else []

theorem MovesReports.after {db₁ : Database} {source destination : IssueId}
    (h : MovesReports source destination db₁ db') (hkeeps : KeepsLinks db db₁) :
    MovesReports source destination db db' := by
  obtain ⟨⟨f, hf, hfr⟩, events, hevents, hnone⟩ := hkeeps
  obtain ⟨⟨g, hg, hgr⟩, events', hevents', hmoves⟩ := h
  refine ⟨⟨g ∘ f, by rw [hg, hf, List.map_map], fun r => ⟨(hgr _).1.trans (hfr r).1, ?_⟩⟩,
    events ++ events', by rw [hevents', hevents, List.append_assoc], fun r hr => ?_⟩
  · rw [Function.comp_apply, (hgr _).2, (hfr r).2]
  · have hr' := hmoves (f r) (hf ▸ List.mem_map_of_mem hr)
    rw [(hfr r).1, (hfr r).2] at hr'
    rw [moves_append, hnone, List.nil_append, hr']

theorem MovesReports.before {db₁ : Database} {source destination : IssueId}
    (h : MovesReports source destination db db₁) (hkeeps : KeepsLinks db₁ db') :
    MovesReports source destination db db' := by
  obtain ⟨⟨g, hg, hgr⟩, events, hevents, hmoves⟩ := h
  obtain ⟨⟨f, hf, hfr⟩, events', hevents', hnone⟩ := hkeeps
  refine ⟨⟨f ∘ g, by rw [hf, hg, List.map_map], fun r => ⟨(hfr _).1.trans (hgr r).1, ?_⟩⟩,
    events ++ events', by rw [hevents', hevents, List.append_assoc], fun r hr => ?_⟩
  · rw [Function.comp_apply, (hfr _).2, (hgr r).2]
  · rw [moves_append, hnone, List.append_nil, hmoves r hr]

theorem moveReports_moves {source : IssueId} {d : Issue} (hwf : db.Wf) (hd : d ∈ db.issues)
    (h : db.moveReports source d.id = .ok db') : MovesReports source d.id db db' := by
  rw [moveReports_eq_ok hwf hd h]
  refine ⟨⟨_, rfl, fun r => ⟨moved_id, ?_⟩⟩, _, rfl, fun r hr => ?_⟩
  · unfold Report.moved
    split <;> rfl
  · unfold moves
    rw [history_selected hwf.reportIds hr]
    by_cases hlink : r.issueId = some source
    · rw [if_pos (by simpa using hlink), if_pos hlink]
      rfl
    · rw [if_neg (by simpa using hlink), if_neg hlink]
      rfl

theorem sourceIsCurrent_iff {job : GithubDuplicateJob} (hwf : db.Wf) :
    db.sourceIsCurrent job = true ↔ ∃ s ∈ db.issues, s.id = job.sourceIssueId ∧
      s.githubIssueId = some job.githubIssueId ∧ s.githubState = .closed ∧ s.mergedInto = none := by
  unfold Database.sourceIsCurrent Database.findIssue?
  rw [Option.any_eq_true]
  simp only [Rows.find?_key_eq_some_iff hwf.issueIds, Bool.and_eq_true, decide_eq_true_eq,
    Option.isNone_iff_eq_none, and_assoc]

theorem mergeInto_changes {job : GithubDuplicateJob} {canonical : GithubIssue} {repository : String}
    {newId id : IssueId} {now : Timestamp} {plan : ℕ} (hwf : db.Wf)
    (hcurrent : db.sourceIsCurrent job = true)
    (hunreject : db.sourceIsRejected job = true → may .unreject)
    (hforget : db.destinationForgets canonical repository plan = true → may .forget)
    (hagain : db.destination? repository canonical plan = none →
      db.isTracked (.of repository canonical.number) = true → may .again)
    (hoverride : db.sourceHasRejected job = true → may .override)
    (hunrecorded : db.mergeChangesState job canonical repository plan = true → may .unrecorded)
    (h : db.mergeInto job canonical repository newId now plan = .ok (id, db')) :
    Changes may db db' ∧ MovesReports job.sourceIssueId id db db' ∧
      mergedInto? db'.issues job.sourceIssueId = some id ∧ id ≠ job.sourceIssueId := by
  obtain ⟨s, hs, hid, -, hclosed, hunmerged⟩ := (sourceIsCurrent_iff hwf).mp hcurrent
  have hrejected : s.state = .rejected → may .unreject := by
    intro hc
    refine hunreject ?_
    unfold Database.sourceIsRejected Database.findIssue?
    rw [← hid, Rows.find?_key hwf.issueIds hs]
    simpa using hc
  unfold Database.mergeInto at h
  obtain ⟨u, -, h⟩ := bind_eq_ok.mp h
  obtain ⟨⟨destination, db₁⟩, h₁, h⟩ := bind_eq_ok.mp h
  obtain ⟨db₂, h₂, h⟩ := bind_eq_ok.mp h
  obtain ⟨db₃, h₃, h⟩ := bind_eq_ok.mp h
  obtain ⟨rfl, rfl⟩ := Prod.mk.inj (pure_eq_ok.mp h)
  obtain ⟨⟨hchanges, hlinks, ⟨d, hd, rfl, hmerged, hactive, hstate⟩, hissues, hreports⟩, hne⟩ :=
    ensureDestination_prepared hwf ⟨s, hs, hid⟩ hforget hagain h₁
  have hwf₁ := hchanges.wf hwf
  rw [← hid] at h₂ hne ⊢
  have hother : s.id ≠ d.id := hne.symm
  have hold : ∀ r ∈ db₁.reports, r.issueId = some s.id → r ∈ db.reports := fun r hr hlink =>
    hreports r hr (by rw [hlink]; exact fun hc => hother (Option.some.inj hc))
  have hmove : Change may db₁ db₂ := by
    refine moveReports_change hwf₁ hd ⟨hmerged, hactive⟩ (fun r hr hlink hrejected => hoverride ?_)
      (fun r hr hlink hchanged => hunrecorded ?_) h₂
    · exact List.any_eq_true.mpr ⟨r, hold r hr hlink, by simp [hlink, hid, hrejected]⟩
    · rw [hstate] at hchanged
      exact List.any_eq_true.mpr ⟨r, hold r hr hlink, by simp [hlink, hid, hchanged]⟩
  have hmoves := moveReports_moves hwf₁ hd h₂
  have heq := moveReports_eq_ok hwf₁ hd h₂
  have hissues₂ : db₂.issues = db₁.issues := by rw [heq]
  have hempty : ∀ r ∈ db₂.reports, r.issueId ≠ some s.id := by
    rw [heq]
    intro r' hr'
    obtain ⟨r, -, rfl⟩ := List.mem_map.mp hr'
    unfold Report.moved
    split
    · exact fun hc => hne (Option.some.inj hc)
    · assumption
  obtain ⟨hmark, hkeeps, hinto⟩ := markMerged_change (hmove.wf hwf₁)
    (hissues₂ ▸ hissues s hs hother) hid hunmerged hclosed hrejected (hissues₂ ▸ hd)
    ⟨hmerged, hactive⟩ hne hempty h₃
  exact ⟨.tail (.tail hchanges hmove) hmark, (hmoves.before hkeeps).after hlinks, hinto, hne⟩

theorem mergeOf_eq_some {job : GithubDuplicateJob} {canonical : GithubIssue} {repository : String}
    (hrepository : Database.canonicalRepository canonical = .ok repository)
    (hlease : db.jobs.any (Database.holdsLease job) = true)
    (hcurrent : db.sourceIsCurrent job = true)
    (hne : canonical.id ≠ job.githubIssueId) :
    db.mergeOf job (some canonical) = some (canonical, repository) := by
  unfold Database.mergeOf
  rw [Option.bind_some, hrepository]
  exact if_pos (by simp [hlease, hcurrent, hne])

theorem finishGithubDuplicate_changes {job : GithubDuplicateJob} {canonical : Option GithubIssue}
    {newId : IssueId} {now : Timestamp} {plan : ℕ} {result : Option IssueId} (hwf : db.Wf)
    (hmay : ∀ cause, (Operation.finishGithubDuplicate job canonical newId now plan).May db cause →
      may cause)
    (h : db.finishGithubDuplicate job canonical newId now plan = .ok (result, db')) :
    Changes may db db' := by
  unfold Database.finishGithubDuplicate at h
  split at h
  · split at h
    · obtain ⟨-, rfl⟩ := Prod.mk.inj (pure_eq_ok.mp h)
      exact .single (.of_jobs _ hwf)
    · obtain ⟨-, rfl⟩ := Prod.mk.inj (pure_eq_ok.mp h)
      exact .refl
  · rename_i canonical
    obtain ⟨repository, hrepository, h⟩ := bind_eq_ok.mp h
    split at h
    · obtain ⟨-, rfl⟩ := Prod.mk.inj (pure_eq_ok.mp h)
      exact .refl
    rename_i hlease
    split at h
    · obtain ⟨-, rfl⟩ := Prod.mk.inj (pure_eq_ok.mp h)
      exact .single (.of_jobs _ hwf)
    rename_i hcurrent
    simp only [Bool.not_eq_true', Bool.not_eq_false] at hlease hcurrent
    obtain ⟨⟨destination, db₁⟩, h₁, h⟩ := bind_eq_ok.mp h
    obtain ⟨-, rfl⟩ := Prod.mk.inj (pure_eq_ok.mp h)
    have hne : canonical.id ≠ job.githubIssueId := by
      obtain ⟨u, hne, -⟩ := bind_eq_ok.mp h₁
      simpa [ensure_eq_ok] using hne
    have hmerge := mergeOf_eq_some hrepository hlease hcurrent hne
    have hchanges : Changes may db db₁ := (mergeInto_changes hwf hcurrent
      (fun hc => hmay .unreject (by simp [Operation.May, Operation.mergesRejected, hmerge, hc]))
      (fun hc => hmay .forget (by simp [Operation.May, Operation.forgets, hmerge, hc]))
      (fun hn hc => hmay .again (by simp [Operation.May, Operation.createsAgain, hmerge, hn, hc]))
      (fun hc => hmay .override (by simp [Operation.May, Operation.movesRejected, hmerge, hc]))
      (fun hc => hmay .unrecorded
        (by simp [Operation.May, Operation.changesUnrecorded, hmerge, hc])) h₁).1
    exact .tail hchanges (.of_jobs _ (hchanges.wf hwf))

end

end LadybirdReports.Admin
