import LadybirdReports.Admin.Ingest
import LadybirdReports.Admin.WellFormed

/-!
# Changes of reports

What each operation on reports amounts to: changes that move reports while the issues stay. One
report is updated and audited at a time (`Change.of_updateReport`), or all those that a condition
selects (`Change.of_updateReports`).
-/

namespace LadybirdReports.Admin

open Rust

section

variable {may : Cause → Prop} {db db' db₁ : Database} {events : List AuditEvent} {i : Issue}

/-! ## Updates that are audited -/

theorem Recorded.of_tells {g : Report → Report} (hwf : db.Wf)
    (hid : ∀ r ∈ db.reports, (g r).id = r.id) (htells : Tells events db.reports g)
    (hreports : db'.reports = db.reports.map g) (hevents : db'.events = db.events ++ events) :
    Recorded may db db' := by
  refine .of_append events hevents htells.about (.inr fun r hr r' hr' hsame => ?_)
  rw [hreports] at hr'
  rw [Rows.eq_update_of_key hwf.reportIds hid hr hr' hsame]
  exact htells.replays r hr

theorem Change.of_move {g : Report → Report} (hwf : db.Wf)
    (hmove : ∀ r ∈ db.reports, Move may db.issues r (g r)) (htells : Tells events db.reports g)
    (hreports : db'.reports = db.reports.map g) (hissues : db'.issues = db.issues)
    (haliases : db'.aliases = db.aliases) (hevents : db'.events = db.events ++ events) :
    Change may db db' where
  kind := .move g hmove hreports hissues haliases
  recorded := .of_tells hwf (fun r hr => (hmove r hr).id_eq) htells hreports hevents

/-- Reports, issues and their history stay; other tables may change. -/
theorem Change.of_same (events : List AuditEvent) (hwf : db.Wf)
    (hreports : db'.reports = db.reports)
    (hissues : db'.issues = db.issues) (haliases : db'.aliases = db.aliases)
    (hevents : db'.events = db.events ++ events) (hsilent : ∀ id, history events id = []) :
    Change may db db' :=
  .of_move (g := id) hwf (fun _ _ => .keep)
    ((Tells.nil fun _ _ => rfl).append_silent hsilent)
    (by rw [hreports, List.map_id]) hissues haliases hevents

theorem history_details (actor : Option ℤ) (report id : ReportId) (details : List AuditDetails)
    (createdAt : Timestamp) :
    history (details.map fun d => ⟨actor, .report report, d, createdAt⟩) id =
      if report = id then details.filterMap (·.toEntry) else [] := by
  unfold history AuditEvent.toEntry
  rw [List.filterMap_map]
  dsimp only [Function.comp_def]
  split
  · rfl
  · exact List.filterMap_eq_nil_iff.mpr fun _ _ => rfl

/-- One report changes, and no other. -/
structure ChangesReport (may : Cause → Prop) (id : ReportId) (db db' : Database) : Prop where
  change : Change may db db'
  issues : db'.issues = db.issues
  others : ∀ r ∈ db.reports, r.id ≠ id → r ∈ db'.reports

/-- One report is updated, and events about it are written. -/
theorem Change.of_updateReport {previous next : Report} {set : Report → Report}
    (actor : Option ℤ) (details : List AuditDetails) (hwf : db.Wf) (hr : previous ∈ db.reports)
    (hnext : (set previous).settle db.issues = next) (hmove : Move may db.issues previous next)
    (hreplay : replay (details.filterMap (·.toEntry)) previous.standing = some next.standing)
    (h : db.updateReport previous.id set = .ok db₁)
    (hdb' : db' = { db₁ with
      events := db₁.events ++
        details.map fun d => ⟨actor, .report previous.id, d, db₁.clock⟩ }) :
    ChangesReport may previous.id db db' := by
  rw [Database.updateReports_eq_ok h] at hdb'
  subst hdb'
  have hone : ∀ r ∈ db.reports, r.id = previous.id → r = previous :=
    fun r hs hid => Rows.eq_of_key hwf.reportIds hs hr hid
  refine ⟨.of_move hwf (fun r hs => ?_) ⟨fun id hne => ?_, fun r hs => ?_⟩ rfl rfl rfl rfl, rfl,
    fun r hs hid => List.mem_map.mpr ⟨r, hs, if_neg (by simpa using hid)⟩⟩
  · by_cases hid : r.id = previous.id
    · rw [if_pos (by simpa using hid), hone r hs hid, hnext]; exact hmove
    · rw [if_neg (by simpa using hid)]; exact .keep
  · rw [history_details, if_neg (hne previous hr)]
  · rw [history_details]
    by_cases hid : r.id = previous.id
    · rw [if_pos hid.symm, if_pos (by simpa using hid), hone r hs hid, hnext]; exact hreplay
    · rw [if_neg (Ne.symm hid), if_neg (by simpa using hid), replay_nil]

theorem Database.findReady?_eq_some {id : ReportId} {r : Report} (h : db.findReady? id = some r) :
    r ∈ db.reports ∧ r.id = id ∧ r.ready = true := by
  have hp := List.find?_some h
  simp only [Bool.and_eq_true, decide_eq_true_eq] at hp
  exact ⟨List.mem_of_find?_eq_some h, hp.1, hp.2⟩

/-! ## Linking and unlinking -/

/-- A report is linked to an issue that is neither merged nor rejected. -/
theorem linkReport_change {reportId : ReportId} {actor : ℤ} (hmay : may .override) (hwf : db.Wf)
    (hi : i ∈ db.issues) (hactive : i.mergedInto = none ∧ i.state ≠ .rejected)
    (h : db.linkReport reportId i.id actor = .ok db') :
    Changes may db db' ∧ db'.issues = db.issues := by
  unfold Database.linkReport at h
  obtain ⟨previous, hprevious, h⟩ := bind_eq_ok.mp h
  obtain ⟨hr, rfl, -⟩ := Database.findReady?_eq_some (okOr_eq_ok.mp hprevious)
  obtain ⟨state, hstate, h⟩ := bind_eq_ok.mp h
  rw [okOr_eq_ok, issueState?_of_mem hwf.issueIds hi] at hstate
  obtain rfl := Option.some.inj hstate
  dsimp only at h
  split at h
  · rw [pure_eq_ok] at h
    exact ⟨h ▸ .refl, by rw [h]⟩
  rename_i hchanges
  obtain ⟨u, hsame, h⟩ := bind_eq_ok.mp h
  rw [ensure_eq_ok] at hsame
  obtain ⟨db₁, h₁, h⟩ := bind_eq_ok.mp h
  have hrow : ({ previous with
      issueId := some i.id
      state := IssueState.reportState (some i.state) } : Report).settle db.issues =
      previous.put (some i.id) (IssueState.reportState (some i.state)) .null := by
    have hput := settle_put_linked (d := i.id) (f := previous.fix) db.issues previous
      (IssueState.reportState_eq (some i.state)) (hwf.settled previous hr).fixOrNull
    rwa [issueState?_of_mem hwf.issueIds hi] at hput
  have hchanged : ChangesReport may previous.id db db' := Change.of_updateReport (some actor)
    ((if previous.issueId ≠ some i.id
        then [.reportUpdateIssue previous.issueId (some i.id) none none] else []) ++
      if previous.state ≠ IssueState.reportState (some i.state)
        then [.reportUpdateState previous.state (IssueState.reportState (some i.state)) none none
          none] else [])
    hwf hr hrow (.follow i hi hactive.1 (fun hc => absurd hc hactive.2) fun _ => hmay)
    (by
      rw [put_standing]
      unfold Report.standing
      split <;> split <;> simp_all [AuditDetails.toEntry, replay_cons, HistoryEntry.apply])
    h₁ (by
      rw [pure_eq_ok] at h
      rw [← h]
      split <;> split <;> simp [Database.audit, Database.auditReportStateChange])
  exact ⟨.single hchanged.change, hchanged.issues⟩

theorem mem_of_mem_inLockOrder {ids : List ReportId} {id : ReportId} (h : id ∈ inLockOrder ids) :
    id ∈ ids :=
  (List.mem_insertionSort _).mp ((List.destutter_sublist _ _).subset h)

/-- Changes that leave the issues alone, one after the other. -/
theorem foldlM_changes {α : Type} {round : Database → α → Except AppError Database}
    {items : List α} (hwf : db.Wf)
    (hround : ∀ s a t, s.Wf → s.issues = db.issues → round s a = .ok t →
      Changes may s t ∧ t.issues = s.issues) (h : items.foldlM round db = .ok db') :
    Changes may db db' ∧ db'.issues = db.issues :=
  (foldlM_related (I := fun s => s.Wf ∧ s.issues = db.issues)
    (R := fun s t => Changes may s t ∧ t.issues = s.issues) (fun _ => ⟨.refl, rfl⟩)
    (fun _ _ _ h₁ h₂ => ⟨h₁.1.trans h₂.1, h₂.2.trans h₁.2⟩)
    (fun s a t hs hst =>
      let hchange := hround s a t hs.1 hs.2 hst
      ⟨⟨hchange.1.wf hs.1, hchange.2.trans hs.2⟩, hchange⟩) ⟨hwf, rfl⟩ h).2

theorem linkReports_changes {reportIds : List ReportId} {actor : ℤ} (hmay : may .override)
    (hwf : db.Wf) (hi : i ∈ db.issues) (hactive : i.mergedInto = none ∧ i.state ≠ .rejected)
    (h : db.linkReports reportIds i.id actor = .ok db') :
    Changes may db db' ∧ db'.issues = db.issues := by
  unfold Database.linkReports at h
  obtain ⟨u, -, h⟩ := bind_eq_ok.mp h
  exact foldlM_changes hwf
    (fun s a t hs hissues hst => linkReport_change hmay hs (hissues ▸ hi) hactive hst) h

theorem assignReportsToIssue_changes {reportIds : List ReportId} {issueId : IssueId} {actor : ℤ}
    (hmay : may .override) (hwf : db.Wf)
    (h : db.assignReportsToIssue reportIds issueId actor = .ok db') : Changes may db db' := by
  unfold Database.assignReportsToIssue at h
  obtain ⟨u, hassignable, h⟩ := bind_eq_ok.mp h
  rw [ensure_eq_ok, List.any_eq_true] at hassignable
  obtain ⟨i, hi, hp⟩ := hassignable
  simp only [Bool.and_eq_true, decide_eq_true_eq, Option.isNone_iff_eq_none, ne_eq] at hp
  obtain ⟨⟨rfl, hmerged⟩, hstate⟩ := hp
  exact (linkReports_changes hmay hwf hi ⟨hmerged, hstate⟩ h).1

/-- A report leaves its issue and returns to triage. -/
theorem unlinkReport_change {previous : Report} {issueId : IssueId} {actor : ℤ}
    (hmay : may .override) (hwf : db.Wf) (hr : previous ∈ db.reports)
    (hready : previous.ready = true) (hd : previous.issueId = some issueId)
    (h : db.unlinkReport previous.id issueId previous.state actor = .ok db') :
    ChangesReport may previous.id db db' := by
  unfold Database.unlinkReport at h
  obtain ⟨db₁, h₁, h⟩ := bind_eq_ok.mp h
  have h₁' : db.updateReport previous.id (fun r => { r with issueId := none, state := .triage }) =
      .ok db₁ := by
    rw [← h₁]
    refine Database.updateReports_congr fun r hs => ?_
    by_cases hid : r.id = previous.id
    · rw [Rows.eq_of_key hwf.reportIds hs hr hid]
      simp [hd, hready]
    · simp [hid]
  refine Change.of_updateReport (some actor)
    (.reportUpdateIssue (some issueId) none none none :: if previous.state ≠ .triage
      then [.reportUpdateState previous.state .triage none none none] else [])
    hwf hr (settle_put_inactive _ previous (.inl rfl) (hwf.settled previous hr).fixOrNull)
    (.triage fun _ => hmay) ?_ h₁' ?_
  · unfold Report.standing
    rw [hd]
    split <;> simp_all [AuditDetails.toEntry, replay_cons, HistoryEntry.apply]
  · rw [pure_eq_ok] at h
    rw [← h]
    split <;> simp [Database.audit, Database.auditReportStateChange]

theorem unlinkReportFromIssue_change {issueId : IssueId} {reportId : ReportId} {actor : ℤ}
    (hmay : may .override) (hwf : db.Wf)
    (h : db.unlinkReportFromIssue issueId reportId actor = .ok db') : Change may db db' := by
  unfold Database.unlinkReportFromIssue at h
  obtain ⟨u, -, h⟩ := bind_eq_ok.mp h
  obtain ⟨report, hreport, h⟩ := bind_eq_ok.mp h
  rw [okOr_eq_ok, Option.filter_eq_some_iff] at hreport
  obtain ⟨hr, rfl, hready⟩ := Database.findReady?_eq_some hreport.1
  exact (unlinkReport_change hmay hwf hr hready (by simpa using hreport.2) h).change

/-! ## States of reports -/

/-- The states that operations set: rejected, triage where there is no issue, and what its issue
calls for where there is one. -/
inductive StateTarget (may : Cause → Prop) (issues : List Issue) (previous : Report) :
    ReportState → Prop
  | reject : StateTarget may issues previous .rejected
  | triage (unlinked : previous.issueId = none) : StateTarget may issues previous .triage
  | follow (i : Issue) (mem : i ∈ issues) (linked : previous.issueId = some i.id)
      (active : i.state = .rejected → may .revive) :
      StateTarget may issues previous (IssueState.reportState (some i.state))

theorem StateTarget.move {previous : Report} {target : ReportState} (hmay : may .override)
    (hwf : db.Wf) (hr : previous ∈ db.reports) (h : StateTarget may db.issues previous target) :
    ∃ next, ({ previous with state := target } : Report).settle db.issues = next ∧
      Move may db.issues previous next ∧ next.standing = (target, previous.issueId) := by
  have hfix := (hwf.settled previous hr).fixOrNull
  have hput : ({ previous with state := target } : Report) =
      previous.put previous.issueId target previous.fix := rfl
  rw [hput]
  cases h with
  | reject =>
    exact ⟨_, settle_put_inactive _ previous (.inr rfl) hfix, .reject fun _ => hmay, put_standing⟩
  | triage unlinked =>
    rw [unlinked]
    exact ⟨_, settle_put_inactive _ previous (.inl rfl) hfix, .triage fun _ => hmay, put_standing⟩
  | follow i mem linked active =>
    obtain ⟨j, hj, hji, hmerged, -⟩ := (hwf.settled previous hr).linked i.id linked
    rw [Rows.eq_of_key hwf.issueIds hj mem hji] at hmerged
    rw [linked, settle_put_linked _ previous (IssueState.reportState_eq _) hfix,
      issueState?_of_mem hwf.issueIds mem]
    exact ⟨_, rfl, .follow i mem hmerged active fun _ => hmay, put_standing⟩

theorem updateState_change {previous : Report} {target : ReportState} {actor : ℤ}
    {reason : Option String} (hmay : may .override) (hwf : db.Wf) (hr : previous ∈ db.reports)
    (htarget : StateTarget may db.issues previous target)
    (h : db.updateReport previous.id (fun r => { r with state := target }) = .ok db₁) :
    ChangesReport may previous.id db
      (db₁.auditReportStateChange previous.id actor previous.state target reason) := by
  obtain ⟨next, hnext, hmove, hstanding⟩ := htarget.move hmay hwf hr
  refine Change.of_updateReport (some actor)
    [.reportUpdateState previous.state target reason none none] hwf hr hnext hmove ?_ h rfl
  rw [hstanding]
  simp [AuditDetails.toEntry, replay_cons, HistoryEntry.apply, Report.standing]

/-- What `set_report_state` lets through. -/
theorem checkStateChange_eq_ok {previous target : ReportState} {issue : Option IssueId} {u : Unit}
    (h : checkStateChange previous target issue = .ok u) :
    target = .rejected ∨ (target = .triage ∧ issue = none) ∨
      (target = .confirmed ∧ previous = .rejected ∧ issue.isSome) := by
  cases previous <;> cases target <;> cases issue <;> simp_all [checkStateChange]

theorem setReportState_change {reportId : ReportId} {target : ReportState} {actor : ℤ}
    {reason : Option String} {result : Option ReportState} (hmay : may .override)
    (hrevive : ∀ r ∈ db.reports, ∀ i ∈ db.issues, r.id = reportId → r.ready = true →
      r.state = .rejected → target = .confirmed → r.issueId = some i.id → i.state = .rejected →
      may .revive)
    (hwf : db.Wf) (h : db.setReportState reportId target actor reason = .ok (result, db')) :
    Changes may db db' := by
  unfold Database.setReportState at h
  obtain ⟨previous, hprevious, h⟩ := bind_eq_ok.mp h
  obtain ⟨hr, rfl, hready⟩ := Database.findReady?_eq_some (okOr_eq_ok.mp hprevious)
  split at h
  · obtain ⟨-, rfl⟩ := Prod.mk.inj (pure_eq_ok.mp h)
    exact .refl
  obtain ⟨u, hcheck, h⟩ := bind_eq_ok.mp h
  obtain ⟨state, hstate, h⟩ := bind_eq_ok.mp h
  obtain ⟨db₁, h₁, h⟩ := bind_eq_ok.mp h
  obtain ⟨-, rfl⟩ := Prod.mk.inj (pure_eq_ok.mp h)
  refine .single (updateState_change hmay hwf hr ?_ h₁).change
  rcases checkStateChange_eq_ok hcheck with rfl | ⟨rfl, hd⟩ | ⟨rfl, hs, hd⟩
  · cases Except.ok.inj hstate
    exact .reject
  · cases Except.ok.inj hstate
    exact .triage hd
  · obtain ⟨d, hd⟩ := Option.isSome_iff_exists.mp hd
    obtain ⟨i, hi, rfl, -⟩ := (hwf.settled previous hr).linked d hd
    unfold Database.stateOfTarget at hstate
    rw [hd] at hstate
    dsimp only at hstate
    rw [issueState?_of_mem hwf.issueIds hi] at hstate
    cases Except.ok.inj hstate
    exact .follow i hi hd fun hi' => hrevive previous hr i hi rfl hready hs rfl hd hi'

/-! ## Several reports -/

theorem mem_collectChanges {α : Type} {change : Report → Except AppError (Option α)}
    {reports : List Report} {changes : List (Report × α)}
    (h : collectChanges change reports = .ok changes) :
    (changes.map (·.1)).Sublist reports ∧ ∀ c ∈ changes, change c.1 = .ok (some c.2) := by
  induction reports generalizing changes with
  | nil =>
    cases h
    exact ⟨.slnil, fun c hc => by cases hc⟩
  | cons r reports ih =>
    unfold collectChanges at h
    obtain ⟨first, hfirst, h⟩ := bind_eq_ok.mp h
    obtain ⟨rest, hrest, h⟩ := bind_eq_ok.mp h
    obtain rfl := pure_eq_ok.mp h
    obtain ⟨hsub, hof⟩ := ih hrest
    cases first with
    | none => exact ⟨.cons r hsub, hof⟩
    | some c =>
      refine ⟨.cons_cons r hsub, fun d hd => ?_⟩
      rcases List.mem_cons.mp hd with rfl | hd
      · exact hfirst
      · exact hof d hd

theorem mem_readyReports {ids : List ReportId} {r : Report} :
    r ∈ db.readyReports ids ↔ r ∈ db.reports ∧ r.id ∈ ids ∧ r.ready = true := by
  unfold Database.readyReports
  rw [List.mem_insertionSort, List.mem_filter]
  simp

theorem readyReports_nodup {ids : List ReportId} (hids : (db.reports.map (·.id)).Nodup) :
    ((db.readyReports ids).map (·.id)).Nodup := by
  unfold Database.readyReports
  refine ((List.perm_insertionSort _ _).map _).nodup_iff.mpr ?_
  exact hids.sublist (List.filter_sublist.map _)

/-- Changes of distinct reports, one after the other: each finds its report as it was. -/
theorem foldlM_collected {α : Type} {round : Database → Report × α → Except AppError Database}
    {changes : List (Report × α)} (hwf : db.Wf) (hdistinct : (changes.map (·.1.id)).Nodup)
    (hmem : ∀ c ∈ changes, c.1 ∈ db.reports)
    (hround : ∀ s, s.Wf → s.issues = db.issues → ∀ c ∈ changes, ∀ t, c.1 ∈ s.reports →
      round s c = .ok t → ChangesReport may c.1.id s t)
    (h : changes.foldlM round db = .ok db') : Changes may db db' := by
  induction changes generalizing db with
  | nil =>
    rw [List.foldlM_nil, pure_eq_ok] at h
    exact h ▸ .refl
  | cons c changes ih =>
    rw [List.foldlM_cons, bind_eq_ok] at h
    obtain ⟨db₁, h₁, h⟩ := h
    rw [List.map_cons, List.nodup_cons] at hdistinct
    have hchange := hround db hwf rfl c List.mem_cons_self db₁ (hmem c List.mem_cons_self) h₁
    refine .head hchange.change (ih (hchange.change.wf hwf) hdistinct.2 (fun d hd => ?_)
      (fun s hs hissues d hd => hround s hs (hissues.trans hchange.issues) d
        (List.mem_cons_of_mem _ hd)) h)
    refine hchange.others d.1 (hmem d (List.mem_cons_of_mem _ hd)) fun hid => hdistinct.1 ?_
    rw [← hid]
    exact List.mem_map_of_mem hd

theorem resolveReportsWithFix_changes {reportIds : List ReportId} {fix : ReportFix} {actor : ℤ}
    {count : ℕ} (hmay : may .override) (hwf : db.Wf)
    (h : db.resolveReportsWithFix reportIds fix actor = .ok (count, db')) : Changes may db db' := by
  unfold Database.resolveReportsWithFix at h
  obtain ⟨u, -, h⟩ := bind_eq_ok.mp h
  obtain ⟨changes, hchanges, h⟩ := bind_eq_ok.mp h
  obtain ⟨db₁, h₁, h⟩ := bind_eq_ok.mp h
  obtain ⟨-, rfl⟩ := Prod.mk.inj (pure_eq_ok.mp h)
  obtain ⟨hsub, hof⟩ := mem_collectChanges hchanges
  refine foldlM_collected hwf ?_ (fun c hc => ?_) (fun s hs hissues c hc t hr hst => ?_) h₁
  · have hnodup := (readyReports_nodup hwf.reportIds).sublist (hsub.map (·.id))
    rwa [List.map_map] at hnodup
  · exact (mem_readyReports.mp (hsub.subset (List.mem_map_of_mem hc))).1
  · have hchange := hof c hc
    unfold fixChange? at hchange
    obtain ⟨u, hunlinked, hchange⟩ := bind_eq_ok.mp hchange
    rw [ensure_eq_ok, Option.isNone_iff_eq_none] at hunlinked
    unfold Database.resolveWithFix at hst
    obtain ⟨s₁, hs₁, hst⟩ := bind_eq_ok.mp hst
    obtain rfl := pure_eq_ok.mp hst
    refine Change.of_updateReport (some actor)
      [.reportUpdateState c.1.state .resolved none none (some fix)] hs hr ?_
      (.fix fix (fun _ => hmay) hunlinked) ?_ hs₁ rfl
    · have hput := settle_put_resolved (f := .of fix) s.issues c.1
      rw [← hunlinked] at hput ⊢
      exact hput
    · rw [put_standing]
      simp [AuditDetails.toEntry, replay_cons, HistoryEntry.apply, Report.standing, hunlinked]

/-- What `apply_report_state_action` does to a report. -/
theorem actionChange?_eq_ok {action : ReportStateAction} {issues : List Issue} {r : Report}
    {c : ReportChange} (h : actionChange? action issues r = .ok (some c)) :
    c = .state .rejected ∨ (c = .state .triage ∧ r.issueId = none) ∨
      (∃ d, c = .unlink d ∧ r.issueId = some d) ∨
      (action = .confirm ∧ r.state = .rejected ∧ ∃ d, r.issueId = some d ∧
        c = .state (IssueState.reportState (issueState? issues d))) := by
  unfold actionChange? at h
  cases action with
  | reject =>
    dsimp only at h
    split at h
    · exact .inl (Option.some.inj (Except.ok.inj h)).symm
    · cases Except.ok.inj h
  | confirm => cases hs : r.state <;> cases hd : r.issueId <;> simp_all
  | returnToTriage => cases hs : r.state <;> cases hd : r.issueId <;> simp_all

theorem applyReportStateAction_changes {reportIds : List ReportId} {action : ReportStateAction}
    {actor : ℤ} {reason : Option String} {count : ℕ} (hmay : may .override)
    (hrevive : action = .confirm → ∀ r ∈ db.reports, ∀ i ∈ db.issues, r.id ∈ reportIds →
      r.ready = true → r.state = .rejected → r.issueId = some i.id → i.state = .rejected →
      may .revive)
    (hwf : db.Wf)
    (h : db.applyReportStateAction reportIds action actor reason = .ok (count, db')) :
    Changes may db db' := by
  unfold Database.applyReportStateAction at h
  obtain ⟨u, -, h⟩ := bind_eq_ok.mp h
  obtain ⟨changes, hchanges, h⟩ := bind_eq_ok.mp h
  obtain ⟨db₁, h₁, h⟩ := bind_eq_ok.mp h
  obtain ⟨-, rfl⟩ := Prod.mk.inj (pure_eq_ok.mp h)
  obtain ⟨hsub, hof⟩ := mem_collectChanges hchanges
  refine foldlM_collected hwf ?_ (fun c hc => ?_) (fun s hs hissues c hc t hr hst => ?_) h₁
  · have hnodup := (readyReports_nodup hwf.reportIds).sublist (hsub.map (·.id))
    rwa [List.map_map] at hnodup
  · exact (mem_readyReports.mp (hsub.subset (List.mem_map_of_mem hc))).1
  · obtain ⟨r, change⟩ := c
    obtain ⟨hold, hid, hready⟩ := mem_readyReports.mp (hsub.subset (List.mem_map_of_mem hc))
    have hstate : ∀ target, StateTarget may s.issues r target → change = .state target →
        ChangesReport may r.id s t := by
      rintro target htarget rfl
      obtain ⟨s₁, hs₁, hst⟩ := bind_eq_ok.mp hst
      obtain rfl := pure_eq_ok.mp hst
      exact updateState_change hmay hs hr htarget hs₁
    rcases actionChange?_eq_ok (hof _ hc) with hc | ⟨hc, hd⟩ | ⟨d, rfl, hd⟩ |
      ⟨haction, hrejected, d, hd, hc⟩
    · exact hstate _ .reject hc
    · exact hstate _ (.triage hd) hc
    · exact unlinkReport_change hmay hs hr hready hd hst
    · obtain ⟨i, hi, rfl, -⟩ := (hwf.settled r hold).linked d hd
      rw [issueState?_of_mem hwf.issueIds hi] at hc
      refine hstate _ (.follow i (hissues ▸ hi) hd fun hi' => ?_) hc
      exact hrevive haction r hold i hi (mem_of_mem_inLockOrder hid) hready hrejected hd hi'

/-! ## All the reports that a condition selects -/

/-- Reports are updated in one statement, with events about those that it selects. -/
theorem Change.of_updateReports {p : Report → Bool} {set : Report → Report}
    (next : Report → Report) (hwf : db.Wf)
    (hnext : ∀ r ∈ db.reports, p r = true → (set r).settle db.issues = next r ∧
      Move may db.issues r (next r) ∧
      replay (history events r.id) r.standing = some (next r).standing)
    (hothers : ∀ r ∈ db.reports, p r = false → history events r.id = [])
    (habout : ∀ id, (∀ r ∈ db.reports, r.id ≠ id) → history events id = [])
    (h : db.updateReports p set = .ok db₁)
    (hdb' : db' = { db₁ with events := db₁.events ++ events }) : Change may db db' := by
  rw [Database.updateReports_eq_ok h] at hdb'
  subst hdb'
  refine .of_move hwf (fun r hr => ?_) ⟨habout, fun r hr => ?_⟩ rfl rfl rfl rfl
  · by_cases hp : p r = true
    · rw [if_pos hp, (hnext r hr hp).1]; exact (hnext r hr hp).2.1
    · rw [if_neg hp]; exact .keep
  · by_cases hp : p r = true
    · rw [if_pos hp, (hnext r hr hp).1]; exact (hnext r hr hp).2.2
    · rw [if_neg hp, hothers r hr (by simpa using hp), replay_nil]

theorem blockReportSource_changes {reportId : ReportId} {actor : ℤ} {remove : Bool}
    {now : Timestamp} {count : ℕ} (hmay : may .override) (hwf : db.Wf)
    (h : db.blockReportSource reportId actor remove now = .ok (count, db')) :
    Changes may db db' := by
  unfold Database.blockReportSource at h
  obtain ⟨report, -, h⟩ := bind_eq_ok.mp h
  obtain ⟨clientKey, -, h⟩ := bind_eq_ok.mp h
  dsimp only at h
  obtain ⟨db₁, h₁, h⟩ := bind_eq_ok.mp h
  obtain ⟨-, rfl⟩ := Prod.mk.inj (pure_eq_ok.mp h)
  set blocked : Database := { db with
    sourceRateLimits := db.sourceRateLimits.filter (fun l : SourceRateLimit =>
      l.clientKey ≠ clientKey) ++ [⟨clientKey, some reportId, actor, now, none, none, none⟩] }
  set p : Report → Bool := fun r => remove && r.sourceClientKey = some clientKey &&
    r.state = .triage && r.ready
  have hblocked : Change may db blocked :=
    .of_same [] hwf rfl rfl rfl (List.append_nil _).symm fun _ => rfl
  have hwf' : blocked.Wf := hblocked.wf hwf
  have hrejected : Change may blocked (db₁.auditReports (some actor) (db.reports.filter p) fun _ =>
      .reportUpdateState .triage .rejected (some "source_blocked") none none) := by
    refine .of_updateReports (fun r => r.put r.issueId .rejected .null) hwf'
      (fun r hr hp => ⟨?_, .reject fun _ => hmay, ?_⟩) (fun r hr hp => ?_)
      (fun id hne => history_selected_of_not_mem hne _ _ _ _) h₁ rfl
    · exact settle_put_inactive _ r (.inr rfl) (hwf'.settled r hr).fixOrNull
    · rw [history_selected hwf.reportIds hr, if_pos hp]
      have hstate : r.state = .triage := by simp [p] at hp; exact hp.1.2
      simp [AuditDetails.toEntry, replay_cons, HistoryEntry.apply, Report.standing, hstate]
    · rw [history_selected hwf.reportIds hr, if_neg (by simp [hp])]
  refine .tail (.tail (.single hblocked) hrejected) (.of_same _ (hrejected.wf hwf') rfl rfl rfl rfl
    fun id => ?_)
  rw [history_report]
  split <;> rfl

end

end LadybirdReports.Admin
