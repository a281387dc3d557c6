import LadybirdReports.Admin.Lapses
import LadybirdReports.Admin.ReportChanges

/-!
# Changes when reports come in and go

What accepting, storing and indexing a report amounts to, and what the sweeps do. Indexing links a
report that is neither rejected nor linked to an open issue; a report that a fix resolved loses the
fix by it.
-/

namespace LadybirdReports.Admin

open Rust

section

variable {may : Cause → Prop} {db db' : Database}

theorem issueChallenge_change {id : ChallengeId} {digest tokenHash : String} {expiresAt : Timestamp}
    (hwf : db.Wf) (h : db.issueChallenge id digest tokenHash expiresAt = .ok db') :
    Change may db db' := by
  unfold Database.issueChallenge at h
  obtain ⟨u, -, h⟩ := bind_eq_ok.mp h
  obtain rfl := pure_eq_ok.mp h
  exact .of_same [] hwf rfl rfl rfl (List.append_nil _).symm fun _ => rfl

/-! ## Accepting -/

theorem insertReport_eq_ok {r : Report} (hunlinked : r.issueId = none)
    (h : db.insertReport r = .ok db') :
    (∀ s ∈ db.reports, s.id ≠ r.id) ∧ db' = { db with reports := db.reports ++ [r] } := by
  unfold Database.insertReport at h
  obtain ⟨u, hcheck, h⟩ := bind_eq_ok.mp h
  rw [followIssueStateOnReport_of_unlinked r _ hunlinked] at h
  refine ⟨?_, (pure_eq_ok.mp h).symm⟩
  simpa using check_eq_ok hcheck _ List.mem_cons_self

theorem acceptStackSignature_eq_ok {reportId : ReportId} {fingerprint : Option String}
    (h : db.acceptStackSignature reportId fingerprint = .ok db') :
    ∃ signatures, db' = { db with signatures := signatures } := by
  unfold Database.acceptStackSignature at h
  obtain ⟨u, -, h⟩ := bind_eq_ok.mp h
  obtain ⟨v, -, h⟩ := bind_eq_ok.mp h
  exact ⟨_, (pure_eq_ok.mp h).symm⟩

theorem acceptReport_changes {request : AcceptReportRequest} {now : Timestamp}
    {outcome : AcceptReportOutcome}
    (hunnamed : history db.events request.reportId = [] ∨ may .reuse) (hwf : db.Wf)
    (h : db.acceptReport request now = .ok (outcome, db')) : Changes may db db' := by
  unfold Database.acceptReport at h
  split at h
  · split at h
    · obtain ⟨-, rfl⟩ := Prod.mk.inj (Except.ok.inj h)
      exact .refl
    · cases h
  obtain ⟨u, -, h⟩ := bind_eq_ok.mp h
  obtain ⟨v, -, h⟩ := bind_eq_ok.mp h
  obtain ⟨db₁, h₁, h⟩ := bind_eq_ok.mp h
  obtain ⟨hfresh, rfl⟩ := insertReport_eq_ok rfl h₁
  obtain ⟨w, -, h⟩ := bind_eq_ok.mp h
  have hdb' : db'.reports = db.reports ++ [request.report now] ∧ db'.issues = db.issues ∧
      db'.aliases = db.aliases ∧
      db'.events = db.events ++
        [⟨none, .report request.reportId, .reportSubmitted request.kind, db.clock⟩] := by
    split at h
    · obtain ⟨db₂, h₂, h⟩ := bind_eq_ok.mp h
      obtain ⟨signatures, rfl⟩ := acceptStackSignature_eq_ok h₂
      obtain ⟨-, rfl⟩ := Prod.mk.inj (pure_eq_ok.mp h)
      exact ⟨rfl, rfl, rfl, rfl⟩
    · obtain ⟨-, rfl⟩ := Prod.mk.inj (Except.ok.inj h)
      exact ⟨rfl, rfl, rfl, rfl⟩
  obtain ⟨hreports, hissues, haliases, hevents⟩ := hdb'
  have hsilent : ∀ id, history
      [⟨none, .report request.reportId, .reportSubmitted request.kind, db.clock⟩] id = [] := by
    intro id
    rw [history_report]
    split <;> rfl
  refine .single ⟨.accept (request.report now) hfresh ⟨rfl, rfl, rfl⟩ hunnamed hreports hissues
    haliases, .of_append _ hevents (fun id _ => hsilent id) (.inr fun r hr r' hr' hid => ?_)⟩
  rw [hreports] at hr'
  rw [hsilent, replay_nil]
  rcases List.mem_append.mp hr' with hr' | hr'
  · rw [Rows.eq_of_key hwf.reportIds hr' hr hid]
  · rw [List.mem_singleton.mp hr'] at hid
    exact absurd hid.symm (hfresh r hr)

theorem markStorageReady_changes {reportId : ReportId} {uploadId : UploadId} (hwf : db.Wf) :
    Changes may db (db.markStorageReady reportId uploadId).2 := by
  unfold Database.markStorageReady
  dsimp only
  split
  · refine .single (.of_move hwf (fun r _ => ?_) (.nil fun r _ => ?_) rfl rfl rfl
      (List.append_nil _).symm)
    · split
      · exact .store
      · exact .keep
    · split <;> rfl
  · exact .refl

/-! ## Indexing -/

/-- The signature of the report itself does not count for its match. -/
theorem reportsWithSignature_upsert (trace : PendingStackTrace) (fingerprint : String) :
    (db.upsertSignature trace).reportsWithSignature trace fingerprint =
      db.reportsWithSignature trace fingerprint := by
  have hfields : (db.upsertSignature trace).reports = db.reports := by
    unfold Database.upsertSignature
    split <;> rfl
  unfold Database.reportsWithSignature
  rw [hfields]
  refine List.filter_congr fun r _ => ?_
  by_cases hid : r.id = trace.reportId
  · simp [hid]
  · congr 1
    unfold Database.upsertSignature
    split
    · dsimp only
      rw [List.any_map]
      refine List.any_congr rfl fun s => ?_
      by_cases hs : s.reportId = trace.reportId
      · have hne : trace.reportId ≠ r.id := Ne.symm hid
        simp [hs, hne]
      · simp [hs]
    · simp [Ne.symm hid]

theorem matchingIssues_upsert (trace : PendingStackTrace) (fingerprint : String) :
    (db.upsertSignature trace).matchingIssues trace fingerprint =
      db.matchingIssues trace fingerprint := by
  unfold Database.matchingIssues
  rw [reportsWithSignature_upsert]
  congr 1
  unfold Database.upsertSignature
  split <;> rfl

/-- An open issue that is matched is unmerged, and unresolved. -/
theorem mem_matchingIssues {trace : PendingStackTrace} {fingerprint : String} {i : Issue}
    (hwf : db.Wf) (h : i ∈ db.matchingIssues trace fingerprint) :
    i ∈ db.issues ∧ i.mergedInto = none ∧ i.state = .unresolved := by
  unfold Database.matchingIssues at h
  rw [List.mem_filter] at h
  obtain ⟨hi, hp⟩ := h
  simp only [Issue.active, Bool.and_eq_true, decide_eq_true_eq, Option.isNone_iff_eq_none, ne_eq]
    at hp
  obtain ⟨⟨⟨⟨hmerged, hactive⟩, -⟩, hopen⟩, -⟩ := hp
  exact ⟨hi, hmerged, by rw [hwf.tracking i hi hactive, hopen]; rfl⟩

/-- The report is linked to the one issue that its signature matches. -/
theorem assignMatch_change {reportId : ReportId} {i : Issue} {fingerprint : String}
    (hfixed : ∀ r ∈ db.reports, r.id = reportId → r.issueId = none → r.ready = true →
      r.fix ≠ .null → may .override)
    (hwf : db.Wf) (hi : i ∈ db.issues) (hmerged : i.mergedInto = none)
    (hstate : i.state = .unresolved) (h : db.assignMatch reportId i.id fingerprint = .ok db') :
    Change may db db' := by
  unfold Database.assignMatch at h
  dsimp only at h
  obtain ⟨db₁, h₁, h⟩ := bind_eq_ok.mp h
  obtain rfl := pure_eq_ok.mp h
  set p : Report → Bool := fun r =>
    r.id = reportId && r.issueId.isNone && r.state ≠ .rejected && r.ready
  have hp : ∀ r : Report, p r = true →
      r.id = reportId ∧ r.issueId = none ∧ r.state ≠ .rejected ∧ r.ready = true := by
    intro r hr
    simp only [p, Bool.and_eq_true, decide_eq_true_eq, Option.isNone_iff_eq_none] at hr
    exact ⟨hr.1.1.1, hr.1.1.2, hr.1.2, hr.2⟩
  have hcalls : IssueState.reportState (some i.state) = .confirmed := by rw [hstate]; rfl
  rw [List.filter_filter]
  refine .of_updateReports (fun r => r.put (some i.id) .confirmed .null) hwf
    (fun r hr hsel => ?_) (fun r hr hsel => ?_) (fun id hne => ?_) h₁
    (by rw [Database.auditReports, Database.auditReports, List.append_assoc])
  · obtain ⟨hid, hunlinked, hne, hready⟩ := hp r hsel
    refine ⟨?_, ?_, ?_⟩
    · have hput := settle_put_linked (d := i.id) (f := r.fix) db.issues r (.inl rfl)
        (hwf.settled r hr).fixOrNull
      rwa [issueState?_of_mem hwf.issueIds hi, hcalls] at hput
    · have hmove : Move may db.issues r (r.put (some i.id) (IssueState.reportState (some i.state))
          .null) := .follow i hi hmerged (fun hc => by rw [hstate] at hc; cases hc)
        (fun hdecided => hfixed r hr hid hunlinked hready (hdecided.resolve_left hne))
      rwa [hcalls] at hmove
    · rw [history_append, history_selected hwf.reportIds hr, history_selected hwf.reportIds hr,
        if_pos hsel, put_standing]
      unfold Report.standing
      rw [hunlinked]
      by_cases hs : r.state = .confirmed <;>
        simp [AuditDetails.toEntry, replay_cons, HistoryEntry.apply, hsel, hs]
  · rw [history_append, history_selected hwf.reportIds hr, history_selected hwf.reportIds hr,
      if_neg (by simp [hsel]), if_neg (by simp [hsel])]
    rfl
  · rw [history_append, history_selected_of_not_mem hne, history_selected_of_not_mem hne]
    rfl

theorem upsertSignature_change {trace : PendingStackTrace} (hwf : db.Wf) :
    Change may db (db.upsertSignature trace) := by
  unfold Database.upsertSignature
  split <;> exact .of_same [] hwf rfl rfl rfl (List.append_nil _).symm fun _ => rfl

theorem matchIndexedReport_changes {trace : PendingStackTrace} {fingerprint : String}
    (hfixed : ∀ i, db.matchingIssues trace fingerprint = [i] → ∀ r ∈ db.reports,
      r.id = trace.reportId → r.issueId = none → r.ready = true → r.fix ≠ .null → may .override)
    (hwf : db.Wf) (h : db.matchIndexedReport trace fingerprint = .ok db') : Changes may db db' := by
  have hdelete : ∀ s : Database, s.Wf → Change may s (s.deleteNotification trace.reportId) :=
    fun s hs => .of_same [] hs rfl rfl rfl (List.append_nil _).symm fun _ => rfl
  unfold Database.matchIndexedReport at h
  split at h
  · rename_i i hmatch
    obtain ⟨hi, hmerged, hstate⟩ := mem_matchingIssues hwf (hmatch ▸ List.mem_singleton_self i)
    obtain ⟨db₁, h₁, h⟩ := bind_eq_ok.mp h
    obtain rfl := pure_eq_ok.mp h
    have hassign := assignMatch_change (hfixed i hmatch) hwf hi hmerged hstate h₁
    exact .tail (.single hassign) (hdelete _ (hassign.wf hwf))
  · exact Except.ok.inj h ▸ .refl
  · obtain rfl := Except.ok.inj h
    split
    · exact .single (hdelete db hwf)
    · exact .refl

theorem storeStackSignature_changes {trace : PendingStackTrace} {now : Timestamp}
    (hfixed : db.matchesFixed trace = true → may .override) (hwf : db.Wf)
    (h : db.storeStackSignature trace now = .ok db') : Changes may db db' := by
  unfold Database.storeStackSignature at h
  dsimp only at h
  obtain ⟨u, -, h⟩ := bind_eq_ok.mp h
  obtain ⟨v, -, h⟩ := bind_eq_ok.mp h
  have hupsert : Change may db (db.upsertSignature trace) := upsertSignature_change hwf
  have hwf' := hupsert.wf hwf
  split at h
  · exact pure_eq_ok.mp h ▸ .single hupsert
  rename_i hmatched
  have hmark : ∀ s : Database, s.Wf → Change may s (s.markMatched trace.reportId now) :=
    fun s hs => .of_same [] hs rfl rfl rfl (List.append_nil _).symm fun _ => rfl
  split at h
  · rename_i fingerprint heligible hfingerprint
    obtain ⟨db₁, h₁, h⟩ := bind_eq_ok.mp h
    obtain rfl := pure_eq_ok.mp h
    have hreports : (db.upsertSignature trace).reports = db.reports := by
      unfold Database.upsertSignature
      split <;> rfl
    have hmatch : Changes may (db.upsertSignature trace) db₁ := by
      refine matchIndexedReport_changes (fun i hi r hr hid hunlinked hready hfix => hfixed ?_)
        hwf' h₁
      rw [matchingIssues_upsert] at hi
      have hany : (db.reports.any fun r => r.id = trace.reportId && r.issueId.isNone && r.ready &&
          r.fix ≠ .null) = true :=
        List.any_eq_true.mpr ⟨r, hreports ▸ hr, by simp [hid, hunlinked, hready, hfix]⟩
      unfold Database.matchesFixed
      rw [heligible, hfingerprint, Option.any_some, hi, hany]
      simpa using hmatched
    exact .tail (.trans (.single hupsert) hmatch) (hmark _ (hmatch.wf hwf'))
  · obtain rfl := pure_eq_ok.mp h
    exact .tail (.single hupsert) (hmark _ hwf')

/-! ## Maintenance -/

theorem sweepExpiredIngestionState_change (hwf : db.Wf) :
    Change may db db.sweepExpiredIngestionState :=
  .of_same [] hwf rfl rfl rfl (List.append_nil _).symm fun _ => rfl

/-- A sweep leaves reports where they are. -/
theorem beginMaintenanceSweep_change {reportDays sourceHours auditDays : ℕ}
    (hkept : (∃ r ∈ db.reports, history (db.keptEvents auditDays) r.id ≠ history db.events r.id) →
      may .lose) (hwf : db.Wf) :
    Change may db (db.beginMaintenanceSweep reportDays sourceHours auditDays).2 where
  kind := .move (db.sweptReport reportDays sourceHours) (fun _ _ => .age _ _) rfl rfl rfl
  recorded := by
    refine ⟨db.keptEvents auditDays, [], (List.append_nil _).symm, List.filter_sublist, ?_,
      fun _ _ => rfl, .inr fun r hr r' hr' hid => ?_⟩
    · by_cases hall : ∀ r ∈ db.reports,
          history (db.keptEvents auditDays) r.id = history db.events r.id
      · exact .inr hall
      · push Not at hall
        exact .inl (hkept hall)
    · obtain ⟨s, hs, rfl⟩ := List.mem_map.mp hr'
      rw [Rows.eq_of_key hwf.reportIds hr hs hid.symm]
      rfl

/-- A report that has expired is deleted. -/
theorem finishReportPurge_changes {reportId : ReportId} {purged : Bool} (hmay : may .purge)
    (hwf : db.Wf) (h : db.finishReportPurge reportId = .ok (purged, db')) :
    Changes may db db' := by
  unfold Database.finishReportPurge at h
  split at h
  · obtain ⟨u, -, h⟩ := bind_eq_ok.mp h
    obtain ⟨-, rfl⟩ := Prod.mk.inj (pure_eq_ok.mp h)
    refine .single ⟨.purge reportId hmay rfl rfl rfl, .of_append [] (List.append_nil _).symm
      (fun _ _ => rfl) (.inr fun r hr r' hr' hid => ?_)⟩
    rw [Rows.eq_of_key hwf.reportIds (List.mem_filter.mp hr').1 hr hid]
    rfl
  · obtain ⟨-, rfl⟩ := Prod.mk.inj (Except.ok.inj h)
    exact .refl

end

end LadybirdReports.Admin
