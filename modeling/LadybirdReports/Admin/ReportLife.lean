import LadybirdReports.Admin.Runs

/-!
# What holds of reports

In every database the service comes to, reports follow their issues (`reports_follow_issues`). That
no report is active under a rejected issue, and that no background operation overrides what a
maintainer decided about a report, holds of the runs in which no operation revives a report
(`rejected_issue_has_no_active_report`), and where no merge moves a rejected report and no match
links a fixed one (`decision_kept_in_background`).
-/

namespace LadybirdReports.Admin

open Transition

section

variable {db db' : Database} {ops : List Operation} {r : Report} {i : Issue}

/-! ## Reports follow their issues -/

/-- A linked report that is not rejected is resolved just when its issue is and is confirmed else,
an unlinked one is never confirmed, and there is a whole fix just when one resolved the report. -/
theorem reports_follow_issues (h : db.IsReachable) (hr : r ∈ db.reports) :
    (∀ d, r.issueId = some d → r.state ≠ .triage ∧ ∃ i, db.findIssue? d = some i ∧
      (r.state ≠ .rejected → (r.state = .resolved ↔ i.state = .resolved) ∧
        (r.state = .confirmed ↔ i.state ≠ .resolved))) ∧
    (r.issueId = none → r.state ≠ .confirmed) ∧
    (r.fix.Complete ↔ r.state = .resolved ∧ r.issueId = none) ∧
    (r.fix.Complete ∨ r.fix = .null) := by
  have hwf := h.wf
  have hsettled := hwf.settled r hr
  refine ⟨fun d hd => ?_, hsettled.unlinked, hsettled.fix, hsettled.fixOrNull⟩
  obtain ⟨i, hi, rfl, -, hcalls⟩ := hsettled.linked d hd
  refine ⟨fun htriage => ?_, i, Rows.find?_key hwf.issueIds hi, fun hne => ?_⟩
  · have hcall := hcalls (by rw [htriage]; decide)
    rw [htriage] at hcall
    rcases IssueState.reportState_eq (some i.state) with hs | hs <;>
      rw [hs] at hcall <;> cases hcall
  · rw [hcalls hne]
    unfold IssueState.reportState
    by_cases hs : i.state = .resolved <;> simp [hs]

/-- A report that was linked to an open issue. -/
def linkedReport : Report :=
  ((execAll (submitLinked 1 "1") .empty).findReport? ⟨1⟩).get (by decide +kernel)

theorem linked_report_follows : linkedReport.state ≠ .triage ∧
    ∃ i, (execAll (submitLinked 1 "1") .empty).findIssue? ⟨1⟩ = some i ∧
      (linkedReport.state ≠ .rejected → (linkedReport.state = .resolved ↔ i.state = .resolved) ∧
        (linkedReport.state = .confirmed ↔ i.state ≠ .resolved)) :=
  (reports_follow_issues (isReachable_execAll (submitLinked 1 "1")) (mem_findReport? ⟨1⟩ _)).1 ⟨1⟩
    (by decide +kernel)

/-! ## Reports of rejected issues -/

/-- No report is active that is on a rejected issue. -/
def NoneActiveUnderRejected (db : Database) : Prop :=
  ∀ r ∈ db.reports, ∀ i ∈ db.issues, r.issueId = some i.id → i.state = .rejected →
    ¬ (r.state = .confirmed ∨ r.state = .resolved)

instance (db : Database) : Decidable (NoneActiveUnderRejected db) := by
  unfold NoneActiveUnderRejected; infer_instance

theorem Change.noneActiveUnderRejected {may : Cause → Prop} (hmay : ¬ may .revive) (hwf : db.Wf)
    (h : Change may db db') (hnone : NoneActiveUnderRejected db) : NoneActiveUnderRejected db' := by
  intro r' hr' i' hi' hlink hrejected
  cases h.kind with
  | accept r fresh start unnamed reports issues aliases =>
    rw [reports] at hr'
    rw [issues] at hi'
    rcases List.mem_append.mp hr' with hr' | hr'
    · exact hnone r' hr' i' hi' hlink hrejected
    · rw [List.mem_singleton.mp hr', start.1] at hlink
      cases hlink
  | move g move reports issues aliases =>
    rw [reports] at hr'
    rw [issues] at hi'
    obtain ⟨r, hr, rfl⟩ := List.mem_map.mp hr'
    have hmove := move r hr
    generalize g r = r' at hmove hlink
    cases hmove with
    | keep => exact hnone r hr i' hi' hlink hrejected
    | store => exact hnone r hr i' hi' hlink hrejected
    | age source expiresAt => exact hnone r hr i' hi' hlink hrejected
    | reject decided => exact IssueState.reportState_inactive (.inr rfl)
    | triage decided => cases hlink
    | fix fix decided unlinked => cases hlink
    | follow i mem unmerged active decided =>
      have hi : i = i' := Rows.eq_of_key hwf.issueIds mem hi' (Option.some.inj hlink)
      exact absurd (active (hi ▸ hrejected)) hmay
  | purge id purge reports issues aliases =>
    rw [reports] at hr'
    rw [issues] at hi'
    exact hnone r' (List.mem_filter.mp hr').1 i' hi' hlink hrejected
  | create i fresh unmerged tracking first reports issues aliases =>
    rw [reports] at hr'
    rw [issues] at hi'
    rcases List.mem_append.mp hi' with hi' | hi'
    · exact hnone r' hr' i' hi' hlink hrejected
    · rw [List.mem_singleton.mp hi', tracking] at hrejected
      exact absurd hrejected (IssueState.tracking_ne_rejected _)
  | track i j mem notRejected id merged tracking retrack reports issues =>
    rw [reports] at hr'
    rw [issues] at hi'
    obtain ⟨r, hr, rfl⟩ := List.mem_map.mp hr'
    obtain ⟨k, hk, rfl⟩ := List.mem_map.mp hi'
    by_cases hkj : k.id = j.id
    · rw [if_pos hkj, tracking] at hrejected
      exact absurd hrejected (IssueState.tracking_ne_rejected _)
    · rw [if_neg hkj] at hlink hrejected
      rw [followIssueStateOnReport_issueId] at hlink
      have hinactive := hnone r hr k hk hlink hrejected
      rwa [followIssueStateOnReport_of_inactive r _ hinactive]
  | reject i mem action decided reports issues aliases =>
    rw [reports] at hr'
    rw [issues] at hi'
    obtain ⟨r, hr, rfl⟩ := List.mem_map.mp hr'
    obtain ⟨k, hk, rfl⟩ := List.mem_map.mp hi'
    unfold Report.ofRejected at hlink ⊢
    by_cases hd : r.issueId = some i.id
    · rw [if_pos hd]
      cases action with
      | reject => exact IssueState.reportState_inactive (.inr rfl)
      | unlink => exact IssueState.reportState_inactive (.inl rfl)
    · rw [if_neg hd] at hlink ⊢
      have hlink : r.issueId = some k.id := by rw [hlink]; split <;> rfl
      obtain ⟨l, hl, hlk, hmerged, -⟩ := (hwf.settled r hr).linked k.id hlink
      rw [Rows.eq_of_key hwf.issueIds hl hk hlk] at hmerged
      have hkeep : ¬ (k.id = i.id ∨ k.id ∈ mergedSources db.issues i.id) := by
        rintro (hki | hbelow)
        · exact hd (hki ▸ hlink)
        · exact not_mem_mergedSources hwf.issueIds hwf.forest hk hmerged hbelow
      rw [if_neg hkeep] at hrejected
      exact hnone r hr k hk hlink hrejected
  | merge source source' destination mem mem' unmerged closed rejected active other empty id into
      resolved github identity reports issues aliases =>
    rw [reports] at hr'
    rw [issues] at hi'
    obtain ⟨k, hk, rfl⟩ := List.mem_map.mp hi'
    by_cases hks : k.id = source'.id
    · rw [if_pos hks, resolved] at hrejected
      cases hrejected
    · rw [if_neg hks] at hlink hrejected
      exact hnone r' hr' k hk hlink hrejected

/-- Where no operation confirms a report that was rejected with its issue, no report that is on a
rejected issue is confirmed or resolved. -/
theorem rejected_issue_has_no_active_report
    (h : Run (Where (fun db op => op.revives db = false) Step) .empty ops db) (hr : r ∈ db.reports)
    (hi : i ∈ db.issues) (hlink : r.issueId = some i.id) (hrejected : i.state = .rejected) :
    r.state ≠ .confirmed ∧ r.state ≠ .resolved := by
  have hnone : NoneActiveUnderRejected db := by
    refine invariant_of_changes (· = .revive) (fun s op hok cause hcause => ?_)
      (fun may s t hmay hwf hchange => hchange.noneActiveUnderRejected (hmay _ rfl) hwf) h
      Database.wf_empty fun s hs => by cases hs
    rw [hcause]
    exact fun hc => by rw [Operation.May, hok] at hc; cases hc
  exact not_or.mp (hnone r hr i hi hlink hrejected)

/-- A report is rejected with its issue. -/
def rejectedOps : List Operation := submitLinked 1 "1" ++ [.rejectIssue ⟨1⟩ 7 .reject]

theorem report_rejected_with_issue_is_inactive :
    (((execAll rejectedOps .empty).findReport? ⟨1⟩).get (by decide +kernel)).state ≠ .confirmed ∧
    (((execAll rejectedOps .empty).findReport? ⟨1⟩).get (by decide +kernel)).state ≠ .resolved :=
  rejected_issue_has_no_active_report (run_execAll (by decide +kernel)) (mem_findReport? ⟨1⟩ _)
    (mem_findIssue? ⟨1⟩ (by decide +kernel)) (by decide +kernel) (by decide +kernel)

/-- A report that was rejected with its issue is confirmed, under the rejected issue. -/
theorem restored_report_is_active_under_rejected :
    (execAll (rejectedOps ++ [.setReportState ⟨1⟩ .confirmed 7 none]) .empty).IsReachable ∧
      ¬ NoneActiveUnderRejected
        (execAll (rejectedOps ++ [.setReportState ⟨1⟩ .confirmed 7 none]) .empty) :=
  ⟨isReachable_execAll _, by decide +kernel⟩

/-! ## Decisions about reports -/

/-- What was decided about reports stays. -/
def KeepsDecisions (db db' : Database) : Prop :=
  ∀ r ∈ db.reports, r.Decided →
    ∃ r' ∈ db'.reports, r'.id = r.id ∧ r'.state = r.state ∧ r'.fix = r.fix

theorem KeepsDecisions.trans {db₁ : Database} (h : KeepsDecisions db db₁)
    (h' : KeepsDecisions db₁ db') : KeepsDecisions db db' := by
  intro r hr hdecided
  obtain ⟨r₁, hr₁, hid₁, hstate₁, hfix₁⟩ := h r hr hdecided
  have hdecided₁ : r₁.Decided := by unfold Report.Decided; rw [hstate₁, hfix₁]; exact hdecided
  obtain ⟨r', hr', hid, hstate, hfix⟩ := h' r₁ hr₁ hdecided₁
  exact ⟨r', hr', hid.trans hid₁, hstate.trans hstate₁, hfix.trans hfix₁⟩

/-- A report that was decided about has nothing to follow. -/
theorem Report.Decided.follow_eq {issues issues' : List Issue} (h : r.Decided)
    (hsettled : r.Settled issues) : r.followIssueStateOnReport issues' = r := by
  rcases h with hstate | hfix
  · exact followIssueStateOnReport_of_inactive r _ (by rw [hstate]; decide)
  · have hcomplete := hsettled.fixOrNull.resolve_right hfix
    exact followIssueStateOnReport_of_unlinked r _ (hsettled.fix.mp hcomplete).2

theorem Change.keepsDecisions {may : Cause → Prop} (hmay : ¬ may .override)
    (hpurge : ¬ may .purge) (hwf : db.Wf) (h : Change may db db') : KeepsDecisions db db' := by
  intro r hr hdecided
  cases h.kind with
  | accept s fresh start unnamed reports issues aliases =>
    exact ⟨r, reports ▸ List.mem_append_left _ hr, rfl, rfl, rfl⟩
  | move g move reports issues aliases =>
    refine ⟨g r, reports ▸ List.mem_map_of_mem hr, ?_⟩
    have hmove := move r hr
    generalize g r = r' at hmove
    cases hmove with
    | keep => exact ⟨rfl, rfl, rfl⟩
    | store => exact ⟨rfl, rfl, rfl⟩
    | age source expiresAt => exact ⟨rfl, rfl, rfl⟩
    | reject decided => exact absurd (decided hdecided) hmay
    | triage decided => exact absurd (decided hdecided) hmay
    | fix fix decided unlinked => exact absurd (decided hdecided) hmay
    | follow i mem unmerged active decided => exact absurd (decided hdecided) hmay
  | purge id purge reports issues aliases => exact absurd purge hpurge
  | create i fresh unmerged tracking first reports issues aliases =>
    exact ⟨r, reports ▸ hr, rfl, rfl, rfl⟩
  | track i i' mem notRejected id merged tracking retrack reports issues =>
    refine ⟨_, reports ▸ List.mem_map_of_mem hr, ?_⟩
    rw [hdecided.follow_eq (hwf.settled r hr)]
    exact ⟨rfl, rfl, rfl⟩
  | reject i mem action decided reports issues aliases => exact absurd decided hmay
  | merge source source' destination mem mem' unmerged closed rejected active other empty id into
      resolved github identity reports issues aliases =>
    exact ⟨r, reports ▸ hr, rfl, rfl, rfl⟩

/-- A background operation that is no merge of a rejected report and no match of a fixed one. -/
def RespectsDecisions (db : Database) (op : Operation) : Prop :=
  op.isBackground = true ∧ op.movesRejected db = false ∧ op.linksFixed db = false

instance (db : Database) (op : Operation) : Decidable (RespectsDecisions db op) := by
  unfold RespectsDecisions; infer_instance

/-- After any run, such background operations keep the state and the fix of a report that is
rejected or that a fix resolved. -/
theorem decision_kept_in_background (h : db.IsReachable)
    (hrun : Run (Where RespectsDecisions Step) db ops db') (hr : r ∈ db.reports)
    (hdecided : r.state = .rejected ∨ r.fix ≠ .null) :
    ∃ r' ∈ db'.reports, r'.id = r.id ∧ r'.state = r.state ∧ r'.fix = r.fix := by
  refine related_of_changes (R := KeepsDecisions) (fun cause => cause = .override ∨ cause = .purge)
    (fun s op hok cause hcause => ?_) (fun s r hr _ => ⟨r, hr, rfl, rfl, rfl⟩)
    (fun _ _ _ => KeepsDecisions.trans) (fun may s t hmay hwf hchange =>
      hchange.keepsDecisions (hmay _ (.inl rfl)) (hmay _ (.inr rfl)) hwf) hrun h.wf r hr hdecided
  obtain ⟨hbackground, hmoves, hlinks⟩ := hok
  rcases hcause with rfl | rfl
  · rintro (hc | hc | hc)
    · rw [hbackground] at hc; cases hc
    · rw [hmoves] at hc; cases hc
    · rw [hlinks] at hc; cases hc
  · rintro ⟨reportId, rfl⟩
    cases hbackground

/-- A job that is finished after the issue was rejected, for an issue that is not closed any more,
and a report that stays rejected. -/
theorem rejection_kept_when_job_is_stale :
    ∃ r' ∈ (execAll [.retryGithubDuplicate (sampleJob 1) 5, finishFirst] rejectedDuplicate).reports,
      r'.id = ((rejectedDuplicate.findReport? ⟨1⟩).get (by decide +kernel)).id ∧
      r'.state = ((rejectedDuplicate.findReport? ⟨1⟩).get (by decide +kernel)).state ∧
      r'.fix = ((rejectedDuplicate.findReport? ⟨1⟩).get (by decide +kernel)).fix :=
  decision_kept_in_background (isReachable_execAll _) (run_execAll (by decide +kernel))
    (mem_findReport? ⟨1⟩ (by decide +kernel)) (by decide +kernel)

def sampleTrace (n : ℕ) : PendingStackTrace := ⟨⟨n⟩, .crash, some sampleDigest, true⟩

/-- Report 2 has the signature of report 1, which is on an open issue, and is resolved with a fix
before it is indexed. -/
def fixedBeforeIndexed : Database :=
  execAll (submitLinked 1 "1" ++ [.storeStackSignature (sampleTrace 1) 1] ++ submit 2 ++
    [.resolveReportsWithFix [⟨2⟩] ⟨.commit, "c", "t", "u"⟩ 7]) .empty

instance (db db' : Database) : Decidable (KeepsDecisions db db') := by
  unfold KeepsDecisions; infer_instance

/-- A merge confirms a rejected report, and a match takes the fix from a resolved one. -/
theorem background_overrides_decisions :
    (rejectedDuplicate.IsReachable ∧ finishFirst.isBackground = true ∧
      ¬ KeepsDecisions rejectedDuplicate (finishFirst.exec rejectedDuplicate)) ∧
    (fixedBeforeIndexed.IsReachable ∧
      (Operation.storeStackSignature (sampleTrace 2) 9).isBackground = true ∧
      ¬ KeepsDecisions fixedBeforeIndexed
        ((Operation.storeStackSignature (sampleTrace 2) 9).exec fixedBeforeIndexed)) :=
  ⟨⟨isReachable_execAll _, rfl, by decide +kernel⟩, isReachable_execAll _, rfl, by decide +kernel⟩

end

end LadybirdReports.Admin
