import LadybirdReports.Admin.Following
import LadybirdReports.Admin.Reports
import LadybirdReports.Lib.RowWise

/-!
# What an operation does to one report

The operations on several reports apply a rule to each: `linkRule`, `fixRule` and `actionRule`. The
rules are lawful (`linkRule_lawful`, `fixRule_lawful`, `actionRule_lawful`), and what they log for a
report is about that report.
-/

namespace LadybirdReports.Admin

open Rust RowWise

/-! ## The rules -/

/-- The row that is written, after its triggers and under its constraints, and the events. -/
def Report.rewrite (issues : List Issue) (new : Report) (events : List AuditEvent) (count : ℕ) :
    Except AppError (Outcome Report AuditEvent) := do
  check ((new.settle issues).constraints issues)
  return ⟨new.settle issues, events, count⟩

/-- A rule for the reports that are ready. -/
def reportRule (change : Report → Except AppError (Outcome Report AuditEvent)) :
    Rule Report ReportId AuditEvent AppError where
  key := (·.id)
  eligible := (·.ready)
  missing := .notFound "Report not found"
  change

def stateEvent (clock : Timestamp) (r : Report) (actor : ℤ) (next : ReportState)
    (reason : Option String) : AuditEvent :=
  ⟨some actor, .report r.id, .reportUpdateState r.state next reason none none, clock⟩

def issueEvent (clock : Timestamp) (r : Report) (actor : ℤ) (next : Option IssueId) : AuditEvent :=
  ⟨some actor, .report r.id, .reportUpdateIssue r.issueId next none none, clock⟩

/-- What `link_report` makes of a report. -/
def linkChange (issues : List Issue) (clock : Timestamp) (issueId : IssueId) (actor : ℤ)
    (r : Report) : Except AppError (Outcome Report AuditEvent) := do
  let issueState ← okOr (issueState? issues issueId) (.database "issues")
  let target := IssueState.reportState (some issueState)
  if r.issueId = some issueId ∧ r.state = target then
    return ⟨r, [], 0⟩
  ensure (r.issueId.isNone || r.issueId = some issueId)
    (.conflict "Unlink the report before adding it to another issue")
  Report.rewrite issues { r with issueId := some issueId, state := target }
    ((if r.issueId ≠ some issueId then [issueEvent clock r actor (some issueId)] else []) ++
      if r.state ≠ target then [stateEvent clock r actor target none] else []) 0

def linkRule (issues : List Issue) (clock : Timestamp) (issueId : IssueId) (actor : ℤ) :
    Rule Report ReportId AuditEvent AppError :=
  reportRule (linkChange issues clock issueId actor)

/-- A rule for a change that a report may call for, or not. -/
def changeRule {α : Type} (change? : Report → Except AppError (Option α))
    (write : Report → α → Except AppError (Outcome Report AuditEvent)) :
    Rule Report ReportId AuditEvent AppError :=
  reportRule fun r => do
    match ← change? r with
    | none => return ⟨r, [], 0⟩
    | some change => write r change

/-- What `resolve_reports_with_fix` writes. -/
def writeFix (issues : List Issue) (clock : Timestamp) (fix : ReportFix) (actor : ℤ) (r : Report)
    (_ : Unit) : Except AppError (Outcome Report AuditEvent) :=
  Report.rewrite issues { r with state := .resolved, fix := .of fix }
    [⟨some actor, .report r.id, .reportUpdateState r.state .resolved none none (some fix), clock⟩] 1

def fixRule (issues : List Issue) (clock : Timestamp) (fix : ReportFix) (actor : ℤ) :
    Rule Report ReportId AuditEvent AppError :=
  changeRule (fixChange? fix) (writeFix issues clock fix actor)

/-- The row that `apply_report_state_action` writes. -/
def ReportChange.set (r : Report) : ReportChange → Report
  | .state target => { r with state := target }
  | .unlink _ => { r with issueId := none, state := .triage }

def ReportChange.events (clock : Timestamp) (r : Report) (actor : ℤ) (reason : Option String) :
    ReportChange → List AuditEvent
  | .state target => [stateEvent clock r actor target reason]
  | .unlink _ => issueEvent clock r actor none ::
      if r.state ≠ .triage then [stateEvent clock r actor .triage none] else []

def writeChange (issues : List Issue) (clock : Timestamp) (actor : ℤ) (reason : Option String)
    (r : Report) (change : ReportChange) : Except AppError (Outcome Report AuditEvent) :=
  Report.rewrite issues (change.set r) (change.events clock r actor reason) 1

def actionRule (issues : List Issue) (clock : Timestamp) (action : ReportStateAction) (actor : ℤ)
    (reason : Option String) : Rule Report ReportId AuditEvent AppError :=
  changeRule (actionChange? action issues) (writeChange issues clock actor reason)

/-! ## The rules are lawful -/

section

variable {issues : List Issue} {clock : Timestamp} {r new : Report}
  {o : Outcome Report AuditEvent} {actor : ℤ} {events : List AuditEvent} {count : ℕ}
  {reason : Option String}

theorem rewrite_eq_ok (h : new.rewrite issues events count = .ok o) :
    o = ⟨new.settle issues, events, count⟩ := by
  obtain ⟨u, -, h⟩ := bind_eq_ok.mp h
  exact (pure_eq_ok.mp h).symm

/-- The trigger that drops fixes does nothing else. -/
theorem dropFix_put : ∃ f, r.dropFixOfUnresolvedReport = r.put r.issueId r.state f := by
  unfold Report.dropFixOfUnresolvedReport
  split
  · exact ⟨.null, rfl⟩
  · exact ⟨r.fix, rfl⟩

@[simp] theorem settle_issueId : (r.settle issues).issueId = r.issueId := by
  obtain ⟨f, hf⟩ := dropFix_put (r := r.followIssueStateOnReport issues)
  unfold Report.settle
  rw [hf, put_issueId, followIssueStateOnReport_issueId]

theorem settle_state : (r.settle issues).state = (r.followIssueStateOnReport issues).state := by
  obtain ⟨f, hf⟩ := dropFix_put (r := r.followIssueStateOnReport issues)
  unfold Report.settle
  rw [hf, put_state]

@[simp] theorem settle_ready : (r.settle issues).ready = r.ready := by
  obtain ⟨f, hf⟩ := dropFix_put (r := r.followIssueStateOnReport issues)
  obtain ⟨s, hs⟩ := followIssueStateOnReport_eq r issues
  unfold Report.settle
  rw [hf, hs]
  rfl

theorem settle_state_inactive (h : ¬ (r.state = .confirmed ∨ r.state = .resolved)) :
    (r.settle issues).state = r.state := by
  rw [settle_state, followIssueStateOnReport_of_inactive r issues h]

theorem settle_state_linked {d : IssueId} (hd : r.issueId = some d)
    (hs : r.state = .confirmed ∨ r.state = .resolved) :
    (r.settle issues).state = IssueState.reportState (issueState? issues d) := by
  rw [settle_state, followIssueStateOnReport_of_linked r issues hd hs, put_state]

theorem linkRule_lawful {issueId : IssueId} : (linkRule issues clock issueId actor).Lawful := by
  have hcases : ∀ r o, linkChange issues clock issueId actor r = .ok o →
      o.row.id = r.id ∧ o.row.ready = r.ready ∧
        linkChange issues clock issueId actor o.row = .ok ⟨o.row, [], 0⟩ := by
    intro r o h
    have horiginal := h
    unfold linkChange at h
    obtain ⟨issueState, hstate, h⟩ := bind_eq_ok.mp h
    rw [okOr_eq_ok] at hstate
    dsimp only at h
    split at h
    · cases pure_eq_ok.mp h
      exact ⟨rfl, rfl, horiginal⟩
    · obtain ⟨u, -, h⟩ := bind_eq_ok.mp h
      obtain rfl := rewrite_eq_ok h
      refine ⟨settle_id _, settle_ready, ?_⟩
      unfold linkChange
      rw [hstate]
      simp only [okOr, ok_bind]
      refine if_pos ⟨settle_issueId, ?_⟩
      rw [settle_state_linked rfl (IssueState.reportState_eq _), hstate]
  exact ⟨fun r o h => (hcases r o h).1, fun r o h => (hcases r o h).2.1,
    fun r o h => (hcases r o h).2.2⟩

/-- A rule for changes is lawful if what is written calls for no change. -/
theorem changeRule_lawful {α : Type} {change? : Report → Except AppError (Option α)}
    {write : Report → α → Except AppError (Outcome Report AuditEvent)}
    (hwrite : ∀ r a o, change? r = .ok (some a) → write r a = .ok o →
      o.row.id = r.id ∧ o.row.ready = r.ready ∧ change? o.row = .ok none) :
    (changeRule change? write).Lawful := by
  have hcases : ∀ r o, (changeRule change? write).change r = .ok o →
      o.row.id = r.id ∧ o.row.ready = r.ready ∧ change? o.row = .ok none := by
    intro r o h
    obtain ⟨change, hchange, h⟩ := bind_eq_ok.mp h
    cases change with
    | none =>
      cases pure_eq_ok.mp h
      exact ⟨rfl, rfl, hchange⟩
    | some a => exact hwrite r a o hchange h
  refine ⟨fun r o h => (hcases r o h).1, fun r o h => (hcases r o h).2.1, fun r o h => ?_⟩
  exact bind_eq_ok.mpr ⟨none, (hcases r o h).2.2, rfl⟩

theorem fixRule_lawful {fix : ReportFix} : (fixRule issues clock fix actor).Lawful := by
  refine changeRule_lawful fun r a o hchange h => ?_
  obtain rfl := rewrite_eq_ok h
  unfold fixChange? at hchange
  obtain ⟨u, hunlinked, -⟩ := bind_eq_ok.mp hchange
  rw [ensure_eq_ok, Option.isNone_iff_eq_none] at hunlinked
  have hrow : ({ r with state := .resolved, fix := .of fix } : Report).settle issues =
      r.put none .resolved (.of fix) := by
    rw [← settle_put_resolved issues r, ← hunlinked]
    rfl
  dsimp only
  rw [hrow]
  refine ⟨rfl, rfl, ?_⟩
  simp [fixChange?, ensure, FixColumns.of, pure, Except.pure]

theorem ReportChange.set_keeps (r : Report) (change : ReportChange) :
    (change.set r).id = r.id ∧ (change.set r).ready = r.ready := by
  cases change with
  | state target => exact ⟨rfl, rfl⟩
  | unlink issue => exact ⟨rfl, rfl⟩

/-- A change that was made is not called for again. -/
theorem actionChange?_set {action : ReportStateAction} {change : ReportChange}
    (h : actionChange? action issues r = .ok (some change)) :
    actionChange? action issues ((change.set r).settle issues) = .ok none := by
  unfold actionChange? at h
  cases action with
  | reject =>
    dsimp only at h
    split at h
    · cases Except.ok.inj h
      have hstate : ((ReportChange.set r (.state .rejected)).settle issues).state = .rejected :=
        settle_state_inactive (by simp [ReportChange.set])
      simp [actionChange?, hstate]
    · cases Except.ok.inj h
  | confirm =>
    cases hs : r.state <;> cases hd : r.issueId <;> rw [hs, hd] at h <;> dsimp only at h <;>
      cases h
    rename_i d
    have hactive := IssueState.reportState_eq (issueState? issues d)
    have hstate : ((ReportChange.set r (.state (IssueState.reportState
        (issueState? issues d)))).settle issues).state =
        IssueState.reportState (issueState? issues d) := settle_state_linked hd hactive
    unfold actionChange?
    dsimp only
    rw [hstate]
    rcases hactive with hactive | hactive <;> rw [hactive]
  | returnToTriage =>
    have htriage : (change.set r).issueId = none ∧ (change.set r).state = .triage := by
      cases hs : r.state <;> cases hd : r.issueId <;> rw [hs, hd] at h <;> dsimp only at h <;>
        cases h <;> simp [ReportChange.set, hd]
    have hstate : ((change.set r).settle issues).state = .triage := by
      rw [settle_state_inactive (by rw [htriage.2]; decide), htriage.2]
    have hissue : ((change.set r).settle issues).issueId = none := by
      rw [settle_issueId, htriage.1]
    unfold actionChange?
    dsimp only
    rw [hstate, hissue]

theorem actionRule_lawful {action : ReportStateAction} :
    (actionRule issues clock action actor reason).Lawful := by
  refine changeRule_lawful fun r change o hchange h => ?_
  obtain rfl := rewrite_eq_ok h
  obtain ⟨hid, hready⟩ := change.set_keeps r
  exact ⟨(settle_id _).trans hid, settle_ready.trans hready, actionChange?_set hchange⟩

/-! ## What the rules log -/

theorem linkRule_about {issueId : IssueId}
    (h : (linkRule issues clock issueId actor).change r = .ok o) :
    o.count = 0 ∧ (r.issueId = none ∨ r.issueId = some issueId) ∧
      ∀ e ∈ o.log, e.entity = .report r.id := by
  obtain ⟨issueState, -, h⟩ := bind_eq_ok.mp h
  dsimp only at h
  split at h
  · rename_i hsame
    cases pure_eq_ok.mp h
    exact ⟨rfl, .inr hsame.1, fun e he => (by cases he)⟩
  · obtain ⟨u, hissue, h⟩ := bind_eq_ok.mp h
    rw [ensure_eq_ok, Bool.or_eq_true, Option.isNone_iff_eq_none, decide_eq_true_eq] at hissue
    rw [rewrite_eq_ok h]
    refine ⟨rfl, hissue, fun e he => ?_⟩
    rcases List.mem_append.mp he with he | he <;> split at he <;> simp at he <;> rw [he] <;> rfl

theorem changeRule_about {α : Type} {change? : Report → Except AppError (Option α)}
    {write : Report → α → Except AppError (Outcome Report AuditEvent)}
    (hwrite : ∀ r a o, write r a = .ok o → ∀ e ∈ o.log, e.entity = .report r.id)
    (h : (changeRule change? write).change r = .ok o) : ∀ e ∈ o.log, e.entity = .report r.id := by
  obtain ⟨change, -, h⟩ := bind_eq_ok.mp h
  cases change with
  | none =>
    cases pure_eq_ok.mp h
    exact fun e he => (by cases he)
  | some a => exact hwrite r a o h

theorem fixRule_about {fix : ReportFix} (h : (fixRule issues clock fix actor).change r = .ok o) :
    ∀ e ∈ o.log, e.entity = .report r.id := by
  refine changeRule_about (fun r a o h e he => ?_) h
  rw [rewrite_eq_ok h] at he
  rw [List.mem_singleton.mp he]

theorem actionRule_about {action : ReportStateAction}
    (h : (actionRule issues clock action actor reason).change r = .ok o) :
    ∀ e ∈ o.log, e.entity = .report r.id := by
  refine changeRule_about (fun r change o h e he => ?_) h
  rw [rewrite_eq_ok h] at he
  cases change with
  | state target =>
    rw [List.mem_singleton.mp he]
    rfl
  | unlink issue =>
    rcases List.mem_cons.mp he with rfl | he
    · rfl
    · split at he <;> simp at he
      rw [he]
      rfl

end

end LadybirdReports.Admin
