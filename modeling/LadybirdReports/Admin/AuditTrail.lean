import LadybirdReports.Admin.Runs

/-!
# The audit trail

A report starts in triage and on no issue. Replaying its history from there leads to the state and
the issue that are stored, and each event starts from what the one before it led to, in the runs in
which no merge changes the state of a report, no sweep deletes an event of its history for its age,
and no ID is given twice (`replay_history`).
-/

namespace LadybirdReports.Admin

open Transition

section

variable {db db' : Database} {ops : List Operation} {r : Report}

/-- The history of every report chains, and leads to what is stored. -/
def HistoryComplete (db : Database) : Prop :=
  ∀ r ∈ db.reports, replay (history db.events r.id) (.triage, none) = some r.standing

instance (db : Database) : Decidable (HistoryComplete db) := by
  unfold HistoryComplete; infer_instance

/-- No merge that changes the state of a report, no sweep that deletes an event from the history of
one, and no report that comes in under the ID of one that was deleted. -/
def KeepsHistory (db : Database) (op : Operation) : Prop :=
  op.changesUnrecorded db = false ∧ op.losesHistory db = false ∧ op.reusesId db = false

instance (db : Database) (op : Operation) : Decidable (KeepsHistory db op) := by
  unfold KeepsHistory; infer_instance

/-- A report was there before a change, or comes in with it. -/
theorem Kind.mem_reports {may : Cause → Prop} (h : Kind may db db') (hr : r ∈ db'.reports) :
    (∃ s ∈ db.reports, s.id = r.id) ∨
      ((∀ s ∈ db.reports, s.id ≠ r.id) ∧ r.standing = (.triage, none) ∧
        (history db.events r.id = [] ∨ may .reuse)) := by
  have hmap : ∀ g : Report → Report, (∀ s ∈ db.reports, (g s).id = s.id) →
      db'.reports = db.reports.map g → ∃ s ∈ db.reports, s.id = r.id := by
    intro g hid hreports
    rw [hreports] at hr
    obtain ⟨s, hs, rfl⟩ := List.mem_map.mp hr
    exact ⟨s, hs, (hid s hs).symm⟩
  cases h with
  | accept s fresh start unnamed reports issues aliases =>
    rw [reports] at hr
    rcases List.mem_append.mp hr with hr | hr
    · exact .inl ⟨r, hr, rfl⟩
    · rw [List.mem_singleton.mp hr]
      exact .inr ⟨fresh, by rw [Report.standing, start.1, start.2.1], unnamed⟩
  | move g move reports issues aliases =>
    exact .inl (hmap g (fun s hs => (move s hs).id_eq) reports)
  | purge id purge reports issues aliases =>
    rw [reports] at hr
    exact .inl ⟨r, (List.mem_filter.mp hr).1, rfl⟩
  | create i fresh unmerged tracking first reports issues aliases =>
    exact .inl ⟨r, reports ▸ hr, rfl⟩
  | track i i' mem notRejected id merged tracking retrack reports issues =>
    exact .inl (hmap _ (fun s _ => followIssueStateOnReport_id s _) reports)
  | reject i mem action decided reports issues aliases =>
    exact .inl (hmap _ (fun _ _ => ofRejected_id) reports)
  | merge source source' destination mem mem' unmerged closed rejected active other empty id into
      resolved github identity reports issues aliases =>
    exact .inl ⟨r, reports ▸ hr, rfl⟩

/-- What is deleted takes nothing from a history that is empty. -/
theorem history_eq_nil_of_sublist {kept events : List AuditEvent} {id : ReportId}
    (hkept : kept.Sublist events) (h : history events id = []) : history kept id = [] :=
  List.sublist_nil.mp (h ▸ hkept.filterMap _)

theorem Change.historyComplete {may : Cause → Prop} (hrecorded : ¬ may .unrecorded)
    (hkept : ¬ may .lose) (hnew : ¬ may .reuse) (h : Change may db db')
    (hcomplete : HistoryComplete db) : HistoryComplete db' := by
  intro r hr
  obtain ⟨kept, events, hevents, hsub, hsame, habout, hrecords⟩ := h.recorded
  rw [hevents, history_append, replay_append]
  rcases h.kind.mem_reports hr with ⟨s, hs, hid⟩ | ⟨hfresh, hstart, hunnamed⟩
  · rw [← hid, hsame.resolve_left hkept s hs, hcomplete s hs, Option.bind_some]
    exact hrecords.resolve_left hrecorded s hs r hr hid.symm
  · rw [history_eq_nil_of_sublist hsub (hunnamed.resolve_right hnew), habout r.id hfresh, hstart]
    rfl

/-- In such a run, replaying the events of a report from triage and no issue ends at its state and
its issue. -/
theorem replay_history (h : Run (Where KeepsHistory Step) .empty ops db) (hr : r ∈ db.reports) :
    replay (history db.events r.id) (.triage, none) = some (r.state, r.issueId) := by
  refine invariant_of_changes (I := HistoryComplete)
    (fun cause => cause = .unrecorded ∨ cause = .lose ∨ cause = .reuse)
    (fun s op hok cause hcause => ?_) (fun may s t hmay hwf hchange => ?_) h
    Database.wf_empty (fun s hs => by cases hs) r hr
  · obtain ⟨hunrecorded, hloses, hreuses⟩ := hok
    rcases hcause with rfl | rfl | rfl <;> intro hc
    · rw [Operation.May, hunrecorded] at hc; cases hc
    · rw [Operation.May, hloses] at hc; cases hc
    · rw [Operation.May, hreuses] at hc; cases hc
  · exact hchange.historyComplete (hmay _ (.inl rfl)) (hmay _ (.inr (.inl rfl)))
      (hmay _ (.inr (.inr rfl)))

/-- A report is linked, rejected and linked again, while another expires: two days later its source
is cleared, and after forty days it is deleted. -/
def sampleMonths : List Operation :=
  submitLinked 1 "1" ++ submit 2 ++
    [.setReportState ⟨1⟩ .rejected 7 none, .passTime (2 * 86400000000), .sweepExpiredIngestionState,
      .beginMaintenanceSweep 30 24 365, .passTime (38 * 86400000000),
      .setReportState ⟨1⟩ .confirmed 7 none, .finishReportPurge ⟨2⟩,
      .beginMaintenanceSweep 30 24 365]

theorem linked_report_history :
    (execAll sampleMonths .empty).findReport? ⟨2⟩ = none ∧
      replay (history (execAll sampleMonths .empty).events ⟨1⟩) (.triage, none) =
        some (.confirmed, some ⟨1⟩) :=
  ⟨by decide +kernel,
    (replay_history (run_execAll (by decide +kernel))
      (mem_findReport? ⟨1⟩ (by decide +kernel))).trans (by decide +kernel)⟩

/-- A resolved report goes to an open issue with its duplicate: its last event has it resolved. -/
theorem merge_leaves_history_behind :
    let db := execAll (submitLinked 1 "1" ++ queueDuplicate 1 "1" ++ [finishFirst]) .empty
    db.IsReachable ∧ ¬ HistoryComplete db :=
  ⟨isReachable_execAll _, by decide +kernel⟩

end

end LadybirdReports.Admin
