import LadybirdReports.Admin.Statements
import LadybirdReports.Lib.Rows

/-!
# The history of a report

The `report.update_state` and `report.update_issue` events of a report, in order, are its history.
Replaying it from a state and an issue goes on only while each event starts from what the one before
it led to. `Tells events reports g` says that the events are what changing each report by `g` is
recorded as.
-/

namespace LadybirdReports.Admin

inductive HistoryEntry
  | state (previous next : ReportState)
  | issue (previous next : Option IssueId)
  deriving DecidableEq, Repr

/-- The state of a report and the issue it is on. -/
abbrev Standing := ReportState × Option IssueId

def Report.standing (r : Report) : Standing := (r.state, r.issueId)

def AuditDetails.toEntry : AuditDetails → Option HistoryEntry
  | .reportUpdateState previous next _ _ _ => some (.state previous next)
  | .reportUpdateIssue previous next _ _ => some (.issue previous next)
  | _ => none

def AuditEvent.toEntry (event : AuditEvent) (id : ReportId) : Option HistoryEntry :=
  match event.entity with
  | .report report => if report = id then event.details.toEntry else none
  | .issue _ => none

def history (events : List AuditEvent) (id : ReportId) : List HistoryEntry :=
  events.filterMap (·.toEntry id)

/-- The issues that a report was moved from and to. -/
def moves (events : List AuditEvent) (id : ReportId) : List (Option IssueId × Option IssueId) :=
  (history events id).filterMap fun
    | .issue previous next => some (previous, next)
    | .state _ _ => none

/-- An event leads on from the value it says was there. -/
def HistoryEntry.apply : Standing → HistoryEntry → Option Standing
  | (s, i), .state previous next => if s = previous then some (next, i) else none
  | (s, i), .issue previous next => if i = previous then some (s, next) else none

def replay (entries : List HistoryEntry) (start : Standing) : Option Standing :=
  entries.foldlM HistoryEntry.apply start

section

variable {events events' : List AuditEvent} {reports : List Report} {g h : Report → Report}
  {r : Report} {id : ReportId}

@[simp] theorem history_nil : history [] id = [] := rfl

@[simp] theorem history_append :
    history (events ++ events') id = history events id ++ history events' id :=
  List.filterMap_append

/-- One event of a report. -/
theorem history_report (actor : Option ℤ) (report : ReportId) (details : AuditDetails)
    (createdAt : Timestamp) : history [⟨actor, .report report, details, createdAt⟩] id =
      if report = id then details.toEntry.toList else [] := by
  by_cases h : report = id
  · cases hd : details.toEntry <;> simp [history, AuditEvent.toEntry, h, hd]
  · simp [history, AuditEvent.toEntry, h]

@[simp] theorem history_issue (actor : Option ℤ) (issue : IssueId) (details : AuditDetails)
    (createdAt : Timestamp) : history [⟨actor, .issue issue, details, createdAt⟩] id = [] := rfl

/-- One event for each selected report. -/
theorem history_selected (hnodup : (reports.map (·.id)).Nodup) (hr : r ∈ reports)
    (actor : Option ℤ) (p : Report → Bool) (details : Report → AuditDetails)
    (createdAt : Timestamp) :
    history ((reports.filter p).map fun r => ⟨actor, .report r.id, details r, createdAt⟩) r.id =
      if p r then (details r).toEntry.toList else [] := by
  unfold history
  rw [List.filterMap_map]
  exact Rows.filterMap_selected hnodup hr p fun r => (details r).toEntry

theorem history_selected_of_not_mem (hid : ∀ r ∈ reports, r.id ≠ id) (actor : Option ℤ)
    (p : Report → Bool) (details : Report → AuditDetails) (createdAt : Timestamp) :
    history ((reports.filter p).map fun r => ⟨actor, .report r.id, details r, createdAt⟩) id =
      [] := by
  unfold history
  rw [List.filterMap_map]
  exact Rows.filterMap_selected_of_not_mem hid p fun r => (details r).toEntry

@[simp] theorem replay_nil (start : Standing) : replay [] start = some start := rfl

theorem replay_cons (entry : HistoryEntry) (entries : List HistoryEntry) (start : Standing) :
    replay (entry :: entries) start = (entry.apply start).bind (replay entries) := rfl

theorem replay_append (entries entries' : List HistoryEntry) (start : Standing) :
    replay (entries ++ entries') start = (replay entries start).bind (replay entries') :=
  List.foldlM_append

/-- The events move no report from an issue to another. -/
def MovesNone (events : List AuditEvent) : Prop := ∀ id, moves events id = []

@[simp] theorem moves_append :
    moves (events ++ events') id = moves events id ++ moves events' id := by
  unfold moves
  rw [history_append, List.filterMap_append]

theorem MovesNone.nil : MovesNone [] := fun _ => rfl

theorem MovesNone.append (h : MovesNone events) (h' : MovesNone events') :
    MovesNone (events ++ events') := fun id => by rw [moves_append, h id, h' id, List.append_nil]

theorem MovesNone.of_silent (h : ∀ id, history events id = []) : MovesNone events := fun id => by
  unfold moves
  rw [h id]
  rfl

theorem MovesNone.of_states (reports : List Report) (previous next : ReportState)
    (source : Option String) (createdAt : Timestamp) : MovesNone (reports.map fun r =>
      ⟨none, .report r.id, .reportUpdateState previous next none source none, createdAt⟩) := by
  intro id
  unfold moves history
  rw [List.filterMap_map, List.filterMap_filterMap]
  refine List.filterMap_eq_nil_iff.mpr fun r _ => ?_
  dsimp only [Function.comp_apply, AuditEvent.toEntry]
  split <;> rfl

/-- The events record that each report is changed by `g`, and are about no others. -/
structure Tells (events : List AuditEvent) (reports : List Report) (g : Report → Report) :
    Prop where
  about : ∀ id, (∀ r ∈ reports, r.id ≠ id) → history events id = []
  replays : ∀ r ∈ reports, replay (history events r.id) r.standing = some (g r).standing

theorem Tells.nil (hg : ∀ r ∈ reports, (g r).standing = r.standing) : Tells [] reports g where
  about _ _ := rfl
  replays r hr := by rw [history_nil, replay_nil, hg r hr]

theorem Tells.congr (ht : Tells events reports g)
    (hgh : ∀ r ∈ reports, (h r).standing = (g r).standing) : Tells events reports h where
  about := ht.about
  replays r hr := by rw [ht.replays r hr, hgh r hr]

theorem Tells.append (ht : Tells events reports g) (ht' : Tells events' (reports.map g) h)
    (hid : ∀ r ∈ reports, (g r).id = r.id) : Tells (events ++ events') reports (h ∘ g) where
  about id hne := by
    have hne' : ∀ r ∈ reports.map g, r.id ≠ id := by
      intro r hr
      obtain ⟨s, hs, rfl⟩ := List.mem_map.mp hr
      rw [hid s hs]
      exact hne s hs
    rw [history_append, ht.about id hne, ht'.about id hne', List.append_nil]
  replays r hr := by
    have hstep := ht'.replays (g r) (List.mem_map_of_mem hr)
    rw [hid r hr] at hstep
    rw [history_append, replay_append, ht.replays r hr, Option.bind_some, hstep]
    rfl

/-- Events that are in no history add nothing. -/
theorem Tells.append_silent (ht : Tells events reports g)
    (hsilent : ∀ id, history events' id = []) : Tells (events ++ events') reports g where
  about id hne := by rw [history_append, ht.about id hne, hsilent, List.append_nil]
  replays r hr := by rw [history_append, hsilent, List.append_nil, ht.replays r hr]

end

end LadybirdReports.Admin
