import LadybirdReports.Admin.Following
import LadybirdReports.Admin.Issues

/-!
# Changes

Every operation is a sequence of a few kinds of changes (`Change`): a report comes in, reports move,
a report is deleted, an issue is created, follows GitHub, is rejected or is merged. What some
changes need a licence for (`Cause`) is what they do that the store is to avoid; an invariant that
such a change would break is kept by the runs that give no licence for it. `Database.Wf` needs none
(`Change.wf`).
-/

namespace LadybirdReports.Admin

open Forest

/-- What a change may be licensed to do. -/
inductive Cause
  /-- Change the state or the fix of a report that is rejected or that a fix resolved. -/
  | override
  /-- Make a report active that is on a rejected issue. -/
  | revive
  /-- Merge an issue that is rejected. -/
  | unreject
  /-- Have an issue track another GitHub issue with no trace of the former. -/
  | forget
  /-- Create an issue for a GitHub issue that is tracked. -/
  | again
  /-- Change the state of a report with no event. -/
  | unrecorded
  /-- Delete an event from the history of a report that is there. -/
  | lose
  /-- Take in a report under an ID that has a history. -/
  | reuse
  /-- Delete a report. -/
  | purge
  deriving DecidableEq, Repr

/-- The report is as a maintainer decided: rejected, or resolved with a fix. -/
def Report.Decided (r : Report) : Prop := r.state = .rejected ∨ r.fix ≠ .null

instance (r : Report) : Decidable r.Decided := by
  unfold Report.Decided; infer_instance

/-- The issue tracks a GitHub issue, or did before. -/
def Issue.Tracks (i : Issue) (aliases : List GithubAlias) (identity : GithubIdentity) : Prop :=
  i.identity = identity ∨ ∃ a ∈ aliases, a.issueId = i.id ∧ a.identity = identity

/-- What an issue was merged into. -/
def mergedInto? (issues : List Issue) (id : IssueId) : Option IssueId :=
  (issues.find? (·.id = id)).bind (·.mergedInto)

/-! ## Kinds of changes -/

/-- What becomes of one report while the issues stay as they are. -/
inductive Move (may : Cause → Prop) (issues : List Issue) (r : Report) : Report → Prop
  | keep : Move may issues r r
  | store : Move may issues r { r with storageState := .ready }
  | age (source : Option String) (expiresAt : Option Timestamp) :
      Move may issues r { r with sourceClientKey := source, expiresAt := expiresAt }
  | reject (decided : r.Decided → may .override) :
      Move may issues r (r.put r.issueId .rejected .null)
  | triage (decided : r.Decided → may .override) : Move may issues r (r.put none .triage .null)
  | fix (fix : ReportFix) (decided : r.Decided → may .override) (unlinked : r.issueId = none) :
      Move may issues r (r.put none .resolved (.of fix))
  | follow (i : Issue) (mem : i ∈ issues) (unmerged : i.mergedInto = none)
      (active : i.state = .rejected → may .revive) (decided : r.Decided → may .override) :
      Move may issues r (r.put (some i.id) (IssueState.reportState (some i.state)) .null)

/-- What becomes of the GitHub issues that an issue tracks when its row changes. -/
inductive Retrack (may : Cause → Prop) (db db' : Database) (i i' : Issue) : Prop
  | same (identity : i'.identity = i.identity) (aliases : db'.aliases = db.aliases)
  | replaced (a : GithubAlias) (aliases : db'.aliases = db.aliases ++ [a])
      (issue : a.issueId = i.id) (former : a.identity = i.identity)
      (untracked : ∀ j ∈ db.issues, j.state ≠ .rejected → ¬ j.Tracks db.aliases i'.identity)
  | rewritten (forget : may .forget) (aliases : db'.aliases = db.aliases)

/-- The row of an issue, replaced. -/
def replaceIssue (i : Issue) (issues : List Issue) : List Issue :=
  issues.map fun j => if j.id = i.id then i else j

/-- An issue and what was merged into it, rejected. -/
def rejectAll (issues : List Issue) (id : IssueId) : List Issue :=
  issues.map fun j =>
    if j.id = id ∨ j.id ∈ mergedSources issues id then { j with state := .rejected } else j

/-- A report of an issue that is rejected. -/
def Report.ofRejected (r : Report) (issue : IssueId) (action : IssueReportAction) : Report :=
  if r.issueId = some issue then
    match action with
    | .reject => r.put (some issue) .rejected .null
    | .unlink => r.put none .triage .null
  else r

inductive Kind (may : Cause → Prop) (db db' : Database) : Prop
  | accept (r : Report) (fresh : ∀ s ∈ db.reports, s.id ≠ r.id)
      (start : r.issueId = none ∧ r.state = .triage ∧ r.fix = .null)
      (unnamed : history db.events r.id = [] ∨ may .reuse)
      (reports : db'.reports = db.reports ++ [r]) (issues : db'.issues = db.issues)
      (aliases : db'.aliases = db.aliases)
  | move (g : Report → Report) (move : ∀ r ∈ db.reports, Move may db.issues r (g r))
      (reports : db'.reports = db.reports.map g) (issues : db'.issues = db.issues)
      (aliases : db'.aliases = db.aliases)
  | purge (id : ReportId) (purge : may .purge)
      (reports : db'.reports = db.reports.filter (·.id ≠ id)) (issues : db'.issues = db.issues)
      (aliases : db'.aliases = db.aliases)
  | create (i : Issue) (fresh : ∀ j ∈ db.issues, j.id ≠ i.id) (unmerged : i.mergedInto = none)
      (tracking : i.state = .tracking i.githubState)
      (first : ∀ j ∈ db.issues, j.state ≠ .rejected → j.Tracks db.aliases i.identity → may .again)
      (reports : db'.reports = db.reports) (issues : db'.issues = db.issues ++ [i])
      (aliases : db'.aliases = db.aliases)
  | track (i i' : Issue) (mem : i ∈ db.issues) (notRejected : i.state ≠ .rejected)
      (id : i'.id = i.id) (merged : i'.mergedInto = i.mergedInto)
      (tracking : i'.state = .tracking i'.githubState) (retrack : Retrack may db db' i i')
      (reports : db'.reports = db.reports.map (·.followIssueStateOnReport db'.issues))
      (issues : db'.issues = replaceIssue i' db.issues)
  | reject (i : Issue) (mem : i ∈ db.issues) (action : IssueReportAction)
      (decided : may .override)
      (reports : db'.reports = db.reports.map (·.ofRejected i.id action))
      (issues : db'.issues = rejectAll db.issues i.id) (aliases : db'.aliases = db.aliases)
  | merge (source source' destination : Issue) (mem : source ∈ db.issues)
      (mem' : destination ∈ db.issues) (unmerged : source.mergedInto = none)
      (closed : source.githubState = .closed) (rejected : source.state = .rejected → may .unreject)
      (active : destination.mergedInto = none ∧ destination.state ≠ .rejected)
      (other : destination.id ≠ source.id) (empty : ∀ r ∈ db.reports, r.issueId ≠ some source.id)
      (id : source'.id = source.id) (into : source'.mergedInto = some destination.id)
      (resolved : source'.state = .resolved) (github : source'.githubState = source.githubState)
      (identity : source'.identity = source.identity)
      (reports : db'.reports = db.reports) (issues : db'.issues = replaceIssue source' db.issues)
      (aliases : db'.aliases = db.aliases)

/-- Of what was recorded, the history of every report that is there is kept. What is recorded then
is about reports that are there, and records what becomes of each. -/
def Recorded (may : Cause → Prop) (db db' : Database) : Prop :=
  ∃ kept events, db'.events = kept ++ events ∧ kept.Sublist db.events ∧
    (may .lose ∨ ∀ r ∈ db.reports, history kept r.id = history db.events r.id) ∧
    (∀ id, (∀ r ∈ db.reports, r.id ≠ id) → history events id = []) ∧
    (may .unrecorded ∨ ∀ r ∈ db.reports, ∀ r' ∈ db'.reports, r'.id = r.id →
      replay (history events r.id) r.standing = some r'.standing)

/-- Nothing that was recorded is deleted. -/
theorem Recorded.of_append {may : Cause → Prop} {db db' : Database} (events : List AuditEvent)
    (hevents : db'.events = db.events ++ events)
    (habout : ∀ id, (∀ r ∈ db.reports, r.id ≠ id) → history events id = [])
    (hrecords : may .unrecorded ∨ ∀ r ∈ db.reports, ∀ r' ∈ db'.reports, r'.id = r.id →
      replay (history events r.id) r.standing = some r'.standing) : Recorded may db db' :=
  ⟨db.events, events, hevents, List.Sublist.refl _, .inr fun _ _ => rfl, habout, hrecords⟩

structure Change (may : Cause → Prop) (db db' : Database) : Prop where
  kind : Kind may db db'
  recorded : Recorded may db db'

/-- What holds of the tables at all times. -/
structure Database.Wf (db : Database) : Prop where
  reportIds : (db.reports.map (·.id)).Nodup
  issueIds : (db.issues.map (·.id)).Nodup
  settled : ∀ r ∈ db.reports, r.Settled db.issues
  tracking : ∀ i ∈ db.issues, i.state ≠ .rejected → i.state = .tracking i.githubState
  target : ∀ i ∈ db.issues, ∀ d, i.mergedInto = some d → ∃ j ∈ db.issues, j.id = d
  forest : IsForest (mergedInto? db.issues)
  rejected : ∀ i ∈ db.issues, ∀ j ∈ db.issues, i.mergedInto = some j.id →
    j.state = .rejected → i.state = .rejected

/-! ## Lookups in the tables -/

section

variable {issues : List Issue} {i j : Issue}

theorem mergedInto?_of_mem (hids : (issues.map (·.id)).Nodup) (hi : i ∈ issues) :
    mergedInto? issues i.id = i.mergedInto := by
  unfold mergedInto?
  rw [Rows.find?_key hids hi, Option.bind_some]

theorem mergedInto?_eq_some {id d : IssueId} (h : mergedInto? issues id = some d) :
    ∃ i ∈ issues, i.id = id ∧ i.mergedInto = some d := by
  obtain ⟨i, hi, hd⟩ := Option.bind_eq_some_iff.mp h
  exact ⟨i, List.mem_of_find?_eq_some hi, by simpa using List.find?_some hi, hd⟩

/-- An update of issues that leaves keys and merges alone. -/
theorem mergedInto?_map {f : Issue → Issue} (hid : ∀ i, (f i).id = i.id)
    (hmerged : ∀ i ∈ issues, (f i).mergedInto = i.mergedInto) :
    mergedInto? (issues.map f) = mergedInto? issues := by
  funext id
  unfold mergedInto?
  rw [Rows.find?_map_key hid]
  cases h : issues.find? (·.id = id) with
  | none => rfl
  | some i => exact hmerged i (List.mem_of_find?_eq_some h)

theorem mergedInto?_append (hi : i.mergedInto = none) :
    mergedInto? (issues ++ [i]) = mergedInto? issues := by
  funext id
  unfold mergedInto?
  rw [List.find?_append]
  cases h : issues.find? (·.id = id) with
  | some j => rfl
  | none =>
    rw [Option.none_or, List.find?_singleton]
    split
    · exact hi
    · rfl

@[simp] theorem replaceIssue_ids :
    (replaceIssue i issues).map (·.id) = issues.map (·.id) := by
  refine Rows.map_key fun k _ => ?_
  split
  · rename_i h; rw [h]
  · rfl

theorem mem_replaceIssue (hj : j ∈ issues) :
    (if j.id = i.id then i else j) ∈ replaceIssue i issues :=
  List.mem_map_of_mem hj

/-- What was merged into an issue is found, whatever the number of merges between. -/
theorem mem_mergedSources {id x : IssueId} (hids : (issues.map (·.id)).Nodup)
    (hforest : IsForest (mergedInto? issues)) :
    x ∈ mergedSources issues id ↔ Above (mergedInto? issues) x id := by
  unfold mergedSources
  refine ⟨above_of_mem_descendants fun a c hc => ?_,
    mem_descendants hforest.not_above_self (fun a c hc => ?_) (issues.map (·.id))
      (fun y hy => ?_) (by simp)⟩
  · obtain ⟨i, hi, rfl⟩ := List.mem_map.mp hc
    rw [List.mem_filter] at hi
    rw [mergedInto?_of_mem hids hi.1]
    simpa using hi.2
  · obtain ⟨i, hi, rfl, hd⟩ := mergedInto?_eq_some hc
    exact List.mem_map_of_mem (List.mem_filter.mpr ⟨hi, by simpa using hd⟩)
  · obtain ⟨b, hb, -⟩ := Relation.TransGen.head'_iff.mp hy
    obtain ⟨i, hi, rfl, -⟩ := mergedInto?_eq_some hb
    exact List.mem_map_of_mem hi

end

end LadybirdReports.Admin
