import LadybirdReports.Admin.History
import LadybirdReports.Lib.Result

/-!
# Reports follow their issues

What the triggers keep: a linked report that is not rejected has the state its issue calls for, an
unlinked report is not confirmed, and a fix is there just when one resolved the report
(`Report.Settled`). `updateReports_eq_ok` and `updateIssues_eq_ok` say what a statement that
succeeds has done, with what its triggers did.
-/

namespace LadybirdReports.Admin

open Rust

structure Report.Settled (issues : List Issue) (r : Report) : Prop where
  linked : ∀ d, r.issueId = some d → ∃ i ∈ issues, i.id = d ∧ i.mergedInto = none ∧
    (r.state ≠ .rejected → r.state = IssueState.reportState (some i.state))
  unlinked : r.issueId = none → r.state ≠ .confirmed
  fix : r.fix.Complete ↔ r.state = .resolved ∧ r.issueId = none
  fixOrNull : r.fix.Complete ∨ r.fix = .null

section

variable {issues issues' : List Issue} {i : Issue} {r : Report} {d : IssueId}

theorem FixColumns.complete_of (fix : ReportFix) : (FixColumns.of fix).Complete :=
  ⟨rfl, rfl, rfl, rfl⟩

theorem FixColumns.not_complete_null : ¬ FixColumns.null.Complete := by decide

theorem Report.Settled.fix_eq_null (h : r.Settled issues)
    (hnot : ¬ (r.state = .resolved ∧ r.issueId = none)) : r.fix = .null :=
  h.fixOrNull.resolve_left fun hc => hnot (h.fix.mp hc)

theorem Report.Settled.fix_eq_null_of_linked (h : r.Settled issues) (hd : r.issueId = some d) :
    r.fix = .null :=
  h.fix_eq_null fun hn => by rw [hd] at hn; cases hn.2

/-! ## The triggers of a row -/

/-- The report with another issue, state and fix. -/
def Report.put (r : Report) (issue : Option IssueId) (state : ReportState) (fix : FixColumns) :
    Report :=
  { r with issueId := issue, state := state, fix := fix }

section

variable {o : Option IssueId} {s : ReportState} {f : FixColumns}

@[simp] theorem put_id : (r.put o s f).id = r.id := rfl

@[simp] theorem put_issueId : (r.put o s f).issueId = o := rfl

@[simp] theorem put_state : (r.put o s f).state = s := rfl

@[simp] theorem put_fix : (r.put o s f).fix = f := rfl

@[simp] theorem put_standing : (r.put o s f).standing = (s, o) := rfl

theorem put_self (r : Report) : r.put r.issueId r.state r.fix = r := rfl

end

theorem IssueState.reportState_eq (state : Option IssueState) :
    IssueState.reportState state = .confirmed ∨ IssueState.reportState state = .resolved := by
  unfold IssueState.reportState
  split
  · exact .inr rfl
  · exact .inl rfl

theorem issueState?_of_mem (hids : (issues.map (·.id)).Nodup) (hi : i ∈ issues) :
    issueState? issues i.id = some i.state := by
  unfold issueState?
  rw [Rows.find?_key hids hi, Option.map_some]

section

variable (r : Report) (issues : List Issue)

theorem followIssueStateOnReport_of_linked (hd : r.issueId = some d)
    (hs : r.state = .confirmed ∨ r.state = .resolved) :
    r.followIssueStateOnReport issues =
      r.put (some d) (IssueState.reportState (issueState? issues d)) r.fix := by
  unfold Report.followIssueStateOnReport Report.put
  rw [hd]
  exact if_pos hs

theorem followIssueStateOnReport_of_inactive
    (hs : ¬ (r.state = .confirmed ∨ r.state = .resolved)) :
    r.followIssueStateOnReport issues = r := by
  unfold Report.followIssueStateOnReport
  split
  · exact if_neg hs
  · rfl

theorem followIssueStateOnReport_of_unlinked (hd : r.issueId = none) :
    r.followIssueStateOnReport issues = r := by
  unfold Report.followIssueStateOnReport
  rw [hd]

/-- The trigger only sets the state. -/
theorem followIssueStateOnReport_eq :
    ∃ s, r.followIssueStateOnReport issues = r.put r.issueId s r.fix := by
  cases hd : r.issueId with
  | none =>
    exact ⟨r.state, by rw [followIssueStateOnReport_of_unlinked r issues hd, ← hd, put_self]⟩
  | some d =>
    by_cases hs : r.state = .confirmed ∨ r.state = .resolved
    · exact ⟨_, followIssueStateOnReport_of_linked r issues hd hs⟩
    · exact ⟨r.state, by
        rw [followIssueStateOnReport_of_inactive r issues hs, ← hd, put_self]⟩

@[simp] theorem followIssueStateOnReport_id : (r.followIssueStateOnReport issues).id = r.id := by
  obtain ⟨s, h⟩ := followIssueStateOnReport_eq r issues
  rw [h, put_id]

@[simp] theorem followIssueStateOnReport_issueId :
    (r.followIssueStateOnReport issues).issueId = r.issueId := by
  obtain ⟨s, h⟩ := followIssueStateOnReport_eq r issues
  rw [h, put_issueId]

@[simp] theorem followIssueStateOnReport_fix :
    (r.followIssueStateOnReport issues).fix = r.fix := by
  obtain ⟨s, h⟩ := followIssueStateOnReport_eq r issues
  rw [h, put_fix]

/-- Following twice is following once. -/
theorem followIssueStateOnReport_idem :
    (r.followIssueStateOnReport issues).followIssueStateOnReport issues =
      r.followIssueStateOnReport issues := by
  by_cases hs : r.state = .confirmed ∨ r.state = .resolved
  · cases hd : r.issueId with
    | none =>
      rw [followIssueStateOnReport_of_unlinked r issues hd,
        followIssueStateOnReport_of_unlinked r issues hd]
    | some d =>
      rw [followIssueStateOnReport_of_linked r issues hd hs]
      exact followIssueStateOnReport_of_linked (r.put (some d) _ r.fix) issues rfl
        (IssueState.reportState_eq _)
  · rw [followIssueStateOnReport_of_inactive r issues hs,
      followIssueStateOnReport_of_inactive r issues hs]

end

theorem dropFix_eq (r : Report) (hfix : r.fix.Complete ∨ r.fix = .null)
    (h : r.state ≠ .resolved ∨ r.issueId.isSome) :
    r.dropFixOfUnresolvedReport = r.put r.issueId r.state .null := by
  unfold Report.dropFixOfUnresolvedReport
  rcases hfix with hfix | hfix
  · exact if_pos ⟨hfix.1, h⟩
  · rw [if_neg fun hc => by rw [hfix] at hc; cases hc.1]
    nth_rewrite 1 [← put_self r]
    rw [hfix]

section

variable {o : Option IssueId} {s : ReportState} {f : FixColumns}

/-- A report that is set to triage or rejected loses its fix. -/
theorem settle_put_inactive (issues : List Issue) (r : Report) (hs : s = .triage ∨ s = .rejected)
    (hfix : f.Complete ∨ f = .null) : (r.put o s f).settle issues = r.put o s .null := by
  have hactive : ¬ (s = .confirmed ∨ s = .resolved) := by
    rcases hs with rfl | rfl <;> decide
  unfold Report.settle
  rw [followIssueStateOnReport_of_inactive _ issues hactive]
  exact dropFix_eq _ hfix (.inl fun h => hactive (.inr h))

/-- A linked report that is set to confirmed or resolved takes the state its issue calls for. -/
theorem settle_put_linked (issues : List Issue) (r : Report) (hs : s = .confirmed ∨ s = .resolved)
    (hfix : f.Complete ∨ f = .null) :
    (r.put (some d) s f).settle issues =
      r.put (some d) (IssueState.reportState (issueState? issues d)) .null := by
  unfold Report.settle
  rw [followIssueStateOnReport_of_linked _ issues put_issueId hs]
  exact dropFix_eq _ hfix (.inr rfl)

/-- A report that a fix resolves keeps the fix. -/
theorem settle_put_resolved (issues : List Issue) (r : Report) :
    (r.put none .resolved f).settle issues = r.put none .resolved f := by
  unfold Report.settle Report.dropFixOfUnresolvedReport
  rw [followIssueStateOnReport_of_unlinked _ issues put_issueId]
  exact if_neg fun h => by rcases h.2 with h | h <;> simp at h

end

@[simp] theorem settle_id (r : Report) : (r.settle issues).id = r.id := by
  unfold Report.settle Report.dropFixOfUnresolvedReport
  split <;> exact followIssueStateOnReport_id r issues

end

/-! ## Updates of reports -/

namespace Database

section

variable {db db' : Database}

theorem updateReports_eq_ok {p : Report → Bool} {set : Report → Report}
    (h : db.updateReports p set = .ok db') :
    db' = { db with
      reports := db.reports.map fun r => if p r then (set r).settle db.issues else r } := by
  unfold updateReports at h
  obtain ⟨u, -, h⟩ := bind_eq_ok.mp h
  exact (pure_eq_ok.mp h).symm

theorem updateReports_clock {p : Report → Bool} {set : Report → Report}
    (h : db.updateReports p set = .ok db') : db'.clock = db.clock := by
  rw [updateReports_eq_ok h]

/-- Only what the condition says of the rows that are there matters. -/
theorem updateReports_congr {p q : Report → Bool} {set : Report → Report}
    (h : ∀ r ∈ db.reports, p r = q r) : db.updateReports p set = db.updateReports q set := by
  unfold updateReports
  rw [List.filter_congr h, List.map_congr_left fun r hr => by rw [h r hr]]

/-- The reports of some issues follow them. -/
def followIssues (issues : List Issue) (changed : List IssueId) (r : Report) : Report :=
  if r.issueId.any (· ∈ changed) then r.followIssueStateOnReport issues else r

@[simp] theorem followIssues_id {issues : List Issue} {changed : List IssueId} {r : Report} :
    (followIssues issues changed r).id = r.id := by
  unfold followIssues
  split
  · exact followIssueStateOnReport_id _ _
  · rfl

@[simp] theorem followIssues_issueId {issues : List Issue} {changed : List IssueId} {r : Report} :
    (followIssues issues changed r).issueId = r.issueId := by
  unfold followIssues
  split
  · exact followIssueStateOnReport_issueId _ _
  · rfl

@[simp] theorem followIssues_fix {issues : List Issue} {changed : List IssueId} {r : Report} :
    (followIssues issues changed r).fix = r.fix := by
  unfold followIssues
  split
  · exact followIssueStateOnReport_fix _ _
  · rfl

theorem followIssues_cons {issues : List Issue} {changed : List IssueId} {issue : IssueId}
    {r : Report} :
    followIssues issues changed (followIssues issues [issue] r) =
      followIssues issues (issue :: changed) r := by
  unfold followIssues
  cases hd : r.issueId with
  | none => simp [hd]
  | some d =>
    by_cases hi : d = issue
    · subst hi
      by_cases hc : d ∈ changed <;> simp [hd, hc, followIssueStateOnReport_idem]
    · simp [hd, hi]

/-- One branch of the trigger: the reports of the issue that are in the one state go to the other,
which is the one the issue calls for. -/
theorem followIssueState_eq_ok {issue : IssueId} {previous next : ReportState}
    (hids : (db.reports.map (·.id)).Nodup)
    (hfix : ∀ r ∈ db.reports, r.issueId.isSome → r.fix = .null)
    (hnext : next = IssueState.reportState (issueState? db.issues issue))
    (hboth : ∀ state : ReportState,
      (state = .confirmed ∨ state = .resolved) ↔ (state = previous ∨ state = next))
    (h : db.followIssueState issue previous next = .ok db') :
    ∃ events, db' = { db with
        reports := db.reports.map (followIssues db.issues [issue])
        events := db.events ++ events } ∧
      Tells events db.reports (followIssues db.issues [issue]) ∧ MovesNone events := by
  unfold followIssueState at h
  dsimp only at h
  obtain ⟨db₁, h₁, h⟩ := bind_eq_ok.mp h
  rw [updateReports_eq_ok h₁, pure_eq_ok] at h
  have hmoved : ∀ r ∈ db.reports, r.issueId = some issue ∧ r.state = previous →
      followIssues db.issues [issue] r = r.put (some issue) next .null := by
    rintro r hr ⟨hd, hs⟩
    unfold followIssues
    rw [if_pos (by simp [hd]),
      followIssueStateOnReport_of_linked r _ hd ((hboth _).mpr (.inl hs)), ← hnext,
      hfix r hr (by rw [hd]; rfl)]
  have hstays : ∀ r ∈ db.reports, ¬ (r.issueId = some issue ∧ r.state = previous) →
      followIssues db.issues [issue] r = r := by
    intro r hr hnot
    unfold followIssues
    split
    · rename_i hany
      have hd : r.issueId = some issue := by simpa [Option.any_eq_true] using hany
      have hs : r.state ≠ previous := fun hs => hnot ⟨hd, hs⟩
      by_cases hs' : r.state = next
      · rw [followIssueStateOnReport_of_linked r _ hd ((hboth _).mpr (.inr hs')), ← hnext, ← hs',
          ← hd, put_self]
      · exact followIssueStateOnReport_of_inactive r _ fun hc =>
          ((hboth _).mp hc).elim hs hs'
    · rfl
  have hrow : ∀ r ∈ db.reports,
      (if (r.issueId = some issue && r.state = previous : Bool)
        then ({ r with state := next } : Report).settle db.issues else r) =
      followIssues db.issues [issue] r := by
    intro r hr
    by_cases hp : r.issueId = some issue ∧ r.state = previous
    · have hput : ({ r with state := next } : Report) = r.put (some issue) next r.fix := by
        rw [← hp.1]; rfl
      rw [if_pos (by simpa using hp), hmoved r hr hp, hput,
        settle_put_linked _ r ((hboth next).mpr (.inr rfl))
          (.inr (hfix r hr (by rw [hp.1]; rfl))), ← hnext]
    · rw [if_neg (by simpa using hp), hstays r hr hp]
  refine ⟨(db.reports.filter fun r => r.issueId = some issue && r.state = previous).map fun r =>
      ⟨none, .report r.id, .reportUpdateState previous next none (some "issue") none, db.clock⟩,
    ?_, ⟨fun id hid => history_selected_of_not_mem hid none _ _ _, fun r hr => ?_⟩,
    .of_states _ previous next (some "issue") _⟩
  · rw [← h, ← List.map_congr_left hrow]
    rfl
  · rw [history_selected hids hr]
    by_cases hp : r.issueId = some issue ∧ r.state = previous
    · rw [if_pos (by simpa using hp), hmoved r hr hp]
      simp [AuditDetails.toEntry, replay_cons, HistoryEntry.apply, Report.standing, hp]
    · rw [if_neg (by simpa using hp), replay_nil, hstays r hr hp]

/-! ## Updates of issues -/

theorem followIssueStateOnIssue_eq_ok {issue : IssueId} {state : IssueState}
    (hids : (db.reports.map (·.id)).Nodup)
    (hfix : ∀ r ∈ db.reports, r.issueId.isSome → r.fix = .null)
    (hstate : issueState? db.issues issue = some state)
    (h : db.followIssueStateOnIssue issue state = .ok db') :
    ∃ events, db' = { db with
        reports := db.reports.map (followIssues db.issues [issue])
        events := db.events ++ events } ∧
      Tells events db.reports (followIssues db.issues [issue]) ∧ MovesNone events := by
  unfold followIssueStateOnIssue at h
  split at h
  · rename_i hs
    refine followIssueState_eq_ok hids hfix ?_ (fun s => Iff.rfl) h
    rw [hstate, hs]
    rfl
  · rename_i hs
    refine followIssueState_eq_ok hids hfix ?_ (fun s => or_comm) h
    unfold IssueState.reportState
    rw [hstate, if_neg fun hc => hs (Option.some.inj hc)]

/-- The trigger, for one issue after the other. -/
theorem foldlM_followIssueStateOnIssue_eq_ok (db : Database) {set : Issue → Issue}
    {changed : List Issue}    (hids : (db.reports.map (·.id)).Nodup)
    (hfix : ∀ r ∈ db.reports, r.issueId.isSome → r.fix = .null)
    (hstates : ∀ i ∈ changed, issueState? db.issues i.id = some (set i).state)
    (h : changed.foldlM (fun db i => db.followIssueStateOnIssue i.id (set i).state) db = .ok db') :
    ∃ events, db' = { db with
        reports := db.reports.map (followIssues db.issues (changed.map (·.id)))
        events := db.events ++ events } ∧
      Tells events db.reports (followIssues db.issues (changed.map (·.id))) ∧ MovesNone events := by
  induction changed generalizing db with
  | nil =>
    rw [List.foldlM_nil, pure_eq_ok] at h
    have hsame : ∀ r : Report, followIssues db.issues [] r = r := fun r => by
      unfold followIssues
      exact if_neg (by simp)
    refine ⟨[], ?_, Tells.nil fun r _ => by rw [List.map_nil, hsame], .nil⟩
    rw [← h, List.append_nil, List.map_nil, List.map_congr_left fun r _ => hsame r, List.map_id']
  | cons i changed ih =>
    rw [List.foldlM_cons, bind_eq_ok] at h
    obtain ⟨db₁, h₁, h⟩ := h
    obtain ⟨events₁, rfl, htells₁, hnone₁⟩ :=
      followIssueStateOnIssue_eq_ok hids hfix (hstates i List.mem_cons_self) h₁
    have hkey : ∀ r ∈ db.reports, (followIssues db.issues [i.id] r).id = r.id :=
      fun r _ => followIssues_id
    have hids' : ((db.reports.map (followIssues db.issues [i.id])).map (·.id)).Nodup := by
      rw [Rows.map_key hkey]; exact hids
    have hfix' : ∀ r ∈ db.reports.map (followIssues db.issues [i.id]),
        r.issueId.isSome → r.fix = .null := by
      intro r hr hd
      obtain ⟨s, hs, rfl⟩ := List.mem_map.mp hr
      rw [followIssues_issueId] at hd
      rw [followIssues_fix, hfix s hs hd]
    obtain ⟨events₂, rfl, htells₂, hnone₂⟩ :=
      ih ⟨_, _, _, _, _, _, _, _, _, _⟩ hids' hfix'
        (fun j hj => hstates j (List.mem_cons_of_mem _ hj)) h
    refine ⟨events₁ ++ events₂, ?_, ?_⟩
    · simp only [List.map_map, List.append_assoc, List.map_cons, Function.comp_def,
        followIssues_cons]
    · refine ⟨(htells₁.append htells₂ hkey).congr fun r _ => ?_, hnone₁.append hnone₂⟩
      rw [List.map_cons, Function.comp_apply, followIssues_cons]

/-- An update of issues that succeeds: its rows are set, the reports follow, with events for those
that change. -/
theorem updateIssues_eq_ok {p : Issue → Bool} {set : Issue → Issue}
    (hids : (db.reports.map (·.id)).Nodup) (hissues : (db.issues.map (·.id)).Nodup)
    (hset : ∀ i, (set i).id = i.id) (hsettled : ∀ r ∈ db.reports, r.Settled db.issues)
    (h : db.updateIssues p set = .ok db') :
    ∃ issues events, issues = db.issues.map (fun i => if p i then set i else i) ∧
      db' = { db with
        issues := issues
        reports := db.reports.map (·.followIssueStateOnReport issues)
        events := db.events ++ events } ∧
      Tells events db.reports (·.followIssueStateOnReport issues) ∧ MovesNone events ∧
      check (uniqueActive issues) = .ok () := by
  unfold updateIssues at h
  dsimp only at h
  obtain ⟨-, -, h⟩ := bind_eq_ok.mp h
  obtain ⟨u, hunique, h⟩ := bind_eq_ok.mp h
  generalize hissues' : (db.issues.map fun i => if p i then set i else i) = issues at h hunique
  have hkey : ∀ i ∈ db.issues, (if p i then set i else i).id = i.id := fun i _ => by
    split
    · exact hset i
    · rfl
  have hnodup : (issues.map (·.id)).Nodup := by rw [← hissues', Rows.map_key hkey]; exact hissues
  have hstate : ∀ i ∈ db.issues,
      issueState? issues i.id = some (if p i then set i else i).state := by
    intro i hi
    rw [← hkey i hi]
    exact issueState?_of_mem hnodup (hissues' ▸ List.mem_map_of_mem hi)
  obtain ⟨events, rfl, htells, hnone⟩ :=
    foldlM_followIssueStateOnIssue_eq_ok { db with issues } hids
    (fun r hr hd => (hsettled r hr).fix_eq_null_of_linked (Option.some_get hd).symm)
    (fun i hi => by
      simp only [List.mem_filter, Bool.and_eq_true] at hi
      rw [hstate i hi.1, if_pos hi.2.1.1])
    h
  -- A report that the trigger leaves alone is on an issue that was and stays resolved, or neither.
  have hfollow : ∀ r ∈ db.reports, followIssues issues ((db.issues.filter fun i =>
      p i && i.state ≠ (set i).state && ((set i).state = .resolved || i.state = .resolved)).map
        (·.id)) r = r.followIssueStateOnReport issues := by
    intro r hr
    unfold followIssues
    split
    · rfl
    · rename_i hnot
      by_cases hs : r.state = .confirmed ∨ r.state = .resolved
      · cases hd : r.issueId with
        | none => rw [followIssueStateOnReport_of_unlinked r _ hd]
        | some d =>
          obtain ⟨i, hi, rfl, -, hcalls⟩ := (hsettled r hr).linked d hd
          have hsame : IssueState.reportState (issueState? issues i.id) = r.state := by
            have hne : r.state ≠ .rejected := by rcases hs with hs | hs <;> rw [hs] <;> decide
            rw [hcalls hne, hstate i hi]
            by_cases hp : p i
            · rw [if_pos hp]
              by_contra hne
              refine hnot ?_
              rw [hd]
              simp only [Option.any_some, decide_eq_true_eq]
              refine List.mem_map.mpr ⟨i, List.mem_filter.mpr ⟨hi, ?_⟩, rfl⟩
              have hor : i.state ≠ (set i).state ∧
                  ((set i).state = .resolved ∨ i.state = .resolved) := by
                unfold IssueState.reportState at hne
                grind
              simpa [hp] using hor
            · rw [if_neg hp]
          rw [followIssueStateOnReport_of_linked r _ hd hs, hsame, ← hd, put_self]
      · rw [followIssueStateOnReport_of_inactive r _ hs]
  refine ⟨issues, events, rfl, ?_, htells.congr fun r hr => by rw [hfollow r hr], hnone, hunique⟩
  rw [← List.map_congr_left hfollow]

end

end Database

end LadybirdReports.Admin
