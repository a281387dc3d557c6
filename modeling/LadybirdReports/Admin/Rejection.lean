import LadybirdReports.Admin.Runs

/-!
# Rejected issues

A rejected issue stays as it is, and nothing is merged into it, in the runs in which no job is
finished for an issue that is rejected (`rejected_issue_stays`).
-/

namespace LadybirdReports.Admin

open Transition

section

variable {db db' : Database} {ops : List Operation} {i : Issue}

/-- The issue is rejected still, has not been merged, and nothing has been merged into it. -/
def StaysRejected (i : Issue) (db db' : Database) : Prop :=
  ∃ i' ∈ db'.issues, i'.id = i.id ∧ i'.state = .rejected ∧ i'.mergedInto = i.mergedInto ∧
    ∀ j' ∈ db'.issues, j'.mergedInto = some i.id →
      ∃ j ∈ db.issues, j.id = j'.id ∧ j.mergedInto = some i.id

instance (i : Issue) (db db' : Database) : Decidable (StaysRejected i db db') := by
  unfold StaysRejected; infer_instance

/-- Rejected issues stay rejected. -/
def KeepsRejected (db db' : Database) : Prop :=
  ∀ i ∈ db.issues, i.state = .rejected → StaysRejected i db db'

theorem KeepsRejected.refl (db : Database) : KeepsRejected db db := fun i hi hstate =>
  ⟨i, hi, rfl, hstate, rfl, fun j hj hmerged => ⟨j, hj, rfl, hmerged⟩⟩

theorem KeepsRejected.trans {db₁ : Database} (h : KeepsRejected db db₁)
    (h' : KeepsRejected db₁ db') : KeepsRejected db db' := by
  intro i hi hstate
  obtain ⟨i₁, hi₁, hid₁, hstate₁, hmerged₁, hsources₁⟩ := h i hi hstate
  obtain ⟨i', hi', hid, hstate', hmerged, hsources⟩ := h' i₁ hi₁ hstate₁
  refine ⟨i', hi', hid.trans hid₁, hstate', hmerged.trans hmerged₁, fun j' hj' hinto => ?_⟩
  obtain ⟨j₁, hj₁, hjid₁, hinto₁⟩ := hsources j' hj' (hinto.trans (by rw [hid₁]))
  obtain ⟨j, hj, hjid, hinto⟩ := hsources₁ j₁ hj₁ (hinto₁.trans (by rw [hid₁]))
  exact ⟨j, hj, hjid.trans hjid₁, hinto⟩

/-- The rows of issues that are mapped with their keys and what they are merged into. -/
theorem StaysRejected.of_map {f : Issue → Issue} (hissues : db'.issues = db.issues.map f)
    (hi : i ∈ db.issues) (hstate : (f i).state = .rejected) (hid : ∀ j ∈ db.issues, (f j).id = j.id)
    (hmerged : (f i).mergedInto = i.mergedInto)
    (hsources : ∀ j ∈ db.issues, (f j).mergedInto = some i.id → j.mergedInto = some i.id) :
    StaysRejected i db db' := by
  refine ⟨f i, hissues ▸ List.mem_map_of_mem hi, hid i hi, hstate, hmerged, fun j' hj' hinto => ?_⟩
  rw [hissues] at hj'
  obtain ⟨j, hj, rfl⟩ := List.mem_map.mp hj'
  exact ⟨j, hj, (hid j hj).symm, hsources j hj hinto⟩

theorem Change.keepsRejected {may : Cause → Prop} (hmay : ¬ may .unreject) (hwf : db.Wf)
    (h : Change may db db') : KeepsRejected db db' := by
  intro i hi hstate
  have hsame : db'.issues = db.issues → StaysRejected i db db' := fun hissues =>
    .of_map (hissues.trans (List.map_id _).symm) hi hstate (fun _ _ => rfl) rfl fun _ _ h => h
  cases h.kind with
  | accept r fresh start unnamed reports issues aliases => exact hsame issues
  | move g move reports issues aliases => exact hsame issues
  | purge id purge reports issues aliases => exact hsame issues
  | create k fresh unmerged tracking first reports issues aliases =>
    refine ⟨i, issues ▸ List.mem_append_left _ hi, rfl, hstate, rfl, fun j hj hinto => ?_⟩
    rw [issues] at hj
    rcases List.mem_append.mp hj with hj | hj
    · exact ⟨j, hj, rfl, hinto⟩
    · rw [List.mem_singleton.mp hj, unmerged] at hinto
      cases hinto
  | track k k' mem notRejected id merged tracking retrack reports issues =>
    have hne : i.id ≠ k'.id := fun hc =>
      notRejected (Rows.eq_of_key hwf.issueIds hi mem (hc.trans id) ▸ hstate)
    refine .of_map issues hi (by rw [if_neg hne]; exact hstate) (fun j _ => ?_)
      (by rw [if_neg hne]) fun j hj hinto => ?_
    · split
      · rename_i hjk; exact hjk.symm
      · rfl
    · by_cases hjk : j.id = k'.id
      · rw [if_pos hjk, merged] at hinto
        rw [Rows.eq_of_key hwf.issueIds hj mem (hjk.trans id)]
        exact hinto
      · rwa [if_neg hjk] at hinto
  | reject k mem action decided reports issues aliases =>
    refine .of_map issues hi (by split <;> first | rfl | exact hstate)
      (fun j _ => by split <;> rfl) (by split <;> rfl) fun j _ hinto => ?_
    revert hinto
    split <;> exact fun h => h
  | merge source source' destination mem mem' unmerged closed rejected active other empty id into
      resolved github identity reports issues aliases =>
    have hne : i.id ≠ source'.id := fun hc =>
      hmay (rejected (Rows.eq_of_key hwf.issueIds hi mem (hc.trans id) ▸ hstate))
    refine .of_map issues hi (by rw [if_neg hne]; exact hstate) (fun j _ => ?_)
      (by rw [if_neg hne]) fun j hj hinto => ?_
    · split
      · rename_i hjs; exact hjs.symm
      · rfl
    · by_cases hjs : j.id = source'.id
      · rw [if_pos hjs, into] at hinto
        have hid : destination = i := Rows.eq_of_key hwf.issueIds mem' hi (Option.some.inj hinto)
        exact absurd (hid ▸ hstate) active.2
      · rwa [if_neg hjs] at hinto

/-- From any database the service comes to, a rejected issue stays rejected and is neither the
source nor the target of a merge, while no job is finished for a rejected issue. -/
theorem rejected_issue_stays (h : db.IsReachable)
    (hrun : Run (Where (fun db op => op.mergesRejected db = false) Step) db ops db')
    (hi : i ∈ db.issues) (hstate : i.state = .rejected) :
    ∃ i' ∈ db'.issues, i'.id = i.id ∧ i'.state = .rejected ∧ i'.mergedInto = i.mergedInto ∧
      ∀ j' ∈ db'.issues, j'.mergedInto = some i.id →
        ∃ j ∈ db.issues, j.id = j'.id ∧ j.mergedInto = some i.id := by
  refine related_of_changes (R := KeepsRejected) (· = .unreject) (fun s op hok cause hcause => ?_)
    KeepsRejected.refl (fun _ _ _ => KeepsRejected.trans)
    (fun may s t hmay hwf hchange => hchange.keepsRejected (hmay _ rfl) hwf) hrun h.wf i hi hstate
  rw [hcause]
  exact fun hc => by rw [Operation.May, hok] at hc; cases hc

/-- A webhook and a job whose lease has gone leave a rejected issue alone. -/
theorem rejected_issue_stays_when_job_is_stale :
    let i := (rejectedDuplicate.findIssue? ⟨1⟩).get (by decide +kernel)
    let db' := execAll [.retryGithubDuplicate (sampleJob 1) 5, finishFirst] rejectedDuplicate
    ∃ i' ∈ db'.issues, i'.id = i.id ∧ i'.state = .rejected ∧ i'.mergedInto = i.mergedInto ∧
      ∀ j' ∈ db'.issues, j'.mergedInto = some i.id →
        ∃ j ∈ rejectedDuplicate.issues, j.id = j'.id ∧ j.mergedInto = some i.id :=
  rejected_issue_stays (isReachable_execAll _) (run_execAll (by decide +kernel))
    (mem_findIssue? ⟨1⟩ (by decide +kernel)) (by decide +kernel)

/-- A job that was queued before the issue was rejected merges it: it is resolved, and merged. -/
theorem rejected_issue_is_merged :
    rejectedDuplicate.IsReachable ∧
      ∃ i ∈ rejectedDuplicate.issues, i.state = .rejected ∧ i.mergedInto = none ∧
        ∃ i' ∈ (finishFirst.exec rejectedDuplicate).issues, i'.id = i.id ∧ i'.state = .resolved ∧
          i'.mergedInto = some ⟨2⟩ :=
  ⟨isReachable_execAll _, by decide +kernel⟩

end

end LadybirdReports.Admin
