import LadybirdReports.Admin.Change

/-!
# The tables stay well formed

Every kind of change keeps `Database.Wf`, whatever it is licensed to do (`Change.wf`): reports stay
settled with their issues, issues that are not rejected track GitHub, and the merges form a forest.
-/

namespace LadybirdReports.Admin

open Forest

section

variable {may : Cause → Prop} {db db' : Database} {issues issues' : List Issue} {r r' : Report}

/-! ## Reports -/

/-- A report stays settled where its issue stays, unmerged, and calls for the same state. -/
theorem Report.Settled.congr (h : r.Settled issues)
    (hissues : ∀ i ∈ issues, r.issueId = some i.id → i.mergedInto = none →
      ∃ i' ∈ issues', i'.id = i.id ∧ i'.mergedInto = none ∧ (r.state ≠ .rejected →
        IssueState.reportState (some i'.state) = IssueState.reportState (some i.state))) :
    r.Settled issues' where
  linked d hd := by
    obtain ⟨i, hi, rfl, hmerged, hcalls⟩ := h.linked d hd
    obtain ⟨i', hi', hid, hmerged', hsame⟩ := hissues i hi hd hmerged
    exact ⟨i', hi', hid, hmerged', fun hs => (hcalls hs).trans (hsame hs).symm⟩
  unlinked := h.unlinked
  fix := h.fix
  fixOrNull := h.fixOrNull

theorem settled_put_unlinked {s : ReportState} (hs : s = .triage ∨ s = .rejected) :
    (r.put none s .null).Settled issues where
  linked d hd := by cases hd
  unlinked _ := by rcases hs with rfl | rfl <;> simp
  fix := by
    refine ⟨fun h => absurd h FixColumns.not_complete_null, fun h => ?_⟩
    have hresolved : s = .resolved := h.1
    rcases hs with rfl | rfl <;> cases hresolved
  fixOrNull := .inr rfl

theorem settled_put_fix (fix : ReportFix) : (r.put none .resolved (.of fix)).Settled issues where
  linked d hd := by cases hd
  unlinked _ := by simp
  fix := ⟨fun _ => ⟨rfl, rfl⟩, fun _ => FixColumns.complete_of fix⟩
  fixOrNull := .inl (FixColumns.complete_of fix)

theorem settled_put_linked {i : Issue} {s : ReportState} (hi : i ∈ issues)
    (hmerged : i.mergedInto = none)
    (hs : s ≠ .rejected → s = IssueState.reportState (some i.state)) :
    (r.put (some i.id) s .null).Settled issues where
  linked d hd := ⟨i, hi, Option.some.inj hd, hmerged, hs⟩
  unlinked hd := by cases hd
  fix := ⟨fun h => absurd h FixColumns.not_complete_null, fun h => by cases h.2⟩
  fixOrNull := .inr rfl

theorem Move.settled (hmove : Move may issues r r') (h : r.Settled issues) :
    r'.Settled issues := by
  cases hmove with
  | keep => exact h
  | store => exact ⟨h.linked, h.unlinked, h.fix, h.fixOrNull⟩
  | age => exact ⟨h.linked, h.unlinked, h.fix, h.fixOrNull⟩
  | reject decided =>
    cases hd : r.issueId with
    | none => exact settled_put_unlinked (.inr rfl)
    | some d =>
      obtain ⟨i, hi, rfl, hmerged, -⟩ := h.linked d hd
      exact settled_put_linked hi hmerged fun hne => absurd rfl hne
  | triage decided => exact settled_put_unlinked (.inl rfl)
  | fix fix decided unlinked => exact settled_put_fix fix
  | follow i mem unmerged active decided =>
    exact settled_put_linked mem unmerged fun _ => rfl

theorem Move.id_eq (hmove : Move may issues r r') : r'.id = r.id := by
  cases hmove <;> rfl

/-- A report that follows its issue into its new state is settled. -/
theorem Report.Settled.follow (h : r.Settled issues) (hids : (issues'.map (·.id)).Nodup)
    (hissues : ∀ i ∈ issues, r.issueId = some i.id → i.mergedInto = none →
      ∃ i' ∈ issues', i'.id = i.id ∧ i'.mergedInto = none) :
    (r.followIssueStateOnReport issues').Settled issues' := by
  cases hd : r.issueId with
  | none =>
    rw [followIssueStateOnReport_of_unlinked r _ hd]
    exact h.congr fun i _ hi => by rw [hd] at hi; cases hi
  | some d =>
    obtain ⟨i, hi, rfl, hmerged, hcalls⟩ := h.linked d hd
    obtain ⟨i', hi', hid, hmerged'⟩ := hissues i hi hd hmerged
    have hfix := h.fix_eq_null_of_linked hd
    by_cases hs : r.state = .confirmed ∨ r.state = .resolved
    · rw [followIssueStateOnReport_of_linked r _ hd hs, hfix, ← hid, issueState?_of_mem hids hi']
      exact settled_put_linked hi' hmerged' fun _ => rfl
    · rw [followIssueStateOnReport_of_inactive r _ hs, ← put_self r, hd, hfix, ← hid]
      refine settled_put_linked hi' hmerged' fun hne => absurd (hcalls hne) fun hc => hs ?_
      exact hc ▸ IssueState.reportState_eq _

end

section

variable {may : Cause → Prop} {db db' : Database}

/-! ## Kinds of changes -/

/-- Reports keep their keys, and one that comes in has its own. -/
theorem Kind.reportIds (h : Kind may db db') (hnodup : (db.reports.map (·.id)).Nodup) :
    (db'.reports.map (·.id)).Nodup := by
  have hmap : ∀ g : Report → Report, (∀ r ∈ db.reports, (g r).id = r.id) →
      db'.reports = db.reports.map g → (db'.reports.map (·.id)).Nodup := by
    intro g hid hreports
    rw [hreports, Rows.map_key hid]
    exact hnodup
  have hsame : db'.reports = db.reports → (db'.reports.map (·.id)).Nodup :=
    fun hreports => hreports ▸ hnodup
  cases h with
  | accept r fresh start unnamed reports issues aliases =>
    rw [reports, List.map_append, List.map_singleton]
    refine List.nodup_append.mpr ⟨hnodup, List.nodup_singleton _, ?_⟩
    intro a ha b hb
    obtain ⟨s, hs, rfl⟩ := List.mem_map.mp ha
    rw [List.mem_singleton.mp hb]
    exact fresh s hs
  | move g move reports issues aliases => exact hmap g (fun r hr => (move r hr).id_eq) reports
  | purge id purge reports issues aliases =>
    rw [reports]
    exact hnodup.sublist (List.filter_sublist.map _)
  | create => exact hsame ‹_›
  | track i i' mem notRejected id merged tracking retrack reports issues =>
    exact hmap _ (fun r _ => followIssueStateOnReport_id r _) reports
  | reject i mem action decided reports issues aliases =>
    refine hmap _ (fun r _ => ?_) reports
    unfold Report.ofRejected
    split
    · cases action <;> rfl
    · rfl
  | merge => exact hsame ‹_›

theorem Kind.issueIds (h : Kind may db db') (hnodup : (db.issues.map (·.id)).Nodup) :
    (db'.issues.map (·.id)).Nodup := by
  cases h with
  | accept r fresh start unnamed reports issues aliases => rw [issues]; exact hnodup
  | move g move reports issues aliases => rw [issues]; exact hnodup
  | purge id purge reports issues aliases => rw [issues]; exact hnodup
  | create i fresh unmerged tracking first reports issues aliases =>
    rw [issues, List.map_append, List.map_singleton]
    refine List.nodup_append.mpr ⟨hnodup, List.nodup_singleton _, ?_⟩
    intro a ha b hb
    obtain ⟨j, hj, rfl⟩ := List.mem_map.mp ha
    rw [List.mem_singleton.mp hb]
    exact fresh j hj
  | track i i' mem notRejected id merged tracking retrack reports issues =>
    rw [issues, replaceIssue_ids]; exact hnodup
  | reject i mem action decided reports issues aliases =>
    rw [issues]
    unfold rejectAll
    rw [Rows.map_key fun j _ => by split <;> rfl]
    exact hnodup
  | merge => simp only [*, replaceIssue_ids]

/-- An issue that is merged into none is not below another. -/
theorem not_mem_mergedSources {issues : List Issue} {i : Issue} {id : IssueId}
    (hids : (issues.map (·.id)).Nodup) (hforest : IsForest (mergedInto? issues)) (hi : i ∈ issues)
    (hmerged : i.mergedInto = none) : i.id ∉ mergedSources issues id := by
  rw [mem_mergedSources hids hforest]
  exact not_above_of_none ((mergedInto?_of_mem hids hi).trans hmerged)

theorem Kind.settled (h : Kind may db db') (hwf : db.Wf) :
    ∀ r ∈ db'.reports, r.Settled db'.issues := by
  have hids' := h.issueIds hwf.issueIds
  cases h with
  | accept r fresh start unnamed reports issues aliases =>
    rw [reports, issues]
    intro s hs
    rcases List.mem_append.mp hs with hs | hs
    · exact hwf.settled s hs
    · rw [List.mem_singleton.mp hs, ← put_self r, start.1, start.2.1, start.2.2]
      exact settled_put_unlinked (.inl rfl)
  | move g move reports issues aliases =>
    rw [reports, issues]
    intro s hs
    obtain ⟨r, hr, rfl⟩ := List.mem_map.mp hs
    exact (move r hr).settled (hwf.settled r hr)
  | purge id purge reports issues aliases =>
    rw [reports, issues]
    exact fun r hr => hwf.settled r (List.mem_filter.mp hr).1
  | create i fresh unmerged tracking first reports issues aliases =>
    rw [reports, issues]
    exact fun r hr => (hwf.settled r hr).congr fun j hj _ hmerged =>
      ⟨j, List.mem_append_left _ hj, rfl, hmerged, fun _ => rfl⟩
  | track i i' mem notRejected id merged tracking retrack reports issues =>
    rw [reports]
    intro s hs
    obtain ⟨r, hr, rfl⟩ := List.mem_map.mp hs
    refine (hwf.settled r hr).follow hids' fun j hj _ hmerged =>
      ⟨_, issues ▸ mem_replaceIssue hj, ?_⟩
    split
    · rename_i hij
      have hji : j = i := Rows.eq_of_key hwf.issueIds hj mem (hij.trans id)
      exact ⟨hij.symm, merged.trans (hji ▸ hmerged)⟩
    · exact ⟨rfl, hmerged⟩
  | reject i mem action decided reports issues aliases =>
    rw [reports, issues]
    intro s hs
    obtain ⟨r, hr, rfl⟩ := List.mem_map.mp hs
    unfold Report.ofRejected
    split
    · rename_i hd
      cases action with
      | unlink => exact settled_put_unlinked (.inl rfl)
      | reject =>
        obtain ⟨j, hj, hij, hmerged, -⟩ := (hwf.settled r hr).linked i.id hd
        rw [← hij]
        refine settled_put_linked (i := { j with state := .rejected }) ?_ hmerged
          fun hne => absurd rfl hne
        exact List.mem_map.mpr ⟨j, hj, if_pos (.inl rfl)⟩
    · rename_i hd
      refine (hwf.settled r hr).congr fun j hj hlink hmerged =>
        ⟨j, List.mem_map.mpr ⟨j, hj, if_neg ?_⟩, rfl, hmerged, fun _ => rfl⟩
      rintro (hji | hbelow)
      · exact hd (hji ▸ hlink)
      · exact not_mem_mergedSources hwf.issueIds hwf.forest hj hmerged hbelow
  | merge source source' destination mem mem' unmerged closed rejected active other empty id into
      resolved github identity reports issues aliases =>
    rw [reports, issues]
    refine fun r hr => (hwf.settled r hr).congr fun j hj hlink hmerged =>
      ⟨j, ?_, rfl, hmerged, fun _ => rfl⟩
    have hne : j.id ≠ source'.id := fun hc => empty r hr (by rw [hlink, hc, id])
    have hmem := mem_replaceIssue (i := source') hj
    rwa [if_neg hne] at hmem

theorem Kind.tracking (h : Kind may db db') (hwf : db.Wf) :
    ∀ i ∈ db'.issues, i.state ≠ .rejected → i.state = .tracking i.githubState := by
  cases h with
  | accept r fresh start unnamed reports issues aliases => rw [issues]; exact hwf.tracking
  | move g move reports issues aliases => rw [issues]; exact hwf.tracking
  | purge id purge reports issues aliases => rw [issues]; exact hwf.tracking
  | create i fresh unmerged tracking first reports issues aliases =>
    rw [issues]
    intro j hj
    rcases List.mem_append.mp hj with hj | hj
    · exact hwf.tracking j hj
    · rw [List.mem_singleton.mp hj]
      exact fun _ => tracking
  | track i i' mem notRejected id merged tracking retrack reports issues =>
    rw [issues]
    intro j hj
    obtain ⟨k, hk, rfl⟩ := List.mem_map.mp hj
    split
    · exact fun _ => tracking
    · exact hwf.tracking k hk
  | reject i mem action decided reports issues aliases =>
    rw [issues]
    intro j hj
    obtain ⟨k, hk, rfl⟩ := List.mem_map.mp hj
    split
    · exact fun hne => absurd rfl hne
    · exact hwf.tracking k hk
  | merge source source' destination mem mem' unmerged closed rejected active other empty id into
      resolved github identity reports issues aliases =>
    rw [issues]
    intro j hj
    obtain ⟨k, hk, rfl⟩ := List.mem_map.mp hj
    split
    · exact fun _ => by rw [resolved, github, closed]; rfl
    · exact hwf.tracking k hk

/-! ## Merges -/

/-- Only a merge changes what issues are merged into. -/
theorem Kind.mergedInto (h : Kind may db db') (hwf : db.Wf) :
    mergedInto? db'.issues = mergedInto? db.issues ∨
      ∃ source destination, source ∈ db.issues ∧ destination ∈ db.issues ∧
        source.mergedInto = none ∧ destination.mergedInto = none ∧
        destination.state ≠ .rejected ∧ destination.id ≠ source.id ∧
        (∀ x, x ≠ source.id → mergedInto? db'.issues x = mergedInto? db.issues x) ∧
        mergedInto? db'.issues source.id = some destination.id := by
  cases h with
  | accept r fresh start unnamed reports issues aliases => exact .inl (by rw [issues])
  | move g move reports issues aliases => exact .inl (by rw [issues])
  | purge id purge reports issues aliases => exact .inl (by rw [issues])
  | create i fresh unmerged tracking first reports issues aliases =>
    exact .inl (by rw [issues, mergedInto?_append unmerged])
  | track i i' mem notRejected id merged tracking retrack reports issues =>
    refine .inl ?_
    rw [issues]
    refine mergedInto?_map (fun j => ?_) fun j hj => ?_
    · split
      · rename_i h; rw [h]
      · rfl
    · split
      · rename_i h
        rw [Rows.eq_of_key hwf.issueIds hj mem (h.trans id), merged]
      · rfl
  | reject i mem action decided reports issues aliases =>
    rw [issues]
    exact .inl (mergedInto?_map (fun j => by split <;> rfl) fun j _ => by split <;> rfl)
  | merge source source' destination mem mem' unmerged closed rejected active other empty id into
      resolved github identity reports issues aliases =>
    refine .inr ⟨source, destination, mem, mem', unmerged, active.1, active.2, other,
      fun x hx => ?_, ?_⟩
    · unfold mergedInto?
      rw [issues, replaceIssue, Rows.find?_map_key fun j => by split <;> simp [*]]
      cases hfind : db.issues.find? (·.id = x) with
      | none => rfl
      | some j =>
        have hjx : j.id = x := by simpa using List.find?_some hfind
        rw [Option.map_some, if_neg (by rw [hjx, id]; exact hx)]
    · have hids : (db'.issues.map (·.id)).Nodup := by
        rw [issues, replaceIssue_ids]; exact hwf.issueIds
      have hmem := mem_replaceIssue (i := source') mem
      rw [if_pos id.symm] at hmem
      rw [← id, mergedInto?_of_mem hids (issues ▸ hmem), into]

theorem Kind.forest (h : Kind may db db') (hwf : db.Wf) : IsForest (mergedInto? db'.issues) := by
  rcases h.mergedInto hwf with hsame |
    ⟨source, destination, hs, hd, hsn, hdn, -, hne, hother, hself⟩
  · rw [hsame]; exact hwf.forest
  · refine hwf.forest.attach hother hself ((mergedInto?_of_mem hwf.issueIds hs).trans hsn) ?_
    intro hroot
    exact hne (hroot.of_none ((mergedInto?_of_mem hwf.issueIds hd).trans hdn)).symm

/-- Issues stay, with their keys. -/
theorem Kind.issueIds_subset (h : Kind may db db') :
    ∀ id ∈ db.issues.map (·.id), id ∈ db'.issues.map (·.id) := by
  intro id hid
  cases h with
  | accept r fresh start unnamed reports issues aliases => rw [issues]; exact hid
  | move g move reports issues aliases => rw [issues]; exact hid
  | purge _ purge reports issues aliases => rw [issues]; exact hid
  | create i fresh unmerged tracking first reports issues aliases =>
    rw [issues, List.map_append]; exact List.mem_append_left _ hid
  | track i i' mem notRejected _ merged tracking retrack reports issues =>
    rw [issues, replaceIssue_ids]; exact hid
  | reject i mem action decided reports issues aliases =>
    rw [issues]
    unfold rejectAll
    rw [Rows.map_key fun j _ => by split <;> rfl]
    exact hid
  | merge => simp only [*, replaceIssue_ids]

theorem Kind.target (h : Kind may db db') (hwf : db.Wf) :
    ∀ i ∈ db'.issues, ∀ d, i.mergedInto = some d → ∃ j ∈ db'.issues, j.id = d := by
  intro i hi d hd
  have hids' := h.issueIds hwf.issueIds
  suffices hold : ∃ j ∈ db.issues, j.id = d by
    obtain ⟨j, hj, rfl⟩ := hold
    exact List.mem_map.mp (h.issueIds_subset _ (List.mem_map_of_mem hj))
  rw [← mergedInto?_of_mem hids' hi] at hd
  have hof : ∀ id, mergedInto? db.issues id = some d → ∃ j ∈ db.issues, j.id = d := by
    intro id hid
    obtain ⟨k, hk, -, hkd⟩ := mergedInto?_eq_some hid
    exact hwf.target k hk d hkd
  rcases h.mergedInto hwf with hsame | ⟨source, destination, -, hmem, -, -, -, -, hother, hself⟩
  · rw [hsame] at hd
    exact hof _ hd
  · by_cases hsource : i.id = source.id
    · rw [hsource, hself] at hd
      exact ⟨destination, hmem, Option.some.inj hd⟩
    · rw [hother _ hsource] at hd
      exact hof _ hd

/-- What was merged into an issue that is rejected is rejected. -/
theorem Kind.rejected (h : Kind may db db') (hwf : db.Wf) :
    ∀ i ∈ db'.issues, ∀ j ∈ db'.issues, i.mergedInto = some j.id → j.state = .rejected →
      i.state = .rejected := by
  cases h with
  | accept r fresh start unnamed reports issues aliases => rw [issues]; exact hwf.rejected
  | move g move reports issues aliases => rw [issues]; exact hwf.rejected
  | purge id purge reports issues aliases => rw [issues]; exact hwf.rejected
  | create i fresh unmerged tracking first reports issues aliases =>
    rw [issues]
    intro j hj k hk hmerged hrejected
    rcases List.mem_append.mp hj with hj | hj
    · rcases List.mem_append.mp hk with hk | hk
      · exact hwf.rejected j hj k hk hmerged hrejected
      · rw [List.mem_singleton.mp hk] at hmerged
        obtain ⟨l, hl, hlid⟩ := hwf.target j hj _ hmerged
        exact absurd hlid (fresh l hl)
    · rw [List.mem_singleton.mp hj, unmerged] at hmerged
      cases hmerged
  | track i i' mem notRejected id merged tracking retrack reports issues =>
    rw [issues]
    intro j' hj' k' hk' hmerged hrejected
    obtain ⟨j, hj, rfl⟩ := List.mem_map.mp hj'
    obtain ⟨k, hk, rfl⟩ := List.mem_map.mp hk'
    have hkeep : (if k.id = i'.id then i' else k) = k := by
      refine if_neg fun hki => ?_
      rw [if_pos hki, tracking] at hrejected
      exact IssueState.tracking_ne_rejected _ hrejected
    rw [hkeep] at hmerged hrejected
    by_cases hji : j.id = i'.id
    · rw [if_pos hji, merged] at hmerged
      exact absurd (hwf.rejected i mem k hk hmerged hrejected) notRejected
    · rw [if_neg hji] at hmerged ⊢
      exact hwf.rejected j hj k hk hmerged hrejected
  | reject i mem action decided reports issues aliases =>
    rw [issues]
    intro j' hj' k' hk' hmerged hrejected
    obtain ⟨j, hj, rfl⟩ := List.mem_map.mp hj'
    obtain ⟨k, hk, rfl⟩ := List.mem_map.mp hk'
    have hmerged' : j.mergedInto = some k.id := by
      revert hmerged
      split <;> split <;> exact fun h => h
    have hparent : mergedInto? db.issues j.id = some k.id :=
      (mergedInto?_of_mem hwf.issueIds hj).trans hmerged'
    by_cases hin : k.id = i.id ∨ k.id ∈ mergedSources db.issues i.id
    · rw [if_pos]
      refine .inr ((mem_mergedSources hwf.issueIds hwf.forest).mpr ?_)
      rcases hin with hki | hbelow
      · exact .single (hki ▸ hparent)
      · exact .head hparent ((mem_mergedSources hwf.issueIds hwf.forest).mp hbelow)
    · rw [if_neg hin] at hrejected
      split
      · rfl
      · exact hwf.rejected j hj k hk hmerged' hrejected
  | merge source source' destination mem mem' unmerged closed rejected active other empty id into
      resolved github identity reports issues aliases =>
    rw [issues]
    intro j' hj' k' hk' hmerged hrejected
    obtain ⟨j, hj, rfl⟩ := List.mem_map.mp hj'
    obtain ⟨k, hk, rfl⟩ := List.mem_map.mp hk'
    have hkeep : (if k.id = source'.id then source' else k) = k := by
      refine if_neg fun hki => ?_
      rw [if_pos hki, resolved] at hrejected
      cases hrejected
    rw [hkeep] at hmerged hrejected
    by_cases hjs : j.id = source'.id
    · rw [if_pos hjs, into] at hmerged
      have hdk : destination = k :=
        Rows.eq_of_key hwf.issueIds mem' hk (Option.some.inj hmerged)
      exact absurd (hdk ▸ hrejected) active.2
    · rw [if_neg hjs] at hmerged ⊢
      exact hwf.rejected j hj k hk hmerged hrejected

/-! ## All of it -/

theorem Change.wf (h : Change may db db') (hwf : db.Wf) : db'.Wf where
  reportIds := h.kind.reportIds hwf.reportIds
  issueIds := h.kind.issueIds hwf.issueIds
  settled := h.kind.settled hwf
  tracking := h.kind.tracking hwf
  target := h.kind.target hwf
  forest := h.kind.forest hwf
  rejected := h.kind.rejected hwf

theorem Database.wf_empty : Database.empty.Wf where
  reportIds := List.nodup_nil
  issueIds := List.nodup_nil
  settled r hr := by cases hr
  tracking i hi := by cases hi
  target i hi := by cases hi
  forest id := ⟨id, .here rfl⟩
  rejected i hi := by cases hi

/-- A sequence of changes. -/
def Changes (may : Cause → Prop) : Database → Database → Prop :=
  Relation.ReflTransGen (Change may)

theorem Changes.wf (h : Changes may db db') (hwf : db.Wf) : db'.Wf := by
  induction h with
  | refl => exact hwf
  | tail _ hlast ih => exact hlast.wf ih

end

end LadybirdReports.Admin
