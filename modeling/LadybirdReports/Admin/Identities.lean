import LadybirdReports.Admin.Rejection

/-!
# Tracked GitHub issues

A GitHub issue resolves to the issue that what tracks it, or tracked it before, was merged into in
the end. It resolves to one issue at most, and goes on resolving while what tracks it is not
rejected, in the runs in which no merge rewrites what its destination tracks, no second issue is
created for it and no rejected issue is merged (`tracked_identity_resolves`).
-/

namespace LadybirdReports.Admin

open Forest Transition

section

variable {may : Cause → Prop} {db db' : Database} {identity : GithubIdentity} {i i' r : Issue}
  {id : IssueId}

instance (i : Issue) (aliases : List GithubAlias) (identity : GithubIdentity) :
    Decidable (i.Tracks aliases identity) := by
  unfold Issue.Tracks; infer_instance

/-- An issue that is not rejected and tracks the GitHub issue, or did before. -/
def Database.Tracked (db : Database) (identity : GithubIdentity) (id : IssueId) : Prop :=
  ∃ i ∈ db.issues, i.id = id ∧ i.state ≠ .rejected ∧ i.Tracks db.aliases identity

/-- The GitHub issue resolves to an issue that is neither merged nor rejected. -/
def Database.Resolves (db : Database) (identity : GithubIdentity) (r : Issue) : Prop :=
  r ∈ db.issues ∧ r.mergedInto = none ∧ r.state ≠ .rejected ∧
    ∃ id, db.Tracked identity id ∧ RootOf (mergedInto? db.issues) id r.id

/-- A GitHub issue resolves to one issue at most, and aliases are of issues that are there. -/
structure Database.Identified (db : Database) : Prop where
  unique : ∀ identity a b r s, db.Tracked identity a → db.Tracked identity b →
    RootOf (mergedInto? db.issues) a r → RootOf (mergedInto? db.issues) b s → r = s
  owned : ∀ a ∈ db.aliases, ∃ i ∈ db.issues, i.id = a.issueId

/-! ## Resolving -/

theorem exists_root_row (hwf : db.Wf) (hi : i ∈ db.issues) :
    ∃ r ∈ db.issues, r.mergedInto = none ∧ RootOf (mergedInto? db.issues) i.id r.id := by
  obtain ⟨root, hroot⟩ := hwf.forest i.id
  have hrow : ∀ {a : IssueId}, RootOf (mergedInto? db.issues) a root →
      (∃ j ∈ db.issues, j.id = a) → ∃ r ∈ db.issues, r.id = root := by
    intro a ha
    induction ha with
    | here => exact fun h => h
    | up hparent _ ih =>
      rintro -
      obtain ⟨k, hk, -, hmerged⟩ := mergedInto?_eq_some hparent
      exact ih hroot (hwf.target k hk _ hmerged)
  obtain ⟨r, hr, rfl⟩ := hrow hroot ⟨i, hi, rfl⟩
  exact ⟨r, hr, (mergedInto?_of_mem hwf.issueIds hr).symm.trans hroot.parent_eq_none, hroot⟩

/-- What is tracked resolves to exactly one issue. -/
theorem Database.Identified.existsUnique (h : db.Identified) (hwf : db.Wf)
    (htracked : db.Tracked identity id) : ∃! r, db.Resolves identity r := by
  obtain ⟨i, hi, rfl, hstate, htracks⟩ := htracked
  obtain ⟨r, hr, hmerged, hroot⟩ := exists_root_row hwf hi
  refine ⟨r, ⟨hr, hmerged, hwf.root_not_rejected hi hr hroot hstate, i.id,
    ⟨i, hi, rfl, hstate, htracks⟩, hroot⟩, ?_⟩
  rintro s ⟨hs, -, -, a, ha, hsroot⟩
  exact Rows.eq_of_key hwf.issueIds hs hr
    (h.unique identity a i.id s.id r.id ha ⟨i, hi, rfl, hstate, htracks⟩ hsroot hroot)

/-! ## Changes -/

theorem Issue.Tracks.congr {aliases : List GithubAlias} (h : i.Tracks aliases identity)
    (hid : i'.id = i.id) (hidentity : i'.identity = i.identity) : i'.Tracks aliases identity := by
  rcases h with h | ⟨a, ha, hissue, h⟩
  · exact .inl (hidentity.trans h)
  · exact .inr ⟨a, ha, hissue.trans hid.symm, h⟩

theorem Issue.Tracks.mono {aliases aliases' : List GithubAlias} (h : i.Tracks aliases identity)
    (hsub : ∀ a ∈ aliases, a ∈ aliases') : i.Tracks aliases' identity :=
  h.imp_right fun ⟨a, ha, hissue, h⟩ => ⟨a, hsub a ha, hissue, h⟩

/-- Where aliases stay and rows come from rows with their identities, nothing new is tracked. -/
theorem tracked_of_rows (haliases : db'.aliases = db.aliases)
    (hrows : ∀ i' ∈ db'.issues, i'.state ≠ .rejected → ∃ i ∈ db.issues, i.id = i'.id ∧
      i.state ≠ .rejected ∧ i.identity = i'.identity)
    (h : db'.Tracked identity id) : db.Tracked identity id := by
  obtain ⟨i', hi', rfl, hstate', htracks⟩ := h
  obtain ⟨i, hi, hid, hstate, hidentity⟩ := hrows i' hi' hstate'
  rw [haliases] at htracks
  exact ⟨i, hi, hid, hstate, htracks.congr hid hidentity⟩

/-- A replacement leaves an alias of what was tracked, and what is tracked from now on was not. -/
theorem tracked_of_replaced {a : GithubAlias} (hi : i ∈ db.issues)
    (hstate : i.state ≠ .rejected) (hid : i'.id = i.id) (haliases : db'.aliases = db.aliases ++ [a])
    (hissue : a.issueId = i.id) (hformer : a.identity = i.identity)
    (huntracked : ∀ j ∈ db.issues, j.state ≠ .rejected → ¬ j.Tracks db.aliases i'.identity)
    (hissues : db'.issues = replaceIssue i' db.issues) :
    (∀ id, db'.Tracked identity id → db.Tracked identity id) ∨
      ∀ a b, db'.Tracked identity a → db'.Tracked identity b → a = b := by
  -- An issue that is not replaced tracks what it did.
  have hothers : ∀ k : Issue, k.id ≠ i'.id → k.Tracks db'.aliases identity →
      k.Tracks db.aliases identity := by
    rintro k hne (hcurrent | ⟨x, hx, hxid, hx'⟩)
    · exact .inl hcurrent
    · rw [haliases] at hx
      rcases List.mem_append.mp hx with hx | hx
      · exact .inr ⟨x, hx, hxid, hx'⟩
      · rw [List.mem_singleton.mp hx, hissue] at hxid
        exact absurd (hxid.symm.trans hid.symm) hne
  have hrows : ∀ id, db'.Tracked identity id → (id = i.id ∧ i'.Tracks db'.aliases identity) ∨
      ∃ k ∈ db.issues, k.id = id ∧ k.state ≠ .rejected ∧ k.Tracks db.aliases identity := by
    rintro id ⟨k', hk', rfl, hkstate, htracks⟩
    rw [hissues] at hk'
    obtain ⟨k, hk, rfl⟩ := List.mem_map.mp hk'
    by_cases hki : k.id = i'.id
    · rw [if_pos hki] at htracks ⊢
      exact .inl ⟨hid, htracks⟩
    · rw [if_neg hki] at htracks hkstate ⊢
      exact .inr ⟨k, hk, rfl, hkstate, hothers k hki htracks⟩
  by_cases hnew : i'.identity = identity
  · refine .inr fun a b ha hb => ?_
    have hone : ∀ id, db'.Tracked identity id → id = i.id := fun id h =>
      (hrows id h).elim And.left fun ⟨k, hk, _, hkstate, htracks⟩ =>
        absurd (hnew ▸ htracks) (huntracked k hk hkstate)
    rw [hone a ha, hone b hb]
  · refine .inl fun id h => (hrows id h).elim (fun ⟨hid', htracks⟩ => ?_) fun h => h
    refine ⟨i, hi, hid'.symm, hstate, ?_⟩
    rcases htracks with hcurrent | ⟨x, hx, hxid, hx'⟩
    · exact absurd hcurrent hnew
    · rw [haliases] at hx
      rcases List.mem_append.mp hx with hx | hx
      · exact .inr ⟨x, hx, hxid.trans hid, hx'⟩
      · rw [List.mem_singleton.mp hx, hformer] at hx'
        exact .inl hx'

/-- What is tracked after a change was tracked before it, or is tracked by one issue only. -/
theorem Kind.tracked_of_tracked (howned : ∀ a ∈ db.aliases, ∃ i ∈ db.issues, i.id = a.issueId)
    (hforget : ¬ may .forget) (hagain : ¬ may .again) (hunreject : ¬ may .unreject)
    (h : Kind may db db') (identity : GithubIdentity) :
    (∀ id, db'.Tracked identity id → db.Tracked identity id) ∨
      ∀ a b, db'.Tracked identity a → db'.Tracked identity b → a = b := by
  cases h with
  | accept r fresh start unnamed reports issues aliases =>
    exact .inl fun id => tracked_of_rows aliases fun i hi hstate =>
      ⟨i, issues ▸ hi, rfl, hstate, rfl⟩
  | move g move reports issues aliases =>
    exact .inl fun id => tracked_of_rows aliases fun i hi hstate =>
      ⟨i, issues ▸ hi, rfl, hstate, rfl⟩
  | purge reportId purge reports issues aliases =>
    exact .inl fun id => tracked_of_rows aliases fun i hi hstate =>
      ⟨i, issues ▸ hi, rfl, hstate, rfl⟩
  | create i fresh unmerged tracking first reports issues aliases =>
    have hrows : ∀ id, db'.Tracked identity id → (id = i.id ∧ i.Tracks db.aliases identity) ∨
        ∃ k ∈ db.issues, k.id = id ∧ k.state ≠ .rejected ∧ k.Tracks db.aliases identity := by
      rintro id ⟨k, hk, rfl, hkstate, htracks⟩
      rw [issues] at hk
      rw [aliases] at htracks
      rcases List.mem_append.mp hk with hk | hk
      · exact .inr ⟨k, hk, rfl, hkstate, htracks⟩
      · rw [List.mem_singleton.mp hk] at htracks ⊢
        exact .inl ⟨rfl, htracks⟩
    by_cases hnew : i.Tracks db.aliases identity
    · have hcurrent : i.identity = identity := by
        refine hnew.resolve_right ?_
        rintro ⟨a, ha, hid, -⟩
        obtain ⟨j, hj, hja⟩ := howned a ha
        exact fresh j hj (hja.trans hid)
      refine .inr fun a b ha hb => ?_
      have hone : ∀ id, db'.Tracked identity id → id = i.id := fun id h =>
        (hrows id h).elim And.left fun ⟨k, hk, _, hkstate, htracks⟩ =>
          absurd (first k hk hkstate (hcurrent ▸ htracks)) hagain
      rw [hone a ha, hone b hb]
    · exact .inl fun id h => (hrows id h).elim (fun h => absurd h.2 hnew) fun h => h
  | track i i' mem notRejected id merged tracking retrack reports issues =>
    cases retrack with
    | same identity aliases =>
      refine .inl fun _ => tracked_of_rows aliases fun k' hk' hstate => ?_
      rw [issues] at hk'
      obtain ⟨k, hk, rfl⟩ := List.mem_map.mp hk'
      by_cases hki : k.id = i'.id
      · rw [if_pos hki]
        exact ⟨i, mem, id.symm, notRejected, identity.symm⟩
      · rw [if_neg hki] at hstate ⊢
        exact ⟨k, hk, rfl, hstate, rfl⟩
    | replaced a aliases issue former untracked =>
      exact tracked_of_replaced mem notRejected id aliases issue former untracked issues
    | rewritten forget aliases => exact absurd forget hforget
  | reject i mem action decided reports issues aliases =>
    refine .inl fun _ => tracked_of_rows aliases fun k' hk' hstate => ?_
    rw [issues] at hk'
    obtain ⟨k, hk, rfl⟩ := List.mem_map.mp hk'
    split at hstate
    · exact absurd rfl hstate
    · rename_i hkeep
      rw [if_neg hkeep]
      exact ⟨k, hk, rfl, hstate, rfl⟩
  | merge source source' destination mem mem' unmerged closed rejected active other empty id into
      resolved github identity reports issues aliases =>
    refine .inl fun _ => tracked_of_rows aliases fun k' hk' hstate => ?_
    rw [issues] at hk'
    obtain ⟨k, hk, rfl⟩ := List.mem_map.mp hk'
    by_cases hks : k.id = source'.id
    · rw [if_pos hks]
      exact ⟨source, mem, id.symm, fun hc => hunreject (rejected hc), identity.symm⟩
    · rw [if_neg hks] at hstate ⊢
      exact ⟨k, hk, rfl, hstate, rfl⟩

/-- The roots after a change are a function of the roots before it. -/
theorem Kind.exists_root (hwf : db.Wf) (h : Kind may db db') : ∃ f : IssueId → IssueId,
    ∀ a s, RootOf (mergedInto? db'.issues) a s →
      ∃ r, RootOf (mergedInto? db.issues) a r ∧ s = f r := by
  rcases h.mergedInto hwf with hsame |
    ⟨source, destination, hs, hd, hsn, hdn, -, hne, hother, hself⟩
  · exact ⟨fun x => x, fun a s hroot => ⟨s, hsame ▸ hroot, rfl⟩⟩
  · refine ⟨fun r => if r = source.id then destination.id else r, fun a s hroot => ?_⟩
    obtain ⟨r, hr⟩ := hwf.forest a
    refine ⟨r, hr, ?_⟩
    dsimp only
    have hsource : mergedInto? db.issues source.id = none :=
      (mergedInto?_of_mem hwf.issueIds hs).trans hsn
    have hdestination : RootOf (mergedInto? db'.issues) destination.id destination.id :=
      .here ((hother _ hne).trans ((mergedInto?_of_mem hwf.issueIds hd).trans hdn))
    by_cases hrs : r = source.id
    · rw [if_pos hrs]
      exact hroot.unique ((hrs ▸ hr).attach hother hself hdestination)
    · rw [if_neg hrs]
      exact hroot.unique (hr.attach_of_ne hother hself hrs hsource)

/-- Aliases are of issues that are there. -/
theorem Kind.mem_aliases {a : GithubAlias} (h : Kind may db db') (ha : a ∈ db'.aliases) :
    a ∈ db.aliases ∨ ∃ i ∈ db.issues, i.id = a.issueId := by
  cases h with
  | track i i' mem notRejected id merged tracking retrack reports issues =>
    cases retrack with
    | same identity aliases => exact .inl (aliases ▸ ha)
    | replaced b aliases issue former untracked =>
      rw [aliases] at ha
      rcases List.mem_append.mp ha with ha | ha
      · exact .inl ha
      · rw [List.mem_singleton.mp ha]
        exact .inr ⟨i, mem, issue.symm⟩
    | rewritten forget aliases => exact .inl (aliases ▸ ha)
  | accept r fresh start unnamed reports issues aliases => exact .inl (aliases ▸ ha)
  | move g move reports issues aliases => exact .inl (aliases ▸ ha)
  | purge reportId purge reports issues aliases => exact .inl (aliases ▸ ha)
  | create i fresh unmerged tracking first reports issues aliases => exact .inl (aliases ▸ ha)
  | reject i mem action decided reports issues aliases => exact .inl (aliases ▸ ha)
  | merge source source' destination mem mem' unmerged closed rejected active other empty id into
      resolved github identity reports issues aliases => exact .inl (aliases ▸ ha)

theorem Change.identified (hwf : db.Wf) (hforget : ¬ may .forget) (hagain : ¬ may .again)
    (hunreject : ¬ may .unreject) (h : Change may db db') (hidentified : db.Identified) :
    db'.Identified where
  unique identity a b r s ha hb hr hs := by
    rcases h.kind.tracked_of_tracked hidentified.owned hforget hagain hunreject identity with
      hold | hone
    · obtain ⟨f, hf⟩ := h.kind.exists_root hwf
      obtain ⟨r₀, hr₀, rfl⟩ := hf a r hr
      obtain ⟨s₀, hs₀, rfl⟩ := hf b s hs
      rw [hidentified.unique identity a b r₀ s₀ (hold a ha) (hold b hb) hr₀ hs₀]
    · rw [hone a b ha hb] at hr
      exact hr.unique hs
  owned a ha := by
    suffices hold : ∃ i ∈ db.issues, i.id = a.issueId by
      obtain ⟨i, hi, hid⟩ := hold
      rw [← hid]
      exact List.mem_map.mp (h.kind.issueIds_subset _ (List.mem_map_of_mem hi))
    rcases h.kind.mem_aliases ha with ha | hi
    · exact hidentified.owned a ha
    · exact hi

/-- What is tracked stays tracked, or what tracks it is rejected. -/
theorem Kind.tracked_or_rejected (hwf : db.Wf) (hforget : ¬ may .forget) (h : Kind may db db')
    (htracked : db.Tracked identity id) :
    db'.Tracked identity id ∨ ∃ i' ∈ db'.issues, i'.id = id ∧ i'.state = .rejected := by
  obtain ⟨k, hk, rfl, hstate, htracks⟩ := htracked
  cases h with
  | accept r fresh start unnamed reports issues aliases =>
    exact .inl ⟨k, issues ▸ hk, rfl, hstate, aliases ▸ htracks⟩
  | move g move reports issues aliases =>
    exact .inl ⟨k, issues ▸ hk, rfl, hstate, aliases ▸ htracks⟩
  | purge reportId purge reports issues aliases =>
    exact .inl ⟨k, issues ▸ hk, rfl, hstate, aliases ▸ htracks⟩
  | create i fresh unmerged tracking first reports issues aliases =>
    exact .inl ⟨k, issues ▸ List.mem_append_left _ hk, rfl, hstate, aliases ▸ htracks⟩
  | track i i' mem notRejected id merged tracking retrack reports issues =>
    have hrow := issues ▸ mem_replaceIssue (i := i') hk
    have hactive : i'.state ≠ .rejected := fun hc =>
      IssueState.tracking_ne_rejected _ (tracking.symm.trans hc)
    by_cases hki : k.id = i'.id
    · rw [if_pos hki] at hrow
      rw [Rows.eq_of_key hwf.issueIds hk mem (hki.trans id)] at htracks
      refine .inl ⟨i', hrow, hki.symm, hactive, ?_⟩
      cases retrack with
      | same hidentity aliases => exact aliases ▸ htracks.congr id hidentity
      | replaced a aliases issue former untracked =>
        rw [aliases]
        rcases htracks with hcurrent | ⟨x, hx, hxid, hx'⟩
        · exact .inr ⟨a, List.mem_append_right _ (List.mem_singleton_self a), issue.trans id.symm,
            former.trans hcurrent⟩
        · exact .inr ⟨x, List.mem_append_left _ hx, hxid.trans id.symm, hx'⟩
      | rewritten forget aliases => exact absurd forget hforget
    · rw [if_neg hki] at hrow
      refine .inl ⟨k, hrow, rfl, hstate, htracks.mono fun x hx => ?_⟩
      cases retrack with
      | same hidentity aliases => exact aliases ▸ hx
      | replaced a aliases issue former untracked => exact aliases ▸ List.mem_append_left _ hx
      | rewritten forget aliases => exact absurd forget hforget
  | reject i mem action decided reports issues aliases =>
    rw [Database.Tracked, issues, aliases]
    by_cases hin : k.id = i.id ∨ k.id ∈ mergedSources db.issues i.id
    · exact .inr ⟨_, List.mem_map.mpr ⟨k, hk, if_pos hin⟩, rfl, rfl⟩
    · exact .inl ⟨k, List.mem_map.mpr ⟨k, hk, if_neg hin⟩, rfl, hstate, htracks⟩
  | merge source source' destination mem mem' unmerged closed rejected active other empty id into
      resolved github identity reports issues aliases =>
    have hrow := issues ▸ mem_replaceIssue (i := source') hk
    by_cases hks : k.id = source'.id
    · rw [if_pos hks] at hrow
      rw [Rows.eq_of_key hwf.issueIds hk mem (hks.trans id)] at htracks
      exact .inl ⟨source', hrow, hks.symm, by rw [resolved]; decide,
        aliases ▸ htracks.congr id identity⟩
    · rw [if_neg hks] at hrow
      exact .inl ⟨k, hrow, rfl, hstate, aliases ▸ htracks⟩

/-! ## Runs -/

/-- No merge rewrites what its destination tracks, no second issue is created for a GitHub issue,
and no rejected issue is merged. -/
def KeepsIdentities (db : Database) (op : Operation) : Prop :=
  op.forgets db = false ∧ op.createsAgain db = false ∧ op.mergesRejected db = false

instance (db : Database) (op : Operation) : Decidable (KeepsIdentities db op) := by
  unfold KeepsIdentities; infer_instance

theorem KeepsIdentities.avoids : Avoids (fun cause => cause = .forget ∨ cause = .again ∨
    cause = .unreject) KeepsIdentities := by
  rintro db op ⟨hforgets, hagain, hmerges⟩ cause (rfl | rfl | rfl)
  · exact fun hc => by rw [Operation.May, hforgets] at hc; cases hc
  · exact fun hc => by rw [Operation.May, hagain] at hc; cases hc
  · exact fun hc => by rw [Operation.May, hmerges] at hc; cases hc

/-- What is tracked stays tracked while what tracks it is not rejected. -/
def KeepsTracked (db db' : Database) : Prop :=
  KeepsRejected db db' ∧ ∀ identity id, db.Tracked identity id →
    db'.Tracked identity id ∨ ∃ i' ∈ db'.issues, i'.id = id ∧ i'.state = .rejected

theorem KeepsTracked.trans {db₁ : Database} (h : KeepsTracked db db₁) (h' : KeepsTracked db₁ db') :
    KeepsTracked db db' := by
  refine ⟨h.1.trans h'.1, fun identity id htracked => ?_⟩
  rcases h.2 identity id htracked with htracked | ⟨i₁, hi₁, rfl, hstate⟩
  · exact h'.2 identity id htracked
  · obtain ⟨i', hi', hid, hstate', -⟩ := h'.1 i₁ hi₁ hstate
    exact .inr ⟨i', hi', hid, hstate'⟩

theorem identified_of_run {ops : List Operation}
    (h : Run (Where KeepsIdentities Step) .empty ops db) : db.Identified := by
  have hempty : Database.empty.Identified :=
    ⟨fun _ _ _ _ _ ⟨_, hk, _⟩ => (by cases hk), fun a ha => (by cases ha)⟩
  refine invariant_of_changes _ KeepsIdentities.avoids (fun may s t hmay hwf hchange hs => ?_) h
    Database.wf_empty hempty
  exact hchange.identified hwf (hmay _ (.inl rfl)) (hmay _ (.inr (.inl rfl)))
    (hmay _ (.inr (.inr rfl))) hs

/-- Once an issue that is not rejected tracks a GitHub issue, the GitHub issue resolves to exactly
one issue that is neither merged nor rejected, as long as the one that tracks it is not rejected. -/
theorem tracked_identity_resolves {db₁ db₂ : Database} {ops₁ ops₂ : List Operation}
    (h₁ : Run (Where KeepsIdentities Step) .empty ops₁ db₁)
    (h₂ : Run (Where KeepsIdentities Step) db₁ ops₂ db₂) (hi : i ∈ db₁.issues)
    (hstate : i.state ≠ .rejected) (htracks : i.Tracks db₁.aliases identity)
    (hi' : i' ∈ db₂.issues) (hid : i'.id = i.id) (hstate' : i'.state ≠ .rejected) :
    ∃! r, db₂.Resolves identity r := by
  have hwf : ∀ {db db' : Database} {ops}, Run (Where KeepsIdentities Step) db ops db' → db.Wf →
      db'.Wf := fun h => h.invariant fun _ _ _ hs hstep => hstep.2.wf hs
  have hidentified : db₂.Identified := identified_of_run (h₁.append h₂)
  have hwf₁ := hwf h₁ Database.wf_empty
  have hkeeps : KeepsTracked db₁ db₂ := by
    refine related_of_changes _ KeepsIdentities.avoids (fun s => ⟨.refl s, fun _ _ h => .inl h⟩)
      (fun _ _ _ => KeepsTracked.trans) (fun may s t hmay hwf hchange => ⟨?_, ?_⟩) h₂ hwf₁
    · exact hchange.keepsRejected (hmay _ (.inr (.inr rfl))) hwf
    · exact fun _ _ => hchange.kind.tracked_or_rejected hwf (hmay _ (.inl rfl))
  suffices htracked₂ : db₂.Tracked identity i.id from
    hidentified.existsUnique (hwf h₂ hwf₁) htracked₂
  refine (hkeeps.2 identity i.id ⟨i, hi, rfl, hstate, htracks⟩).resolve_right ?_
  rintro ⟨j, hj, hji, hrejected⟩
  rw [Rows.eq_of_key (hwf h₂ hwf₁).issueIds hj hi' (hji.trans hid.symm)] at hrejected
  exact hstate' hrejected

/-- Issue 2 is merged into issue 1 as its duplicate. -/
def mergedSecond : List Operation :=
  queueDuplicate 2 "2" ++
    [.finishGithubDuplicate (sampleJob 2) (some (sampleIssue 11 1 "1" .open 1 none)) ⟨9⟩ 4 0]

/-- What issue 2 tracks resolves, through the merge. -/
theorem merged_identity_resolves : ∃! r, (execAll mergedSecond
    (execAll (submitLinked 1 "1" ++ submitLinked 2 "2") .empty)).Resolves (.of "o/r" 2) r :=
  tracked_identity_resolves (run_execAll (by decide +kernel)) (run_execAll (by decide +kernel))
    (mem_findIssue? ⟨2⟩ (by decide +kernel)) (by decide +kernel) (by decide +kernel)
    (mem_findIssue? ⟨2⟩ (by decide +kernel)) (by decide +kernel) (by decide +kernel)

/-- Issue 3 is a duplicate of what issue 2 tracks, which was merged into issue 1: issue 1 is to
track it, and what issue 1 tracked is lost. -/
theorem merge_loses_surviving_identity :
    let db₁ := execAll (submitLinked 1 "1" ++ submitLinked 2 "2" ++ mergedSecond ++
      submitLinked 3 "3" ++ queueDuplicate 3 "3") .empty
    let db₂ := (Operation.finishGithubDuplicate (sampleJob 3)
      (some (sampleIssue 12 2 "2" .closed 2 (some "duplicate"))) ⟨9⟩ 4 0).exec db₁
    db₁.IsReachable ∧
      (∃ i ∈ db₁.issues, i.id = ⟨1⟩ ∧ i.state ≠ .rejected ∧ i.Tracks db₁.aliases (.of "o/r" 1)) ∧
      (∃ i ∈ db₂.issues, i.id = ⟨1⟩ ∧ i.state ≠ .rejected) ∧
      ¬ ∃ r, db₂.Resolves (.of "o/r" 1) r := by
  refine ⟨isReachable_execAll _, by decide +kernel, by decide +kernel, ?_⟩
  rintro ⟨r, -, -, -, id, ⟨i, hi, -, -, htracks⟩, -⟩
  revert i
  decide +kernel

end

end LadybirdReports.Admin
