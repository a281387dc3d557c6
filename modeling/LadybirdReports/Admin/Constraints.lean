import LadybirdReports.Admin.Runs
import LadybirdReports.Admin.Transactions

/-!
# Constraints

The rows of reports and issues meet the constraints of their tables at all times
(`Database.IsReachable.constrained`), since a statement checks the rows that it writes and no other
row can come to break one. So an update of an issue that leaves its constraints alone succeeds:
its reports can always follow it (`updateIssue_succeeds`).
-/

namespace LadybirdReports.Admin

open Rust Transition

/-- The rows of reports and issues meet the constraints of their tables. -/
structure Database.Constrained (db : Database) : Prop where
  reports : ∀ r ∈ db.reports, ∀ c ∈ r.constraints db.issues, c.2 = true
  issues : ∀ i ∈ db.issues, ∀ c ∈ i.constraints db.issues, c.2 = true
  unique : ∀ c ∈ uniqueActive db.issues, c.2 = true

section

variable {rows : Issue → Issue → Prop} {inserts : Prop} {db db' : Database} {r : Report} {i : Issue}
  {issues issues' : List Issue}

/-! ## Foreign keys -/

theorem any_id_mono (hids : ∀ i ∈ issues, ∃ j ∈ issues', j.id = i.id) {id : IssueId}
    (h : (issues.any (·.id = id)) = true) : (issues'.any (·.id = id)) = true := by
  obtain ⟨i, hi, hid⟩ := List.any_eq_true.mp h
  obtain ⟨j, hj, hji⟩ := hids i hi
  exact List.any_eq_true.mpr ⟨j, hj, by simpa [hji] using hid⟩

/-- The constraints of a report go on holding while no issue goes. -/
theorem Report.constraints_mono (hids : ∀ i ∈ issues, ∃ j ∈ issues', j.id = i.id)
    (h : ∀ c ∈ r.constraints issues, c.2 = true) : ∀ c ∈ r.constraints issues', c.2 = true := by
  unfold Report.constraints at h ⊢
  simp only [List.forall_mem_cons] at h ⊢
  obtain ⟨htext, h₁, h₂, h₃, h₄, h₅, h₆, h₇, h₈, hissue, h₁₀⟩ := h
  refine ⟨htext, h₁, h₂, h₃, h₄, h₅, h₆, h₇, h₈, ?_, h₁₀⟩
  cases hd : r.issueId with
  | none => rfl
  | some d =>
    rw [hd] at hissue
    exact any_id_mono hids hissue

/-- A report may lose its source, and expire at any time. -/
theorem Report.constraints_age {source : Option String} {expiresAt : Option Timestamp}
    (hsource : source = none ∨ source = r.sourceClientKey)
    (h : ∀ c ∈ r.constraints issues, c.2 = true) :
    ∀ c ∈ Report.constraints issues { r with sourceClientKey := source, expiresAt := expiresAt },
      c.2 = true := by
  unfold Report.constraints at h ⊢
  simp only [List.forall_mem_cons] at h ⊢
  obtain ⟨htext, hbuild, hversion, hdigest, hkey, hrest⟩ := h
  refine ⟨htext, hbuild, hversion, hdigest, ?_, hrest⟩
  rcases hsource with rfl | rfl
  · rfl
  · exact hkey

theorem Issue.constraints_mono (hids : ∀ i ∈ issues, ∃ j ∈ issues', j.id = i.id)
    (h : ∀ c ∈ i.constraints issues, c.2 = true) : ∀ c ∈ i.constraints issues', c.2 = true := by
  unfold Issue.constraints at h ⊢
  simp only [List.forall_mem_cons] at h ⊢
  obtain ⟨htext, h₁, h₂, h₃, h₄, h₅, h₆, hinto, h₈⟩ := h
  refine ⟨htext, h₁, h₂, h₃, h₄, h₅, h₆, ?_, h₈⟩
  cases hd : i.mergedInto with
  | none => rfl
  | some d =>
    rw [hd] at hinto
    exact any_id_mono hids hinto

theorem ids_of_updated {p : Issue → Bool} {set : Issue → Issue} (hid : ∀ i, (set i).id = i.id)
    (hi : i ∈ issues) : ∃ j ∈ issues.map fun i => if p i then set i else i, j.id = i.id := by
  refine ⟨_, List.mem_map_of_mem hi, ?_⟩
  split
  · exact hid i
  · rfl

/-! ## Statements -/

theorem updateReports_constrained {p : Report → Bool} {set : Report → Report}
    (h : db.updateReports p set = .ok db')
    (hdb : ∀ r ∈ db.reports, ∀ c ∈ r.constraints db.issues, c.2 = true) :
    ∀ r ∈ db'.reports, ∀ c ∈ r.constraints db'.issues, c.2 = true := by
  unfold Database.updateReports at h
  obtain ⟨u, hcheck, h⟩ := bind_eq_ok.mp h
  obtain rfl := pure_eq_ok.mp h
  intro r' hr' c hc
  obtain ⟨r, hr, rfl⟩ := List.mem_map.mp hr'
  by_cases hp : p r
  · rw [if_pos hp] at hc
    exact check_eq_ok hcheck c
      (List.mem_flatMap.mpr ⟨r, List.mem_filter.mpr ⟨hr, hp⟩, hc⟩)
  · rw [if_neg hp] at hc
    exact hdb r hr c hc

theorem foldlM_followIssueStateOnIssue_constrained {changed : List Issue} {set : Issue → Issue}
    (h : changed.foldlM (fun db i => db.followIssueStateOnIssue i.id (set i).state) db = .ok db')
    (hdb : ∀ r ∈ db.reports, ∀ c ∈ r.constraints db.issues, c.2 = true) :
    db'.issues = db.issues ∧ ∀ r ∈ db'.reports, ∀ c ∈ r.constraints db'.issues, c.2 = true := by
  have hbranch : ∀ {s t : Database} {issue : IssueId} {previous next : ReportState},
      (∀ r ∈ s.reports, ∀ c ∈ r.constraints s.issues, c.2 = true) →
      s.followIssueState issue previous next = .ok t →
      (∀ r ∈ t.reports, ∀ c ∈ r.constraints t.issues, c.2 = true) ∧ t.issues = s.issues := by
    intro s t issue previous next hs hst
    unfold Database.followIssueState at hst
    obtain ⟨s₁, hs₁, hst⟩ := bind_eq_ok.mp hst
    obtain rfl := pure_eq_ok.mp hst
    have hreports := updateReports_constrained hs₁ hs
    have hissues : s₁.issues = s.issues := by rw [Database.updateReports_eq_ok hs₁]
    exact ⟨hreports, hissues⟩
  have hround : ∀ (s : Database) (i : Issue) (t : Database),
      (∀ r ∈ s.reports, ∀ c ∈ r.constraints s.issues, c.2 = true) →
      s.followIssueStateOnIssue i.id (set i).state = .ok t →
      (∀ r ∈ t.reports, ∀ c ∈ r.constraints t.issues, c.2 = true) ∧ t.issues = s.issues := by
    intro s i t hs hst
    unfold Database.followIssueStateOnIssue at hst
    split at hst
    · exact hbranch hs hst
    · exact hbranch hs hst
  exact (foldlM_related (R := fun s t : Database => t.issues = s.issues) (fun _ => rfl)
    (fun _ _ _ h₁ h₂ => h₂.trans h₁) hround hdb h).symm

theorem Statement.constrained (h : Statement rows inserts db db') (hdb : db.Constrained) :
    db'.Constrained := by
  cases h with
  | updateReports p set h =>
    have hreports := updateReports_constrained h hdb.reports
    rw [Database.updateReports_eq_ok h] at hreports ⊢
    exact ⟨hreports, hdb.issues, hdb.unique⟩
  | insertReport r h =>
    unfold Database.insertReport at h
    obtain ⟨u, hcheck, h⟩ := bind_eq_ok.mp h
    obtain rfl := pure_eq_ok.mp h
    refine ⟨fun s hs c hc => ?_, hdb.issues, hdb.unique⟩
    rcases List.mem_append.mp hs with hs | hs
    · exact hdb.reports s hs c hc
    · rw [List.mem_singleton.mp hs] at hc
      exact check_eq_ok hcheck c (.tail _ (.tail _ (.tail _ hc)))
  | storeFiles p reports issues aliases =>
    refine ⟨fun s hs => ?_, issues ▸ hdb.issues, issues ▸ hdb.unique⟩
    rw [reports] at hs
    obtain ⟨r, hr, rfl⟩ := List.mem_map.mp hs
    rw [issues]
    split
    · exact hdb.reports r hr
    · exact hdb.reports r hr
  | ageReports source expiresAt cleared reports issues aliases =>
    refine ⟨fun s hs => ?_, issues ▸ hdb.issues, issues ▸ hdb.unique⟩
    rw [reports] at hs
    obtain ⟨r, hr, rfl⟩ := List.mem_map.mp hs
    rw [issues]
    exact Report.constraints_age (cleared r) (hdb.reports r hr)
  | deleteReports p reports issues aliases =>
    refine ⟨fun r hr => ?_, issues ▸ hdb.issues, issues ▸ hdb.unique⟩
    rw [reports] at hr
    rw [issues]
    exact hdb.reports r (List.mem_filter.mp hr).1
  | updateIssues p set id allowed h =>
    unfold Database.updateIssues at h
    obtain ⟨u, hcheck, h⟩ := bind_eq_ok.mp h
    obtain ⟨v, hunique, h⟩ := bind_eq_ok.mp h
    obtain ⟨hissues, hreports⟩ := foldlM_followIssueStateOnIssue_constrained h fun r hr =>
      Report.constraints_mono (fun i hi => ids_of_updated id hi) (hdb.reports r hr)
    refine ⟨hreports, ?_, ?_⟩ <;> rw [hissues]
    · intro j hj c hc
      obtain ⟨i, hi, rfl⟩ := List.mem_map.mp hj
      by_cases hp : p i
      · rw [if_pos hp] at hc
        exact check_eq_ok hcheck c
          (List.mem_flatMap.mpr ⟨i, List.mem_filter.mpr ⟨hi, hp⟩, hc⟩)
      · rw [if_neg hp] at hc
        exact Issue.constraints_mono (fun k hk => ids_of_updated id hk) (hdb.issues i hi) c hc
    · exact check_eq_ok hunique
  | insertIssue allowed i h =>
    unfold Database.insertIssue at h
    obtain ⟨u, hcheck, h⟩ := bind_eq_ok.mp h
    obtain rfl := pure_eq_ok.mp h
    have hchecked := check_eq_ok hcheck
    have hids : ∀ j ∈ db.issues, ∃ k ∈ db.issues ++ [i], k.id = j.id := fun j hj =>
      ⟨j, List.mem_append_left _ hj, rfl⟩
    refine ⟨fun r hr => Report.constraints_mono hids (hdb.reports r hr), fun j hj => ?_,
      fun c hc => hchecked c (.tail _ (List.mem_append_right _ hc))⟩
    rcases List.mem_append.mp hj with hj | hj
    · exact Issue.constraints_mono hids (hdb.issues j hj)
    · rw [List.mem_singleton.mp hj]
      exact fun c hc => hchecked c (.tail _ (List.mem_append_left _ hc))
  | insertAlias allowed a h =>
    unfold Database.insertAlias at h
    obtain ⟨u, -, h⟩ := bind_eq_ok.mp h
    obtain rfl := pure_eq_ok.mp h
    exact ⟨hdb.reports, hdb.issues, hdb.unique⟩
  | other reports issues aliases =>
    exact ⟨reports ▸ issues ▸ hdb.reports, issues ▸ hdb.issues, issues ▸ hdb.unique⟩

theorem Statements.constrained (h : Statements rows inserts db db') (hdb : db.Constrained) :
    db'.Constrained := by
  induction h with
  | refl => exact hdb
  | tail _ hlast ih => exact hlast.constrained ih

theorem Database.IsReachable.constrained (h : db.IsReachable) : db.Constrained := by
  have hboth : db.Wf ∧ db.Constrained := by
    refine Reachable.invariant (I := fun db => db.Wf ∧ db.Constrained)
      (fun s op t hs hstep => ⟨hstep.wf hs.1, ?_⟩) h ⟨Database.wf_empty, ?_⟩
    · rw [hstep]
      exact (op.exec_statements hs.1.issueIds).constrained hs.2
    · exact ⟨fun _ hr => (by cases hr), fun _ hi => (by cases hi), by decide⟩
  exact hboth.2

/-! ## Unique indexes -/

/-- The unique indexes as they compare any two active issues. -/
def DistinctActive (i j : Issue) : Prop :=
  i.active = true → j.active = true → i.identity ≠ j.identity ∧
    ∀ g, i.githubIssueId = some g → j.githubIssueId ≠ some g

instance : Std.Symm DistinctActive where
  symm _ _ h hj hi :=
    have ⟨hidentity, hgithub⟩ := h hi hj
    ⟨hidentity.symm, fun g hg hg' => hgithub g hg' hg⟩

theorem uniqueActive_iff {issues : List Issue} :
    (∀ c ∈ uniqueActive issues, c.2 = true) ↔ issues.Pairwise DistinctActive := by
  unfold uniqueActive DistinctActive
  simp only [List.forall_mem_cons, List.not_mem_nil, false_implies, implies_true, and_true,
    decide_eq_true_eq, List.Nodup, List.pairwise_filterMap, List.pairwise_map, List.pairwise_filter]
  rw [← List.pairwise_and_iff]
  constructor
  · intro h
    refine h.imp ?_
    rintro a b ⟨hid, hidentity⟩ ha hb
    refine ⟨hidentity ha hb, fun g hg hg' => ?_⟩
    exact hid ha hb g hg g hg' rfl
  · intro h
    refine h.imp ?_
    intro a b hab
    refine ⟨fun ha hb g hg g' hg' heq => ?_, fun ha hb => (hab ha hb).1⟩
    subst heq
    exact (hab ha hb).2 g hg hg'

/-! ## Updates that succeed -/

/-- A linked report that meets its constraints has no fix. -/
theorem Report.fix_eq_null_of_constraints {d : IssueId}
    (h : ∀ c ∈ r.constraints issues, c.2 = true) (hd : r.issueId = some d) : r.fix = .null := by
  unfold Report.constraints at h
  simp only [List.forall_mem_cons, decide_eq_true_eq] at h
  obtain ⟨-, -, -, -, -, -, hcomplete, -, hunlinked, -⟩ := h
  have hkind : r.fix.kind = none := by simpa [hd] using hunlinked
  obtain ⟨⟨kind, reference, title, url⟩, hfix⟩ : ∃ f, r.fix = f := ⟨_, rfl⟩
  rw [hfix] at hkind hcomplete ⊢
  cases hkind
  cases reference <;> cases title <;> cases url <;> simp_all [FixColumns.null]

/-- A linked report may always be confirmed or resolved. -/
theorem Report.constraints_put {d : IssueId} {state : ReportState}
    (h : ∀ c ∈ r.constraints issues, c.2 = true) (hd : r.issueId = some d)
    (hstate : state = .confirmed ∨ state = .resolved) :
    ∀ c ∈ (r.put (some d) state .null).constraints issues, c.2 = true := by
  unfold Report.constraints at h ⊢
  simp only [List.forall_mem_cons] at h ⊢
  obtain ⟨htext, h₁, h₂, h₃, h₄, -, -, -, -, hissue, h₁₀⟩ := h
  refine ⟨?_, h₁, h₂, h₃, h₄, ?_, rfl, rfl, rfl, ?_, h₁₀⟩
  · simp only [Bool.and_eq_true] at htext ⊢
    exact ⟨⟨⟨htext.1.1.1, rfl⟩, rfl⟩, rfl⟩
  · rcases hstate with rfl | rfl <;> rfl
  · rwa [hd] at hissue

theorem followIssueStateOnIssue_succeeds {issue : IssueId} {state : IssueState}
    (hdb : ∀ r ∈ db.reports, ∀ c ∈ r.constraints db.issues, c.2 = true) :
    ∃ db', db.followIssueStateOnIssue issue state = .ok db' := by
  have hbranch : ∀ {previous next : ReportState}, next = .confirmed ∨ next = .resolved →
      ∃ db', db.followIssueState issue previous next = .ok db' := by
    intro previous next hnext
    unfold Database.followIssueState Database.updateReports
    dsimp only
    rw [check_of_forall]
    · exact ⟨_, rfl⟩
    intro c hc
    obtain ⟨r, hr, hc⟩ := List.mem_flatMap.mp hc
    simp only [List.mem_filter, Bool.and_eq_true, decide_eq_true_eq] at hr
    obtain ⟨hr, hd, -⟩ := hr
    have hfix := Report.fix_eq_null_of_constraints (hdb r hr) hd
    have hput : ({ r with state := next } : Report) = r.put (some issue) next r.fix := by
      rw [← hd]; rfl
    rw [hput, settle_put_linked db.issues r hnext (.inr hfix)] at hc
    exact Report.constraints_put (hdb r hr) hd (IssueState.reportState_eq _) c hc
  unfold Database.followIssueStateOnIssue
  split
  · exact hbranch (.inr rfl)
  · exact hbranch (.inl rfl)

theorem foldlM_followIssueStateOnIssue_succeeds {changed : List Issue} {set : Issue → Issue}
    (hdb : ∀ r ∈ db.reports, ∀ c ∈ r.constraints db.issues, c.2 = true) :
    ∃ db', changed.foldlM (fun db i => db.followIssueStateOnIssue i.id (set i).state) db =
      .ok db' := by
  induction changed generalizing db with
  | nil => exact ⟨db, rfl⟩
  | cons i changed ih =>
    obtain ⟨db₁, h₁⟩ : ∃ db₁, db.followIssueStateOnIssue i.id (set i).state = .ok db₁ :=
      followIssueStateOnIssue_succeeds hdb
    have hone : [i].foldlM (fun db i => db.followIssueStateOnIssue i.id (set i).state) db =
        .ok db₁ := by
      rw [List.foldlM_cons, h₁]; rfl
    obtain ⟨db', h'⟩ := ih (foldlM_followIssueStateOnIssue_constrained hone hdb).2
    exact ⟨db', by rw [List.foldlM_cons, h₁]; exact h'⟩

/-- A text that is accepted meets the constraints of its columns. -/
theorem validateIssueText_eq_ok {title description : String} {u : Unit}
    (h : validateIssueText title description = .ok u) :
    (1 ≤ title.length ∧ title.length ≤ 256) ∧ description.length ≤ 262144 := by
  unfold validateIssueText at h
  obtain ⟨u, htitle, hdescription⟩ := bind_eq_ok.mp h
  rw [ensure_eq_ok] at htitle hdescription
  simp only [Bool.and_eq_true, decide_eq_true_eq] at htitle hdescription
  refine ⟨⟨Nat.one_le_iff_ne_zero.mpr fun hc => htitle.1 ?_, htitle.2⟩, hdescription⟩
  rw [String.length_eq_zero_iff] at hc
  rw [hc]
  rfl

theorem constraints_updateIssue {set : Issue → Issue} {issues : List Issue}
    (hids : (issues.map (·.id)).Nodup) (hi : i ∈ issues) :
    (issues.map fun j => if decide (j.id = i.id) = true then set j else j) =
      issues.map fun j => if j.id = i.id then set i else j := by
  refine List.map_congr_left fun j hj => ?_
  by_cases hji : j.id = i.id
  · rw [if_pos (by simpa using hji), if_pos hji, Rows.eq_of_key hids hj hi hji]
  · rw [if_neg (by simpa using hji), if_neg hji]

/-- An update of one issue that keeps the unique indexes succeeds exactly if the new row meets the
constraints of its columns: the reports can always follow. -/
theorem updateIssue_succeeds_iff {set : Issue → Issue} (hids : (db.issues.map (·.id)).Nodup)
    (hreports : ∀ r ∈ db.reports, ∀ c ∈ r.constraints db.issues, c.2 = true)
    (hi : i ∈ db.issues) (hid : ∀ j, (set j).id = j.id)
    (hunique : (db.issues.map fun j => if j.id = i.id then set i else j).Pairwise DistinctActive) :
    (∃ db', db.updateIssue i.id set = .ok db') ↔
      ∀ c ∈ (set i).constraints db.issues, c.2 = true := by
  have hmono : ∀ j ∈ db.issues,
      ∃ k ∈ db.issues.map fun j => if decide (j.id = i.id) then set j else j, k.id = j.id :=
    fun j hj => ids_of_updated hid hj
  have hback : ∀ j ∈ db.issues.map fun j => if decide (j.id = i.id) then set j else j,
      ∃ k ∈ db.issues, k.id = j.id := by
    intro j hj
    obtain ⟨k, hk, rfl⟩ := List.mem_map.mp hj
    refine ⟨k, hk, ?_⟩
    split
    · exact (hid k).symm
    · rfl
  unfold Database.updateIssue Database.updateIssues
  dsimp only
  constructor
  · rintro ⟨db', h⟩
    obtain ⟨u, hcheck, -⟩ := bind_eq_ok.mp h
    refine Issue.constraints_mono hback fun c hc => check_eq_ok hcheck c ?_
    exact List.mem_flatMap.mpr ⟨i, List.mem_filter.mpr ⟨hi, by simp⟩, hc⟩
  · intro hconstraints
    rw [check_of_forall, ok_bind, check_of_forall, ok_bind]
    · exact foldlM_followIssueStateOnIssue_succeeds fun r hr =>
        Report.constraints_mono hmono (hreports r hr)
    · rw [constraints_updateIssue hids hi]
      exact uniqueActive_iff.mpr hunique
    · intro c hc
      obtain ⟨j, hj, hc⟩ := List.mem_flatMap.mp hc
      simp only [List.mem_filter, decide_eq_true_eq] at hj
      rw [Rows.eq_of_key hids hj.1 hi hj.2] at hc
      exact Issue.constraints_mono hmono hconstraints c hc

/-- An update of one issue succeeds if the new row meets the constraints of its columns, is as
active as it was, and tracks what it tracked. -/
theorem updateIssue_succeeds {set : Issue → Issue} (hwf : db.Wf) (hdb : db.Constrained)
    (hi : i ∈ db.issues) (hid : ∀ j, (set j).id = j.id)
    (hconstraints : ∀ c ∈ (set i).constraints db.issues, c.2 = true)
    (hactive : (set i).active = i.active) (hgithub : (set i).githubIssueId = i.githubIssueId)
    (hidentity : (set i).identity = i.identity) : ∃ db', db.updateIssue i.id set = .ok db' := by
  refine (updateIssue_succeeds_iff hwf.issueIds hdb.reports hi hid ?_).mpr hconstraints
  have hdistinct := uniqueActive_iff.mp hdb.unique
  refine Rows.pairwise_replace hwf.issueIds hdistinct fun j hj hne => ?_
  have hij : i ≠ j := fun h => hne (congrArg Issue.id h).symm
  have hboth : DistinctActive i j ∧ DistinctActive j i :=
    ⟨hdistinct.forall hi hj hij, hdistinct.forall hj hi hij.symm⟩
  unfold DistinctActive at hboth ⊢
  rwa [hactive, hgithub, hidentity]

end

end LadybirdReports.Admin
