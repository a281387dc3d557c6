import LadybirdReports.Admin.Identities
import LadybirdReports.Admin.Replacement
import Mathlib.Data.List.MinMax

/-!
# Lookups of what is tracked

Three queries look up the issue that a GitHub issue goes to: the destination of a merge, the issue
that assigned reports go to, and the issues that a search finds linked. Each follows 16 merges at
most, and the first leaves out the aliases, so that it takes a GitHub issue for untracked that an
issue tracked before. They find the same issue where an issue tracks the GitHub issue itself, no
more than 16 merges from its end (`lookups_agree_iff`).
-/

namespace LadybirdReports.Admin

open Forest Transition

section

variable {db : Database} {i : Issue} {repository : String} {issue : GithubIssue}
  {identity : GithubIdentity} {id r : IssueId}

/-- What an issue was merged into in the end, no more than 16 merges away. -/
def Database.endOf? (db : Database) (id : IssueId) : Option IssueId :=
  rootWithin (mergedInto? db.issues) 16 id

/-- The GitHub ID is of this GitHub issue only: an issue that has it, or had it, tracks the
repository and the number. -/
def Database.IdIsOf (db : Database) (repository : String) (issue : GithubIssue) : Prop :=
  ∀ i ∈ db.issues, i.state ≠ .rejected →
    (i.githubIssueId = some issue.id ∨
      ∃ a ∈ db.aliases, a.issueId = i.id ∧ a.githubIssueId = some issue.id) →
    i.Tracks db.aliases (.of repository issue.number)

/-- All that tracks the GitHub issue, or did before, no more than 16 merges from its end, comes to
the same end. -/
def Database.HasOneEnd (db : Database) (identity : GithubIdentity) : Prop :=
  ∀ a b r s, db.Tracked identity a → db.Tracked identity b →
    db.endOf? a = some r → db.endOf? b = some s → r = s

/-- An issue that is not rejected tracks the GitHub issue itself, by the ID or by the repository and
the number, no more than 16 merges from its end. -/
def Database.TracksItself (db : Database) (repository : String) (issue : GithubIssue) : Prop :=
  ∃ i ∈ db.issues, i.matchesGithub (some issue.id) repository issue.number = true ∧
    (db.endOf? i.id).isSome = true

/-- The three lookups find one and the same issue, which is neither merged nor rejected. -/
def Database.LookupsAgree (db : Database) (repository : String) (issue : GithubIssue) : Prop :=
  ∃ r ∈ db.issues, r.active = true ∧
    (∀ plan, db.destination? repository issue plan = some r.id) ∧
    (∀ plan, db.trackedIssue? issue repository plan = some r.id) ∧
    ∀ numbers, issue.number ∈ numbers →
      (∃ link ∈ db.issuesLinkedToGithubNumbers repository numbers,
        link.githubNumber = issue.number) ∧
      ∀ link ∈ db.issuesLinkedToGithubNumbers repository numbers,
        link.githubNumber = issue.number → link.issueId = r.id

/-! ## Chains of merges -/

/-- The chain of an issue that is not rejected has a row that is merged into none exactly when the
merges end within its length. -/
theorem exists_end_iff (hwf : db.Wf) {through : Issue → Bool}
    (hthrough : ∀ j : Issue, j.state ≠ .rejected → through j = true) (hi : i ∈ db.issues)
    (hstate : i.state ≠ .rejected) (steps depth : ℕ) :
    (∃ row ∈ mergeChain db.issues through steps depth i,
      row.1.mergedInto = none ∧ row.1.id = r) ↔
      rootWithin (mergedInto? db.issues) steps i.id = some r := by
  induction steps generalizing depth i with
  | zero =>
    rw [mergeChain, rootWithin, mergedInto?_of_mem hwf.issueIds hi]
    cases hmerged : i.mergedInto <;> simp [hmerged]
  | succ steps ih =>
    rw [mergeChain, rootWithin, mergedInto?_of_mem hwf.issueIds hi]
    cases hmerged : i.mergedInto with
    | none => simp [hmerged]
    | some d =>
      obtain ⟨next, hnext, rfl⟩ := hwf.target i hi d hmerged
      have hactive : next.state ≠ .rejected := fun hc =>
        hstate (hwf.rejected i hi next hnext hmerged hc)
      rw [Option.bind_some, Rows.find?_key hwf.issueIds hnext]
      simp only [hthrough next hactive, if_true, List.mem_cons, exists_eq_or_imp, hmerged]
      rw [← ih hnext hactive (depth + 1)]
      simp

/-- The deepest row is the end that all that have one come to. -/
theorem deepestRoot?_eq {chain : List (Issue × ℕ)} (plan : ℕ)
    (hend : ∃ row ∈ chain, row.1.mergedInto = none)
    (hends : ∀ row ∈ chain, row.1.mergedInto = none → row.1.id = r) :
    deepestRoot? chain plan = some r := by
  obtain ⟨row, hrow, hnone⟩ := hend
  have hroot : row ∈ chain.filter (·.1.mergedInto.isNone) :=
    List.mem_filter.mpr ⟨hrow, by rw [hnone]; rfl⟩
  obtain ⟨deepest, hdeepest⟩ := Option.ne_none_iff_exists'.mp
    (fun hc => List.ne_nil_of_mem hroot (List.argmax_eq_none.mp hc) :
      (chain.filter (·.1.mergedInto.isNone)).argmax (·.2) ≠ none)
  have hmem : deepest ∈ (chain.filter (·.1.mergedInto.isNone)).filter fun row =>
      (chain.filter (·.1.mergedInto.isNone)).all (·.2 ≤ row.2) := by
    refine List.mem_filter.mpr ⟨List.argmax_mem hdeepest, List.all_eq_true.mpr ?_⟩
    exact fun other hother => decide_eq_true (List.le_of_mem_argmax hother hdeepest)
  obtain ⟨found, hfound⟩ := exists_choose hmem plan
  have hroots := List.mem_filter.mp (List.mem_of_mem_filter (mem_of_choose hfound))
  unfold deepestRoot?
  dsimp only
  rw [hfound, Option.map_some, hends found hroots.1 (Option.isNone_iff_eq_none.mp hroots.2)]

/-- The chains of issues that are not rejected lead to the end of one of them. -/
theorem deepestRoot?_flatMap (hwf : db.Wf) {through : Issue → Bool} {base : List Issue}
    (hthrough : ∀ j : Issue, j.state ≠ .rejected → through j = true)
    (hbase : ∀ j ∈ base, j ∈ db.issues ∧ j.state ≠ .rejected)
    (hends : ∀ j ∈ base, ∀ s, db.endOf? j.id = some s → s = r)
    (hend : ∃ j ∈ base, (db.endOf? j.id).isSome = true) (plan : ℕ) :
    deepestRoot? (base.flatMap (mergeChain db.issues through 16 0)) plan = some r := by
  refine deepestRoot?_eq plan ?_ fun row hrow hmerged => ?_
  · obtain ⟨j, hj, hsome⟩ := hend
    obtain ⟨s, hs⟩ := Option.isSome_iff_exists.mp hsome
    obtain ⟨hmem, hstate⟩ := hbase j hj
    obtain ⟨row, hrow, hmerged, -⟩ := (exists_end_iff hwf hthrough hmem hstate 16 0).mpr hs
    exact ⟨row, List.mem_flatMap.mpr ⟨j, hj, hrow⟩, hmerged⟩
  · obtain ⟨j, hj, hrow⟩ := List.mem_flatMap.mp hrow
    obtain ⟨hmem, hstate⟩ := hbase j hj
    exact hends j hj _ ((exists_end_iff hwf hthrough hmem hstate 16 0).mp ⟨row, hrow, hmerged, rfl⟩)

/-! ## What the lookups start from -/

theorem matchesGithub_iff : i.matchesGithub (some issue.id) repository issue.number = true ↔
    i.state ≠ .rejected ∧
      (i.githubIssueId = some issue.id ∨ i.identity = .of repository issue.number) := by
  simp [Issue.matchesGithub]

/-- What matches tracks the GitHub issue, by the ID as well. -/
theorem Database.IdIsOf.tracked_of_matches (hid : db.IdIsOf repository issue) (hi : i ∈ db.issues)
    (h : i.matchesGithub (some issue.id) repository issue.number = true) :
    db.Tracked (.of repository issue.number) i.id := by
  obtain ⟨hstate, h⟩ := matchesGithub_iff.mp h
  rcases h with h | h
  · exact ⟨i, hi, rfl, hstate, hid i hi hstate (.inl h)⟩
  · exact ⟨i, hi, rfl, hstate, .inl h⟩

/-- What matches itself, or by an alias, is not rejected and tracks the GitHub issue. -/
theorem Database.IdIsOf.tracked_of_mem (hid : db.IdIsOf repository issue)
    (h : i ∈ db.issues.filter (·.matchesGithub (some issue.id) repository issue.number) ++
      db.matchingAliases issue.id repository issue.number) :
    (i ∈ db.issues ∧ i.state ≠ .rejected) ∧ db.Tracked (.of repository issue.number) i.id := by
  rcases List.mem_append.mp h with h | h
  · obtain ⟨hi, hmatches⟩ := List.mem_filter.mp h
    exact ⟨⟨hi, (matchesGithub_iff.mp hmatches).1⟩, hid.tracked_of_matches hi hmatches⟩
  · obtain ⟨hi, hstate, a, ha, haid, hmatches⟩ := mem_matchingAliases h
    refine ⟨⟨hi, hstate⟩, i, hi, rfl, hstate, ?_⟩
    simp only [GithubAlias.matchesGithub, Bool.or_eq_true, decide_eq_true_eq] at hmatches
    rcases hmatches with hmatches | hmatches
    · exact .inr ⟨a, ha, haid, hmatches⟩
    · exact hid i hi hstate (.inr ⟨a, ha, haid, hmatches⟩)

theorem mem_linkedRows {numbers : List ℤ} {number : ℤ} (hnumber : number ∈ numbers) :
    (i, number) ∈ db.linkedRows repository numbers ↔
      i ∈ db.issues ∧ i.state ≠ .rejected ∧ i.Tracks db.aliases (.of repository number) := by
  have hof : ∀ (name : String) (n : ℤ), GithubIdentity.of name n = .of repository number ↔
      lower name = lower repository ∧ n = number := by
    intro name n
    simp [GithubIdentity.of]
  unfold Database.linkedRows
  rw [List.mem_append, List.mem_map, List.mem_flatMap]
  unfold Issue.Tracks Issue.identity GithubAlias.identity
  simp only [hof]
  constructor
  · rintro (⟨j, hj, heq⟩ | ⟨a, ha, hj⟩)
    · obtain ⟨rfl, rfl⟩ := Prod.mk.inj heq
      simp only [List.mem_filter, Bool.and_eq_true, decide_eq_true_eq] at hj
      exact ⟨hj.1, hj.2.2, .inl ⟨hj.2.1.1, rfl⟩⟩
    · obtain ⟨j, hmem, heq⟩ := List.mem_map.mp hj
      obtain ⟨rfl, rfl⟩ := Prod.mk.inj heq
      simp only [List.mem_filter, Bool.and_eq_true, decide_eq_true_eq] at ha hmem
      exact ⟨hmem.1, hmem.2.2, .inr ⟨a, ha.1, hmem.2.1.symm, ha.2.1, rfl⟩⟩
  · rintro ⟨hi, hstate, ⟨hrepository, rfl⟩ | ⟨a, ha, haid, hrepository, rfl⟩⟩
    · exact .inl ⟨i, List.mem_filter.mpr ⟨hi, by simp [hrepository, hnumber, hstate]⟩, rfl⟩
    · refine .inr ⟨a, List.mem_filter.mpr ⟨ha, by simp [hrepository, hnumber]⟩, ?_⟩
      exact List.mem_map.mpr ⟨i, List.mem_filter.mpr ⟨hi, by simp [haid, hstate]⟩, rfl⟩

/-- The links of a number are the ends of what tracks it, or did before. -/
theorem exists_link_iff (hwf : db.Wf) {numbers : List ℤ} {number : ℤ} (hnumber : number ∈ numbers) :
    (∃ link ∈ db.issuesLinkedToGithubNumbers repository numbers,
      link.githubNumber = number ∧ link.issueId = r) ↔
      ∃ id, db.Tracked (.of repository number) id ∧ db.endOf? id = some r := by
  unfold Database.issuesLinkedToGithubNumbers
  rw [if_neg (List.ne_nil_of_mem hnumber)]
  have hends : ∀ {i : Issue}, i ∈ db.issues → i.state ≠ .rejected →
      ((∃ row ∈ mergeChain db.issues (·.state ≠ .rejected) 16 0 i,
        row.1.mergedInto = none ∧ row.1.id = r) ↔ db.endOf? i.id = some r) :=
    fun hi hstate => exists_end_iff hwf (by simp) hi hstate 16 0
  constructor
  · rintro ⟨link, hlink, rfl, rfl⟩
    obtain ⟨⟨i, n⟩, hrow, hlink⟩ := List.mem_flatMap.mp hlink
    obtain ⟨row, hend, rfl⟩ := List.mem_map.mp hlink
    obtain ⟨hi, hstate, htracks⟩ := (mem_linkedRows hnumber).mp hrow
    obtain ⟨hchain, hend⟩ := List.mem_filter.mp hend
    simp only [Bool.and_eq_true, Option.isNone_iff_eq_none] at hend
    exact ⟨i.id, ⟨i, hi, rfl, hstate, htracks⟩, (hends hi hstate).mp ⟨row, hchain, hend.1, rfl⟩⟩
  · rintro ⟨-, ⟨i, hi, rfl, hstate, htracks⟩, hend⟩
    obtain ⟨row, hchain, hmerged, rfl⟩ := (hends hi hstate).mpr hend
    have hactive : row.1.state ≠ .rejected :=
      hwf.root_not_rejected hi (mem_mergeChain hi hchain)
        (mergeChain_rootOf hwf.issueIds hi hchain hmerged) hstate
    refine ⟨⟨row.1.id, number, row.1.title, row.1.githubState⟩, ?_, rfl, rfl⟩
    have hrow := (mem_linkedRows hnumber).mpr ⟨hi, hstate, htracks⟩
    refine List.mem_flatMap.mpr ⟨(i, number), hrow, List.mem_map.mpr ⟨row, ?_, rfl⟩⟩
    exact List.mem_filter.mpr ⟨hchain, by simp [hmerged, hactive]⟩

/-! ## Agreement -/

theorem endOf?_eq_some (hwf : db.Wf) (hi : i ∈ db.issues) (hstate : i.state ≠ .rejected)
    (h : db.endOf? i.id = some r) : ∃ j ∈ db.issues, j.id = r ∧ j.active = true := by
  obtain ⟨row, hchain, hmerged, rfl⟩ :=
    (exists_end_iff hwf (fun _ _ => (rfl : true = true)) hi hstate 16 0).mpr h
  have hactive := hwf.root_not_rejected hi (mem_mergeChain hi hchain)
    (mergeChain_rootOf hwf.issueIds hi hchain hmerged) hstate
  exact ⟨row.1, mem_mergeChain hi hchain, rfl, by simp [Issue.active, hmerged, hactive]⟩

/-- The links under the number show the ends of all that tracks the GitHub issue. -/
theorem Database.LookupsAgree.hasOneEnd (hwf : db.Wf) (h : db.LookupsAgree repository issue) :
    db.HasOneEnd (.of repository issue.number) := by
  obtain ⟨r, -, -, -, -, hlinks⟩ := h
  have hnumber : issue.number ∈ [issue.number] := List.mem_singleton_self _
  have hend : ∀ {a s : IssueId}, db.Tracked (.of repository issue.number) a →
      db.endOf? a = some s → s = r.id := by
    intro a s ha hs
    obtain ⟨link, hlink, hlinked, rfl⟩ := (exists_link_iff hwf hnumber).mpr ⟨a, ha, hs⟩
    exact (hlinks _ hnumber).2 link hlink hlinked
  exact fun a b s t ha hb hs ht => (hend ha hs).trans (hend hb ht).symm

/-- The destination of a merge is found from an issue that tracks the GitHub issue itself. -/
theorem Database.LookupsAgree.tracksItself (hwf : db.Wf) (h : db.LookupsAgree repository issue) :
    db.TracksItself repository issue := by
  obtain ⟨r, -, -, hdestination, -⟩ := h
  obtain ⟨row, hrow, -, hmerged⟩ := deepestRoot?_eq_some (hdestination 0)
  obtain ⟨i, hi, hrow⟩ := List.mem_flatMap.mp hrow
  obtain ⟨hi, hmatches⟩ := List.mem_filter.mp hi
  have hend := (exists_end_iff hwf (fun _ _ => rfl) hi (matchesGithub_iff.mp hmatches).1 16 0).mp
    ⟨row, hrow, hmerged, rfl⟩
  exact ⟨i, hi, hmatches, by rw [Database.endOf?, hend]; rfl⟩

/-- Where one issue tracks the GitHub issue itself, each lookup finds the end of all that does. -/
theorem Database.HasOneEnd.lookupsAgree (hwf : db.Wf) (hid : db.IdIsOf repository issue)
    (hone : db.HasOneEnd (.of repository issue.number)) (h : db.TracksItself repository issue) :
    db.LookupsAgree repository issue := by
  obtain ⟨i, hi, hmatches, hnear⟩ := h
  obtain ⟨s, hs⟩ := Option.isSome_iff_exists.mp hnear
  obtain ⟨r, hr, rfl, hactive⟩ := endOf?_eq_some hwf hi (matchesGithub_iff.mp hmatches).1 hs
  have htracked := hid.tracked_of_matches hi hmatches
  have hends : ∀ a s, db.Tracked (.of repository issue.number) a → db.endOf? a = some s →
      s = r.id := fun a s ha hs' => hone a i.id s r.id ha htracked hs' hs
  have hmem : i ∈ db.issues.filter (·.matchesGithub (some issue.id) repository issue.number) :=
    List.mem_filter.mpr ⟨hi, hmatches⟩
  refine ⟨r, hr, hactive, fun plan => ?_, fun plan => ?_, fun numbers hnumber => ⟨?_, ?_⟩⟩
  · refine deepestRoot?_flatMap hwf (fun _ _ => rfl) (fun j hj => ?_) (fun j hj s => ?_)
      ⟨i, hmem, hnear⟩ plan
    · exact (hid.tracked_of_mem (List.mem_append_left _ hj)).1
    · exact hends j.id s (hid.tracked_of_mem (List.mem_append_left _ hj)).2
  · exact deepestRoot?_flatMap hwf (by simp) (fun j hj => (hid.tracked_of_mem hj).1)
      (fun j hj s => hends j.id s (hid.tracked_of_mem hj).2)
      ⟨i, List.mem_append_left _ hmem, hnear⟩ plan
  · obtain ⟨link, hlink, hlinked, -⟩ := (exists_link_iff hwf hnumber).mpr ⟨i.id, htracked, hs⟩
    exact ⟨link, hlink, hlinked⟩
  · intro link hlink hlinked
    obtain ⟨a, ha, hend⟩ := (exists_link_iff hwf hnumber).mp ⟨link, hlink, hlinked, rfl⟩
    exact hends a link.issueId ha hend

/-- In every reachable database the three lookups of a GitHub issue agree exactly when all that
tracks it comes to one end and an issue tracks it itself. It all comes to one end in the runs in
which what is tracked resolves. -/
theorem lookups_agree_iff (h : db.IsReachable) (hid : db.IdIsOf repository issue) :
    (db.LookupsAgree repository issue ↔
      db.HasOneEnd (.of repository issue.number) ∧ db.TracksItself repository issue) ∧
    ∀ ops, Run (Where KeepsIdentities Step) .empty ops db →
      db.HasOneEnd (.of repository issue.number) := by
  refine ⟨⟨fun hagree => ⟨hagree.hasOneEnd h.wf, hagree.tracksItself h.wf⟩,
    fun ⟨hone, htracks⟩ => hone.lookupsAgree h.wf hid htracks⟩, ?_⟩
  intro ops hrun a b r s ha hb hr hs
  exact (identified_of_run hrun).unique _ a b r s ha hb (rootOf_of_rootWithin hr)
    (rootOf_of_rootWithin hs)

instance (db : Database) (repository : String) (issue : GithubIssue) :
    Decidable (db.IdIsOf repository issue) := by
  unfold Database.IdIsOf; infer_instance

instance (db : Database) (repository : String) (issue : GithubIssue) :
    Decidable (db.TracksItself repository issue) := by
  unfold Database.TracksItself; infer_instance

/-- Issue 3 is merged into issue 2, which is merged into issue 1. -/
def mergedTwice : List Operation :=
  submitLinked 1 "1" ++ submitLinked 2 "2" ++ submitLinked 3 "3" ++ queueDuplicate 3 "3" ++
    [.finishGithubDuplicate (sampleJob 3) (some (sampleIssue 12 2 "2" .open 1 none)) ⟨9⟩ 4 0] ++
    mergedSecond

/-- All three find issue 1 for what issue 3 tracks. -/
theorem merged_issue_is_looked_up :
    (execAll mergedTwice .empty).LookupsAgree "o/r" (sampleIssue 13 3 "3" .open 1 none) := by
  obtain ⟨hagree, hone⟩ := lookups_agree_iff (isReachable_execAll mergedTwice)
    (by decide +kernel : Database.IdIsOf _ "o/r" (sampleIssue 13 3 "3" .open 1 none))
  exact hagree.mpr ⟨hone _ (run_execAll (by decide +kernel)), by decide +kernel⟩

example : (execAll mergedTwice .empty).trackedIssue? (sampleIssue 13 3 "3" .open 1 none) "o/r" 0 =
    some ⟨1⟩ := by decide +kernel

/-- Issue 1 is given #2 in place of #1, and no merge finds what tracked #1. -/
theorem replaced_issue_is_overlooked :
    let db := execAll replacedOnce .empty
    let issue := sampleIssue 11 1 "1" .open 1 none
    db.IsReachable ∧ db.IdIsOf "o/r" issue ∧
      (∃ i ∈ db.issues, i.active = true ∧ i.Tracks db.aliases (.of "o/r" 1)) ∧
      db.destination? "o/r" issue 0 = none ∧ db.trackedIssue? issue "o/r" 0 = some ⟨1⟩ ∧
      ¬ db.LookupsAgree "o/r" issue := by
  have hnone : (execAll replacedOnce .empty).destination? "o/r" (sampleIssue 11 1 "1" .open 1 none)
      0 = none := by decide +kernel
  refine ⟨isReachable_execAll _, by decide +kernel, by decide +kernel, hnone, by decide +kernel, ?_⟩
  rintro ⟨r, -, -, hdestination, -⟩
  rw [hdestination 0] at hnone
  cases hnone

end

end LadybirdReports.Admin
