import LadybirdReports.Admin.Constraints

/-!
# Replacing the GitHub issue of an issue

`replace_github_issue` keeps the former GitHub issue as an alias, so that it goes on being found.
The table of aliases has one row for each GitHub issue, whoever tracked it, and a row outlives what
it is good for: rejecting an issue frees its GitHub issues for others, but not the rows that name
them. So a replacement by a GitHub issue that nothing tracks is refused when the *former* GitHub
issue has a row already (`replaceGithubIssue_succeeds_iff`).
-/

namespace LadybirdReports.Admin

open Rust Transition

section

variable {db db' : Database} {i : Issue} {repository : String} {replacement : GithubIssue}

/-- A GitHub issue that the issue may be given: it passes the checks, its own GitHub issue is out of
reach, and no other issue that counts tracks the new one, now or through an alias. -/
structure Replaceable (db : Database) (i : Issue) (repository : String)
    (replacement : GithubIssue) : Prop where
  mem : i ∈ db.issues
  active : i.active = true
  unreachable : i.githubState.isUnreachable = true
  belongs : replacement.belongsToRepository repository = true
  text : validateIssueText replacement.title replacement.description = .ok ()
  other : ¬ (eqIgnoreAsciiCase i.githubRepository repository = true ∧
    i.githubNumber = replacement.number)
  untracked : ∀ j ∈ db.issues, j.id ≠ i.id → j.state ≠ .rejected →
    j.identity ≠ .of repository replacement.number ∧ j.githubIssueId ≠ some replacement.id
  unaliased : ∀ a ∈ db.aliases, (∃ j ∈ db.issues, j.id = a.issueId ∧ j.state ≠ .rejected) →
    a.identity ≠ .of repository replacement.number ∧ a.githubIssueId ≠ some replacement.id

/-- The columns take the repository, the number, the URL and the texts of the new GitHub issue. -/
def ColumnsTake (repository : String) (replacement : GithubIssue) : Prop :=
  (isText replacement.title = true ∧ isText replacement.description = true ∧
    isText repository = true ∧ isText replacement.htmlUrl = true) ∧
  isRepositoryName repository = true ∧ 0 < replacement.number ∧
    replacement.htmlUrl.length ≤ 2048

instance (repository : String) (replacement : GithubIssue) :
    Decidable (ColumnsTake repository replacement) := by
  unfold ColumnsTake; infer_instance

/-- No alias is named as the GitHub issue that the issue tracks so far. -/
def FreesAlias (db : Database) (i : Issue) : Prop :=
  ∀ a ∈ db.aliases, a.githubRepository = i.githubRepository → a.githubNumber ≠ i.githubNumber

/-- The row that `replace_github_issue` writes. -/
def Issue.replaced (i : Issue) (repository : String) (replacement : GithubIssue)
    (now : Timestamp) : Issue :=
  { i with
    githubRepository := repository
    githubNumber := replacement.number
    githubIssueId := some replacement.id
    githubUrl := replacement.htmlUrl
    title := replacement.title
    description := replacement.description
    githubState := replacement.state.linkState
    state := if replacement.state = .closed then .resolved else .unresolved
    githubUpdatedAt := some replacement.updatedAt
    githubReportsFieldId := none
    githubReportsLinkUrl := none
    resolvedAt := if replacement.state = .closed then some (i.resolvedAt.getD now) else none }

/-! ## The checks -/

theorem Replaceable.not_matches (h : Replaceable db i repository replacement) :
    (db.issues.any fun j => j.id ≠ i.id &&
      j.matchesGithub (some replacement.id) repository replacement.number) = false := by
  refine List.any_eq_false.mpr fun j hj => ?_
  by_cases hji : j.id = i.id
  · simp [hji]
  by_cases hrejected : j.state = .rejected
  · simp [Issue.matchesGithub, hrejected]
  · obtain ⟨hidentity, hgithub⟩ := h.untracked j hj hji hrejected
    simp [Issue.matchesGithub, hidentity, hgithub]

theorem Replaceable.matchingAliases_eq_nil (h : Replaceable db i repository replacement) :
    db.matchingAliases replacement.id repository replacement.number = [] := by
  unfold Database.matchingAliases
  refine List.flatMap_eq_nil_iff.mpr fun a ha => List.filter_eq_nil_iff.mpr fun j hj hjs => ?_
  rw [List.mem_filter] at ha
  simp only [Bool.and_eq_true, decide_eq_true_eq] at hjs
  obtain ⟨hidentity, hgithub⟩ := h.unaliased a ha.1 ⟨j, hj, hjs⟩
  simp [GithubAlias.matchesGithub, hidentity, hgithub] at ha

/-- What is left once the checks have passed: the alias, the row and the event. -/
theorem replaceGithubIssue_eq (hids : (db.issues.map (·.id)).Nodup)
    (h : Replaceable db i repository replacement) (actor : ℤ) (now : Timestamp) :
    db.replaceGithubIssue i.id repository replacement actor now = (do
      let db ← db.insertAlias ⟨i.id, i.githubRepository, i.githubNumber, i.githubIssueId,
        i.githubUrl⟩
      let db ← db.updateIssue i.id (·.replaced repository replacement now)
      return db.audit (some actor) (.issue i.id) (.issueUpdateGithubLink
        (i.githubRepository, i.githubNumber, i.githubUrl)
        (repository, replacement.number, replacement.htmlUrl))) := by
  have hfind : db.findIssue? i.id = some i := Rows.find?_key hids h.mem
  have hother : (!(eqIgnoreAsciiCase i.githubRepository repository &&
      decide (i.githubNumber = replacement.number))) = true := by
    rw [Bool.not_eq_true', Bool.eq_false_iff]
    intro hsame
    rw [Bool.and_eq_true, decide_eq_true_eq] at hsame
    exact h.other hsame
  unfold Database.replaceGithubIssue
  rw [h.belongs, h.text, hfind, h.not_matches, h.matchingAliases_eq_nil]
  simp only [ensure, okOr, Option.filter_some, h.active, h.unreachable, hother, if_true, ok_bind,
    Bool.false_or, ne_eq, not_true_eq_false, decide_false, Bool.not_false]
  rfl

/-! ## The statements -/

/-- The alias is inserted unless one is there: the number that was tracked is positive. -/
theorem insertAlias_succeeds_iff (hdb : db.Constrained) (hi : i ∈ db.issues) :
    (∃ db', db.insertAlias ⟨i.id, i.githubRepository, i.githubNumber, i.githubIssueId,
      i.githubUrl⟩ = .ok db') ↔ FreesAlias db i := by
  have hnumber : 0 < i.githubNumber := by
    have hconstraints := hdb.issues i hi ("issues_github_number_check", decide (0 < i.githubNumber))
      (by simp [Issue.constraints])
    simpa using hconstraints
  have hissue : (db.issues.any (·.id = i.id)) = true :=
    List.any_eq_true.mpr ⟨i, hi, by simp⟩
  unfold Database.insertAlias
  constructor
  · rintro ⟨db', h⟩ a ha hrepository hsame
    obtain ⟨u, hcheck, -⟩ := bind_eq_ok.mp h
    have hpkey := check_eq_ok hcheck _ (.tail _ (.head _))
    have hfree := List.all_eq_true.mp hpkey a ha
    simp [hrepository, hsame] at hfree
  · intro hfree
    rw [check_of_forall]
    · exact ⟨_, rfl⟩
    intro c hc
    simp only [List.mem_cons, List.not_mem_nil, or_false] at hc
    rcases hc with rfl | rfl | rfl
    · simpa using hnumber
    · refine List.all_eq_true.mpr fun a ha => ?_
      by_cases hrepository : a.githubRepository = i.githubRepository
      · simp [hfree a ha hrepository]
      · simp [hrepository]
    · exact hissue

/-- The new row meets the constraints of the table exactly if the columns take what is new in it. -/
theorem constraints_replaced_iff (h : Replaceable db i repository replacement) (now : Timestamp) :
    (∀ c ∈ (i.replaced repository replacement now).constraints db.issues, c.2 = true) ↔
      ColumnsTake repository replacement := by
  have hmerged : i.mergedInto = none := by
    have hactive := h.active
    simp only [Issue.active, Bool.and_eq_true, Option.isNone_iff_eq_none] at hactive
    exact hactive.1
  obtain ⟨⟨hpos, htitle⟩, hdescription⟩ := validateIssueText_eq_ok h.text
  unfold Issue.constraints Issue.replaced ColumnsTake
  simp only [List.forall_mem_cons, hmerged, decide_eq_true_eq, Bool.and_eq_true, Option.all_none,
    List.not_mem_nil, false_implies, implies_true, and_true, ne_eq, reduceCtorEq,
    not_false_eq_true, true_and]
  constructor
  · rintro ⟨⟨⟨⟨htitleText, htext⟩, hrepository⟩, hurlText⟩, hname, -, hnumber, hurl, -⟩
    exact ⟨⟨htitleText, htext, hrepository, hurlText⟩, hname, hnumber, hurl⟩
  · rintro ⟨⟨htitleText, htext, hrepository, hurlText⟩, hname, hnumber, hurl⟩
    exact ⟨⟨⟨⟨htitleText, htext⟩, hrepository⟩, hurlText⟩, hname, hdescription, hnumber, hurl,
      hpos, htitle⟩

/-- No other active issue has what the new row has in the unique indexes. -/
theorem distinctActive_replaced (h : Replaceable db i repository replacement) {j : Issue}
    (hj : j ∈ db.issues) (hne : j.id ≠ i.id) (now : Timestamp) :
    DistinctActive (i.replaced repository replacement now) j := by
  intro _ hactive
  have hstate : j.state ≠ .rejected := by
    simp only [Issue.active, Bool.and_eq_true, decide_eq_true_eq] at hactive
    exact hactive.2
  obtain ⟨hidentity, hgithub⟩ := h.untracked j hj hne hstate
  refine ⟨hidentity.symm, fun g hg => ?_⟩
  cases hg
  exact hgithub

/-- An issue whose GitHub issue is out of reach is given another that nothing tracks exactly when
there is no alias yet for the one it has, and the columns take the new one. Where it is refused,
nothing changes. -/
theorem replaceGithubIssue_succeeds_iff (hreach : db.IsReachable)
    (h : Replaceable db i repository replacement) (actor : ℤ) (now : Timestamp) :
    ((∃ db', db.replaceGithubIssue i.id repository replacement actor now = .ok db') ↔
      FreesAlias db i ∧ ColumnsTake repository replacement) ∧
    ∀ db issueId repository replacement error,
      Database.replaceGithubIssue db issueId repository replacement actor now = .error error →
        (Operation.replaceGithubIssue issueId repository replacement actor now).exec db = db := by
  have hwf := hreach.wf
  have hdb := hreach.constrained
  constructor
  · rw [replaceGithubIssue_eq hwf.issueIds h, ← insertAlias_succeeds_iff hdb h.mem,
      ← constraints_replaced_iff h now]
    have hunique := Rows.pairwise_replace hwf.issueIds (uniqueActive_iff.mp hdb.unique)
      fun j hj hne => ⟨distinctActive_replaced h hj hne now,
        Std.Symm.symm _ _ (distinctActive_replaced h hj hne now)⟩
    have hupdate : ∀ db₁ : Database, db₁.issues = db.issues → db₁.reports = db.reports →
        ((∃ db', db₁.updateIssue i.id (·.replaced repository replacement now) = .ok db') ↔
          ∀ c ∈ (i.replaced repository replacement now).constraints db.issues, c.2 = true) := by
      intro db₁ hissues hreports
      rw [← hissues]
      refine updateIssue_succeeds_iff ?_ ?_ ?_ (fun _ => rfl) ?_
      · rw [hissues]
        exact hwf.issueIds
      · rw [hissues, hreports]
        exact hdb.reports
      · rw [hissues]
        exact h.mem
      · rw [hissues]
        exact hunique
    have hinsert : ∀ {db₁ : Database}, db.insertAlias ⟨i.id, i.githubRepository, i.githubNumber,
        i.githubIssueId, i.githubUrl⟩ = .ok db₁ →
        db₁.issues = db.issues ∧ db₁.reports = db.reports := by
      intro db₁ h₁
      unfold Database.insertAlias at h₁
      obtain ⟨u, -, h₁⟩ := bind_eq_ok.mp h₁
      rw [← pure_eq_ok.mp h₁]
      exact ⟨rfl, rfl⟩
    constructor
    · rintro ⟨db', hdb'⟩
      obtain ⟨db₁, h₁, hdb'⟩ := bind_eq_ok.mp hdb'
      obtain ⟨db₂, h₂, -⟩ := bind_eq_ok.mp hdb'
      obtain ⟨hissues, hreports⟩ := hinsert h₁
      exact ⟨⟨db₁, h₁⟩, (hupdate db₁ hissues hreports).mp ⟨db₂, h₂⟩⟩
    · rintro ⟨⟨db₁, h₁⟩, hconstraints⟩
      obtain ⟨hissues, hreports⟩ := hinsert h₁
      obtain ⟨db₂, h₂⟩ := (hupdate db₁ hissues hreports).mpr hconstraints
      exact ⟨_, by rw [h₁, ok_bind, h₂, ok_bind]; rfl⟩
  · intro db issueId repository replacement error herror
    change commit (db.replaceGithubIssue issueId repository replacement actor now) db = db
    rw [herror]
    rfl

end

/-! ## An alias that is left behind -/

/-- Issue 1 loses sight of #1 and is given #2. -/
def replacedOnce : List Operation :=
  submitLinked 1 "1" ++
    [.markGithubIssueUnavailable "o/r" 1 (some 11) .unavailable .webhook 0,
      .replaceGithubIssue ⟨1⟩ "o/r" (sampleIssue 12 2 "2" .open 1 none) 7 3]

/-- It is rejected, and issue 3 tracks #1 until that is out of sight again. -/
def leftAlias : Database :=
  execAll (replacedOnce ++ [.rejectIssue ⟨1⟩ 7 .unlink] ++ submit 3 ++
    [.linkToGithubIssue (sampleIssue 11 1 "1" .open 4 none) [⟨3⟩] "o/r" 7 ⟨3⟩ 0,
      .markGithubIssueUnavailable "o/r" 1 (some 11) .unavailable .webhook 0]) .empty

theorem leftAlias_isSome : (leftAlias.findIssue? ⟨3⟩).isSome = true := by decide +kernel

/-- Nothing tracks #4. -/
theorem leftAlias_replaceable :
    Replaceable leftAlias ((leftAlias.findIssue? ⟨3⟩).get leftAlias_isSome) "o/r"
      (sampleIssue 14 4 "4" .open 5 none) where
  mem := mem_findIssue? ⟨3⟩ leftAlias_isSome
  active := by decide +kernel
  unreachable := by decide +kernel
  belongs := by decide +kernel
  text := by decide +kernel
  other := by decide +kernel
  untracked := by decide +kernel
  unaliased := by decide +kernel

/-- The former GitHub issue of issue 3 has the alias of issue 1. -/
theorem leftAlias_refuses :
    ¬ ∀ db : Database, db.IsReachable → ∀ i repository replacement,
      Replaceable db i repository replacement → ColumnsTake repository replacement →
      ∃ db', db.replaceGithubIssue i.id repository replacement 7 6 = .ok db' := by
  intro h
  obtain ⟨db', hdb'⟩ := h leftAlias (isReachable_execAll _) _ _ _ leftAlias_replaceable
    (by decide +kernel)
  have herror : (leftAlias.replaceGithubIssue ((leftAlias.findIssue? ⟨3⟩).get leftAlias_isSome).id
      "o/r" (sampleIssue 14 4 "4" .open 5 none) 7 6).isOk = false := by decide +kernel
  rw [hdb'] at herror
  cases herror

/-- Issue 1 with #1 out of sight, before any replacement. -/
def unreachableLink : Database :=
  execAll (submitLinked 1 "1" ++
    [.markGithubIssueUnavailable "o/r" 1 (some 11) .unavailable .webhook 0]) .empty

theorem unreachableLink_isSome : (unreachableLink.findIssue? ⟨1⟩).isSome = true := by
  decide +kernel

theorem unreachableLink_replaced :
    ∃ db', unreachableLink.replaceGithubIssue
      ((unreachableLink.findIssue? ⟨1⟩).get unreachableLink_isSome).id "o/r"
      (sampleIssue 12 2 "2" .open 1 none) 7 3 = .ok db' := by
  refine (replaceGithubIssue_succeeds_iff (isReachable_execAll _) ?_ 7 3).1.mpr ⟨?_, ?_⟩
  · exact ⟨mem_findIssue? ⟨1⟩ unreachableLink_isSome, by decide +kernel, by decide +kernel,
      by decide +kernel, by decide +kernel, by decide +kernel, by decide +kernel,
      by decide +kernel⟩
  · unfold FreesAlias
    decide +kernel
  · decide +kernel

end LadybirdReports.Admin
