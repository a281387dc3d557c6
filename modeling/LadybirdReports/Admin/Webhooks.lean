import LadybirdReports.Admin.Constraints
import LadybirdReports.Lib.Newest
import Mathlib

/-!
# Webhooks

`github_webhook.rs`: what a delivery of GitHub about an issue does. GitHub delivers events in any
order and more than once. `webhooks_converge` says what the issue is like after all of them: as the
newest event has it, or gone if one of them says so. Events of other actions, and of repositories
that are not the configured one, are dropped by design.
-/

namespace LadybirdReports.Admin

open Rust Transition

/-- The `action` of a GitHub `issues` event. -/
inductive IssueEventAction
  | opened
  | edited
  | closed
  | reopened
  | deleted
  | transferred
  | other
  deriving DecidableEq, Repr

structure IssueEvent where
  action : IssueEventAction
  issue : GithubIssue
  /-- `repository.full_name`. -/
  repository : String
  /-- `installation.id`. -/
  installation : Option ℤ
  deriving DecidableEq, Repr

namespace Database

/-- `receive`, of a signed `issues` event, where the configured repository is given. -/
def receive (db : Database) (configured : String) (event : IssueEvent) (now : Timestamp)
    (plan : ℕ) : Except AppError (Option IssueId × Database) :=
  if event.action ≠ .transferred ∧ !eqIgnoreAsciiCase event.repository configured then
    .ok (none, db)
  else
    match event.action with
    | .deleted => db.markGithubIssueUnavailable event.repository event.issue.number
        (some event.issue.id) .missing .webhook plan
    | .transferred => db.markGithubIssueUnavailable event.repository event.issue.number
        (some event.issue.id) .moved .webhook plan
    | .opened | .edited | .closed | .reopened =>
      db.syncGithubIssueWithInstallation event.repository event.issue none .webhook
        event.installation now plan
    | .other => .ok (none, db)

end Database

/-- A delivery of an event, with the time it is handled at and the plans of its queries. -/
structure Delivery where
  event : IssueEvent
  now : Timestamp
  plan : ℕ
  deriving DecidableEq, Repr

/-- The database after a delivery. -/
def Delivery.handle (configured : String) (db : Database) (d : Delivery) : Database :=
  commit ((·.2) <$> db.receive configured d.event d.now d.plan) db

/-- The event says that the issue was deleted or transferred. -/
def IssueEvent.isGone (event : IssueEvent) : Bool :=
  event.action = .deleted || event.action = .transferred

/-- The service reacts to the event. -/
def IssueEvent.isTaken (configured : String) (event : IssueEvent) : Bool :=
  event.action ≠ .other &&
    (event.action = .transferred || eqIgnoreAsciiCase event.repository configured)

/-! ## What GitHub says of an issue -/

/-- The columns that follow GitHub. -/
structure GithubContent where
  title : String
  description : String
  url : String
  linkState : GithubLinkState
  state : IssueState
  updatedAt : Option Timestamp
  deriving DecidableEq, Repr

def Issue.content (i : Issue) : GithubContent :=
  ⟨i.title, i.description, i.githubUrl, i.githubState, i.state, i.githubUpdatedAt⟩

def GithubIssue.content (issue : GithubIssue) : GithubContent :=
  ⟨issue.title, issue.description, issue.htmlUrl, issue.state.linkState,
    .tracking issue.state.linkState, some issue.updatedAt⟩

/-- When GitHub last changed the issue, as far as is known. -/
def GithubContent.time (c : GithubContent) : WithBot Timestamp :=
  match c.updatedAt with
  | some t => t
  | none => ⊥

/-- No text of the event has U+0000, which `text` does not take. -/
def IssueEvent.isText (event : IssueEvent) : Bool :=
  Admin.isText event.issue.title && Admin.isText event.issue.description &&
    Admin.isText event.issue.htmlUrl && Admin.isText event.repository

/-- The event is about the GitHub issue that the issue tracks, and what it says of it is valid. -/
structure IssueEvent.About (event : IssueEvent) (i : Issue) : Prop where
  id : i.githubIssueId = some event.issue.id
  repository : event.issue.belongsToRepository i.githubRepository = true
  texts : validateIssueText event.issue.title event.issue.description = .ok ()
  url : event.issue.htmlUrl.length ≤ 2048
  isText : event.isText = true

instance (event : IssueEvent) (i : Issue) : Decidable (event.About i) :=
  decidable_of_iff (i.githubIssueId = some event.issue.id ∧
    event.issue.belongsToRepository i.githubRepository = true ∧
    validateIssueText event.issue.title event.issue.description = .ok () ∧
    event.issue.htmlUrl.length ≤ 2048 ∧ event.isText = true)
    ⟨fun h => ⟨h.1, h.2.1, h.2.2.1, h.2.2.2.1, h.2.2.2.2⟩,
      fun h => ⟨h.id, h.repository, h.texts, h.url, h.isText⟩⟩

/-- The issue is the only one that is not rejected and tracks its GitHub issue. -/
structure Database.TracksAlone (db : Database) (i : Issue) : Prop where
  mem : i ∈ db.issues
  notRejected : i.state ≠ .rejected
  only : ∀ j ∈ db.issues, j.state ≠ .rejected → j.githubIssueId = i.githubIssueId → j = i

section

variable {db db' : Database} {i i' : Issue} {configured : String} {event : IssueEvent}
  {d : Delivery}

/-! ## One delivery -/

theorem choose_eq_some {α : Type} {rows : List α} {a : α} (plan : ℕ) (ha : a ∈ rows)
    (hall : ∀ b ∈ rows, b = a) : choose plan rows = some a := by
  obtain ⟨b, hb⟩ := exists_choose ha plan
  rw [hb, hall b (mem_of_choose hb)]

theorem lookupGithub_eq {id : ℤ} (h : db.TracksAlone i) (hid : i.githubIssueId = some id)
    (repository : String) (number : ℤ) (plan : ℕ) :
    db.lookupGithub (some id) repository number plan = some i := by
  have hmem : i ∈ (db.issues.filter (·.matchesGithub (some id) repository number)).filter
      fun i => (some id).isSome && i.githubIssueId = some id := by
    simp [List.mem_filter, Issue.matchesGithub, h.mem, h.notRejected, hid]
  unfold Database.lookupGithub
  dsimp only
  rw [if_neg (List.ne_nil_of_mem hmem)]
  refine choose_eq_some plan hmem fun j hj => ?_
  simp only [List.mem_filter, Issue.matchesGithub, Bool.and_eq_true, decide_eq_true_eq] at hj
  exact h.only j hj.1.1 hj.1.2.1 (hj.2.2.trans hid.symm)

/-- An update of the issue that leaves alone what it tracks. -/
theorem updateIssue_tracksAlone {set : Issue → Issue} (hwf : db.Wf) (h : db.TracksAlone i)
    (hupdate : db.updateIssue i.id set = .ok db') (hid : ∀ j, (set j).id = j.id)
    (hstate : (set i).state ≠ .rejected) (hgithub : (set i).githubIssueId = i.githubIssueId) :
    db'.TracksAlone (set i) := by
  obtain ⟨issues, events, hissues, rfl, -⟩ := Database.updateIssues_eq_ok hwf.reportIds
    hwf.issueIds hid hwf.settled hupdate
  refine ⟨mem_updated hissues h.mem (by simp), hstate, fun j hj hjstate hjid => ?_⟩
  simp only [hissues] at hj
  obtain ⟨k, hk, rfl⟩ := List.mem_map.mp hj
  by_cases hki : k.id = i.id
  · rw [if_pos (by simpa using hki), Rows.eq_of_key hwf.issueIds hk h.mem hki]
  · rw [if_neg (by simpa using hki)] at hjstate hjid
    exact absurd (h.only k hk hjstate (hjid.trans hgithub)) fun hc => hki (by rw [hc])

theorem tracksAlone_congr (h : db.TracksAlone i) (hissues : db'.issues = db.issues) :
    db'.TracksAlone i :=
  ⟨hissues ▸ h.mem, h.notRejected, hissues ▸ h.only⟩

theorem IssueEvent.About.congr (h : event.About i) (hid : i'.githubIssueId = i.githubIssueId)
    (hrepository : i'.githubRepository = i.githubRepository) : event.About i' :=
  ⟨hid.trans h.id, hrepository ▸ h.repository, h.texts, h.url, h.isText⟩

/-- The row of an issue that follows GitHub, or has lost it. -/
theorem Issue.constraints_congr {issues : List Issue}
    (h : ∀ c ∈ i.constraints issues, c.2 = true) (hid : i'.id = i.id)
    (hinto : i'.mergedInto = i.mergedInto) (hrepository : i'.githubRepository = i.githubRepository)
    (hnumber : i'.githubNumber = i.githubNumber)
    (hlink : i'.githubReportsLinkUrl = i.githubReportsLinkUrl)
    (htexts : isText i'.title = true ∧ isText i'.description = true ∧ isText i'.githubUrl = true)
    (hdescription : i'.description.length ≤ 262144) (hurl : i'.githubUrl.length ≤ 2048)
    (htitle : 1 ≤ i'.title.length ∧ i'.title.length ≤ 256) :
    ∀ c ∈ i'.constraints issues, c.2 = true := by
  unfold Issue.constraints at h ⊢
  simp only [List.forall_mem_cons] at h ⊢
  obtain ⟨htext, h₁, h₂, -, h₄, -, -, h₇, h₈⟩ := h
  rw [hid, hinto, hrepository, hnumber, hlink]
  refine ⟨?_, h₁, h₂, decide_eq_true hdescription, h₄, decide_eq_true hurl, by simpa using htitle,
    h₇, h₈⟩
  simp only [Bool.and_eq_true] at htext ⊢
  exact ⟨⟨⟨⟨htexts.1, htexts.2.1⟩, htext.1.1.2⟩, htexts.2.2⟩, htext.2⟩

theorem content_time_lt_iff {issue : GithubIssue} :
    issue.content.time < i.content.time ↔
      i.githubUpdatedAt.any (issue.updatedAt < ·) = true := by
  unfold GithubContent.time Issue.content GithubIssue.content
  cases i.githubUpdatedAt with
  | none => simp
  | some t => simp [WithBot.coe_lt_coe]

/-- The row that a synchronisation writes. -/
def Issue.synced (i : Issue) (issue : GithubIssue) (state : GithubLinkState) (now : Timestamp) :
    Issue :=
  { i with
    githubIssueId := some issue.id
    title := issue.title
    description := issue.description
    githubUrl := issue.htmlUrl
    githubState := state
    state := .tracking state
    githubUpdatedAt := some issue.updatedAt
    resolvedAt := match state with
      | .open => none
      | .closed => some (i.resolvedAt.getD now)
      | _ => i.resolvedAt }

/-- The update of a synchronisation succeeds. -/
theorem syncIssue_tracksAlone (hwf : db.Wf) (hdb : db.Constrained) (h : db.TracksAlone i)
    (habout : event.About i) (state : GithubLinkState) (actor : Option ℤ)
    (source : GithubSyncSource) (now : Timestamp) :
    ∃ db', db.syncIssue i event.issue state actor source now = .ok db' ∧
      db'.TracksAlone (i.synced event.issue state now) := by
  have hlengths := validateIssueText_eq_ok habout.texts
  obtain ⟨⟨⟨htitle, hdescription⟩, hurl⟩, -⟩ : ((isText event.issue.title = true ∧
      isText event.issue.description = true) ∧ isText event.issue.htmlUrl = true) ∧
      isText event.repository = true := by
    simpa only [IssueEvent.isText, Bool.and_eq_true] using habout.isText
  have hnotRejected : (i.synced event.issue state now).state ≠ .rejected :=
    IssueState.tracking_ne_rejected state
  have hactive : (i.synced event.issue state now).active = i.active := by
    simp [Issue.active, Issue.synced, h.notRejected, IssueState.tracking_ne_rejected]
  obtain ⟨db₁, h₁⟩ : ∃ db₁, db.updateIssue i.id (·.synced event.issue state now) = .ok db₁ :=
    updateIssue_succeeds hwf hdb h.mem (fun _ => rfl)
      (Issue.constraints_congr (hdb.issues i h.mem) rfl rfl rfl rfl rfl ⟨htitle, hdescription, hurl⟩
        hlengths.2 habout.url hlengths.1)
      hactive habout.id.symm rfl
  have hrow := updateIssue_tracksAlone hwf h h₁ (fun _ => rfl) hnotRejected habout.id.symm
  change ∃ db', (db.updateIssue i.id (·.synced event.issue state now) >>= fun db => _) = .ok db' ∧ _
  rw [h₁]
  refine ⟨_, rfl, ?_⟩
  split
  · exact tracksAlone_congr hrow rfl
  · exact hrow

/-- A synchronisation by a webhook, of the issue that tracks the GitHub issue. -/
theorem syncGithubIssue_tracksAlone (hdb : db.IsReachable) (h : db.TracksAlone i)
    (habout : event.About i) (now : Timestamp) (plan : ℕ) :
    ∃ result db' i', db.syncGithubIssueWithInstallation event.repository event.issue none .webhook
        event.installation now plan = .ok (result, db') ∧ db'.TracksAlone i' ∧ i'.id = i.id ∧
      i'.githubIssueId = i.githubIssueId ∧ i'.githubRepository = i.githubRepository ∧
      (i.githubState.isGone = true → i' = i) ∧
      (i.githubState.isGone = false →
        i'.content = Newest.keep GithubContent.time i.content event.issue.content) := by
  have hwf := hdb.wf
  obtain ⟨repository, hrepository, hsame⟩ : ∃ repository, event.issue.repository = some repository ∧
      eqIgnoreAsciiCase repository i.githubRepository = true :=
    (Option.any_eq_true _ _).mp habout.repository
  unfold Database.syncGithubIssueWithInstallation
  rw [habout.texts, ok_bind, hrepository, lookupGithub_eq h habout.id]
  dsimp only [okOr]
  rw [ok_bind, if_pos hsame, habout.id]
  dsimp only [Option.all_some]
  rw [decide_eq_true rfl]
  dsimp only [ensure, if_true]
  rw [if_pos rfl, ok_bind]
  by_cases hstale : i.githubUpdatedAt.any (event.issue.updatedAt < ·) = true
  · rw [if_pos hstale]
    exact ⟨_, _, i, rfl, h, rfl, habout.id, rfl, fun _ => rfl,
      fun _ => (if_pos (content_time_lt_iff.mpr hstale)).symm⟩
  rw [if_neg hstale]
  by_cases hgone : i.githubState.isGone = true
  · rw [if_pos ⟨rfl, hgone⟩]
    exact ⟨_, _, i, rfl, h, rfl, habout.id, rfl, fun _ => rfl,
      fun hc => by rw [hgone] at hc; cases hc⟩
  rw [if_neg fun hc => hgone hc.2, if_pos rfl]
  obtain ⟨jobs, hjobs⟩ :=
    updateDuplicateJob_eq db i.id event.repository event.issue event.installation now
  rw [hjobs]
  have hqueued : Change (fun _ => False) db { db with jobs := jobs } := .of_jobs jobs hwf
  have hconstrained := hdb.constrained
  obtain ⟨db₁, h₁, hrow⟩ := syncIssue_tracksAlone (hqueued.wf hwf)
    ⟨hconstrained.reports, hconstrained.issues, hconstrained.unique⟩ (tracksAlone_congr h rfl)
    habout event.issue.state.linkState none .webhook now
  rw [h₁]
  exact ⟨_, _, _, rfl, hrow, rfl, rfl, rfl, fun hc => absurd hc hgone,
    fun _ => (if_neg fun hc => hstale (content_time_lt_iff.mp hc)).symm⟩

/-- The row of an issue whose GitHub issue cannot be read. -/
def Issue.unavailable (i : Issue) (githubId : Option ℤ) (state : GithubLinkState) : Issue :=
  { i with
    githubIssueId := i.githubIssueId.or githubId
    githubState := state
    state := .tracking state }

/-- The GitHub issue of the issue is gone, by a webhook. -/
theorem markGithubIssueUnavailable_tracksAlone (hdb : db.IsReachable) (h : db.TracksAlone i)
    (habout : event.About i) {state : GithubLinkState} (hstate : state.isUnreachable = true)
    (plan : ℕ) : ∃ result db', db.markGithubIssueUnavailable event.repository event.issue.number
        (some event.issue.id) state .webhook plan = .ok (result, db') ∧
      db'.TracksAlone (i.unavailable (some event.issue.id) state) := by
  have hnotRejected : (i.unavailable (some event.issue.id) state).state ≠ .rejected :=
    IssueState.tracking_ne_rejected state
  have hgithub : (i.unavailable (some event.issue.id) state).githubIssueId = i.githubIssueId := by
    unfold Issue.unavailable
    rw [habout.id]
    rfl
  have hactive : (i.unavailable (some event.issue.id) state).active = i.active := by
    simp [Issue.active, Issue.unavailable, h.notRejected, IssueState.tracking_ne_rejected]
  obtain ⟨db₁, h₁⟩ : ∃ db₁,
      db.updateIssue i.id (·.unavailable (some event.issue.id) state) = .ok db₁ :=
    updateIssue_succeeds hdb.wf hdb.constrained h.mem (fun _ => rfl)
      (hdb.constrained.issues i h.mem) hactive hgithub rfl
  have hrow := updateIssue_tracksAlone hdb.wf h h₁ (fun _ => rfl) hnotRejected hgithub
  have hsame : (Option.all (fun id => i.githubIssueId.all fun x => decide (x = id))
      (some event.issue.id)) = true := by
    rw [habout.id]
    exact decide_eq_true rfl
  unfold Database.markGithubIssueUnavailable
  rw [hstate, lookupGithub_eq h habout.id]
  dsimp only
  rw [hsame]
  change ∃ result db', (db.updateIssue i.id (·.unavailable (some event.issue.id) state) >>=
    fun db => _) = .ok (result, db') ∧ _
  rw [h₁]
  refine ⟨_, _, rfl, ?_⟩
  split
  · exact tracksAlone_congr hrow rfl
  · exact hrow

/-! ## Any delivery -/

/-- What a delivery makes of the issue it is about. -/
structure Follows (event : IssueEvent) (taken : Bool) (i i' : Issue) : Prop where
  id : i'.id = i.id
  githubIssueId : i'.githubIssueId = i.githubIssueId
  githubRepository : i'.githubRepository = i.githubRepository
  dropped : taken = false → i' = i
  gone : taken = true → event.isGone = true → i'.githubState.isGone = true
  stays : taken = true → event.isGone = false → i.githubState.isGone = true → i' = i
  keeps : taken = true → event.isGone = false → i.githubState.isGone = false →
    i'.content = Newest.keep GithubContent.time i.content event.issue.content

theorem Delivery.handle_isReachable (hdb : db.IsReachable) :
    (d.handle configured db).IsReachable := by
  have hexec : ∀ op : Operation, (op.exec db).IsReachable := fun op =>
    Reachable.run hdb (Run.single rfl)
  unfold Delivery.handle Database.receive
  split
  · exact hdb
  split
  · exact hexec (.markGithubIssueUnavailable _ _ _ _ _ _)
  · exact hexec (.markGithubIssueUnavailable _ _ _ _ _ _)
  · exact hexec (.syncGithubIssue _ _ _ _ _ _ _)
  · exact hexec (.syncGithubIssue _ _ _ _ _ _ _)
  · exact hexec (.syncGithubIssue _ _ _ _ _ _ _)
  · exact hexec (.syncGithubIssue _ _ _ _ _ _ _)
  · exact hdb

theorem Delivery.handle_of_not_taken (h : d.event.isTaken configured = false) :
    d.handle configured db = db := by
  unfold IssueEvent.isTaken at h
  unfold Delivery.handle Database.receive
  split
  · rfl
  · rename_i hrepository
    have haction : d.event.action = .other := by
      by_contra hne
      simp_all
    rw [haction]
    rfl

theorem IssueEvent.not_dropped (h : event.isTaken configured = true) :
    ¬ (event.action ≠ .transferred ∧
      (!eqIgnoreAsciiCase event.repository configured) = true) := by
  unfold IssueEvent.isTaken at h
  simp only [Bool.and_eq_true, Bool.or_eq_true, decide_eq_true_eq] at h
  rintro ⟨haction, hrepository⟩
  rw [h.2.resolve_left haction] at hrepository
  cases hrepository

/-- A delivery that is taken and says the issue is gone. -/
theorem Delivery.handle_gone (hdb : db.IsReachable) (h : db.TracksAlone i)
    (habout : d.event.About i) (htaken : d.event.isTaken configured = true)
    (hgone : d.event.isGone = true) : ∃ i', (d.handle configured db).TracksAlone i' ∧
      Follows d.event true i i' := by
  have hmark : ∀ {state : GithubLinkState}, state.isGone = true →
      ∃ i', (commit ((·.2) <$> db.markGithubIssueUnavailable d.event.repository
          d.event.issue.number (some d.event.issue.id) state .webhook d.plan) db).TracksAlone i' ∧
        Follows d.event true i i' := by
    intro state hstate
    have hunreachable : state.isUnreachable = true := by cases state <;> first | rfl | cases hstate
    obtain ⟨result, db', hresult, hrow⟩ :=
      markGithubIssueUnavailable_tracksAlone hdb h habout hunreachable d.plan
    rw [hresult]
    refine ⟨_, hrow, rfl, ?_, rfl, fun hc => (by cases hc), fun _ _ => hstate,
      fun _ hc => ?_, fun _ hc => ?_⟩
    · unfold Issue.unavailable
      rw [habout.id]
      rfl
    · rw [hgone] at hc; cases hc
    · rw [hgone] at hc; cases hc
  unfold Delivery.handle Database.receive
  rw [if_neg (IssueEvent.not_dropped htaken)]
  unfold IssueEvent.isGone at hgone
  cases haction : d.event.action with
  | deleted => exact hmark rfl
  | transferred => exact hmark rfl
  | opened | edited | closed | reopened | other => rw [haction] at hgone; cases hgone

/-- A delivery that is taken and does not. -/
theorem Delivery.handle_synced (hdb : db.IsReachable) (h : db.TracksAlone i)
    (habout : d.event.About i) (htaken : d.event.isTaken configured = true)
    (hgone : d.event.isGone = false) : ∃ i', (d.handle configured db).TracksAlone i' ∧
      Follows d.event true i i' := by
  have hsync : ∃ i', (commit ((·.2) <$> db.syncGithubIssueWithInstallation d.event.repository
        d.event.issue none .webhook d.event.installation d.now d.plan) db).TracksAlone i' ∧
      Follows d.event true i i' := by
    obtain ⟨result, db', i', hresult, hrow, hid, hgithub, hrepository, hstays, hkeeps⟩ :=
      syncGithubIssue_tracksAlone hdb h habout d.now d.plan
    rw [hresult]
    exact ⟨i', hrow, hid, hgithub, hrepository, fun hc => (by cases hc),
      fun _ hc => (by rw [hgone] at hc; cases hc), fun _ _ => hstays, fun _ _ => hkeeps⟩
  unfold Delivery.handle Database.receive
  rw [if_neg (IssueEvent.not_dropped htaken)]
  unfold IssueEvent.isGone at hgone
  unfold IssueEvent.isTaken at htaken
  cases haction : d.event.action with
  | opened | edited | closed | reopened => exact hsync
  | deleted | transferred => rw [haction] at hgone; cases hgone
  | other => rw [haction] at htaken; cases htaken

theorem Delivery.handle_follows (hdb : db.IsReachable) (h : db.TracksAlone i)
    (habout : d.event.isTaken configured = true → d.event.About i) :
    ∃ i', (d.handle configured db).TracksAlone i' ∧
      Follows d.event (d.event.isTaken configured) i i' := by
  cases htaken : d.event.isTaken configured with
  | false =>
    rw [Delivery.handle_of_not_taken htaken]
    exact ⟨i, h, rfl, rfl, rfl, fun _ => rfl, fun hc => (by cases hc), fun hc => (by cases hc),
      fun hc => (by cases hc)⟩
  | true =>
    cases hgone : d.event.isGone with
    | true => exact Delivery.handle_gone hdb h (habout htaken) htaken hgone
    | false => exact Delivery.handle_synced hdb h (habout htaken) htaken hgone

/-! ## All deliveries -/

/-- The database after some deliveries. -/
def handleAll (configured : String) (deliveries : List Delivery) (db : Database) : Database :=
  deliveries.foldl (Delivery.handle configured) db

/-- The events that the service reacts to, in the order they are delivered. -/
def takenEvents (configured : String) (deliveries : List Delivery) : List IssueEvent :=
  (deliveries.map (·.event)).filter (·.isTaken configured)

theorem handleAll_isReachable (configured : String) (deliveries : List Delivery)
    (hdb : db.IsReachable) : (handleAll configured deliveries db).IsReachable := by
  induction deliveries generalizing db with
  | nil => exact hdb
  | cons d deliveries ih => exact ih (Delivery.handle_isReachable hdb)

theorem keep_isGone {issue : GithubIssue} (h : i.githubState.isGone = false) :
    (Newest.keep GithubContent.time i.content issue.content).linkState.isGone = false := by
  unfold Newest.keep
  split
  · exact h
  · unfold GithubIssue.content
    cases issue.state <;> rfl

/-- While no event says that the issue is gone, the newest of what is known of it is kept; once one
does, it stays gone. -/
theorem handleAll_follows {deliveries : List Delivery} (hdb : db.IsReachable)
    (h : db.TracksAlone i) (habout : ∀ e ∈ takenEvents configured deliveries, e.About i) :
    ∃ i', (handleAll configured deliveries db).TracksAlone i' ∧ i'.id = i.id ∧
      (i.githubState.isGone = true ∨ (takenEvents configured deliveries).any (·.isGone) = true →
        i'.githubState.isGone = true) ∧
      (i.githubState.isGone = false → (takenEvents configured deliveries).any (·.isGone) = false →
        i'.content = ((takenEvents configured deliveries).map (·.issue.content)).foldl
          (Newest.keep GithubContent.time) i.content) := by
  induction deliveries generalizing db i with
  | nil => exact ⟨i, h, rfl, fun hc => hc.resolve_right fun hc => (by cases hc), fun _ _ => rfl⟩
  | cons d deliveries ih =>
    have hcons : takenEvents configured (d :: deliveries) =
        if d.event.isTaken configured then d.event :: takenEvents configured deliveries
        else takenEvents configured deliveries := by
      unfold takenEvents
      rw [List.map_cons, List.filter_cons]
    have htail : ∀ e ∈ takenEvents configured deliveries,
        e ∈ takenEvents configured (d :: deliveries) := by
      intro e he
      rw [hcons]
      split
      · exact List.mem_cons_of_mem _ he
      · exact he
    obtain ⟨i₁, h₁, hfollows⟩ := Delivery.handle_follows hdb h fun htaken =>
      habout d.event (by rw [hcons, if_pos htaken]; exact List.mem_cons_self)
    obtain ⟨i', h', hid, hgone, hcontent⟩ := ih (Delivery.handle_isReachable hdb) h₁
      fun e he => (habout e (htail e he)).congr hfollows.githubIssueId hfollows.githubRepository
    refine ⟨i', h', hid.trans hfollows.id, ?_, ?_⟩
    · intro hc
      refine hgone ?_
      cases htaken : d.event.isTaken configured with
      | false =>
        rw [hcons, htaken] at hc
        rwa [hfollows.dropped htaken]
      | true =>
        rw [hcons, if_pos htaken, List.any_cons, Bool.or_eq_true] at hc
        cases hevent : d.event.isGone with
        | true => exact .inl (hfollows.gone htaken hevent)
        | false =>
          rcases hc with hc | hc | hc
          · exact .inl (hfollows.stays htaken hevent hc ▸ hc)
          · rw [hevent] at hc; cases hc
          · exact .inr hc
    · intro hreadable hc
      cases htaken : d.event.isTaken configured with
      | false =>
        rw [hcons, htaken] at hc ⊢
        rw [hfollows.dropped htaken] at hcontent
        exact hcontent hreadable hc
      | true =>
        rw [hcons, if_pos htaken, List.any_cons, Bool.or_eq_false_iff] at hc
        have hkeeps := hfollows.keeps htaken hc.1 hreadable
        rw [hcons, if_pos htaken, List.map_cons, List.foldl_cons, ← hkeeps]
        refine hcontent ?_ hc.2
        have hstate : i₁.githubState = i₁.content.linkState := rfl
        rw [hstate, hkeeps]
        exact keep_isGone hreadable

/-- If an event says that the issue was deleted or transferred, it is gone and needs attention
whatever the order. If none does, what is known of it is what the newest event says, or what was
known before if that is newer. Of the events, those count that the service reacts to. -/
theorem webhooks_converge (configured : String) (deliveries : List Delivery)
    (hdb : db.IsReachable) (h : db.TracksAlone i) (hreachable : i.githubState.isUnreachable = false)
    (habout : ∀ e ∈ takenEvents configured deliveries, e.About i)
    (hdistinct : ∀ e ∈ takenEvents configured deliveries, ∀ e' ∈ takenEvents configured deliveries,
      e.issue.updatedAt = e'.issue.updatedAt → e = e') :
    ∃ i' ∈ (handleAll configured deliveries db).issues, i'.id = i.id ∧
      ((∃ e ∈ takenEvents configured deliveries, e.isGone = true) →
        i'.githubState.isGone = true ∧ i'.state = .needsAttention) ∧
      ((∀ e ∈ takenEvents configured deliveries, e.isGone = false) →
        (takenEvents configured deliveries = [] → i'.content = i.content) ∧
        ∀ n ∈ takenEvents configured deliveries,
          (∀ e ∈ takenEvents configured deliveries, e.issue.updatedAt ≤ n.issue.updatedAt) →
          i'.content = if i.githubUpdatedAt.any (n.issue.updatedAt < ·) then i.content
            else n.issue.content) := by
  have hreadable : i.githubState.isGone = false := by
    cases hs : i.githubState <;> rw [hs] at hreachable <;> first | rfl | cases hreachable
  obtain ⟨i', h', hid, hgone, hcontent⟩ := handleAll_follows hdb h habout
  refine ⟨i', h'.mem, hid, fun hany => ?_, fun hnone => ?_⟩
  · have hlost := hgone (.inr (List.any_eq_true.mpr hany))
    have hwf := (handleAll_isReachable configured deliveries hdb).wf
    refine ⟨hlost, (hwf.tracking i' h'.mem h'.notRejected).trans ?_⟩
    refine IssueState.tracking_needsAttention_iff.mpr ?_
    cases hs : i'.githubState <;> rw [hs] at hlost <;> first | rfl | cases hlost
  have hcontent := hcontent hreadable (List.any_eq_false.mpr fun e he => by simp [hnone e he])
  refine ⟨fun hempty => by rw [hcontent, hempty]; rfl, fun n hn hnewest => ?_⟩
  rw [hcontent]
  split
  · rename_i hstored
    refine Newest.foldl_keep_of_older fun c hc => ?_
    obtain ⟨e, he, rfl⟩ := List.mem_map.mp hc
    have hn : n.issue.content.time < i.content.time := content_time_lt_iff.mpr hstored
    exact lt_of_le_of_lt (WithBot.coe_le_coe.mpr (hnewest e he)) hn
  · rename_i hstored
    refine Newest.foldl_keep_of_newest (List.mem_map_of_mem hn) (fun c hc => ?_) ?_
      fun c hc ht => ?_
    · obtain ⟨e, he, rfl⟩ := List.mem_map.mp hc
      exact WithBot.coe_le_coe.mpr (hnewest e he)
    · exact not_lt.mp fun hc => hstored (content_time_lt_iff.mp hc)
    · obtain ⟨e, he, rfl⟩ := List.mem_map.mp hc
      rw [hdistinct e he n hn (WithBot.coe_inj.mp ht)]

end

/-- A delivery about the GitHub issue 1 of the repository `o/r`. -/
def sampleDelivery (action : IssueEventAction) (state : GithubIssueState) (updatedAt : Timestamp) :
    Delivery where
  event := ⟨action, sampleIssue 11 1 "1" state updatedAt none, "o/r", none⟩
  now := 9
  plan := 0

theorem sampleTracksAlone : (execAll (submitLinked 1 "1") .empty).TracksAlone
    (((execAll (submitLinked 1 "1") .empty).findIssue? ⟨1⟩).get (by decide +kernel)) :=
  ⟨mem_findIssue? ⟨1⟩ (by decide +kernel), by decide +kernel, by decide +kernel⟩

/-- An issue is closed, was edited before that, and is closed again: the older event comes late, the
newer one twice. -/
def sampleDeliveries : List Delivery :=
  [sampleDelivery .closed .closed 3, sampleDelivery .edited .open 2,
    sampleDelivery .closed .closed 3]

theorem closed_issue_converges :
    ∃ i' ∈ (handleAll "o/r" sampleDeliveries (execAll (submitLinked 1 "1") .empty)).issues,
      i'.id = ⟨1⟩ ∧ i'.content = (sampleDelivery .closed .closed 3).event.issue.content := by
  obtain ⟨i', hi', hid, -, hnewest⟩ := webhooks_converge "o/r" sampleDeliveries
    (isReachable_execAll _) sampleTracksAlone (by decide +kernel) (by decide +kernel)
    (by decide +kernel)
  have hcontent := (hnewest (by decide +kernel)).2 (sampleDelivery .closed .closed 3).event
    (by decide +kernel) (by decide +kernel)
  exact ⟨i', hi', hid.trans (by decide +kernel), hcontent.trans (if_neg (by decide +kernel))⟩

/-- A newer event of an action that the service does not react to is dropped. -/
theorem labeled_event_is_dropped :
    let db := execAll (submitLinked 1 "1") .empty
    let d := sampleDelivery .other .closed 5
    db.IsReachable ∧ (∃ i, db.TracksAlone i ∧ i.id = ⟨1⟩ ∧ i.githubState.isUnreachable = false ∧
        d.event.About i) ∧ d.event.isGone = false ∧
      ¬ ∃ i' ∈ (handleAll "o/r" [d] db).issues,
        i'.id = ⟨1⟩ ∧ i'.content = d.event.issue.content := by
  refine ⟨isReachable_execAll _, ⟨_, sampleTracksAlone, ?_, ?_, ?_⟩, rfl, ?_⟩
  all_goals decide +kernel

end LadybirdReports.Admin
