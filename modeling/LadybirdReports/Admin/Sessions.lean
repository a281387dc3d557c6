import LadybirdReports.Admin.Schema
import LadybirdReports.Domain.Configuration
import LadybirdReports.Lib.Run

/-!
# Sessions

Sign-ins, requests, changes of the configuration and the background verification of memberships, as
they run beside each other. Each is taken apart into its statements: a sign-in reads the
configuration, asks GitHub, begins the transaction of `create_session`, locks the row of the
configuration to share it, and commits; `update_configuration` locks the row for itself. What a
lock keeps out is in the conditions of the steps. The service and the database have one clock.

A session is there only while the team that its sign-in was verified against is in force
(`IsReachable.wf`), so what a former team let in is shut out (`IsReachable.shutsOut`), unless that
team is put back in force meanwhile (`former_team_lets_in`).
-/

namespace LadybirdReports.Admin.Sessions

open Transition

/-! ## The tables and what runs -/

/-- A check of somebody's membership in a team that GitHub is asked for. -/
structure Check where
  githubId : ℤ
  team : String
  begun : Timestamp
  deriving DecidableEq, Repr

/-- A row of `sessions`, with the check of the sign-in that created it, which is not stored. -/
structure Session where
  tokenHash : String
  githubId : ℤ
  membershipVerifiedAt : Timestamp
  expiresAt : Timestamp
  accessTokenExpiresAt : Option Timestamp
  /-- There is an `encrypted_refresh_token`. -/
  refreshable : Bool
  signIn : Check
  deriving DecidableEq, Repr

/-- How far a sign-in has come. -/
inductive SignInPhase
  /-- GitHub is asked for the membership. -/
  | asking
  | verified
  /-- The transaction of `create_session` has begun, at a time that is its `now()`. -/
  | begun (now : Timestamp)
  /-- It holds the row of the configuration `FOR SHARE`, and has checked the team. -/
  | creating (now : Timestamp)
  deriving DecidableEq, Repr

structure SignIn where
  check : Check
  lifetime : ℤ
  phase : SignInPhase
  deriving DecidableEq, Repr

def SignIn.locks (s : SignIn) : Bool :=
  match s.phase with
  | .creating _ => true
  | _ => false

/-- A call of `update_configuration` that holds the row of the configuration `FOR UPDATE`, with the
sessions that it has deleted. -/
structure Update where
  next : RuntimeConfiguration
  deleted : Option (List String)

/-- How far `require_session` has come with a request. -/
inductive RequestPhase
  | found
  /-- The membership and the token were current at `now`. The session is to be extended by the
  lifetime; the recheck is the one in force at the time, which is not kept. -/
  | current (now : Timestamp) (lifetime recheck : ℤ)
  deriving DecidableEq, Repr

/-- A request with the record of its session, and the team that was in force when it was looked
up, which is not kept. -/
structure Request where
  record : Session
  team : String
  phase : RequestPhase
  deriving DecidableEq, Repr

/-- A request that was accepted: at what time, under what recheck and what team. -/
structure Acceptance where
  request : Request
  now : Timestamp
  recheck : ℤ
  team : String
  deriving DecidableEq, Repr

/-- A run of `sweep`: the configuration it has read, who is due, the check that GitHub is asked
for, and the one that it confirmed. -/
structure Sweep where
  configuration : RuntimeConfiguration
  due : List ℤ
  asking : Option Check
  verified : Option Check

structure World where
  clock : Timestamp
  /-- The row of `runtime_configuration`. -/
  value : RuntimeConfiguration
  cache : Option RuntimeConfiguration
  /-- What was read from the row, or written to it, and is on its way into the cache. -/
  loading : List RuntimeConfiguration
  sessions : List Session
  signIns : List SignIn
  update : Option Update
  requests : List Request
  sweep : Option Sweep
  /-- The checks that GitHub confirmed. -/
  checks : List Check
  accepted : List Acceptance
  /-- The token hashes that were ever given out. -/
  used : List String

/-- `Duration::seconds`. -/
def duration (seconds : ℕ) : ℤ := seconds * 1000000

namespace World

variable (w : World)

/-- The team in force. -/
def team : String := w.value.githubAuthorizationTeam

/-- `configuration`. -/
def configuration : RuntimeConfiguration := w.cache.getD w.value

/-- `find_session`. -/
def findSession (tokenHash : String) : Option Session :=
  w.sessions.find? fun s => s.tokenHash = tokenHash && s.expiresAt > w.clock

/-- `due_session_per_user`: the people, not the sessions whose tokens are used. -/
def dueUsers (verifiedBefore : ℤ) : List ℤ :=
  let people := (w.sessions.filter fun s => s.expiresAt > w.clock &&
    s.accessTokenExpiresAt.all (· > w.clock) &&
    w.sessions.any fun other => other.githubId = s.githubId && other.expiresAt > w.clock &&
      other.membershipVerifiedAt ≤ w.clock - verifiedBefore).map (·.githubId)
  people.dedup.insertionSort (· ≤ ·)

/-- `refresh_membership_verification_for_user`. -/
def refreshMembership (githubId : ℤ) : List Session :=
  w.sessions.map fun s => if s.githubId = githubId ∧ s.expiresAt > w.clock
    then { s with membershipVerifiedAt := w.clock } else s

/-- The session that `extend_session` extends. -/
def extends? (tokenHash : String) (s : Session) : Bool :=
  s.tokenHash = tokenHash && s.expiresAt > w.clock && s.refreshable

end World

/-- The checks of `require_session`. -/
def Request.isCurrent (r : Request) (configuration : RuntimeConfiguration) (now : Timestamp) :
    Bool :=
  now - r.record.membershipVerifiedAt < duration configuration.githubMembershipRecheckSeconds &&
    r.record.accessTokenExpiresAt.all (· > now)

/-! ## The steps -/

inductive Event
  | tick (elapsed : ℕ)
  | reload
  | setCache (configuration : RuntimeConfiguration)
  | beginSignIn (githubId : ℤ)
  | confirmSignIn (s : SignIn)
  | beginCreation (s : SignIn)
  | lockShare (s : SignIn)
  | commitSession (s : SignIn) (tokenHash : String)
  | endSignIn (s : SignIn)
  | lockUpdate (next : RuntimeConfiguration)
  | deleteSessions
  | commitUpdate
  | rollbackUpdate
  | lookUp (tokenHash : String)
  | checkRequest (r : Request)
  | extendSession (r : Request)
  | beginSweep
  | listDue
  | beginVerification (githubId : ℤ)
  | failVerification
  | confirmMembership
  | refreshMembership
  | endSweep
  | rotateToken (tokenHash : String)
  | deleteSession (tokenHash : String)

inductive Step (w : World) : Event → World → Prop
  | tick (elapsed : ℕ) : Step w (.tick elapsed) { w with clock := w.clock + elapsed }
  -- The configuration and its cache.
  | reload : Step w .reload { w with loading := w.value :: w.loading }
  | setCache {before after : List RuntimeConfiguration} {c : RuntimeConfiguration}
      (loading : w.loading = before ++ c :: after) :
      Step w (.setCache c) { w with cache := some c, loading := before ++ after }
  -- Sign-ins.
  | beginSignIn (githubId : ℤ) : Step w (.beginSignIn githubId)
      { w with
        signIns := ⟨⟨githubId, w.configuration.githubAuthorizationTeam, w.clock⟩,
          duration w.configuration.sessionLifetimeSeconds, .asking⟩ :: w.signIns }
  | confirmSignIn {s : SignIn} (mem : s ∈ w.signIns) (phase : s.phase = .asking) :
      Step w (.confirmSignIn s)
        { w with
          signIns := { s with phase := .verified } :: w.signIns.erase s
          checks := s.check :: w.checks }
  | beginCreation {s : SignIn} (mem : s ∈ w.signIns) (phase : s.phase = .verified) :
      Step w (.beginCreation s)
        { w with signIns := { s with phase := .begun w.clock } :: w.signIns.erase s }
  | lockShare {s : SignIn} {now : Timestamp} (mem : s ∈ w.signIns) (phase : s.phase = .begun now)
      (unlocked : w.update = none) (team : w.team = s.check.team) :
      Step w (.lockShare s)
        { w with signIns := { s with phase := .creating now } :: w.signIns.erase s }
  | commitSession {s : SignIn} {now : Timestamp} (tokenHash : String)
      (accessTokenExpiresAt : Timestamp) (mem : s ∈ w.signIns) (phase : s.phase = .creating now)
      (fresh : tokenHash ∉ w.used) :
      Step w (.commitSession s tokenHash)
        { w with
          sessions := ⟨tokenHash, s.check.githubId, now, now + s.lifetime,
            some accessTokenExpiresAt, true, s.check⟩ :: w.sessions
          signIns := w.signIns.erase s
          used := tokenHash :: w.used }
  | endSignIn (s : SignIn) : Step w (.endSignIn s) { w with signIns := w.signIns.erase s }
  -- `update_configuration`.
  | lockUpdate (next : RuntimeConfiguration) (unlocked : w.update = none)
      (unshared : ∀ s ∈ w.signIns, s.locks = false) :
      Step w (.lockUpdate next) { w with update := some ⟨next, none⟩ }
  | deleteSessions {u : Update} (update : w.update = some u) (changed : w.value.changed u.next ≠ [])
      (invalidates : w.value.invalidatesSessions u.next = true) :
      Step w .deleteSessions
        { w with update := some ⟨u.next, some (w.sessions.map (·.tokenHash))⟩ }
  | commitUpdate {u : Update} (update : w.update = some u) (changed : w.value.changed u.next ≠ [])
      (deleted : w.value.invalidatesSessions u.next = true → u.deleted.isSome = true) :
      Step w .commitUpdate
        { w with
          value := u.next
          sessions := w.sessions.filter fun s => s.tokenHash ∉ u.deleted.getD []
          update := none
          loading := u.next :: w.loading }
  | rollbackUpdate : Step w .rollbackUpdate { w with update := none }
  -- Requests.
  | lookUp {s : Session} (tokenHash : String) (found : w.findSession tokenHash = some s) :
      Step w (.lookUp tokenHash) { w with requests := ⟨s, w.team, .found⟩ :: w.requests }
  | checkRequest {r : Request} (mem : r ∈ w.requests) (phase : r.phase = .found)
      (current : r.isCurrent w.configuration w.clock = true) :
      Step w (.checkRequest r)
        { w with
          requests := { r with
            phase := .current w.clock (duration w.configuration.sessionLifetimeSeconds)
              (duration w.value.githubMembershipRecheckSeconds) } :: w.requests.erase r }
  | extendSession {r : Request} {now : Timestamp} {lifetime recheck : ℤ} (mem : r ∈ w.requests)
      (phase : r.phase = .current now lifetime recheck)
      (extended : r.record.refreshable = true →
        w.sessions.any (w.extends? r.record.tokenHash) = true) :
      Step w (.extendSession r)
        { w with
          sessions := w.sessions.map fun s => if w.extends? r.record.tokenHash s
            then { s with expiresAt := w.clock + lifetime } else s
          requests := w.requests.erase r
          accepted := ⟨r, now, recheck, w.team⟩ :: w.accepted }
  -- The background task.
  | beginSweep (idle : w.sweep = none) :
      Step w .beginSweep { w with sweep := some ⟨w.configuration, [], none, none⟩ }
  | listDue {sweep : Sweep} (running : w.sweep = some sweep) :
      Step w .listDue
        { w with
          sweep := some { sweep with
            due := w.dueUsers
              (duration sweep.configuration.githubMembershipRecheckSeconds / 2) } }
  | beginVerification {sweep : Sweep} {githubId : ℤ} {due : List ℤ} (running : w.sweep = some sweep)
      (next : sweep.due = githubId :: due) :
      Step w (.beginVerification githubId)
        { w with
          sweep := some { sweep with
            due
            asking := some ⟨githubId, sweep.configuration.githubAuthorizationTeam, w.clock⟩ } }
  | failVerification {sweep : Sweep} (running : w.sweep = some sweep) :
      Step w .failVerification { w with sweep := some { sweep with asking := none } }
  | confirmMembership {sweep : Sweep} {check : Check} (running : w.sweep = some sweep)
      (asking : sweep.asking = some check) :
      Step w .confirmMembership
        { w with
          sweep := some { sweep with asking := none, verified := some check }
          checks := check :: w.checks }
  | refreshMembership {sweep : Sweep} {check : Check} (running : w.sweep = some sweep)
      (verified : sweep.verified = some check) :
      Step w .refreshMembership
        { w with
          sweep := some { sweep with verified := none }
          sessions := w.refreshMembership check.githubId }
  | endSweep : Step w .endSweep { w with sweep := none }
  -- Tokens are rotated, and sessions end.
  | rotateToken (tokenHash : String) (accessTokenExpiresAt : Timestamp) :
      Step w (.rotateToken tokenHash)
        { w with
          sessions := w.sessions.map fun s => if s.tokenHash = tokenHash
            then { s with accessTokenExpiresAt := some accessTokenExpiresAt } else s }
  | deleteSession (tokenHash : String) :
      Step w (.deleteSession tokenHash)
        { w with sessions := w.sessions.filter (·.tokenHash ≠ tokenHash) }

/-- Nobody has signed in yet. -/
def World.initial (value : RuntimeConfiguration) (clock : Timestamp) : World :=
  ⟨clock, value, none, [], [], [], none, [], none, [], [], []⟩

def World.IsReachable (w : World) : Prop :=
  ∃ value clock, Reachable Step (.initial value clock) w

/-! ## Sessions go with their team -/

section

variable {w w' : World} {e : Event}

structure World.Wf (w : World) : Prop where
  sessions : ∀ s ∈ w.sessions, s.signIn.team = w.team
  creating : ∀ s ∈ w.signIns, s.locks = true → s.check.team = w.team
  /-- The row of the configuration is locked by one call of `update_configuration`, or shared. -/
  unshared : w.update.isSome = true → ∀ s ∈ w.signIns, s.locks = false
  /-- A call that has deleted the sessions has deleted them all. -/
  deleted : ∀ u hashes, w.update = some u → u.deleted = some hashes →
    ∀ s ∈ w.sessions, s.tokenHash ∈ hashes
  requests : ∀ r ∈ w.requests, r.record.signIn.team = r.team
  accepted : ∀ a ∈ w.accepted, a.request.record.signIn.team = a.request.team

/-- A sign-in that is in a phase without the lock replaces one, and nothing else happens to it. -/
theorem forall_signIns_replace {P : SignIn → Prop} {s s' : SignIn} (hs : P s')
    (h : ∀ t ∈ w.signIns, P t) : ∀ t ∈ s' :: w.signIns.erase s, P t := by
  intro t ht
  rcases List.mem_cons.mp ht with rfl | ht
  · exact hs
  · exact h t (List.mem_of_mem_erase ht)

theorem mem_of_findSession {tokenHash : String} {s : Session}
    (h : w.findSession tokenHash = some s) : s ∈ w.sessions :=
  List.mem_of_find?_eq_some h

/-- An update of sessions changes neither their tokens nor the sign-ins that created them. -/
theorem Wf_of_map {f : Session → Session}
    (hf : ∀ s, (f s).tokenHash = s.tokenHash ∧ (f s).signIn = s.signIn) (hw : w.Wf) :
    ({ w with sessions := w.sessions.map f } : World).Wf := by
  refine { hw with sessions := ?_, deleted := ?_ }
  · intro s hs
    obtain ⟨t, ht, rfl⟩ := List.mem_map.mp hs
    rw [(hf t).2]
    exact hw.sessions t ht
  · intro u hashes hu hdeleted s hs
    obtain ⟨t, ht, rfl⟩ := List.mem_map.mp hs
    rw [(hf t).1]
    exact hw.deleted u hashes hu hdeleted t ht

/-- While the team in force changes, no session is left. -/
theorem commitUpdate_wf {u : Update} (hw : w.Wf) (hupdate : w.update = some u)
    (hdeleted : w.value.invalidatesSessions u.next = true → u.deleted.isSome = true) :
    ∀ s ∈ w.sessions.filter fun s => s.tokenHash ∉ u.deleted.getD [],
      s.signIn.team = u.next.githubAuthorizationTeam := by
  intro s hs
  obtain ⟨hs, hkept⟩ := List.mem_filter.mp hs
  by_cases hteam : w.value.githubAuthorizationTeam = u.next.githubAuthorizationTeam
  · rw [← hteam]
    exact hw.sessions s hs
  · obtain ⟨hashes, hhashes⟩ :=
      Option.isSome_iff_exists.mp (hdeleted (invalidatesSessions_of_team hteam))
    rw [hhashes] at hkept
    simp [hw.deleted u hashes hupdate hhashes s hs] at hkept

theorem Step.wf (hw : w.Wf) (h : Step w e w') : w'.Wf := by
  cases h with
  | tick | reload | setCache | beginSweep | listDue | beginVerification | failVerification
  | confirmMembership | endSweep => exact { hw with }
  | beginSignIn githubId =>
    refine { hw with creating := ?_, unshared := ?_ }
    · intro s hs hlocks
      rcases List.mem_cons.mp hs with rfl | hs
      · cases hlocks
      · exact hw.creating s hs hlocks
    · intro hupdate s hs
      rcases List.mem_cons.mp hs with rfl | hs
      · rfl
      · exact hw.unshared hupdate s hs
  | confirmSignIn mem phase =>
    exact { hw with
      creating := forall_signIns_replace (fun hlocks => by cases hlocks) hw.creating
      unshared := fun hupdate => forall_signIns_replace rfl (hw.unshared hupdate) }
  | beginCreation mem phase =>
    exact { hw with
      creating := forall_signIns_replace (fun hlocks => by cases hlocks) hw.creating
      unshared := fun hupdate => forall_signIns_replace rfl (hw.unshared hupdate) }
  | lockShare mem phase unlocked team =>
    refine { hw with
      creating := forall_signIns_replace (fun _ => team.symm) hw.creating
      unshared := fun hupdate => ?_ }
    rw [unlocked] at hupdate
    cases hupdate
  | @commitSession s now tokenHash accessTokenExpiresAt mem phase fresh =>
    have hlocks : s.locks = true := by
      unfold SignIn.locks
      rw [phase]
    refine { hw with
      sessions := ?_
      creating := fun t ht => hw.creating t (List.mem_of_mem_erase ht)
      unshared := fun hupdate t ht => hw.unshared hupdate t (List.mem_of_mem_erase ht)
      deleted := fun u hashes hu => ?_ }
    · intro t ht
      rcases List.mem_cons.mp ht with rfl | ht
      · exact hw.creating s mem hlocks
      · exact hw.sessions t ht
    · have hunshared := hw.unshared (by rw [hu]; rfl) s mem
      rw [hlocks] at hunshared
      cases hunshared
  | endSignIn s =>
    exact { hw with
      creating := fun t ht => hw.creating t (List.mem_of_mem_erase ht)
      unshared := fun hupdate t ht => hw.unshared hupdate t (List.mem_of_mem_erase ht) }
  | lockUpdate next unlocked unshared =>
    refine { hw with unshared := fun _ => unshared, deleted := fun u hashes hu hdeleted => ?_ }
    cases hu
    cases hdeleted
  | deleteSessions update changed invalidates =>
    refine { hw with
      unshared := fun _ => hw.unshared (by rw [update]; rfl)
      deleted := fun u hashes hu hdeleted s hs => ?_ }
    cases hu
    cases hdeleted
    exact List.mem_map_of_mem hs
  | commitUpdate update changed deleted =>
    refine { hw with
      sessions := commitUpdate_wf hw update deleted
      creating := fun s hs hlocks => ?_
      unshared := fun hupdate => (by cases hupdate)
      deleted := fun u hashes hu => (by cases hu) }
    have hunshared := hw.unshared (by rw [update]; rfl) s hs
    rw [hlocks] at hunshared
    cases hunshared
  | rollbackUpdate =>
    exact { hw with
      unshared := fun hupdate => (by cases hupdate)
      deleted := fun u hashes hu => (by cases hu) }
  | lookUp tokenHash found =>
    refine { hw with requests := ?_ }
    intro r hr
    rcases List.mem_cons.mp hr with rfl | hr
    · exact hw.sessions _ (mem_of_findSession found)
    · exact hw.requests r hr
  | @checkRequest r mem phase current =>
    refine { hw with requests := ?_ }
    intro t ht
    rcases List.mem_cons.mp ht with rfl | ht
    · exact hw.requests r mem
    · exact hw.requests t (List.mem_of_mem_erase ht)
  | @extendSession r now lifetime recheck mem phase extended =>
    have hmap := Wf_of_map (f := fun s => if w.extends? r.record.tokenHash s
      then { s with expiresAt := w.clock + lifetime } else s)
      (fun s => by split <;> exact ⟨rfl, rfl⟩) hw
    refine { hmap with
      requests := fun t ht => hw.requests t (List.mem_of_mem_erase ht)
      accepted := ?_ }
    intro a ha
    rcases List.mem_cons.mp ha with rfl | ha
    · exact hw.requests r mem
    · exact hw.accepted a ha
  | @refreshMembership sweep check running verified =>
    have hmap := Wf_of_map (f := fun s => if s.githubId = check.githubId ∧ s.expiresAt > w.clock
      then { s with membershipVerifiedAt := w.clock } else s)
      (fun s => by split <;> exact ⟨rfl, rfl⟩) hw
    exact { hmap with }
  | rotateToken tokenHash accessTokenExpiresAt =>
    exact Wf_of_map (fun s => by split <;> exact ⟨rfl, rfl⟩) hw
  | deleteSession tokenHash =>
    exact { hw with
      sessions := fun s hs => hw.sessions s (List.mem_filter.mp hs).1
      deleted := fun u hashes hu hdeleted s hs =>
        hw.deleted u hashes hu hdeleted s (List.mem_filter.mp hs).1 }

theorem World.initial_wf (value : RuntimeConfiguration) (clock : Timestamp) :
    (World.initial value clock).Wf where
  sessions := fun _ hs => (by cases hs)
  creating := fun _ hs => (by cases hs)
  unshared := fun _ _ hs => (by cases hs)
  deleted := fun _ _ _ _ _ hs => (by cases hs)
  requests := fun _ hr => (by cases hr)
  accepted := fun _ ha => (by cases ha)

theorem World.IsReachable.wf (h : w.IsReachable) : w.Wf := by
  obtain ⟨value, clock, h⟩ := h
  exact h.invariant (fun _ _ _ hw hstep => hstep.wf hw) (World.initial_wf value clock)

/-! ## Former teams -/

/-- Nobody gets in who was let in by the team. -/
structure World.ShutsOut (w : World) (team : String) : Prop where
  /-- No session is there that was verified against it, -/
  sessions : ∀ s ∈ w.sessions, s.signIn.team ≠ team
  /-- none can be created, -/
  creation : ∀ s tokenHash w', Step w (.commitSession s tokenHash) w' → s.check.team ≠ team
  /-- none is found for a request, -/
  lookUp : ∀ tokenHash s, w.findSession tokenHash = some s → s.signIn.team ≠ team
  /-- and none was the session of a request that was accepted after it was looked up while another
  team was in force. -/
  accepted : ∀ a ∈ w.accepted, a.request.team ≠ team → a.request.record.signIn.team ≠ team

theorem World.IsReachable.shutsOut (h : w.IsReachable) {team : String} (hteam : team ≠ w.team) :
    w.ShutsOut team where
  sessions := fun s hs heq => hteam (heq.symm.trans (h.wf.sessions s hs))
  creation := by
    rintro s tokenHash w' hstep heq
    cases hstep with
    | commitSession _ _ mem phase fresh =>
      refine hteam (heq.symm.trans (h.wf.creating s mem ?_))
      unfold SignIn.locks
      rw [phase]
  lookUp := fun tokenHash s hs heq =>
    hteam (heq.symm.trans (h.wf.sessions s (mem_of_findSession hs)))
  accepted := fun a ha hlooked heq => hlooked ((h.wf.accepted a ha).symm.trans heq)

/-- Once a change of the configuration has committed, the team it replaced lets nobody in, for as
long as it is not put back in force. -/
theorem former_team_shut_out {w₁ w₂ : World} {es : List Event} (h : w.IsReachable)
    (hchange : Step w .commitUpdate w₁) (hrun : Run Step w₁ es w₂) (hformer : w.team ≠ w₂.team) :
    w₂.ShutsOut w.team := by
  obtain ⟨value, clock, hreach⟩ := h
  have h₂ : w₂.IsReachable := ⟨value, clock, (hreach.run (Run.single hchange)).run hrun⟩
  exact h₂.shutsOut hformer

end

/-! ## A sample -/

section

variable (w : World)

/-- Somebody signs in, and nothing comes between. -/
theorem run_signIn (githubId : ℤ) (tokenHash : String) (accessTokenExpiresAt : Timestamp)
    (hsignIns : w.signIns = []) (hupdate : w.update = none) (hcache : w.cache = none)
    (hfresh : tokenHash ∉ w.used) :
    ∃ es, Run Step w es
      { w with
        sessions := ⟨tokenHash, githubId, w.clock,
          w.clock + duration w.value.sessionLifetimeSeconds, some accessTokenExpiresAt, true,
          ⟨githubId, w.team, w.clock⟩⟩ :: w.sessions
        checks := ⟨githubId, w.team, w.clock⟩ :: w.checks
        used := tokenHash :: w.used } := by
  obtain ⟨clock, value, cache, loading, sessions, signIns, update, requests, sweep, checks,
    accepted, used⟩ := w
  dsimp only at hsignIns hupdate hcache hfresh
  subst hsignIns hupdate hcache
  have hbegin : Step ⟨clock, value, none, loading, sessions, [], none, requests, sweep, checks,
    accepted, used⟩ _ _ := .beginSignIn githubId
  have hrun := ((((Run.single hbegin).snoc (.confirmSignIn List.mem_cons_self rfl)).snoc
    (.beginCreation List.mem_cons_self rfl)).snoc (.lockShare List.mem_cons_self rfl rfl rfl)).snoc
    (.commitSession tokenHash accessTokenExpiresAt List.mem_cons_self rfl hfresh)
  simp only [List.erase_cons_head] at hrun
  exact ⟨_, hrun⟩

/-- The configuration is changed to one with another team, and nothing comes between. -/
theorem run_changeTeam (next : RuntimeConfiguration) (hsignIns : ∀ s ∈ w.signIns, s.locks = false)
    (hupdate : w.update = none) (hteam : w.team ≠ next.githubAuthorizationTeam) :
    ∃ w' es, Run Step w es w' ∧ w'.team = w.team ∧ w'.sessions = w.sessions ∧
      w'.checks = w.checks ∧ Step w' .commitUpdate
        { w with value := next, sessions := [], loading := next :: w.loading } := by
  obtain ⟨clock, value, cache, loading, sessions, signIns, update, requests, sweep, checks,
    accepted, used⟩ := w
  dsimp only at hsignIns hupdate
  subst hupdate
  have hinvalidates : value.invalidatesSessions next = true := invalidatesSessions_of_team hteam
  have hchanged : value.changed next ≠ [] := fun h => hteam (team_eq_of_changed h)
  have hlock : Step ⟨clock, value, cache, loading, sessions, signIns, none, requests, sweep, checks,
    accepted, used⟩ _ _ := .lockUpdate next rfl hsignIns
  have hdelete := (Run.single hlock).snoc (.deleteSessions rfl hchanged hinvalidates)
  refine ⟨_, _, hdelete, rfl, rfl, rfl, ?_⟩
  have hcommit := Step.commitUpdate (w := ⟨clock, value, cache, loading, sessions, signIns,
    some ⟨next, some (sessions.map (·.tokenHash))⟩, requests, sweep, checks, accepted, used⟩) rfl
    hchanged fun _ => rfl
  have hnone : (sessions.filter fun s => s.tokenHash ∉ sessions.map (·.tokenHash)) = [] := by
    refine List.filter_eq_nil_iff.mpr fun s hs => ?_
    simpa using ⟨s, hs, rfl⟩
  simp only [Option.getD_some, hnone] at hcommit
  exact hcommit

end

def sampleConfiguration (team : String) : RuntimeConfiguration := ⟨team, 300, 3600, [], []⟩

/-- Somebody has signed in under a first team. -/
def signedIn : World :=
  { World.initial (sampleConfiguration "o/a") 0 with
    sessions := [⟨"t", 7, 0, duration 3600, some (duration 28800), true, ⟨7, "o/a", 0⟩⟩]
    checks := [⟨7, "o/a", 0⟩]
    used := ["t"] }

theorem signedIn_isReachable : signedIn.IsReachable := by
  obtain ⟨es, hrun⟩ := run_signIn (.initial (sampleConfiguration "o/a") 0) 7 "t" (duration 28800)
    rfl rfl rfl List.not_mem_nil
  exact ⟨_, _, es, hrun⟩

theorem signedIn_shut_out : ∃ w w' : World, w.IsReachable ∧ w.sessions = signedIn.sessions ∧
    Step w .commitUpdate w' ∧ w.team = "o/a" ∧ w'.team = "o/b" ∧ w'.ShutsOut w.team := by
  obtain ⟨w, es, hrun, hteam, hsessions, -, hchange⟩ := run_changeTeam signedIn
    (sampleConfiguration "o/b") (List.forall_mem_nil _) rfl (by decide)
  obtain ⟨value, clock, hsignedIn⟩ := signedIn_isReachable
  have hw : w.IsReachable := ⟨value, clock, hsignedIn.run hrun⟩
  exact ⟨w, _, hw, hsessions, hchange, hteam, rfl,
    former_team_shut_out hw hchange (.nil _) (by rw [hteam]; decide)⟩

/-- Somebody was confirmed to be in the first team, and has no session yet. -/
def confirmed : World :=
  { World.initial (sampleConfiguration "o/a") 0 with
    signIns := [⟨⟨7, "o/a", 0⟩, duration 3600, .verified⟩]
    checks := [⟨7, "o/a", 0⟩] }

theorem confirmed_isReachable : confirmed.IsReachable := by
  have hbegin : Step (.initial (sampleConfiguration "o/a") 0) _ _ := .beginSignIn 7
  have hrun := (Run.single hbegin).snoc (.confirmSignIn List.mem_cons_self rfl)
  simp only [List.erase_cons_head] at hrun
  exact ⟨_, _, _, hrun⟩

/-- The first team is replaced, and put back in force: the sign-in that was verified before creates
its session after that. -/
theorem former_team_lets_in : ∃ w w₁ w₂ : World, ∃ es, w.IsReachable ∧ Step w .commitUpdate w₁ ∧
    w₁.team ≠ w.team ∧ Run Step w₁ es w₂ ∧ ¬ w₂.ShutsOut w.team ∧
    ∃ s ∈ w₂.sessions, s.signIn ∈ w.checks ∧ s.signIn.team = w.team := by
  have hsignIns : ∀ s ∈ confirmed.signIns, s.locks = false := List.forall_mem_singleton.mpr rfl
  obtain ⟨w, es, hrun, hteam, -, hchecks, hchange⟩ :=
    run_changeTeam confirmed (sampleConfiguration "o/b") hsignIns rfl (by decide)
  obtain ⟨v, es', hback, -, -, -, hchangeBack⟩ :=
    run_changeTeam { confirmed with
      value := sampleConfiguration "o/b"
      sessions := []
      loading := [sampleConfiguration "o/b"] } (sampleConfiguration "o/a") hsignIns rfl (by decide)
  have hcreated := (((hback.snoc hchangeBack).snoc (.beginCreation List.mem_cons_self rfl)).snoc
    (.lockShare List.mem_cons_self rfl rfl rfl)).snoc
    (.commitSession "t" (duration 28800) List.mem_cons_self rfl List.not_mem_nil)
  obtain ⟨value, clock, hconfirmed⟩ := confirmed_isReachable
  have hfirst : w.team = "o/a" := hteam
  refine ⟨w, _, _, _, ⟨value, clock, hconfirmed.run hrun⟩, hchange, ?_, hcreated, fun h => ?_, _,
    List.mem_cons_self, ?_, hfirst.symm⟩
  · rw [hfirst]
    decide
  · exact h.sessions _ List.mem_cons_self hfirst.symm
  · rw [hchecks]
    exact List.mem_cons_self

end LadybirdReports.Admin.Sessions
