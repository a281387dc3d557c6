import LadybirdReports.Admin.Sessions
import LadybirdReports.Lib.Rows

/-!
# How recent a membership is

A request is accepted on the time at which its session was last written to be verified. That is the
time of the write, for all sessions of the person, whatever team was checked and whenever that was
begun: so a check against a former team counts for sessions that came later, and a slow answer
counts as a recent one (`late_check_accepted`). Where checks are written some delay after they are
begun at most, while their team is in force, and requests come before the recheck by as much, an
accepted request has a check against the team in force that is as recent as the recheck asks
(`verified_of_onTime`).
-/

namespace LadybirdReports.Admin.Sessions

open Transition

/-! ## What is asked of requests and of writes -/

/-- The person was confirmed to be in the team in force, by a check that was begun within the
recheck. -/
def Acceptance.Verified (a : Acceptance) (checks : List Check) : Prop :=
  ∃ c ∈ checks, c.githubId = a.request.record.githubId ∧ c.team = a.team ∧
    a.now - c.begun ≤ a.recheck

def World.Verified (w : World) : Prop := ∀ a ∈ w.accepted, a.Verified w.checks

/-- A sign-in and the background task write a check that was begun no longer than the delay before,
the background task while its team is in force, if there is a session to write; and a request comes
before the recheck in force has passed since then by as much. -/
def OnTime (delay : ℤ) (w : World) : Event → Prop
  | .commitSession s _ => ∀ now, s.phase = .creating now → now ≤ s.check.begun + delay
  | .refreshMembership => ∀ sweep check, w.sweep = some sweep → sweep.verified = some check →
      ∀ s ∈ w.sessions, s.githubId = check.githubId → s.expiresAt > w.clock →
        w.clock ≤ check.begun + delay ∧ check.team = w.team
  | .checkRequest r => w.clock - r.record.membershipVerifiedAt ≤
      duration w.value.githubMembershipRecheckSeconds - delay
  | _ => True

section

variable {w w' : World} {e : Event} {delay : ℤ}

/-! ## Tokens name their sessions -/

/-- A token is given to one session, which can be extended. -/
structure World.Named (w : World) : Prop where
  distinct : (w.sessions.map (·.tokenHash)).Nodup
  used : ∀ s ∈ w.sessions, s.tokenHash ∈ w.used
  requested : ∀ r ∈ w.requests, r.record.tokenHash ∈ w.used
  same : ∀ r ∈ w.requests, ∀ s ∈ w.sessions, s.tokenHash = r.record.tokenHash →
    s.signIn = r.record.signIn
  refreshable : ∀ r ∈ w.requests, r.record.refreshable = true
  refreshableSession : ∀ s ∈ w.sessions, s.refreshable = true

/-- Sessions that are those of the world, updated in other columns, or some of them. -/
structure Keeps (w : World) (sessions : List Session) : Prop where
  distinct : (w.sessions.map (·.tokenHash)).Nodup → (sessions.map (·.tokenHash)).Nodup
  origin : ∀ s ∈ sessions, ∃ t ∈ w.sessions, s.tokenHash = t.tokenHash ∧ s.signIn = t.signIn ∧
    s.refreshable = t.refreshable

theorem Keeps.of_map {f : Session → Session} (hf : ∀ s, (f s).tokenHash = s.tokenHash ∧
    (f s).signIn = s.signIn ∧ (f s).refreshable = s.refreshable) :
    Keeps w (w.sessions.map f) where
  distinct := fun h => by
    rw [List.map_map]
    exact (List.map_congr_left fun s _ => (hf s).1) ▸ h
  origin := fun s hs => by
    obtain ⟨t, ht, rfl⟩ := List.mem_map.mp hs
    exact ⟨t, ht, hf t⟩

theorem Keeps.of_filter {p : Session → Bool} : Keeps w (w.sessions.filter p) where
  distinct := fun h => h.sublist (List.filter_sublist.map _)
  origin := fun s hs => ⟨s, (List.mem_filter.mp hs).1, rfl, rfl, rfl⟩

theorem World.Named.of_keeps (hw : w.Named) (hkeeps : Keeps w w'.sessions)
    (hrequests : ∀ r ∈ w'.requests, r ∈ w.requests) (hused : w'.used = w.used) : w'.Named where
  distinct := hkeeps.distinct hw.distinct
  used := fun s hs => by
    obtain ⟨t, ht, htoken, -⟩ := hkeeps.origin s hs
    rw [htoken, hused]
    exact hw.used t ht
  requested := fun r hr => hused ▸ hw.requested r (hrequests r hr)
  same := fun r hr s hs h => by
    obtain ⟨t, ht, htoken, hsignIn, -⟩ := hkeeps.origin s hs
    rw [hsignIn]
    exact hw.same r (hrequests r hr) t ht (htoken.symm.trans h)
  refreshable := fun r hr => hw.refreshable r (hrequests r hr)
  refreshableSession := fun s hs => by
    obtain ⟨t, ht, -, -, hrefreshable⟩ := hkeeps.origin s hs
    rw [hrefreshable]
    exact hw.refreshableSession t ht

/-- The sessions stay. -/
theorem Keeps.refl : Keeps w w.sessions := ⟨id, fun s hs => ⟨s, hs, rfl, rfl, rfl⟩⟩

theorem Step.named (hw : w.Named) (h : Step w e w') : w'.Named := by
  cases h with
  | tick | reload | setCache | beginSignIn | confirmSignIn | beginCreation | lockShare | endSignIn
  | lockUpdate | deleteSessions | rollbackUpdate | beginSweep | listDue | beginVerification
  | failVerification | confirmMembership | endSweep => exact { hw with }
  | @commitSession s now tokenHash accessTokenExpiresAt mem phase fresh =>
    have hnew : ∀ t ∈ w.sessions, t.tokenHash ≠ tokenHash :=
      fun t ht h => fresh (h ▸ hw.used t ht)
    refine ⟨?_, ?_, fun r hr => List.mem_cons_of_mem _ (hw.requested r hr), ?_, hw.refreshable, ?_⟩
    · refine List.nodup_cons.mpr ⟨fun h => ?_, hw.distinct⟩
      obtain ⟨t, ht, htoken⟩ := List.mem_map.mp h
      exact hnew t ht htoken
    · exact List.forall_mem_cons.mpr
        ⟨List.mem_cons_self, fun t ht => List.mem_cons_of_mem _ (hw.used t ht)⟩
    · refine fun r hr => List.forall_mem_cons.mpr ⟨fun h => ?_, hw.same r hr⟩
      have htoken : tokenHash = r.record.tokenHash := h
      exact absurd (htoken ▸ hw.requested r hr) fresh
    · exact List.forall_mem_cons.mpr ⟨rfl, hw.refreshableSession⟩
  | commitUpdate => exact hw.of_keeps .of_filter (fun _ hr => hr) rfl
  | deleteSession => exact hw.of_keeps .of_filter (fun _ hr => hr) rfl
  | @lookUp s tokenHash found =>
    have hmem := mem_of_findSession found
    refine { hw with
      requested := List.forall_mem_cons.mpr ⟨hw.used s hmem, hw.requested⟩
      same := List.forall_mem_cons.mpr ⟨fun t ht h => ?_, hw.same⟩
      refreshable := List.forall_mem_cons.mpr ⟨hw.refreshableSession s hmem, hw.refreshable⟩ }
    rw [Rows.eq_of_key hw.distinct ht hmem h]
  | @checkRequest r mem phase current =>
    have hreplace : ∀ {P : Request → Prop}, (∀ t ∈ w.requests, P t) →
        (∀ p, P r → P { r with phase := p }) →
        ∀ p, ∀ t ∈ { r with phase := p } :: w.requests.erase r, P t := by
      intro P h hP p
      exact List.forall_mem_cons.mpr ⟨hP p (h r mem), fun t ht => h t (List.mem_of_mem_erase ht)⟩
    exact { hw with
      requested := hreplace hw.requested (fun _ h => h) _
      same := hreplace hw.same (fun _ h => h) _
      refreshable := hreplace hw.refreshable (fun _ h => h) _ }
  | extendSession =>
    exact hw.of_keeps (.of_map fun s => by split <;> exact ⟨rfl, rfl, rfl⟩)
      (fun _ hr => List.mem_of_mem_erase hr) rfl
  | refreshMembership =>
    exact hw.of_keeps (.of_map fun s => by split <;> exact ⟨rfl, rfl, rfl⟩) (fun _ hr => hr) rfl
  | rotateToken =>
    exact hw.of_keeps (.of_map fun s => by split <;> exact ⟨rfl, rfl, rfl⟩) (fun _ hr => hr) rfl

/-! ## What a session was stamped for -/

variable (delay) in
/-- The session was verified against its team by a check that was begun when it says, or no longer
than the delay before. -/
def Session.Stamped (s : Session) (checks : List Check) : Prop :=
  ∃ c ∈ checks, c.githubId = s.githubId ∧ c.team = s.signIn.team ∧
    s.membershipVerifiedAt ≤ c.begun + delay

variable (delay) in
structure World.Stamped (w : World) : Prop where
  sessions : ∀ s ∈ w.sessions, s.Stamped delay w.checks
  signIns : ∀ s ∈ w.signIns, s.phase ≠ .asking → s.check ∈ w.checks
  sweep : ∀ sweep c, w.sweep = some sweep → sweep.verified = some c → c ∈ w.checks
  requests : ∀ r ∈ w.requests, r.record.Stamped delay w.checks
  current : ∀ r ∈ w.requests, ∀ now lifetime recheck, r.phase = .current now lifetime recheck →
    now - r.record.membershipVerifiedAt ≤ recheck - delay
  accepted : w.Verified

theorem Session.Stamped.mono {s : Session} {checks checks' : List Check}
    (h : s.Stamped delay checks) (hsub : checks ⊆ checks') : s.Stamped delay checks' := by
  obtain ⟨c, hc, hof⟩ := h
  exact ⟨c, hsub hc, hof⟩

theorem Acceptance.Verified.mono {a : Acceptance} {checks checks' : List Check}
    (h : a.Verified checks) (hsub : checks ⊆ checks') : a.Verified checks' := by
  obtain ⟨c, hc, hof⟩ := h
  exact ⟨c, hsub hc, hof⟩

/-- Another check is confirmed. -/
theorem World.Stamped.confirm (hw : w.Stamped delay) (c : Check) :
    ({ w with checks := c :: w.checks } : World).Stamped delay where
  sessions := fun s hs => (hw.sessions s hs).mono (List.subset_cons_self _ _)
  signIns := fun s hs h => List.mem_cons_of_mem _ (hw.signIns s hs h)
  sweep := fun sweep d h hd => List.mem_cons_of_mem _ (hw.sweep sweep d h hd)
  requests := fun r hr => (hw.requests r hr).mono (List.subset_cons_self _ _)
  current := hw.current
  accepted := fun a ha => (hw.accepted a ha).mono (List.subset_cons_self _ _)

theorem recent_of_stamp {now stamp begun recheck : ℤ} (h : now - stamp ≤ recheck - delay)
    (hstamp : stamp ≤ begun + delay) : now - begun ≤ recheck := by omega

/-- The background task stamps the sessions of a person for their team. -/
theorem refreshMembership_stamped {sweep : Sweep} {check : Check} (hwf : w.Wf)
    (hw : w.Stamped delay) (hrunning : w.sweep = some sweep)
    (hverified : sweep.verified = some check)
    (hok : OnTime delay w .refreshMembership) :
    ∀ s ∈ w.refreshMembership check.githubId, s.Stamped delay w.checks := by
  intro s hs
  obtain ⟨t, ht, rfl⟩ := List.mem_map.mp hs
  split
  · rename_i hselected
    obtain ⟨honTime, hteam⟩ := hok sweep check hrunning hverified t ht hselected.1 hselected.2
    exact ⟨check, hw.sweep sweep check hrunning hverified, hselected.1.symm,
      hteam.trans (hwf.sessions t ht).symm, honTime⟩
  · exact hw.sessions t ht

/-- A request that is accepted still has its session, so that its team is in force. -/
theorem extendSession_verified {r : Request} {now : Timestamp} {lifetime recheck : ℤ}
    (hwf : w.Wf) (hnamed : w.Named) (hw : w.Stamped delay) (hmem : r ∈ w.requests)
    (hphase : r.phase = .current now lifetime recheck)
    (hextended : r.record.refreshable = true →
      w.sessions.any (w.extends? r.record.tokenHash) = true) :
    (⟨r, now, recheck, w.team⟩ : Acceptance).Verified w.checks := by
  obtain ⟨s, hs, hextends⟩ := List.any_eq_true.mp (hextended (hnamed.refreshable r hmem))
  unfold World.extends? at hextends
  simp only [Bool.and_eq_true, decide_eq_true_eq] at hextends
  obtain ⟨c, hc, hperson, hteam, hstamp⟩ := hw.requests r hmem
  have hcurrent := hw.current r hmem now lifetime recheck hphase
  refine ⟨c, hc, hperson, ?_, ?_⟩
  · rw [hteam, ← hnamed.same r hmem s hs hextends.1.1]
    exact hwf.sessions s hs
  · exact recent_of_stamp hcurrent hstamp

theorem Step.stamped (hwf : w.Wf) (hnamed : w.Named) (hw : w.Stamped delay)
    (hok : OnTime delay w e) (h : Step w e w') : w'.Stamped delay := by
  cases h with
  | tick | reload | setCache | lockUpdate | deleteSessions | rollbackUpdate => exact { hw with }
  | beginSignIn githubId =>
    exact { hw with
      signIns := List.forall_mem_cons.mpr ⟨fun h => absurd rfl h, hw.signIns⟩ }
  | @confirmSignIn s mem phase =>
    exact { hw.confirm s.check with
      signIns := forall_signIns_replace (fun _ => List.mem_cons_self)
        (hw.confirm s.check).signIns }
  | @beginCreation s mem phase =>
    have hcheck := hw.signIns s mem (by rw [phase]; decide)
    exact { hw with signIns := forall_signIns_replace (fun _ => hcheck) hw.signIns }
  | @lockShare s now mem phase unlocked team =>
    have hcheck := hw.signIns s mem (by rw [phase]; exact fun h => (by cases h))
    exact { hw with signIns := forall_signIns_replace (fun _ => hcheck) hw.signIns }
  | @commitSession s now tokenHash accessTokenExpiresAt mem phase fresh =>
    refine { hw with
      sessions := List.forall_mem_cons.mpr ⟨⟨s.check, ?_, rfl, rfl, hok now phase⟩, hw.sessions⟩
      signIns := fun t ht => hw.signIns t (List.mem_of_mem_erase ht) }
    exact hw.signIns s mem (by rw [phase]; exact fun h => (by cases h))
  | endSignIn s =>
    exact { hw with signIns := fun t ht => hw.signIns t (List.mem_of_mem_erase ht) }
  | commitUpdate =>
    exact { hw with sessions := fun s hs => hw.sessions s (List.mem_filter.mp hs).1 }
  | lookUp tokenHash found =>
    exact { hw with
      requests := List.forall_mem_cons.mpr ⟨hw.sessions _ (mem_of_findSession found), hw.requests⟩
      current := List.forall_mem_cons.mpr ⟨fun _ _ _ h => (by cases h), hw.current⟩ }
  | @checkRequest r mem phase current =>
    refine { hw with
      requests := List.forall_mem_cons.mpr
        ⟨hw.requests r mem, fun t ht => hw.requests t (List.mem_of_mem_erase ht)⟩
      current := List.forall_mem_cons.mpr
        ⟨?_, fun t ht => hw.current t (List.mem_of_mem_erase ht)⟩ }
    intro now lifetime recheck hphase
    cases hphase
    exact hok
  | @extendSession r now lifetime recheck mem phase extended =>
    refine { hw with
      sessions := fun s hs => ?_
      requests := fun t ht => hw.requests t (List.mem_of_mem_erase ht)
      current := fun t ht => hw.current t (List.mem_of_mem_erase ht)
      accepted := List.forall_mem_cons.mpr
        ⟨extendSession_verified hwf hnamed hw mem phase extended, hw.accepted⟩ }
    obtain ⟨t, ht, rfl⟩ := List.mem_map.mp hs
    split <;> exact hw.sessions t ht
  | beginSweep idle => exact { hw with sweep := fun _ _ h hd => by cases h; cases hd }
  | listDue running =>
    exact { hw with sweep := fun _ _ h hd => by cases h; exact hw.sweep _ _ running hd }
  | beginVerification running next =>
    exact { hw with sweep := fun _ _ h hd => by cases h; exact hw.sweep _ _ running hd }
  | failVerification running =>
    exact { hw with sweep := fun _ _ h hd => by cases h; exact hw.sweep _ _ running hd }
  | @confirmMembership sweep check running asking =>
    exact { hw.confirm check with
      sweep := fun _ _ h hd => by cases h; cases hd; exact List.mem_cons_self }
  | refreshMembership running verified =>
    exact { hw with
      sessions := refreshMembership_stamped hwf hw running verified hok
      sweep := fun _ _ h hd => by cases h; cases hd }
  | endSweep => exact { hw with sweep := fun _ _ h => by cases h }
  | rotateToken tokenHash accessTokenExpiresAt =>
    refine { hw with sessions := fun s hs => ?_ }
    obtain ⟨t, ht, rfl⟩ := List.mem_map.mp hs
    split <;> exact hw.sessions t ht
  | deleteSession tokenHash =>
    exact { hw with sessions := fun s hs => hw.sessions s (List.mem_filter.mp hs).1 }

theorem World.initial_named (value : RuntimeConfiguration) (clock : Timestamp) :
    (World.initial value clock).Named where
  distinct := List.nodup_nil
  used := fun _ hs => (by cases hs)
  requested := fun _ hr => (by cases hr)
  same := fun _ hr => (by cases hr)
  refreshable := fun _ hr => (by cases hr)
  refreshableSession := fun _ hs => (by cases hs)

theorem World.initial_stamped (value : RuntimeConfiguration) (clock : Timestamp) :
    (World.initial value clock).Stamped delay where
  sessions := fun _ hs => (by cases hs)
  signIns := fun _ hs => (by cases hs)
  sweep := fun _ _ h => (by cases h)
  requests := fun _ hr => (by cases hr)
  current := fun _ hr => (by cases hr)
  accepted := fun _ ha => (by cases ha)

/-- In a run in which checks are written within the delay, and while their team is in force, and
requests come before the recheck by as much, every request that was accepted was verified. -/
theorem verified_of_onTime {value : RuntimeConfiguration} {clock : Timestamp} {es : List Event}
    (h : Run (Where (OnTime delay) Step) (.initial value clock) es w) : w.Verified := by
  have hinv : w.Wf ∧ w.Named ∧ w.Stamped delay := by
    refine Run.invariant (I := fun w => w.Wf ∧ w.Named ∧ w.Stamped delay)
      (fun s e t hs hstep => ?_) h
      ⟨World.initial_wf value clock, World.initial_named value clock,
        World.initial_stamped value clock⟩
    obtain ⟨hwf, hnamed, hstamped⟩ := hs
    exact ⟨hstep.2.wf hwf, hstep.2.named hnamed, hstep.2.stamped hwf hnamed hstamped hstep.1⟩
  exact hinv.2.2.accepted

end

/-! ## Checks in time -/

/-- A session that was verified at one time and is there until another. -/
def sampleSession (verifiedAt expiresAt : Timestamp) : Session :=
  ⟨"t", 7, verifiedAt, expiresAt, some (duration 28800), true, ⟨7, "o/a", 0⟩⟩

/-- GitHub took two seconds to confirm the membership, and the transaction one more. -/
def signedInSlowly : World :=
  { signedIn with
    clock := duration 3
    sessions := [sampleSession (duration 2) (duration 3602)] }

theorem run_signedInSlowly : ∃ es, Run (Where (OnTime (duration 5)) Step)
    (.initial (sampleConfiguration "o/a") 0) es signedInSlowly := by
  have hbegin : Where (OnTime (duration 5)) Step (.initial (sampleConfiguration "o/a") 0) _ _ :=
    ⟨by trivial, .beginSignIn 7⟩
  have hcreating := (((((Run.single hbegin).snoc ⟨by trivial, .tick 2000000⟩).snoc
    ⟨by trivial, .confirmSignIn List.mem_cons_self rfl⟩).snoc
    ⟨by trivial, .beginCreation List.mem_cons_self rfl⟩).snoc ⟨by trivial, .tick 1000000⟩).snoc
    ⟨by trivial, .lockShare List.mem_cons_self rfl rfl rfl⟩
  have hsession := hcreating.snoc
    ⟨by
      intro now h
      cases h
      exact (by decide : duration 2 ≤ duration 5),
    .commitSession "t" (duration 28800) List.mem_cons_self rfl List.not_mem_nil⟩
  exact ⟨_, hsession⟩

/-- A request was accepted after 100 seconds. -/
def requested : World :=
  { signedInSlowly with
    clock := duration 100
    sessions := [sampleSession (duration 2) (duration 3700)]
    accepted := [⟨⟨sampleSession (duration 2) (duration 3602), "o/a",
      .current (duration 100) (duration 3600) (duration 300)⟩, duration 100, duration 300, "o/a"⟩] }

theorem run_requested :
    ∃ es, Run (Where (OnTime (duration 5)) Step) signedInSlowly es requested := by
  have htick : Where (OnTime (duration 5)) Step signedInSlowly _
      { signedInSlowly with clock := duration 100 } := ⟨by trivial, .tick 97000000⟩
  have hrequest := (((Run.single htick).snoc ⟨by trivial, .lookUp "t" rfl⟩).snoc
    ⟨by exact (by decide : duration 100 - duration 2 ≤ duration 300 - duration 5),
      .checkRequest List.mem_cons_self rfl (by decide)⟩).snoc
    ⟨by trivial, .extendSession List.mem_cons_self rfl fun _ => by decide⟩
  exact ⟨_, hrequest⟩

/-- The background task after 200 seconds. -/
def secondSweep (due : List ℤ) (asking : Option Check) : World :=
  { requested with
    clock := duration 200
    sweep := some ⟨sampleConfiguration "o/a", due, asking, none⟩ }

theorem run_secondSweep : ∃ es, Run (Where (OnTime (duration 5)) Step) requested es
    (secondSweep [] (some ⟨7, "o/a", duration 200⟩)) := by
  have htick : Where (OnTime (duration 5)) Step requested _
      { requested with clock := duration 200 } := ⟨by trivial, .tick 100000000⟩
  have hdue : (secondSweep [] none).dueUsers (duration 300 / 2) = [7] := by decide
  have hlist := @Step.listDue (secondSweep [] none) ⟨sampleConfiguration "o/a", [], none, none⟩ rfl
  have hask := @Step.beginVerification (secondSweep [7] none)
    ⟨sampleConfiguration "o/a", [7], none, none⟩ 7 [] rfl rfl
  simp only [sampleConfiguration, hdue] at hlist
  exact ⟨_, (((Run.single htick).snoc ⟨by trivial, .beginSweep rfl⟩).snoc ⟨by trivial, hlist⟩).snoc
    ⟨by trivial, hask⟩⟩

/-- GitHub confirms that membership again, which takes three seconds, and the next request comes 290
seconds after it was asked. -/
theorem signedIn_verified : ∃ w : World, w.accepted.length = 2 ∧ w.Verified := by
  obtain ⟨es₁, hsignedIn⟩ := run_signedInSlowly
  obtain ⟨es₂, hrequested⟩ := run_requested
  obtain ⟨es₃, hasking⟩ := run_secondSweep
  have htick : Where (OnTime (duration 5)) Step (secondSweep [] (some ⟨7, "o/a", duration 200⟩)) _
      { secondSweep [] (some ⟨7, "o/a", duration 200⟩) with clock := duration 203 } :=
    ⟨by trivial, .tick 3000000⟩
  have hstamped := ((Run.single htick).snoc ⟨by trivial, .confirmMembership rfl rfl⟩).snoc
    ⟨by
      intro sweep check hsweep hcheck s hs hperson hlives
      cases hsweep
      cases hcheck
      exact ⟨(by decide : duration 203 ≤ duration 200 + duration 5), rfl⟩,
    .refreshMembership rfl rfl⟩
  have hrequest := (((hstamped.snoc ⟨by trivial, .tick 287000000⟩).snoc
    ⟨by trivial, .lookUp "t" rfl⟩).snoc
    ⟨by exact (by decide : duration 490 - duration 203 ≤ duration 300 - duration 5),
      .checkRequest List.mem_cons_self rfl (by decide)⟩).snoc
    ⟨by trivial, .extendSession List.mem_cons_self rfl fun _ => by decide⟩
  exact ⟨_, rfl, verified_of_onTime
    (((hsignedIn.append hrequested).append hasking).append hrequest)⟩

/-! ## A late check -/

/-- The background task, while the first team is in force. -/
def firstSweep (due : List ℤ) (asking : Option Check) : World :=
  { signedIn with
    clock := duration 150
    sweep := some ⟨sampleConfiguration "o/a", due, asking, none⟩ }

/-- GitHub is asked whether somebody is in the first team. -/
def askingFirstTeam : World := firstSweep [] (some ⟨7, "o/a", duration 150⟩)

theorem run_askingFirstTeam : ∃ es, Run Step signedIn es askingFirstTeam := by
  have htick : Step signedIn _ { signedIn with clock := duration 150 } := .tick 150000000
  have hdue : (firstSweep [] none).dueUsers (duration 300 / 2) = [7] := by decide
  have hlist := @Step.listDue (firstSweep [] none) ⟨sampleConfiguration "o/a", [], none, none⟩ rfl
  have hask := @Step.beginVerification (firstSweep [7] none)
    ⟨sampleConfiguration "o/a", [7], none, none⟩ 7 [] rfl rfl
  simp only [sampleConfiguration, hdue] at hlist
  exact ⟨_, (((Run.single htick).snoc (.beginSweep rfl)).snoc hlist).snoc hask⟩

/-- The team is changed, and the person signs in again. -/
def signedInAgain : World :=
  { askingFirstTeam with
    clock := duration 151
    value := sampleConfiguration "o/b"
    loading := [sampleConfiguration "o/b"]
    sessions := [⟨"u", 7, duration 151, duration 3751, some (duration 28800), true,
      ⟨7, "o/b", duration 151⟩⟩]
    checks := [⟨7, "o/b", duration 151⟩, ⟨7, "o/a", 0⟩]
    used := ["u", "t"] }

theorem run_signedInAgain : ∃ es, Run Step askingFirstTeam es signedInAgain := by
  obtain ⟨w, es, hrun, -, -, -, hchange⟩ :=
    run_changeTeam askingFirstTeam (sampleConfiguration "o/b") (List.forall_mem_nil _) rfl
      (by decide)
  have hchanged := (hrun.snoc hchange).snoc (.tick 1000000)
  obtain ⟨es', hsignIn⟩ := run_signIn { askingFirstTeam with
      clock := duration 151
      value := sampleConfiguration "o/b"
      sessions := []
      loading := [sampleConfiguration "o/b"] } 7 "u" (duration 28800) rfl rfl rfl (by decide)
  exact ⟨_, hchanged.append hsignIn⟩

/-- GitHub confirms the check of the first team, which counts for the new session. A request with
it is accepted, more than the recheck after the one check of the team in force. -/
theorem late_check_accepted : ∃ w : World, w.IsReachable ∧ ¬ w.Verified := by
  obtain ⟨value, clock, hsignedIn⟩ := signedIn_isReachable
  obtain ⟨es, hasking⟩ := run_askingFirstTeam
  obtain ⟨es', hagain⟩ := run_signedInAgain
  have htick : Step signedInAgain _ { signedInAgain with clock := duration 160 } := .tick 9000000
  have hstamp := ((Run.single htick).snoc (.confirmMembership rfl rfl)).snoc
    (.refreshMembership rfl rfl)
  have hrequest := (((hstamp.snoc (.tick 295000000)).snoc (.lookUp "u" rfl)).snoc
    (.checkRequest List.mem_cons_self rfl (by decide))).snoc
    (.extendSession List.mem_cons_self rfl fun _ => by decide)
  refine ⟨_, ⟨value, clock, ((hsignedIn.run hasking).run hagain).run hrequest⟩, fun h => ?_⟩
  obtain ⟨c, hc, -, hteam, hrecent⟩ := h _ List.mem_cons_self
  have hteam : c.team = "o/b" := hteam
  have hrecent : duration 455 - c.begun ≤ duration 300 := hrecent
  have hc : c ∈ [⟨7, "o/a", duration 150⟩, ⟨7, "o/b", duration 151⟩, ⟨7, "o/a", 0⟩] := hc
  simp only [List.mem_cons, List.not_mem_nil, or_false] at hc
  rcases hc with rfl | rfl | rfl
  · exact absurd hteam (by decide)
  · exact absurd hrecent (by decide)
  · exact absurd hteam (by decide)

end LadybirdReports.Admin.Sessions
