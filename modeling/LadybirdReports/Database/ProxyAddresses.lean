import LadybirdReports.Public.ClientAddress
import LadybirdReports.Lib.Run
import Mathlib.Data.List.Destutter
import Mathlib.Data.List.Sort
import Mathlib.Logic.Function.Basic

/-!
# The addresses of trusted proxies

A trusted proxy may be configured by its DNS name. `ProxyAddresses::apply` looks a name up when it
is new or would be too old by the next run, and keeps the former addresses of a name that cannot be
looked up again.

1. What is remembered of a name is the last answer to a lookup of it, and an answer is never empty
   (`resolveHost_eq_some`).
2. While `apply` runs, every name whose turn has come is remembered, and will be young enough until
   the next run, or its lookup has failed (`Settled`). Each step keeps this (`inv_step`).

So the networks that requests are checked against are the configured ones and those of addresses
that a configured name was answered with, at most a lifetime ago if `apply` runs as often as it is
said to and the lookups succeed (`trusted_networks_answered`).
-/

namespace LadybirdReports.Database.ProxyAddresses

open Public (NetworkLibrary TrustedProxy resolveTrustedNetworks)
open Rust Transition

/-- What is remembered of a name. Instants are microseconds of the monotonic clock. -/
structure Resolution where
  addresses : List IpAddr
  resolvedAt : ℕ
  deriving DecidableEq

/-- `ProxyAddresses`, without what it remembers. -/
structure Settings where
  lifetime : ℕ
  refreshInterval : ℕ

/-- `elapsed` is zero for what is yet to come. -/
def Settings.expiresBeforeNextRun (settings : Settings) (now : ℕ) (resolution : Resolution) :
    Bool :=
  decide (settings.lifetime ≤ now - resolution.resolvedAt + settings.refreshInterval)

/-! ## Lookups -/

/-- The order of addresses: those of IPv4 come first. -/
def addressLe : IpAddr → IpAddr → Bool
  | .v4 a, .v4 b => decide (a ≤ b)
  | .v4 _, .v6 _ => true
  | .v6 _, .v4 _ => false
  | .v6 a, .v6 b => decide (a ≤ b)

/-- `sort` and `dedup`. -/
def sortDedup (addresses : List IpAddr) : List IpAddr :=
  (addresses.insertionSort (addressLe · ·)).destutter (· ≠ ·)

/-- `resolve_host`: the addresses of an answer in order, each once. A lookup that fails or takes too
long has no answer. -/
def resolveHost (answer : Option (List IpAddr)) : Option (List IpAddr) :=
  answer.bind fun addresses =>
    if sortDedup addresses = [] then none else some (sortDedup addresses)

/-- The names among trusted proxies. -/
def trustedProxyHosts {net : NetworkLibrary} (trustedProxies : List (TrustedProxy net)) :
    List String :=
  trustedProxies.filterMap fun proxy =>
    match proxy with
    | .host host => some host
    | .network _ => none

/-! ## Runs of `apply` -/

/-- An `apply` that holds the lock. -/
structure Applying (net : NetworkLibrary) where
  trustedProxies : List (TrustedProxy net)
  /-- The names whose turn is to come, and whether the first of them is being looked up. -/
  hosts : List String
  looking : Bool
  began : ℕ
  /-- The names of which `proxy_refresh_failed` is logged. -/
  failed : List String

/-- What an `apply` has filled in, for the cache. -/
structure Applied (net : NetworkLibrary) where
  trustedProxies : List (TrustedProxy net)
  trustedNetworks : List net.IpNet
  began : ℕ
  failed : List String

structure World (net : NetworkLibrary) where
  now : ℕ
  resolutions : String → Option Resolution
  applying : Option (Applying net)
  /-- Of the configuration in the cache. -/
  current : Option (Applied net)
  /-- The answers to all lookups, the last one first. -/
  answers : List (String × Resolution)

inductive Label (net : NetworkLibrary)
  | wait (duration : ℕ)
  /-- `apply` has the lock, and forgets the names that are not configured. -/
  | start (trustedProxies : List (TrustedProxy net))
  /-- The turn of a name comes. -/
  | turn
  /-- Its lookup ends. -/
  | answer (addresses : Option (List IpAddr))
  /-- All names are resolved. -/
  | finish

/-- The names of a run: those that are remembered of the configured ones. -/
def retain (hosts : List String) (resolutions : String → Option Resolution) :
    String → Option Resolution := fun host =>
  if host ∈ hosts then resolutions host else none

section

variable {net : NetworkLibrary} (settings : Settings)

def World.start (now : ℕ) : World net := ⟨now, fun _ => none, none, none, []⟩

def step (w : World net) : Label net → Option (World net)
  | .wait duration => some { w with now := w.now + duration }
  | .start trustedProxies =>
    if w.applying.isNone then
      let hosts := trustedProxyHosts trustedProxies
      some { w with
        resolutions := retain hosts w.resolutions
        applying := some ⟨trustedProxies, hosts, false, w.now, []⟩ }
    else none
  | .turn =>
    match w.applying with
    | some ⟨trustedProxies, host :: hosts, false, began, failed⟩ =>
      if (w.resolutions host).any fun previous => !settings.expiresBeforeNextRun w.now previous then
        some { w with applying := some ⟨trustedProxies, hosts, false, began, failed⟩ }
      else some { w with applying := some ⟨trustedProxies, host :: hosts, true, began, failed⟩ }
    | _ => none
  | .answer addresses =>
    match w.applying with
    | some ⟨trustedProxies, host :: hosts, true, began, failed⟩ =>
      match resolveHost addresses with
      | some addresses =>
        let resolution := ⟨addresses, w.now⟩
        some { w with
          resolutions := Function.update w.resolutions host (some resolution)
          applying := some ⟨trustedProxies, hosts, false, began, failed⟩
          answers := (host, resolution) :: w.answers }
      | none =>
        if (w.resolutions host).isSome then
          some { w with applying := some ⟨trustedProxies, hosts, false, began, host :: failed⟩ }
        else some { w with applying := none }
    | _ => none
  | .finish =>
    match w.applying with
    | some ⟨trustedProxies, [], false, began, failed⟩ =>
      let resolved := fun host => (w.resolutions host).map Resolution.addresses
      some { w with
        applying := none
        current := some
          ⟨trustedProxies, resolveTrustedNetworks net trustedProxies resolved, began, failed⟩ }
    | _ => none

end

section

variable {net : NetworkLibrary} {settings : Settings} {w w' : World net} {label : Label net}
  {labels : List (Label net)} {host other : String} {hosts : List String}
  {resolution : Resolution} {answers : List (String × Resolution)}
  {resolutions : String → Option Resolution} {applied : Applied net}

/-! ## What a lookup gives -/

/-- An answer has addresses, all of them of the lookup. -/
theorem resolveHost_eq_some {answer : Option (List IpAddr)} {addresses : List IpAddr}
    (h : resolveHost answer = some addresses) :
    addresses ≠ [] ∧ ∃ found, answer = some found ∧ ∀ address ∈ addresses, address ∈ found := by
  obtain ⟨found, hfound, hsorted⟩ := Option.bind_eq_some_iff.mp h
  split_ifs at hsorted with hempty
  obtain rfl := Option.some.inj hsorted
  refine ⟨hempty, found, hfound, ?_⟩
  intro address haddress
  exact (List.mem_insertionSort _).mp ((List.destutter_sublist _ _).subset haddress)

theorem mem_trustedProxyHosts {trustedProxies : List (TrustedProxy net)} :
    host ∈ trustedProxyHosts trustedProxies ↔ .host host ∈ trustedProxies := by
  unfold trustedProxyHosts
  rw [List.mem_filterMap]
  constructor
  · rintro ⟨proxy, hproxy, heq⟩
    cases proxy with
    | host name => exact Option.some.inj heq ▸ hproxy
    | network network => cases heq
  · intro h
    exact ⟨_, h, rfl⟩

/-! ## Names whose turn has come -/

/-- It will not be too old one refresh interval after the run began, or its lookup has failed. -/
def Fresh (settings : Settings) (began : ℕ) (failed : List String) (host : String)
    (resolution : Resolution) : Prop :=
  began + settings.refreshInterval < resolution.resolvedAt + settings.lifetime ∨
    began ≤ resolution.resolvedAt ∨ host ∈ failed

/-- A name is remembered with an answer of its own. -/
def Settled (settings : Settings) (w : World net) (began : ℕ) (failed : List String)
    (host : String) : Prop :=
  ∃ resolution, w.resolutions host = some resolution ∧ Fresh settings began failed host resolution

/-- The names of a run are settled but for those whose turn is to come. -/
structure Applying.Sound (settings : Settings) (w : World net) (applying : Applying net) :
    Prop where
  began : applying.began ≤ w.now
  settled : ∀ host, .host host ∈ applying.trustedProxies →
    host ∈ applying.hosts ∨ Settled settings w applying.began applying.failed host

/-- Each name has been answered, and the networks are those that were configured and answered. -/
def Applied.Sound (settings : Settings) (answers : List (String × Resolution))
    (applied : Applied net) : Prop :=
  ∃ resolved : String → Option Resolution,
    applied.trustedNetworks = resolveTrustedNetworks net applied.trustedProxies
      (fun host => (resolved host).map Resolution.addresses) ∧
    ∀ host, .host host ∈ applied.trustedProxies → ∃ resolution, resolved host = some resolution ∧
      (host, resolution) ∈ answers ∧ Fresh settings applied.began applied.failed host resolution

structure World.Inv (settings : Settings) (w : World net) : Prop where
  answered : ∀ host resolution, w.resolutions host = some resolution →
    (host, resolution) ∈ w.answers
  found : ∀ answer ∈ w.answers, answer.2.addresses ≠ []
  applying : ∀ applying, w.applying = some applying → applying.Sound settings w
  current : ∀ applied, w.current = some applied → applied.Sound settings w.answers

theorem inv_start (now : ℕ) : (World.start now : World net).Inv settings := by
  refine ⟨?_, ?_, ?_, ?_⟩
  · intro host resolution h
    cases h
  · exact List.forall_mem_nil _
  · intro applying h
    cases h
  · intro applied h
    cases h

theorem Applied.Sound.mono (h : applied.Sound settings answers) (answer : String × Resolution) :
    applied.Sound settings (answer :: answers) := by
  obtain ⟨resolved, hnetworks, hresolved⟩ := h
  refine ⟨resolved, hnetworks, ?_⟩
  intro host hhost
  obtain ⟨resolution, hresolution, hanswered, hfresh⟩ := hresolved host hhost
  exact ⟨resolution, hresolution, List.mem_cons_of_mem _ hanswered, hfresh⟩

theorem fresh_of_not_expires {began : ℕ} {failed : List String} {now : ℕ}
    (h : settings.expiresBeforeNextRun now resolution = false) (hbegan : began ≤ now) :
    Fresh settings began failed host resolution := by
  unfold Settings.expiresBeforeNextRun at h
  have h := of_decide_eq_false h
  unfold Fresh
  omega

/-! ## Steps -/

theorem inv_begin {trustedProxies : List (TrustedProxy net)} (h : w.Inv settings) :
    World.Inv settings { w with
      resolutions := retain (trustedProxyHosts trustedProxies) w.resolutions
      applying := some
        ⟨trustedProxies, trustedProxyHosts trustedProxies, false, w.now, []⟩ } := by
  refine ⟨?_, h.found, ?_, h.current⟩
  · intro host resolution hresolution
    change retain _ _ _ = _ at hresolution
    unfold retain at hresolution
    split_ifs at hresolution with hhost
    exact h.answered host resolution hresolution
  · intro applying happlying
    obtain rfl := Option.some.inj happlying
    exact ⟨le_rfl, fun host hhost => .inl (mem_trustedProxyHosts.mpr hhost)⟩

/-- The turn of a name ends with what is remembered of it. -/
theorem Applying.Sound.next {trustedProxies : List (TrustedProxy net)} {looking : Bool}
    {began : ℕ} {failed failed' : List String}
    (h : (⟨trustedProxies, host :: hosts, looking, began, failed⟩ : Applying net).Sound settings w)
    (hnow : w'.now = w.now) (hfailed : failed ⊆ failed')
    (hothers : ∀ other, other ≠ host → w'.resolutions other = w.resolutions other)
    (hhost : Settled settings w' began failed' host) :
    (⟨trustedProxies, hosts, false, began, failed'⟩ : Applying net).Sound settings w' := by
  refine ⟨hnow ▸ h.began, ?_⟩
  intro other hother
  by_cases hsame : other = host
  · exact .inr (hsame ▸ hhost)
  · refine (h.settled other hother).imp ?_ ?_
    · intro hmem
      exact (List.mem_cons.mp hmem).resolve_left hsame
    · rintro ⟨resolution, hresolution, hfresh⟩
      exact ⟨resolution, (hothers other hsame).trans hresolution,
        hfresh.imp_right (Or.imp_right fun h => hfailed h)⟩

theorem inv_turn (h : w.Inv settings) (hstep : step settings w .turn = some w') :
    w'.Inv settings := by
  unfold step at hstep
  dsimp only at hstep
  split at hstep
  · next trustedProxies host hosts began failed happlying =>
    have hsound := h.applying _ happlying
    split at hstep
    · next hfresh =>
      obtain rfl := Option.some.inj hstep
      refine ⟨h.answered, h.found, ?_, h.current⟩
      intro applying heq
      obtain rfl := Option.some.inj heq
      obtain ⟨previous, hprevious, hyoung⟩ := (Option.any_eq_true _ _).mp hfresh
      have hyoung : settings.expiresBeforeNextRun w.now previous = false := by
        rwa [Bool.not_eq_true'] at hyoung
      exact hsound.next rfl (List.Subset.refl _) (fun _ _ => rfl)
        ⟨previous, hprevious, fresh_of_not_expires hyoung hsound.began⟩
    · obtain rfl := Option.some.inj hstep
      refine ⟨h.answered, h.found, ?_, h.current⟩
      intro applying heq
      obtain rfl := Option.some.inj heq
      exact ⟨hsound.began, hsound.settled⟩
  · cases hstep

theorem inv_answer {addresses : Option (List IpAddr)} (h : w.Inv settings)
    (hstep : step settings w (.answer addresses) = some w') : w'.Inv settings := by
  unfold step at hstep
  dsimp only at hstep
  split at hstep
  · next trustedProxies host hosts began failed happlying =>
    have hsound := h.applying _ happlying
    split at hstep
    · next addresses haddresses =>
      obtain rfl := Option.some.inj hstep
      refine ⟨?_, ?_, ?_, fun applied hcurrent => (h.current applied hcurrent).mono _⟩
      · intro other resolution hresolution
        by_cases hsame : other = host
        · subst hsame
          change Function.update _ _ _ _ = _ at hresolution
          rw [Function.update_self] at hresolution
          obtain rfl := Option.some.inj hresolution
          exact List.mem_cons_self
        · change Function.update _ _ _ _ = _ at hresolution
          rw [Function.update_of_ne hsame] at hresolution
          exact List.mem_cons_of_mem _ (h.answered other resolution hresolution)
      · exact List.forall_mem_cons.mpr ⟨(resolveHost_eq_some haddresses).1, h.found⟩
      · intro applying heq
        obtain rfl := Option.some.inj heq
        exact hsound.next rfl (List.Subset.refl _)
          (fun other hother => Function.update_of_ne hother _ _)
          ⟨_, Function.update_self _ _ _, .inr (.inl hsound.began)⟩
    · split at hstep
      · next hremembered =>
        obtain rfl := Option.some.inj hstep
        refine ⟨h.answered, h.found, ?_, h.current⟩
        intro applying heq
        obtain rfl := Option.some.inj heq
        obtain ⟨previous, hprevious⟩ := Option.isSome_iff_exists.mp hremembered
        exact hsound.next rfl (List.subset_cons_self _ _) (fun _ _ => rfl)
          ⟨previous, hprevious, .inr (.inr List.mem_cons_self)⟩
      · obtain rfl := Option.some.inj hstep
        refine ⟨h.answered, h.found, ?_, h.current⟩
        intro applying heq
        cases heq
  · cases hstep

theorem inv_finish (h : w.Inv settings) (hstep : step settings w .finish = some w') :
    w'.Inv settings := by
  unfold step at hstep
  dsimp only at hstep
  split at hstep
  · next trustedProxies began failed happlying =>
    obtain rfl := Option.some.inj hstep
    refine ⟨h.answered, h.found, ?_, ?_⟩
    · intro applying heq
      cases heq
    · intro applied heq
      obtain rfl := Option.some.inj heq
      refine ⟨w.resolutions, rfl, ?_⟩
      intro host hhost
      obtain ⟨resolution, hresolution, hfresh⟩ :=
        ((h.applying _ happlying).settled host hhost).resolve_left (List.not_mem_nil)
      exact ⟨resolution, hresolution, h.answered host resolution hresolution, hfresh⟩
  · cases hstep

theorem inv_step (h : w.Inv settings) (hstep : step settings w label = some w') :
    w'.Inv settings := by
  cases label with
  | wait duration =>
    obtain rfl := Option.some.inj hstep
    refine ⟨h.answered, h.found, ?_, h.current⟩
    intro applying happlying
    have hsound := h.applying applying happlying
    exact ⟨hsound.began.trans (Nat.le_add_right _ _), hsound.settled⟩
  | start trustedProxies =>
    unfold step at hstep
    dsimp only at hstep
    split at hstep
    · obtain rfl := Option.some.inj hstep
      exact inv_begin h
    · cases hstep
  | turn => exact inv_turn h hstep
  | answer addresses => exact inv_answer h hstep
  | finish => exact inv_finish h hstep

/-! ## What is trusted -/

theorem mem_resolveTrustedNetworks {trustedProxies : List (TrustedProxy net)}
    {resolved : String → Option (List IpAddr)} {network : net.IpNet} :
    network ∈ resolveTrustedNetworks net trustedProxies resolved ↔
      .network network ∈ trustedProxies ∨ ∃ host addresses, .host host ∈ trustedProxies ∧
        resolved host = some addresses ∧ network ∈ addresses.map net.ofAddress := by
  unfold resolveTrustedNetworks
  rw [List.mem_flatMap]
  constructor
  · rintro ⟨proxy, hproxy, hnetwork⟩
    cases proxy with
    | network configured =>
      obtain rfl := List.mem_singleton.mp hnetwork
      exact .inl hproxy
    | host host =>
      dsimp only at hnetwork
      cases haddresses : resolved host with
      | none =>
        rw [haddresses] at hnetwork
        cases hnetwork
      | some addresses =>
        rw [haddresses] at hnetwork
        exact .inr ⟨host, addresses, hproxy, haddresses, hnetwork⟩
  · rintro (hnetwork | ⟨host, addresses, hhost, haddresses, hnetwork⟩)
    · exact ⟨_, hnetwork, List.mem_singleton_self _⟩
    · refine ⟨_, hhost, ?_⟩
      dsimp only
      rw [haddresses]
      exact hnetwork

/-- Until `delay` after the refresh interval since the run began, an answer that was fresh for the
run is at most that much older than the lifetime. -/
theorem age_of_fresh {began now delay : ℕ} {failed : List String}
    (h : Fresh settings began failed host resolution)
    (hsettings : settings.refreshInterval ≤ settings.lifetime)
    (hnow : now ≤ began + settings.refreshInterval + delay) :
    now ≤ resolution.resolvedAt + settings.lifetime + delay ∨ host ∈ failed := by
  rcases h with hyoung | hlater | hfailed
  · left
    omega
  · left
    omega
  · exact .inr hfailed

/-- In every state of every run, what is trusted are the configured networks and those of addresses
that a configured name was answered with, and each configured name has some. If the last complete
run of `apply` began no longer ago than the refresh interval and a delay, an answer in use is at
most that delay older than the lifetime, but for names of which a failed lookup was logged. -/
theorem trusted_networks_answered {now delay : ℕ}
    (hsettings : settings.refreshInterval ≤ settings.lifetime)
    (hrun : Run (Steps (step settings)) (World.start now) labels w)
    (hcurrent : w.current = some applied)
    (hdelay : w.now ≤ applied.began + settings.refreshInterval + delay) :
    (∀ network, .network network ∈ applied.trustedProxies →
      network ∈ applied.trustedNetworks) ∧
    (∀ host, .host host ∈ applied.trustedProxies → ∃ resolution,
      (host, resolution) ∈ w.answers ∧ resolution.addresses ≠ [] ∧
      (∀ address ∈ resolution.addresses, net.ofAddress address ∈ applied.trustedNetworks)) ∧
    ∀ network ∈ applied.trustedNetworks, .network network ∈ applied.trustedProxies ∨
      ∃ host resolution, .host host ∈ applied.trustedProxies ∧
        (host, resolution) ∈ w.answers ∧ network ∈ resolution.addresses.map net.ofAddress ∧
        (w.now ≤ resolution.resolvedAt + settings.lifetime + delay ∨ host ∈ applied.failed) := by
  have hinv : w.Inv settings :=
    hrun.invariant (fun _ _ _ hs hstep => inv_step hs hstep) (inv_start now)
  obtain ⟨resolved, hnetworks, hresolved⟩ := hinv.current applied hcurrent
  refine ⟨?_, ?_, ?_⟩
  · intro network hnetwork
    rw [hnetworks]
    exact mem_resolveTrustedNetworks.mpr (.inl hnetwork)
  · intro host hhost
    obtain ⟨resolution, hresolution, hanswered, -⟩ := hresolved host hhost
    refine ⟨resolution, hanswered, hinv.found _ hanswered, ?_⟩
    intro address haddress
    rw [hnetworks]
    refine mem_resolveTrustedNetworks.mpr (.inr ⟨host, resolution.addresses, hhost, ?_, ?_⟩)
    · rw [hresolution]
      rfl
    · exact List.mem_map_of_mem haddress
  · intro network hnetwork
    rw [hnetworks] at hnetwork
    refine (mem_resolveTrustedNetworks.mp hnetwork).imp_right ?_
    rintro ⟨host, addresses, hhost, haddresses, hmem⟩
    obtain ⟨resolution, hresolution, hanswered, hfresh⟩ := hresolved host hhost
    rw [hresolution] at haddresses
    obtain rfl := Option.some.inj haddresses
    exact ⟨host, resolution, hhost, hanswered, hmem, age_of_fresh hfresh hsettings hdelay⟩

end

/-! ## A name that cannot be looked up again -/

def sampleSettings : Settings := ⟨300, 60⟩

def sampleProxies : List (TrustedProxy Public.singleAddresses) :=
  [.network (.v4 0x0a000001), .host "proxy"]

/-- The name is answered, and its refresh 250 seconds later fails. -/
def sampleLabels : List (Label Public.singleAddresses) :=
  [.start sampleProxies, .turn, .answer (some [.v4 2, .v4 1, .v4 2]), .finish, .wait 250,
    .start sampleProxies, .turn, .answer none, .finish, .wait 60]

def sampleApplied : Applied Public.singleAddresses :=
  ⟨sampleProxies, [.v4 0x0a000001, .v4 1, .v4 2], 250, ["proxy"]⟩

theorem sampleRun : ∃ w, Run (Steps (step sampleSettings)) (World.start 0) sampleLabels w ∧
    w.current = some sampleApplied ∧ w.now = 310 :=
  ⟨_, run?_eq_some rfl, rfl, rfl⟩

theorem trusted_networks_answered_sample :
    ∃ w : World Public.singleAddresses, w.current = some sampleApplied ∧
      ∃ resolution, ("proxy", resolution) ∈ w.answers ∧
        ∀ address ∈ resolution.addresses, address ∈ sampleApplied.trustedNetworks := by
  obtain ⟨w, hrun, hcurrent, hnow⟩ := sampleRun
  have hdelay : w.now ≤ sampleApplied.began + sampleSettings.refreshInterval + 0 := by
    rw [hnow]
    decide
  obtain ⟨-, hhosts, -⟩ := trusted_networks_answered (by decide) hrun hcurrent hdelay
  obtain ⟨resolution, hanswered, -, haddresses⟩ :=
    hhosts "proxy" (List.mem_cons_of_mem _ List.mem_cons_self)
  exact ⟨w, hcurrent, resolution, hanswered, haddresses⟩

end LadybirdReports.Database.ProxyAddresses
