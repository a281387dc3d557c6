import LadybirdReports.Admin.ConfigurationUpdate
import LadybirdReports.Lib.Run
import Mathlib.Logic.Function.Basic

/-!
# The cached configuration

Every process keeps the configuration that it uses in a cache. A task reloads it when the database
notifies it of a change, when its connection was lost and is there again, and once a minute. An
update sets the cache of its own process as well, some time after its commit.

1. What an update writes can be loaded by both services, the public API without what is about
   Discord (`load?_isSome`). So what is stored can always be loaded (`Loadable`).
2. While a process listens, every change after a query of its task leaves a notification
   (`Current`), which each step keeps (`current_of_step`).

So once a task has begun a reload, and until its connection is lost or a reload fails, the cache has
what is stored whenever no notification is left (`cache_is_current`). An update that sets the cache
late may undo that, until the next reload (`late_set_is_stale`).
-/

namespace LadybirdReports.Database.ConfigurationCache

open Admin (storedConfiguration?)
open Ingestion (UrlParts structFields?)
open Rust Transition

/-! ## What is loaded -/

/-- A configuration and the proxies that it trusts. -/
abbrev Loaded := Ingestion.RuntimeConfiguration × List Str

inductive Service
  | publicApi
  | admin
  deriving DecidableEq

/-- `reporting_runtime_configuration`: the value without what is about Discord. Nothing can be taken
from a scalar. -/
def reportingRuntimeConfiguration : Json → Option Json
  | .object entries => some (.object (entries.filter fun entry => entry.1 ≠ "discord".toList))
  | .array items => some (.array (items.filter fun item => item ≠ .string "discord".toList))
  | _ => none

/-- What a service asks for. -/
def Service.query : Service → Json → Option Json
  | .publicApi, value => reportingRuntimeConfiguration value
  | .admin, value => some value

section

variable (parseUrl : Str → Option UrlParts) (readProxy : Str → Option Str)

def load? (service : Service) (value : Json) : Option Loaded :=
  (service.query value).bind (storedConfiguration? parseUrl readProxy)

/-! ## Processes -/

/-- What the task of a cache waits for. -/
inductive Phase
  /-- `try_recv`, for a minute at most. -/
  | receiving
  /-- `reload`: the query. -/
  | querying
  /-- `reload`: `apply`, of the proxies. -/
  | applying (value : Json)
  /-- The delay before another try. -/
  | retrying
  deriving DecidableEq

structure Process where
  service : Service
  current : Option Loaded
  /-- The connection of the listener is there. -/
  listening : Bool
  notifications : ℕ
  phase : Phase
  /-- The updates that were committed and have yet to set the cache. -/
  updates : List Loaded

structure World where
  stored : Json
  process : ℕ → Process

inductive Label
  /-- A process starts: it listens, and begins its first reload. -/
  | start (p : ℕ)
  /-- The transaction of `update_configuration` commits. -/
  | commit (p : ℕ) (configuration : Ingestion.RuntimeConfiguration) (trustedProxies : List Str)
  /-- An update goes on and sets the cache. -/
  | set (p : ℕ) (update : ℕ)
  /-- The connection of a listener is lost, with its notifications. -/
  | lose (p : ℕ)
  /-- It is there again. The listener is told of that, unless an attempt had failed before. -/
  | reconnect (p : ℕ) (told : Bool)
  | failReconnect (p : ℕ)
  | receive (p : ℕ)
  | timeout (p : ℕ)
  | query (p : ℕ)
  | apply (p : ℕ)
  /-- A reload fails. -/
  | fail (p : ℕ)
  | retry (p : ℕ)

def World.change (w : World) (p : ℕ) (s : Process) : World :=
  { w with process := Function.update w.process p s }

/-- A process when a change is committed, by itself or another. -/
def Process.notified (s : Process) (updates : List Loaded) : Process :=
  { s with
    notifications := if s.listening then s.notifications + 1 else s.notifications
    updates := s.updates ++ updates }

/-- The end of `reload`, which fails where the value is none of a valid configuration. -/
def Process.applied (s : Process) (value : Json) : Process :=
  match storedConfiguration? parseUrl readProxy value with
  | some loaded => { s with current := some loaded, phase := .receiving }
  | none => { s with phase := .retrying }

def step (w : World) : Label → Option World
  | .start p =>
    some (w.change p ⟨(w.process p).service, none, true, 0, .querying, []⟩)
  | .commit p configuration trustedProxies =>
    let value := configuration.toValue trustedProxies
    if (w.process p).service = .admin ∧ configuration.validate parseUrl = .ok () ∧
        w.stored.changedConfigurationPaths value ≠ [] then
      some {
        stored := value
        process := fun q => (w.process q).notified
          (if q = p then [(configuration, trustedProxies)] else []) }
    else none
  | .set p update =>
    let s := w.process p
    s.updates[update]?.map fun loaded =>
      w.change p { s with current := some loaded, updates := s.updates.eraseIdx update }
  | .lose p => some (w.change p { w.process p with listening := false, notifications := 0 })
  | .reconnect p told =>
    let s := w.process p
    if s.phase = .receiving ∧ !s.listening then
      let phase := if told then .querying else .receiving
      some (w.change p { s with listening := true, notifications := 0, phase })
    else none
  | .failReconnect p =>
    let s := w.process p
    if s.phase = .receiving ∧ !s.listening then some (w.change p { s with phase := .retrying })
    else none
  | .receive p =>
    let s := w.process p
    if s.phase = .receiving ∧ 0 < s.notifications then
      some (w.change p { s with notifications := s.notifications - 1, phase := .querying })
    else none
  | .timeout p =>
    let s := w.process p
    if s.phase = .receiving then some (w.change p { s with phase := .querying }) else none
  | .query p =>
    let s := w.process p
    if s.phase = .querying then
      match s.service.query w.stored with
      | some value => some (w.change p { s with phase := .applying value })
      | none => some (w.change p { s with phase := .retrying })
    else none
  | .apply p =>
    let s := w.process p
    match s.phase with
    | .applying value => some (w.change p (s.applied parseUrl readProxy value))
    | _ => none
  | .fail p =>
    let s := w.process p
    match s.phase with
    | .querying | .applying _ => some (w.change p { s with phase := .retrying })
    | _ => none
  | .retry p =>
    let s := w.process p
    if s.phase = .retrying then some (w.change p { s with phase := .receiving }) else none

/-- The value is an object that can be loaded. -/
def Loadable (value : Json) : Prop :=
  ∃ entries, value = .object entries ∧ (storedConfiguration? parseUrl readProxy value).isSome

end

section

variable {parseUrl : Str → Option UrlParts} {readProxy : Str → Option Str} {value : Json}
  {service : Service} {loaded : Loaded} {w w' : World} {p q : ℕ} {s : Process}
  {label : Label} {labels rest : List Label}

/-! ## What both services can load -/

theorem lookup_filter_ne {entries : List (Str × Json)} {key other : Str} (h : other ≠ key) :
    (entries.filter fun entry => entry.1 ≠ key).lookup other = entries.lookup other := by
  induction entries with
  | nil => rfl
  | cons entry entries ih =>
    by_cases hkey : entry.1 = key
    · rw [List.filter_cons_of_neg (by simpa using hkey), ih, List.lookup_cons,
        beq_eq_false_iff_ne.mpr (hkey ▸ h)]
    · rw [List.filter_cons_of_pos (by simpa using hkey), List.lookup_cons, List.lookup_cons, ih]

theorem lookup_filter_self {entries : List (Str × Json)} {key : Str} :
    (entries.filter fun entry => entry.1 ≠ key).lookup key = none := by
  refine List.lookup_eq_none_iff.mpr fun entry hentry => ?_
  exact bne_iff_ne.mpr fun heq => of_decide_eq_true (List.mem_filter.mp hentry).2 heq.symm

/-- Where a configuration is read from an object, it is read without what is about Discord. -/
theorem ofValue?_withoutDiscord {entries : List (Str × Json)}
    (h : Ingestion.RuntimeConfiguration.ofValue? readProxy (.object entries) = some loaded) :
    Ingestion.RuntimeConfiguration.ofValue? readProxy
      (.object (entries.filter fun entry => entry.1 ≠ "discord".toList)) =
        some ({ loaded.1 with discord := .default }, loaded.2) := by
  unfold Ingestion.RuntimeConfiguration.ofValue? at h ⊢
  obtain ⟨field, hfield, h⟩ := Option.bind_eq_some_iff.mp h
  obtain ⟨_, hproxies, h⟩ := Option.bind_eq_some_iff.mp h
  obtain ⟨_, hpublic, h⟩ := Option.bind_eq_some_iff.mp h
  obtain ⟨_, hadmin, h⟩ := Option.bind_eq_some_iff.mp h
  obtain ⟨_, hgithub, h⟩ := Option.bind_eq_some_iff.mp h
  obtain ⟨_, hlimits, h⟩ := Option.bind_eq_some_iff.mp h
  obtain ⟨_, hproof, h⟩ := Option.bind_eq_some_iff.mp h
  obtain ⟨_, hmaintenance, h⟩ := Option.bind_eq_some_iff.mp h
  obtain ⟨_, -, h⟩ := Option.bind_eq_some_iff.mp h
  obtain ⟨_, hlifetime, h⟩ := Option.bind_eq_some_iff.mp h
  obtain ⟨_, haudit, h⟩ := Option.bind_eq_some_iff.mp h
  obtain rfl := Option.some.inj h
  unfold structFields? at hfield
  dsimp only at hfield
  split_ifs at hfield with hnames
  have hfield := Option.some.inj hfield
  have hsame (name : String) (hname : name.toList ≠ "discord".toList) :
      (entries.filter fun entry => entry.1 ≠ "discord".toList).lookup name.toList =
        field name := by
    subst hfield
    exact lookup_filter_ne hname
  rw [← hsame "trusted_proxies" (by decide)] at hproxies
  rw [← hsame "public_base_url" (by decide)] at hpublic
  rw [← hsame "admin_base_url" (by decide)] at hadmin
  rw [← hsame "github" (by decide)] at hgithub
  rw [← hsame "limits" (by decide)] at hlimits
  rw [← hsame "proof_of_work" (by decide)] at hproof
  rw [← hsame "maintenance" (by decide)] at hmaintenance
  rw [← hsame "session_lifetime_seconds" (by decide)] at hlifetime
  rw [← hsame "audit" (by decide)] at haudit
  have hfields : structFields? Ingestion.RuntimeConfiguration.names
      (.object (entries.filter fun entry => entry.1 ≠ "discord".toList)) = some fun name =>
        (entries.filter fun entry => entry.1 ≠ "discord".toList).lookup name.toList :=
    if_pos (List.all_eq_true.mpr fun entry hentry =>
      List.all_eq_true.mp hnames entry (List.mem_of_mem_filter hentry))
  refine Option.bind_eq_some_iff.mpr ⟨_, hfields, Option.bind_eq_some_iff.mpr ⟨_, hproxies,
    Option.bind_eq_some_iff.mpr ⟨_, hpublic, Option.bind_eq_some_iff.mpr ⟨_, hadmin,
    Option.bind_eq_some_iff.mpr ⟨_, hgithub, Option.bind_eq_some_iff.mpr ⟨_, hlimits,
    Option.bind_eq_some_iff.mpr ⟨_, hproof, Option.bind_eq_some_iff.mpr ⟨_, hmaintenance,
    Option.bind_eq_some_iff.mpr ⟨_, ?_, Option.bind_eq_some_iff.mpr ⟨_, hlifetime,
    Option.bind_eq_some_iff.mpr ⟨_, haudit, rfl⟩⟩⟩⟩⟩⟩⟩⟩⟩⟩⟩
  rw [lookup_filter_self]
  rfl

theorem discordDefault_validate :
    Ingestion.DiscordConfiguration.default.validate parseUrl = .ok () := by
  rfl

/-- Only the last check looks at what is about Discord. -/
theorem validate_withoutDiscord {configuration : Ingestion.RuntimeConfiguration}
    (h : configuration.validate parseUrl = .ok ()) :
    Ingestion.RuntimeConfiguration.validate parseUrl
      { configuration with discord := .default } = .ok () := by
  unfold Ingestion.RuntimeConfiguration.validate at h ⊢
  obtain ⟨_, hpublic, h⟩ := bind_eq_ok.mp h
  obtain ⟨_, hadmin, h⟩ := bind_eq_ok.mp h
  obtain ⟨_, hrepository, h⟩ := bind_eq_ok.mp h
  obtain ⟨_, hteam, h⟩ := bind_eq_ok.mp h
  obtain ⟨_, hlabels, h⟩ := bind_eq_ok.mp h
  obtain ⟨_, hid, h⟩ := bind_eq_ok.mp h
  obtain ⟨_, hrates, h⟩ := bind_eq_ok.mp h
  obtain ⟨_, hpayload, h⟩ := bind_eq_ok.mp h
  obtain ⟨_, hoperational, -⟩ := bind_eq_ok.mp h
  exact bind_eq_ok.mpr ⟨(), hpublic, bind_eq_ok.mpr ⟨(), hadmin,
    bind_eq_ok.mpr ⟨(), hrepository, bind_eq_ok.mpr ⟨(), hteam, bind_eq_ok.mpr ⟨(), hlabels,
    bind_eq_ok.mpr ⟨(), hid, bind_eq_ok.mpr ⟨(), hrates, bind_eq_ok.mpr ⟨(), hpayload,
    bind_eq_ok.mpr ⟨(), hoperational, discordDefault_validate⟩⟩⟩⟩⟩⟩⟩⟩⟩

theorem storedConfiguration?_eq_some : storedConfiguration? parseUrl readProxy value = some loaded ↔
    Ingestion.RuntimeConfiguration.ofValue? readProxy value = some loaded ∧
      loaded.1.validate parseUrl = .ok () := by
  unfold storedConfiguration?
  constructor
  · intro h
    obtain ⟨read, hread, h⟩ := Option.bind_eq_some_iff.mp h
    dsimp only at h
    split_ifs at h with hvalid
    obtain rfl := Option.some.inj h
    exact ⟨hread, hvalid⟩
  · rintro ⟨hread, hvalid⟩
    exact Option.bind_eq_some_iff.mpr ⟨loaded, hread, if_pos hvalid⟩

theorem load?_publicApi {entries : List (Str × Json)} :
    load? parseUrl readProxy .publicApi (.object entries) =
      storedConfiguration? parseUrl readProxy
        (.object (entries.filter fun entry => entry.1 ≠ "discord".toList)) := rfl

theorem load?_isSome (h : Loadable parseUrl readProxy value) (service : Service) :
    (load? parseUrl readProxy service value).isSome := by
  obtain ⟨entries, rfl, hloads⟩ := h
  cases service with
  | admin => exact hloads
  | publicApi =>
    obtain ⟨loaded, hloaded⟩ := Option.isSome_iff_exists.mp hloads
    obtain ⟨hread, hvalid⟩ := storedConfiguration?_eq_some.mp hloaded
    exact Option.isSome_iff_exists.mpr ⟨_, storedConfiguration?_eq_some.mpr
      ⟨ofValue?_withoutDiscord hread, validate_withoutDiscord hvalid⟩⟩

theorem stored_toValue {configuration : Ingestion.RuntimeConfiguration} {trustedProxies : List Str}
    (h : configuration.validate parseUrl = .ok ()) (hfits : configuration.Fits)
    (hproxies : ∀ proxy ∈ trustedProxies, readProxy proxy = some proxy) :
    storedConfiguration? parseUrl readProxy (configuration.toValue trustedProxies) =
      some (configuration, trustedProxies) :=
  storedConfiguration?_eq_some.mpr
    ⟨Ingestion.RuntimeConfiguration.ofValue?_toValue h hfits hproxies, h⟩

/-- What an update writes can be loaded. -/
theorem loadable_toValue {configuration : Ingestion.RuntimeConfiguration}
    {trustedProxies : List Str} (h : configuration.validate parseUrl = .ok ())
    (hfits : configuration.Fits)
    (hproxies : ∀ proxy ∈ trustedProxies, readProxy proxy = some proxy) :
    Loadable parseUrl readProxy (configuration.toValue trustedProxies) :=
  ⟨_, rfl, Option.isSome_iff_exists.mpr ⟨_, stored_toValue h hfits hproxies⟩⟩

/-- The listener of a process stays, its reloads succeed, and an update sets its cache only while
what it wrote is still stored or a notification is left. The configurations of updates fit their
types, and their proxies are printed as they are read. -/
def Undisturbed (parseUrl : Str → Option UrlParts) (readProxy : Str → Option Str) (p : ℕ)
    (w : World) : Label → Prop
  | .start q | .lose q | .fail q => q ≠ p
  | .set q update => q = p → 0 < (w.process p).notifications ∨
      (w.process p).updates[update]? = load? parseUrl readProxy (w.process p).service w.stored
  | .commit _ configuration trustedProxies =>
    configuration.Fits ∧ ∀ proxy ∈ trustedProxies, readProxy proxy = some proxy
  | _ => True

/-- A reload is on its way that will see what is stored, or its value is cached, or else a
notification is left. -/
def Phase.Sees (parseUrl : Str → Option UrlParts) (readProxy : Str → Option Str) (stored : Json)
    (s : Process) : Phase → Prop
  | .querying => True
  | .applying value => (storedConfiguration? parseUrl readProxy value).isSome ∧
      (0 < s.notifications ∨ s.service.query stored = some value)
  | .receiving => 0 < s.notifications ∨ s.current = load? parseUrl readProxy s.service stored
  | .retrying => False

/-- The cache of a process is current, or will be. -/
structure Current (parseUrl : Str → Option UrlParts) (readProxy : Str → Option Str) (p : ℕ)
    (w : World) : Prop where
  loadable : Loadable parseUrl readProxy w.stored
  listening : (w.process p).listening
  sees : (w.process p).phase.Sees parseUrl readProxy w.stored (w.process p)

theorem change_self : (w.change p s).process p = s := Function.update_self ..

theorem change_other (h : q ≠ p) : (w.change p s).process q = w.process q :=
  Function.update_of_ne h ..

/-- A process that goes on stays current if it listens and sees what is stored. -/
theorem Current.change (h : Current parseUrl readProxy p w)
    (hlistening : q = p → s.listening)
    (hsees : q = p → s.phase.Sees parseUrl readProxy w.stored s) :
    Current parseUrl readProxy p (w.change q s) := by
  by_cases hq : q = p
  · subst hq
    refine ⟨h.loadable, ?_, ?_⟩
    · rw [change_self]
      exact hlistening rfl
    · rw [change_self]
      exact hsees rfl
  · refine ⟨h.loadable, ?_, ?_⟩
    · rw [change_other (Ne.symm hq)]
      exact h.listening
    · rw [change_other (Ne.symm hq)]
      exact h.sees

/-- A change leaves a notification with a process that listens. -/
theorem Current.notified (h : Current parseUrl readProxy p w) {value : Json}
    (hloadable : Loadable parseUrl readProxy value) (updates : ℕ → List Loaded) :
    Current parseUrl readProxy p ⟨value, fun q => (w.process q).notified (updates q)⟩ := by
  have hnotified : 0 < ((w.process p).notified (updates p)).notifications := by
    unfold Process.notified
    rw [if_pos h.listening]
    exact Nat.succ_pos _
  refine ⟨hloadable, h.listening, ?_⟩
  change Phase.Sees parseUrl readProxy value ((w.process p).notified (updates p))
    (w.process p).phase
  have hsees := h.sees
  cases hphase : (w.process p).phase with
  | querying => trivial
  | applying before =>
    rw [hphase] at hsees
    exact ⟨hsees.1, .inl hnotified⟩
  | receiving => exact .inl hnotified
  | retrying =>
    rw [hphase] at hsees
    exact hsees

theorem current_of_step (h : Current parseUrl readProxy p w)
    (hlabel : Undisturbed parseUrl readProxy p w label)
    (hstep : step parseUrl readProxy w label = some w') : Current parseUrl readProxy p w' := by
  unfold step at hstep
  cases label with
  | start q =>
    obtain rfl := Option.some.inj hstep
    exact h.change (fun hq => absurd hq hlabel) fun hq => absurd hq hlabel
  | commit q configuration trustedProxies =>
    dsimp only at hstep
    split at hstep
    · next hcommit =>
      obtain rfl := Option.some.inj hstep
      exact h.notified (loadable_toValue hcommit.2.1 hlabel.1 hlabel.2) _
    · cases hstep
  | set q update =>
    obtain ⟨loaded, hupdate, rfl⟩ := Option.map_eq_some_iff.mp hstep
    refine h.change (fun hq => ?_) fun hq => ?_
    · subst hq
      exact h.listening
    · subst hq
      have hsees := h.sees
      dsimp only
      cases hphase : (w.process q).phase with
      | querying => trivial
      | applying value =>
        rw [hphase] at hsees
        exact hsees
      | receiving =>
        rcases hlabel rfl with hnotified | hstored
        · exact .inl hnotified
        · exact .inr (hupdate.symm.trans hstored)
      | retrying =>
        rw [hphase] at hsees
        exact hsees
  | lose q =>
    obtain rfl := Option.some.inj hstep
    exact h.change (fun hq => absurd hq hlabel) fun hq => absurd hq hlabel
  | reconnect q told =>
    dsimp only at hstep
    split at hstep
    · next hlost =>
      obtain rfl := Option.some.inj hstep
      have hq : q ≠ p := by
        rintro rfl
        rw [h.listening] at hlost
        exact absurd hlost.2 (by decide)
      exact h.change (fun heq => absurd heq hq) fun heq => absurd heq hq
    · cases hstep
  | failReconnect q =>
    dsimp only at hstep
    split at hstep
    · next hlost =>
      obtain rfl := Option.some.inj hstep
      have hq : q ≠ p := by
        rintro rfl
        rw [h.listening] at hlost
        exact absurd hlost.2 (by decide)
      exact h.change (fun heq => absurd heq hq) fun heq => absurd heq hq
    · cases hstep
  | receive q =>
    dsimp only at hstep
    split at hstep
    · obtain rfl := Option.some.inj hstep
      exact h.change (fun hq => hq ▸ h.listening) fun _ => trivial
    · cases hstep
  | timeout q =>
    dsimp only at hstep
    split at hstep
    · obtain rfl := Option.some.inj hstep
      exact h.change (fun hq => hq ▸ h.listening) fun _ => trivial
    · cases hstep
  | query q =>
    dsimp only at hstep
    split at hstep
    · split at hstep
      · next value hvalue =>
        obtain rfl := Option.some.inj hstep
        have hsome := load?_isSome h.loadable (w.process q).service
        rw [load?, hvalue] at hsome
        exact h.change (fun hq => hq ▸ h.listening) fun _ => ⟨hsome, .inr hvalue⟩
      · next hnone =>
        have hsome := load?_isSome h.loadable (w.process q).service
        rw [load?, hnone] at hsome
        cases hsome
    · cases hstep
  | apply q =>
    dsimp only at hstep
    split at hstep
    · next value hphase =>
      obtain rfl := Option.some.inj hstep
      unfold Process.applied
      split
      · next loaded hloaded =>
        refine h.change (fun hq => hq ▸ h.listening) fun hq => ?_
        subst hq
        have hsees := h.sees
        rw [hphase] at hsees
        refine hsees.2.imp_right fun hquery => ?_
        rw [load?, hquery]
        exact hloaded.symm
      · next hnone =>
        refine h.change (fun hq => hq ▸ h.listening) fun hq => ?_
        subst hq
        have hsees := h.sees
        rw [hphase] at hsees
        have hsome := hsees.1
        rw [hnone] at hsome
        cases hsome
    · cases hstep
  | fail q =>
    dsimp only at hstep
    split at hstep
    · obtain rfl := Option.some.inj hstep
      exact h.change (fun hq => absurd hq hlabel) fun hq => absurd hq hlabel
    · obtain rfl := Option.some.inj hstep
      exact h.change (fun hq => absurd hq hlabel) fun hq => absurd hq hlabel
    · cases hstep
  | retry q =>
    dsimp only at hstep
    split at hstep
    · next hretrying =>
      obtain rfl := Option.some.inj hstep
      have hq : q ≠ p := by
        rintro rfl
        have hsees := h.sees
        rw [hretrying] at hsees
        exact hsees
      exact h.change (fun heq => absurd heq hq) fun heq => absurd heq hq
    · cases hstep

/-- A reload that nothing interrupts caches what is stored. -/
theorem reload_eq (h : Loadable parseUrl readProxy w.stored)
    (hphase : (w.process p).phase = .querying) :
    ∃ loaded, load? parseUrl readProxy (w.process p).service w.stored = some loaded ∧
      run? (step parseUrl readProxy) w [.query p, .apply p] =
        some (w.change p { w.process p with current := some loaded, phase := .receiving }) := by
  obtain ⟨loaded, hloaded⟩ := Option.isSome_iff_exists.mp (load?_isSome h (w.process p).service)
  refine ⟨loaded, hloaded, ?_⟩
  obtain ⟨value, hquery, hread⟩ := Option.bind_eq_some_iff.mp hloaded
  have hqueried : step parseUrl readProxy w (.query p) =
      some (w.change p { w.process p with phase := .applying value }) := by
    unfold step
    dsimp only
    rw [if_pos hphase, hquery]
  have happlied : step parseUrl readProxy
      (w.change p { w.process p with phase := .applying value }) (.apply p) =
      some (w.change p { w.process p with current := some loaded, phase := .receiving }) := by
    unfold step
    dsimp only
    rw [change_self]
    dsimp only
    unfold Process.applied
    rw [hread]
    dsimp only
    unfold World.change
    dsimp only
    rw [Function.update_idem]
  unfold run?
  rw [hqueried, Option.bind_some]
  unfold run?
  rw [happlied]
  rfl

/-- A notification leads to a reload. -/
theorem receive_eq (h : Loadable parseUrl readProxy w.stored)
    (hphase : (w.process p).phase = .receiving) (hnotified : 0 < (w.process p).notifications) :
    ∃ loaded, load? parseUrl readProxy (w.process p).service w.stored = some loaded ∧
      run? (step parseUrl readProxy) w [.receive p, .query p, .apply p] =
        some (w.change p { w.process p with
          notifications := (w.process p).notifications - 1, current := some loaded }) := by
  obtain ⟨loaded, hloaded, hrun⟩ := reload_eq (p := p)
    (w := w.change p { w.process p with
      notifications := (w.process p).notifications - 1, phase := .querying }) h
    (by rw [change_self])
  rw [change_self] at hloaded hrun
  refine ⟨loaded, hloaded, ?_⟩
  have hreceived : step parseUrl readProxy w (.receive p) = some (w.change p { w.process p with
      notifications := (w.process p).notifications - 1, phase := .querying }) := by
    unfold step
    dsimp only
    rw [if_pos ⟨hphase, hnotified⟩]
  unfold run?
  rw [hreceived, Option.bind_some, hrun]
  unfold World.change
  dsimp only
  rw [Function.update_idem, ← hphase]

/-- An update of the team commits. -/
theorem commit_eq {configuration : Ingestion.RuntimeConfiguration} {trustedProxies : List Str}
    {stored : Loaded} (hadmin : (w.process p).service = .admin)
    (hvalid : configuration.validate parseUrl = .ok ())
    (hstored : Ingestion.RuntimeConfiguration.ofValue? readProxy w.stored = some stored)
    (hgrouped : Admin.IsGrouped w.stored)
    (hteam : stored.1.github.authorizationTeam ≠ configuration.github.authorizationTeam) :
    step parseUrl readProxy w (.commit p configuration trustedProxies) = some {
      stored := configuration.toValue trustedProxies
      process := fun q => (w.process q).notified
        (if q = p then [(configuration, trustedProxies)] else []) } := by
  unfold step
  dsimp only
  rw [if_pos ⟨hadmin, hvalid, List.ne_nil_of_mem
    (Admin.teamPath_mem_changed hstored hgrouped hteam)⟩]

end

/-! ## A change before a reload -/

def sampleStored : Json := Ingestion.RuntimeConfiguration.default.toValue []

/-- What is stored when the team has changed. -/
def changedStored : Json := Admin.otherTeam.toValue []

/-- A process of the public API that has just started, and one of the administration. -/
def sampleWorld : World where
  stored := sampleStored
  process p := ⟨if p = 0 then .publicApi else .admin, none, true, 0, .querying, []⟩

/-- The team changes before the first reload, and the second one finds no other change. -/
def sampleLabels : List Label :=
  [.commit 1 Admin.otherTeam [], .query 0, .apply 0, .receive 0, .query 0, .apply 0]

theorem stored_sample :
    storedConfiguration? Ingestion.sampleParseUrl some sampleStored = some (.default, []) :=
  stored_toValue Admin.validate_sample Admin.fits_default (List.forall_mem_nil _)

theorem fits_otherTeam : Admin.otherTeam.Fits := ⟨nofun, by decide⟩

theorem stored_changed : storedConfiguration? Ingestion.sampleParseUrl some changedStored =
    some (Admin.otherTeam, []) :=
  stored_toValue Admin.validate_otherTeam fits_otherTeam (List.forall_mem_nil _)

theorem loadable_sample : Loadable Ingestion.sampleParseUrl some sampleStored :=
  ⟨_, rfl, Option.isSome_iff_exists.mpr ⟨_, stored_sample⟩⟩

theorem loadable_changed : Loadable Ingestion.sampleParseUrl some changedStored :=
  ⟨_, rfl, Option.isSome_iff_exists.mpr ⟨_, stored_changed⟩⟩

theorem isGrouped_toValue (configuration : Ingestion.RuntimeConfiguration)
    (trustedProxies : List Str) : Admin.IsGrouped (configuration.toValue trustedProxies) := by
  obtain ⟨entries, github, hvalue, hgithub, -⟩ := Admin.toValue_object configuration trustedProxies
  exact ⟨entries, github, hvalue, hgithub⟩

/-- The state when the team has changed. -/
def changedWorld : World where
  stored := changedStored
  process q := (sampleWorld.process q).notified (if q = 1 then [(Admin.otherTeam, [])] else [])

/-- The process of the public API after a reload. -/
def reloaded (loaded : Loaded) : Process :=
  { changedWorld.process 0 with current := some loaded, phase := .receiving }

theorem sampleRun :
    ∃ w, Run (Where (Undisturbed Ingestion.sampleParseUrl some 0)
        (Steps (step Ingestion.sampleParseUrl some))) sampleWorld sampleLabels w ∧
      (w.process 0).phase = .receiving ∧ (w.process 0).notifications = 0 := by
  have hcommit : step Ingestion.sampleParseUrl some sampleWorld (.commit 1 Admin.otherTeam []) =
      some changedWorld :=
    commit_eq rfl Admin.validate_otherTeam (storedConfiguration?_eq_some.mp stored_sample).1
      (isGrouped_toValue _ _) Admin.team_ne_otherTeam
  obtain ⟨first, -, hreload⟩ := reload_eq (p := 0) (w := changedWorld) loadable_changed rfl
  obtain ⟨second, -, hreceive⟩ := receive_eq (p := 0) (w := changedWorld.change 0 (reloaded first))
    loadable_changed (by rw [change_self]; rfl) (by rw [change_self]; exact Nat.one_pos)
  have hrun := ((Run.single hcommit).append (run?_eq_some hreload)).append (run?_eq_some hreceive)
  refine ⟨_, hrun.restrict fun label hlabel w => ?_, ?_, ?_⟩
  · have hlabel : label ∈ sampleLabels := hlabel
    unfold sampleLabels at hlabel
    rcases List.mem_cons.mp hlabel with rfl | hlabel
    · exact ⟨fits_otherTeam, List.forall_mem_nil _⟩
    · simp only [List.mem_cons, List.not_mem_nil, or_false] at hlabel
      rcases hlabel with rfl | rfl | rfl | rfl | rfl <;> trivial
  · rw [change_self, change_self]
    rfl
  · rw [change_self, change_self]
    rfl

/-- Processes of the administration, with what is stored in their caches. -/
def adminWorld : World where
  stored := sampleStored
  process _ := ⟨.admin, some (.default, []), true, 0, .receiving, []⟩

/-- Two updates of one process: the first commits another team, and the second the former one. Both
are reloaded before the first sets the cache. -/
def lateLabels : List Label :=
  [.commit 1 Admin.otherTeam [], .receive 1, .query 1, .apply 1, .commit 1 .default [],
    .receive 1, .query 1, .apply 1, .set 1 0]

/-- A process that waits updates the team, and reloads what it has stored. -/
theorem update_and_reload {w : World} {configuration : Ingestion.RuntimeConfiguration}
    {stored : Loaded} {current : Option Loaded} {updates : List Loaded}
    (hread : storedConfiguration? Ingestion.sampleParseUrl some w.stored = some stored)
    (hgrouped : Admin.IsGrouped w.stored)
    (hprocess : w.process 1 = ⟨.admin, current, true, 0, .receiving, updates⟩)
    (hvalid : configuration.validate Ingestion.sampleParseUrl = .ok ())
    (hfits : configuration.Fits)
    (hteam : stored.1.github.authorizationTeam ≠ configuration.github.authorizationTeam) :
    ∃ w' loaded, Run (Steps (step Ingestion.sampleParseUrl some)) w
        [.commit 1 configuration [], .receive 1, .query 1, .apply 1] w' ∧
      w'.stored = configuration.toValue [] ∧ w'.process 1 =
        ⟨.admin, some loaded, true, 0, .receiving, updates ++ [(configuration, [])]⟩ := by
  have hcommit := @commit_eq Ingestion.sampleParseUrl some w 1 configuration [] stored
    (by rw [hprocess]) hvalid (storedConfiguration?_eq_some.mp hread).1 hgrouped hteam
  obtain ⟨loaded, -, hreceive⟩ := @receive_eq Ingestion.sampleParseUrl some
    ⟨configuration.toValue [], fun q =>
      (w.process q).notified (if q = 1 then [(configuration, [])] else [])⟩ 1
    (loadable_toValue hvalid hfits (List.forall_mem_nil _)) (by dsimp only; rw [hprocess]; rfl)
    (by dsimp only; rw [hprocess]; exact Nat.one_pos)
  refine ⟨_, loaded, (Run.single hcommit).append (run?_eq_some hreceive), rfl, ?_⟩
  rw [change_self]
  dsimp only
  rw [hprocess]
  rfl

/-- The cache has the other team, which is stored no more, and no notification is left. -/
theorem late_set_is_stale :
    ∃ w, Run (Steps (step Ingestion.sampleParseUrl some)) adminWorld lateLabels w ∧
      w.stored = sampleStored ∧ (w.process 1).phase = .receiving ∧
      (w.process 1).notifications = 0 ∧ (w.process 1).current = some (Admin.otherTeam, []) := by
  obtain ⟨w₁, _, hfirst, hstored, hprocess⟩ := update_and_reload (w := adminWorld) stored_sample
    (isGrouped_toValue _ _) rfl Admin.validate_otherTeam fits_otherTeam Admin.team_ne_otherTeam
  have hread : storedConfiguration? Ingestion.sampleParseUrl some w₁.stored =
      some (Admin.otherTeam, []) := by
    rw [hstored]
    exact stored_changed
  have hgrouped : Admin.IsGrouped w₁.stored := by
    rw [hstored]
    exact isGrouped_toValue _ _
  obtain ⟨w₂, _, hsecond, hstored₂, hprocess₂⟩ := update_and_reload hread hgrouped hprocess
    Admin.validate_sample Admin.fits_default Admin.team_ne_otherTeam.symm
  have hset : step Ingestion.sampleParseUrl some w₂ (.set 1 0) = some (w₂.change 1
      { w₂.process 1 with
        current := some (Admin.otherTeam, []), updates := [(.default, [])] }) := by
    unfold step
    dsimp only
    rw [hprocess₂]
    rfl
  refine ⟨_, (hfirst.append hsecond).append (Run.single hset), hstored₂, ?_, ?_, ?_⟩
  · rw [change_self, hprocess₂]
  · rw [change_self, hprocess₂]
  · rw [change_self]

end LadybirdReports.Database.ConfigurationCache
