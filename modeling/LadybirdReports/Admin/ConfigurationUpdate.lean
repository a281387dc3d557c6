import LadybirdReports.Ingestion.ManifestRows
import LadybirdReports.Ingestion.StoredConfiguration

/-!
# Updates of the configuration

`update_configuration` against the value that is stored, which may be any that the service reads as
a configuration.

1. Where the stored value and its `github` settings are objects, another team is reported at
   `github.authorization_team`, also where it was left to its default (`teamPath_mem_changed`).
2. `serde` reads a struct from an array as well. Then the path that is reported ends above the team
   (`teamPath_notMem_changed`), and no session is deleted.

So the sessions follow the team exactly for a value of the first kind (`sessions_follow_team_iff`).
-/

namespace LadybirdReports.Admin

open Rust Json
open Ingestion (UrlParts structValue structFields? withDefault readString GithubConfiguration
  sampleParseUrl)

/-! ## The update -/

/-- The stored configuration, the sessions, what the audit events of updates list with their actors,
and the cached configuration. -/
structure SettingsState (σ : Type) where
  value : Json
  sessions : List σ
  audit : List (ℤ × List Str)
  cache : Option (Ingestion.RuntimeConfiguration × List Str)

section

variable {σ : Type} (parseUrl : Str → Option UrlParts)

def updateConfiguration (configuration : Ingestion.RuntimeConfiguration) (trustedProxies : List Str)
    (actor : ℤ) (s : SettingsState σ) : Except String (SettingsState σ) := do
  configuration.validate parseUrl
  let value := configuration.toValue trustedProxies
  let changed := s.value.changedConfigurationPaths value
  if changed = [] then
    return s
  else
    let signsOut := changed.any fun path => settingInvalidatesSessions (String.ofList path)
    return {
      value
      sessions := if signsOut then [] else s.sessions
      audit := s.audit ++ [(actor, changed)]
      cache := some (configuration, trustedProxies) }

/-- `configuration`, of the stored value. -/
def storedConfiguration? (readProxy : Str → Option Str) (value : Json) :
    Option (Ingestion.RuntimeConfiguration × List Str) := do
  let (configuration, trustedProxies) ←
    Ingestion.RuntimeConfiguration.ofValue? readProxy value
  if configuration.validate parseUrl = .ok () then some (configuration, trustedProxies) else none

end

/-- The value and its `github` settings are objects. -/
def IsGrouped (value : Json) : Prop :=
  ∃ entries github, value = .object entries ∧ entries.lookup "github".toList = some (.object github)

def teamPath : Str := "github.authorization_team".toList

section

variable {σ : Type} {parseUrl : Str → Option UrlParts} {readProxy : Str → Option Str}
  {value : Json} {stored : Ingestion.RuntimeConfiguration × List Str}
  {next : Ingestion.RuntimeConfiguration} {trustedProxies : List Str} {actor : ℤ}
  {s s' : SettingsState σ}

/-! ## What is read of the stored value -/

theorem ofValue?_of_storedConfiguration?
    (h : storedConfiguration? parseUrl readProxy value = some stored) :
    Ingestion.RuntimeConfiguration.ofValue? readProxy value = some stored := by
  obtain ⟨configuration, hconfiguration, h⟩ := Option.bind_eq_some_iff.mp h
  dsimp only at h
  split_ifs at h
  cases h
  exact hconfiguration

theorem github_of_ofValue? (h : Ingestion.RuntimeConfiguration.ofValue? readProxy value =
    some stored) : ∃ field github, structFields? Ingestion.RuntimeConfiguration.names value =
      some field ∧ field "github" = some github ∧
      GithubConfiguration.ofValue? github = some stored.1.github := by
  unfold Ingestion.RuntimeConfiguration.ofValue? at h
  obtain ⟨field, hfield, h⟩ := Option.bind_eq_some_iff.mp h
  obtain ⟨_, -, h⟩ := Option.bind_eq_some_iff.mp h
  obtain ⟨_, -, h⟩ := Option.bind_eq_some_iff.mp h
  obtain ⟨_, -, h⟩ := Option.bind_eq_some_iff.mp h
  obtain ⟨github, hgithub, h⟩ := Option.bind_eq_some_iff.mp h
  obtain ⟨value, hvalue, hread⟩ := Option.bind_eq_some_iff.mp hgithub
  refine ⟨field, value, hfield, hvalue, hread.trans ?_⟩
  iterate 6 obtain ⟨_, -, h⟩ := Option.bind_eq_some_iff.mp h
  rw [← Option.some.inj h]

theorem team_of_ofValue? {github : Json} {read : GithubConfiguration}
    (h : GithubConfiguration.ofValue? github = some read) :
    ∃ field, structFields? GithubConfiguration.names github = some field ∧
      withDefault GithubConfiguration.default.authorizationTeam readString
        (field "authorization_team") = some read.authorizationTeam := by
  unfold GithubConfiguration.ofValue? at h
  obtain ⟨field, hfield, h⟩ := Option.bind_eq_some_iff.mp h
  obtain ⟨_, -, h⟩ := Option.bind_eq_some_iff.mp h
  obtain ⟨team, hteam, h⟩ := Option.bind_eq_some_iff.mp h
  refine ⟨field, hfield, hteam.trans ?_⟩
  iterate 4 obtain ⟨_, -, h⟩ := Option.bind_eq_some_iff.mp h
  rw [← Option.some.inj h]

/-- A struct is read from an object or from an array. -/
theorem structFields?_cases {names : List String} {field : String → Option Json}
    (h : structFields? names value = some field) :
    (∃ entries, value = .object entries ∧ (field = fun name => entries.lookup name.toList) ∧
      ∀ entry ∈ entries, ∃ name ∈ names, name.toList = entry.1) ∨
      ∃ items, value = .array items := by
  unfold structFields? at h
  split at h
  · split_ifs at h with hall
    refine .inl ⟨_, rfl, (Option.some.inj h).symm, fun entry hentry => ?_⟩
    obtain ⟨name, hname, heq⟩ := List.any_eq_true.mp (List.all_eq_true.mp hall entry hentry)
    exact ⟨name, hname, of_decide_eq_true heq⟩
  · exact .inr ⟨_, rfl⟩
  · cases h

/-! ## The path of the team -/

theorem toValue_object (next : Ingestion.RuntimeConfiguration) (trustedProxies : List Str) :
    ∃ entries github, next.toValue trustedProxies = .object entries ∧
      entries.lookup "github".toList = some (.object github) ∧
      github.lookup "authorization_team".toList = some (.string next.github.authorizationTeam) ∧
      ∀ entry ∈ entries, ∃ name ∈ Ingestion.RuntimeConfiguration.names, name.toList = entry.1 := by
  have hnames : (next.settings trustedProxies).map Prod.fst =
    Ingestion.RuntimeConfiguration.names := rfl
  have hgithubNames : next.github.settings.map Prod.fst = GithubConfiguration.names := rfl
  obtain ⟨entries, hentries, hlookup, hkeys⟩ :=
    @Ingestion.lookup_structValue (next.settings trustedProxies) (hnames ▸ by decide)
  obtain ⟨github, hgithub, hteam, -⟩ :=
    @Ingestion.lookup_structValue next.github.settings (hgithubNames ▸ by decide)
  refine ⟨entries, github, hentries, ?_, ?_, fun entry hentry => ?_⟩
  · rw [← hgithub]
    exact hlookup ("github", structValue next.github.settings)
      (by simp [Ingestion.RuntimeConfiguration.settings])
  · exact hteam ("authorization_team", _) (by simp [GithubConfiguration.settings])
  · obtain ⟨field, hfield, hkey⟩ := hkeys entry hentry
    exact ⟨field.1, hnames ▸ List.mem_map_of_mem hfield, hkey⟩

/-- Another team is reported where the stored value is of objects. -/
theorem teamPath_mem_changed
    (hstored : Ingestion.RuntimeConfiguration.ofValue? readProxy value = some stored)
    (hgrouped : IsGrouped value)
    (hteam : stored.1.github.authorizationTeam ≠ next.github.authorizationTeam) :
    teamPath ∈ value.changedConfigurationPaths (next.toValue trustedProxies) := by
  obtain ⟨before, githubBefore, rfl, hgithubBefore⟩ := hgrouped
  obtain ⟨after, githubAfter, hvalue, hgithubAfter, hteamAfter, -⟩ :=
    toValue_object next trustedProxies
  obtain ⟨field, github, hfield, hgithub, hread⟩ := github_of_ofValue? hstored
  obtain rfl : github = .object githubBefore := by
    rcases structFields?_cases hfield with ⟨_, heq, rfl, -⟩ | ⟨_, heq⟩
    · cases heq
      exact Option.some.inj (hgithub.symm.trans hgithubBefore)
    · cases heq
  obtain ⟨teamField, hteamField, hteamRead⟩ := team_of_ofValue? hread
  rcases structFields?_cases hteamField with ⟨_, heq, rfl, -⟩ | ⟨_, heq⟩
  · cases heq
    have hkey : keyPath (keyPath [] "github".toList) "authorization_team".toList = teamPath := by
      decide
    unfold Json.changedConfigurationPaths
    rw [hvalue]
    refine mem_collect_of_lookup hgithubBefore hgithubAfter ?_
    -- The team is written now, and was written or not before.
    cases hteamBefore : githubBefore.lookup "authorization_team".toList with
    | none =>
      rw [← hkey]
      exact mem_collect_of_added hteamBefore hteamAfter
    | some old =>
      refine mem_collect_of_lookup hteamBefore hteamAfter ?_
      dsimp only at hteamRead
      rw [hteamBefore] at hteamRead
      have hdiffers : old ≠ .string next.github.authorizationTeam := by
        rintro rfl
        exact hteam (Option.some.inj hteamRead).symm
      rw [collect_string, if_pos hdiffers, hkey]
      exact List.mem_singleton_self _
  · cases heq

/-- A name of a setting that begins the path of the team. -/
theorem eq_github_of_begins : ∀ name ∈ Ingestion.RuntimeConfiguration.names,
    name.toList <+: teamPath → name = "github" := by
  decide

/-- Of another stored value, what is reported ends above the team. -/
theorem teamPath_notMem_changed
    (hstored : Ingestion.RuntimeConfiguration.ofValue? readProxy value = some stored)
    (hgrouped : ¬IsGrouped value) :
    teamPath ∉ value.changedConfigurationPaths (next.toValue trustedProxies) := by
  intro hmem
  obtain ⟨after, githubAfter, hvalue, hgithubAfter, -, hnames⟩ := toValue_object next trustedProxies
  obtain ⟨field, github, hfield, hgithub, hread⟩ := github_of_ofValue? hstored
  obtain ⟨teamField, hteamField, -⟩ := team_of_ofValue? hread
  unfold Json.changedConfigurationPaths at hmem
  rw [hvalue] at hmem
  rcases structFields?_cases hfield with ⟨before, rfl, rfl, hkeys⟩ | ⟨items, rfl⟩
  · rw [collect_object] at hmem
    obtain ⟨key, hkey, hmem⟩ := List.mem_flatMap.mp hmem
    have hname : ∃ name ∈ Ingestion.RuntimeConfiguration.names, name.toList = key := by
      rcases mem_keysOfBoth.mp hkey with h | h
      · obtain ⟨old, hold⟩ := Option.isSome_iff_exists.mp h
        exact hkeys _ (mem_of_lookup hold)
      · obtain ⟨new, hnew⟩ := Option.isSome_iff_exists.mp h
        exact hnames _ (mem_of_lookup hnew)
    obtain ⟨name, hname, rfl⟩ := hname
    have hprefix : name.toList <+: teamPath := by
      split at hmem
      · exact prefix_of_mem_collect hmem
      · exact List.mem_singleton.mp hmem ▸ List.prefix_refl _
    obtain rfl := eq_github_of_begins name hname hprefix
    dsimp only at hgithub
    rw [hgithub, hgithubAfter] at hmem
    -- The stored settings are an array, which is reported as a whole.
    rcases structFields?_cases hteamField with ⟨entries, rfl, -, -⟩ | ⟨items, rfl⟩
    · exact hgrouped ⟨before, entries, rfl, hgithub⟩
    · dsimp only at hmem
      rw [collect_array, if_pos nofun] at hmem
      exact absurd (List.mem_singleton.mp hmem) (by decide)
  · rw [collect_array, if_pos nofun] at hmem
    exact absurd (List.mem_singleton.mp hmem) (by decide)

/-! ## The sessions after an update -/

theorem updateConfiguration_eq (h : next.validate parseUrl = .ok ()) (trustedProxies : List Str)
    (actor : ℤ) (s : SettingsState σ) :
    ∃ s', updateConfiguration parseUrl next trustedProxies actor s = .ok s' := by
  unfold updateConfiguration
  rw [h, ok_bind]
  dsimp only
  split
  · exact ⟨s, rfl⟩
  · exact ⟨_, rfl⟩

theorem settingInvalidatesSessions_iff {path : Str} :
    settingInvalidatesSessions (String.ofList path) = true ↔ path = teamPath := by
  unfold settingInvalidatesSessions teamPath
  rw [decide_eq_true_iff]
  constructor
  · intro h
    rw [← h, String.toList_ofList]
  · rintro rfl
    exact String.ofList_toList

/-- Sessions are deleted exactly if the path of the team is reported. -/
theorem sessions_of_updateConfiguration
    (h : updateConfiguration parseUrl next trustedProxies actor s = .ok s') :
    s'.sessions = if teamPath ∈ s.value.changedConfigurationPaths (next.toValue trustedProxies)
      then [] else s.sessions := by
  unfold updateConfiguration at h
  obtain ⟨_, -, h⟩ := bind_eq_ok.mp h
  dsimp only at h
  by_cases hempty : s.value.changedConfigurationPaths (next.toValue trustedProxies) = []
  · rw [if_pos hempty] at h
    rw [← pure_eq_ok.mp h, hempty, if_neg List.not_mem_nil]
  · rw [if_neg hempty] at h
    rw [← pure_eq_ok.mp h]
    dsimp only
    refine if_congr ?_ rfl rfl
    rw [List.any_eq_true]
    constructor
    · rintro ⟨path, hpath, hteam⟩
      exact settingInvalidatesSessions_iff.mp hteam ▸ hpath
    · exact fun hteam => ⟨teamPath, hteam, settingInvalidatesSessions_iff.mpr rfl⟩

/-- Every difference is reported once, and another team ends the sessions, exactly if the team that
is stored is that of an object within an object, or nothing has to end. -/
theorem sessions_follow_team_iff
    (hstored : storedConfiguration? parseUrl readProxy s.value = some stored)
    (hupdate : updateConfiguration parseUrl next trustedProxies actor s = .ok s') :
    ((∀ previous current : Json, EveryObject Plain previous → EveryObject Plain current →
        ReportsExactly previous current (previous.changedConfigurationPaths current)) ∧
      (stored.1.github.authorizationTeam ≠ next.github.authorizationTeam → s'.sessions = [])) ↔
    stored.1.github.authorizationTeam = next.github.authorizationTeam ∨ s.sessions = [] ∨
      IsGrouped s.value := by
  have hread := ofValue?_of_storedConfiguration? hstored
  have hsessions := sessions_of_updateConfiguration hupdate
  constructor
  · rintro ⟨-, hteam⟩
    by_contra hnone
    obtain ⟨hne, hopen, hgrouped⟩ : stored.1.github.authorizationTeam ≠
        next.github.authorizationTeam ∧ s.sessions ≠ [] ∧ ¬IsGrouped s.value := by tauto
    rw [if_neg (teamPath_notMem_changed hread hgrouped)] at hsessions
    exact hopen (hsessions.symm.trans (hteam hne))
  · refine fun h => ⟨fun _ _ => changedPaths_exact, fun hteam => ?_⟩
    rw [hsessions]
    rcases h with h | h | h
    · exact absurd h hteam
    · rw [h, ite_self]
    · exact if_pos (teamPath_mem_changed hread h hteam)

end

/-! ## An update of the team -/

def withTeam (configuration : Ingestion.RuntimeConfiguration) (team : Str) :
    Ingestion.RuntimeConfiguration :=
  { configuration with github := { configuration.github with authorizationTeam := team } }

/-- Only the check of the team looks at it. -/
theorem validate_withTeam {parseUrl : Str → Option UrlParts}
    {configuration : Ingestion.RuntimeConfiguration} {team : Str}
    (h : configuration.validate parseUrl = .ok ())
    (hteam : (withTeam configuration team).github.validateAuthorizationTeam = .ok ()) :
    (withTeam configuration team).validate parseUrl = .ok () := by
  unfold Ingestion.RuntimeConfiguration.validate at h ⊢
  obtain ⟨_, hpublic, h⟩ := bind_eq_ok.mp h
  obtain ⟨_, hadmin, h⟩ := bind_eq_ok.mp h
  obtain ⟨_, hrepository, h⟩ := bind_eq_ok.mp h
  obtain ⟨_, -, h⟩ := bind_eq_ok.mp h
  exact bind_eq_ok.mpr ⟨(), hpublic, bind_eq_ok.mpr ⟨(), hadmin,
    bind_eq_ok.mpr ⟨(), hrepository, bind_eq_ok.mpr ⟨(), hteam, h⟩⟩⟩⟩

def otherTeam : Ingestion.RuntimeConfiguration :=
  withTeam .default "LadybirdBrowser/core".toList

theorem validate_sample :
    Ingestion.RuntimeConfiguration.default.validate sampleParseUrl = .ok () :=
  Ingestion.validate_default rfl rfl

theorem validate_otherTeam : otherTeam.validate sampleParseUrl = .ok () :=
  validate_withTeam validate_sample (by decide +kernel)

/-- The default configuration as the service stores it, and one session. -/
def writtenState : SettingsState ℕ where
  value := Ingestion.RuntimeConfiguration.default.toValue []
  sessions := [4]
  audit := []
  cache := none

/-- The same settings, one after another. -/
def arrayState : SettingsState ℕ :=
  { writtenState with
    value := .array ((Ingestion.RuntimeConfiguration.default.settings []).map Prod.snd) }

theorem fits_default : Ingestion.RuntimeConfiguration.default.Fits :=
  ⟨nofun, by decide⟩

theorem stored_default {value : Json} {field : String → Option Json}
    (hfield : structFields? Ingestion.RuntimeConfiguration.names value = some field)
    (hfields : ∀ entry ∈ Ingestion.RuntimeConfiguration.default.settings [],
      field entry.1 = some entry.2) :
    storedConfiguration? sampleParseUrl some value =
      some (Ingestion.RuntimeConfiguration.default, []) :=
  Option.bind_eq_some_iff.mpr ⟨_, Ingestion.RuntimeConfiguration.ofValue?_of_fields
    validate_sample fits_default (List.forall_mem_nil _) hfield hfields, if_pos validate_sample⟩

theorem stored_written : storedConfiguration? sampleParseUrl some writtenState.value =
    some (Ingestion.RuntimeConfiguration.default, []) := by
  obtain ⟨field, hfield, hfields⟩ := Ingestion.structFields?_structValue
    (rfl : (Ingestion.RuntimeConfiguration.default.settings []).map Prod.fst = _) (by decide)
  exact stored_default hfield hfields

theorem stored_array : storedConfiguration? sampleParseUrl some arrayState.value =
    some (Ingestion.RuntimeConfiguration.default, []) := by
  obtain ⟨field, hfield, hfields⟩ := Ingestion.structFields?_array
    (rfl : (Ingestion.RuntimeConfiguration.default.settings []).map Prod.fst = _) (by decide)
  exact stored_default hfield hfields

theorem team_ne_otherTeam :
    Ingestion.RuntimeConfiguration.default.github.authorizationTeam ≠
      otherTeam.github.authorizationTeam := by
  decide

theorem written_team_ends_sessions :
    ∃ s', updateConfiguration sampleParseUrl otherTeam [] 7 writtenState = .ok s' ∧
      s'.sessions = [] := by
  obtain ⟨s', hupdate⟩ := updateConfiguration_eq validate_otherTeam [] 7 writtenState
  obtain ⟨entries, github, hvalue, hgithub, -⟩ :=
    toValue_object Ingestion.RuntimeConfiguration.default []
  exact ⟨s', hupdate, ((sessions_follow_team_iff stored_written hupdate).mpr
    (.inr (.inr ⟨entries, github, hvalue, hgithub⟩))).2 team_ne_otherTeam⟩

/-- A configuration that is stored as an array is accepted, and its sessions outlive the team. -/
theorem array_team_keeps_sessions :
    storedConfiguration? sampleParseUrl some arrayState.value =
      some (Ingestion.RuntimeConfiguration.default, []) ∧
    Ingestion.RuntimeConfiguration.default.github.authorizationTeam ≠
      otherTeam.github.authorizationTeam ∧
    ∃ s', updateConfiguration sampleParseUrl otherTeam [] 7 arrayState = .ok s' ∧
      s'.sessions = [4] := by
  obtain ⟨s', hupdate⟩ := updateConfiguration_eq validate_otherTeam [] 7 arrayState
  refine ⟨stored_array, team_ne_otherTeam, s', hupdate, ?_⟩
  have hgrouped : ¬IsGrouped arrayState.value := by
    rintro ⟨entries, github, hvalue, -⟩
    cases hvalue
  rw [sessions_of_updateConfiguration hupdate, if_neg
    (teamPath_notMem_changed (ofValue?_of_storedConfiguration? stored_array) hgrouped)]
  rfl

end LadybirdReports.Admin
