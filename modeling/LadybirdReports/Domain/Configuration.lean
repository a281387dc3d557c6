import Mathlib.Data.List.Dedup
import Mathlib.Data.List.Sort
import Mathlib.Data.String.Basic

/-!
# The runtime configuration

The settings that sessions depend on, the JSON that a configuration is stored as, and the paths at
which two of them differ. A change of the authorization team is always found
(`invalidatesSessions_of_team`).
-/

namespace LadybirdReports

/-! ## What changed -/

/-- A value of the configuration in JSON. What is not an object is compared by its text. -/
inductive Setting
  | object (entries : List (String × Setting))
  | scalar (text : String)

/-- `BTreeMap::get`. -/
def Setting.get? (entries : List (String × Setting)) (key : String) : Option Setting :=
  (entries.find? (·.1 = key)).map (·.2)

theorem Setting.mem_of_get? {entries : List (String × Setting)} {key : String} {value : Setting}
    (h : Setting.get? entries key = some value) : ∃ e ∈ entries, e.2 = value := by
  obtain ⟨e, he, hvalue⟩ := Option.map_eq_some_iff.mp h
  exact ⟨e, List.mem_of_find?_eq_some he, hvalue⟩

/-- The keys of two objects, in order. -/
def unitedKeys (before after : List (String × Setting)) : List String :=
  (before.map (·.1) ++ after.map (·.1)).dedup.insertionSort (· ≤ ·)

def settingPath (path key : String) : String :=
  if path = "" then key else path ++ "." ++ key

/-- `collect` of `changed_configuration_paths`. -/
def collectChangedPaths : Setting → Setting → String → List String
  | .object before, .object after, path =>
    (unitedKeys before after).flatMap fun key =>
      match _ : Setting.get? before key, Setting.get? after key with
      | some old, some new => collectChangedPaths old new (settingPath path key)
      | _, _ => [settingPath path key]
  | .scalar previous, .scalar current, path => if previous ≠ current then [path] else []
  | _, _, path => [path]
termination_by previous => previous
decreasing_by
  obtain ⟨⟨key, value⟩, he, rfl⟩ := Setting.mem_of_get? ‹_›
  have hlt := List.sizeOf_lt_of_mem he
  simp only [Setting.object.sizeOf_spec, Prod.mk.sizeOf_spec] at hlt ⊢
  omega

def changedConfigurationPaths (previous current : Setting) : List String :=
  collectChangedPaths previous current ""

/-- Whether changing the setting at `path` must sign out every existing session. -/
def settingInvalidatesSessions (path : String) : Bool := path = "github.authorization_team"

/-! ## The configuration -/

/-- The settings that sessions depend on, and the others as they are stored. -/
structure RuntimeConfiguration where
  githubAuthorizationTeam : String
  githubMembershipRecheckSeconds : ℕ
  sessionLifetimeSeconds : ℕ
  githubSettings : List (String × Setting)
  settings : List (String × Setting)

/-- `serde_json::to_value`. -/
def RuntimeConfiguration.toValue (configuration : RuntimeConfiguration) : Setting :=
  .object (("github", .object
      (("authorization_team", .scalar configuration.githubAuthorizationTeam) ::
        ("membership_recheck_seconds",
          .scalar (toString configuration.githubMembershipRecheckSeconds)) ::
        configuration.githubSettings)) ::
    ("session_lifetime_seconds", .scalar (toString configuration.sessionLifetimeSeconds)) ::
    configuration.settings)

/-- What `update_configuration` finds changed. -/
def RuntimeConfiguration.changed (previous next : RuntimeConfiguration) : List String :=
  changedConfigurationPaths previous.toValue next.toValue

def RuntimeConfiguration.invalidatesSessions (previous next : RuntimeConfiguration) : Bool :=
  (previous.changed next).any settingInvalidatesSessions

section

variable {before after : List (String × Setting)} {key path : String} {old new : Setting}
  {previous next : RuntimeConfiguration}

theorem mem_unitedKeys_of_get? (h : Setting.get? before key = some old) :
    key ∈ unitedKeys before after := by
  unfold unitedKeys
  rw [List.mem_insertionSort, List.mem_dedup]
  obtain ⟨e, he, -⟩ := Option.map_eq_some_iff.mp h
  have hkey : e.1 = key := by simpa using List.find?_some he
  exact List.mem_append_left _ (List.mem_map.mpr ⟨e, List.mem_of_find?_eq_some he, hkey⟩)

/-- What changed inside a value that both objects have changed in them. -/
theorem mem_collectChangedPaths_of_get? {changed : String}
    (hold : Setting.get? before key = some old) (hnew : Setting.get? after key = some new)
    (h : changed ∈ collectChangedPaths old new (settingPath path key)) :
    changed ∈ collectChangedPaths (.object before) (.object after) path := by
  rw [collectChangedPaths]
  refine List.mem_flatMap.mpr ⟨key, mem_unitedKeys_of_get? hold, ?_⟩
  split
  · rename_i old' new' hold' hnew'
    cases hold.symm.trans hold'
    cases hnew.symm.trans hnew'
    exact h
  · rename_i hnone
    exact absurd hnew (hnone old new hold)

/-- A change of the team signs everybody out. -/
theorem invalidatesSessions_of_team
    (h : previous.githubAuthorizationTeam ≠ next.githubAuthorizationTeam) :
    previous.invalidatesSessions next = true := by
  have hscalar : "github.authorization_team" ∈ collectChangedPaths
      (.scalar previous.githubAuthorizationTeam) (.scalar next.githubAuthorizationTeam)
      (settingPath (settingPath "" "github") "authorization_team") := by
    rw [collectChangedPaths, if_pos h]
    decide
  refine List.any_eq_true.mpr ⟨_, ?_, decide_eq_true rfl⟩
  exact mem_collectChangedPaths_of_get? (rfl : Setting.get? _ "github" = some _) rfl
    (mem_collectChangedPaths_of_get? rfl rfl hscalar)

/-- A configuration that differs nowhere has the same team. -/
theorem team_eq_of_changed (h : previous.changed next = []) :
    previous.githubAuthorizationTeam = next.githubAuthorizationTeam := by
  by_contra hteam
  have hany := invalidatesSessions_of_team hteam
  unfold RuntimeConfiguration.invalidatesSessions at hany
  rw [h] at hany
  cases hany

end

end LadybirdReports
