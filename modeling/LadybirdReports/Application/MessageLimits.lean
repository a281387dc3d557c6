import LadybirdReports.Application.ReportTitles
import LadybirdReports.Application.StackPreview
import LadybirdReports.Ingestion.ManifestRows

/-!
# Messages that Discord takes

Discord refuses an embed with a text that is too long, or with a field that shows nothing. A message
that is refused stays at the head of the queue.

1. Each field is cut to a length of its own, so that only the link of a commit can be too long: it
   has the name of the repository, which no check bounds (`embedFields_within`).
2. Fields that a client may leave blank are left out then, but for three: the version, the platform
   and the architecture (`embedFields_notBlank_iff`).
3. The lengths add up to what is left of the embed beside its description, if the repository and the
   excerpt of a stack leave room (`embed_keeps_limits_iff`). A manifest can take up all of it
   (`fullNotification_total`), so that the configuration decides whether a message can be too long.
-/

namespace LadybirdReports

open Rust

/-- There is a character that is not white space. -/
def NotBlank (value : Str) : Prop := ∃ c ∈ value, isWhitespace c = false

instance (value : Str) : Decidable (NotBlank value) :=
  decidable_of_iff (value.any fun c => !isWhitespace c) (by simp [NotBlank])

def DiscordEmbedField.characters (field : DiscordEmbedField) : ℕ :=
  field.name.length + field.value.length

/-- All texts of an embed. -/
def DiscordEmbed.characters (embed : DiscordEmbed) : ℕ :=
  embed.title.length + embed.description.length +
    (embed.fields.map DiscordEmbedField.characters).sum

/-- The limits that Discord documents. -/
structure DiscordEmbed.KeepsLimits (embed : DiscordEmbed) : Prop where
  notBlank : ∀ field ∈ embed.fields, NotBlank field.value
  values : ∀ field ∈ embed.fields, field.value.length ≤ 1024
  title : 1 ≤ embed.title.length ∧ embed.title.length ≤ 256
  description : embed.description.length ≤ 4096
  characters : embed.characters ≤ 6000

/-! ## Accepted reports -/

/-- What is read of the report of this manifest, whose title is made under the definitions at the
time. -/
structure Announces (u : Unicode) (columnText : JsonNumber → Str) (definitions : FieldDefinitions)
    (manifest : Ingestion.ReportManifest) (notification : PendingDiscordNotification) : Prop where
  kind : notification.kind = manifest.kind
  clientVersion : notification.clientVersion = manifest.clientVersion
  build : notification.build = manifest.build
  fields : ∀ key, notification.fields key =
    (fieldOf (manifest.fields.map (·.stored definitions)) key).map (·.value)
  title : ∃ current rows, rows.Perm (manifest.fields.map (·.stored definitions)) ∧
    (reportTitleFields columnText current rows).title u manifest.kind manifest.clientVersion =
      .ok notification.title

/-- A manifest was accepted and stored under a valid configuration, and is announced. -/
def IsAccepted (u : Unicode) (columnText : JsonNumber → Str)
    (parseUrl : Str → Option Ingestion.UrlParts) (notification : PendingDiscordNotification) :
    Prop :=
  ∃ (accepting : Ingestion.RuntimeConfiguration) (definitions : FieldDefinitions)
      (manifest : Ingestion.ReportManifest) (acceptance : Ingestion.Acceptance)
      (rows : Ingestion.ManifestRows),
    accepting.validate parseUrl = .ok () ∧
    manifest.validate definitions accepting.limits = .ok () ∧
    acceptance.insert manifest definitions = .ok rows ∧
    Announces u columnText definitions manifest notification

/-- The message of a notification under a configuration. -/
def configuredMessage (u : Unicode) (numberText : JsonNumber → Str)
    (configuration : Ingestion.RuntimeConfiguration) (notification : PendingDiscordNotification) :
    Checked DiscordWebhookMessage :=
  reportMessage u numberText notification configuration.adminBaseUrl configuration.github.repository
    (previewLimits configuration.discord)

/-! ## When a message keeps the limits -/

/-- The value shows something where it is cut to 256 characters. -/
def ShowsText (value : Str) : Prop := NotBlank value ∨ 256 < value.length

/-- The version, the platform and the architecture show something, as far as there are any. -/
structure NoneBlank (numberText : JsonNumber → Str) (notification : PendingDiscordNotification) :
    Prop where
  clientVersion : ShowsText notification.clientVersion
  platform : ∀ value ∈ notification.fields "platform".toList,
    ShowsText (fieldText numberText value)
  architecture : ∀ value ∈ notification.fields "architecture".toList,
    ShowsText (fieldText numberText value)

/-- The name of the repository is short enough for the link of a commit, and leaves room for the
excerpt of a stack. -/
structure HasRoom (configuration : Ingestion.RuntimeConfiguration) : Prop where
  commit : configuration.github.repository.length ≤ 922
  message : configuration.discord.stackTraceCharacters + configuration.github.repository.length ≤
    3_044

/-! ## Fields -/

section

variable {u : Unicode} {numberText : JsonNumber → Str} {fields : DiagnosticFields}
  {notification : PendingDiscordNotification} {repository value key label : Str} {n m : ℕ}
  {field : DiscordEmbedField}

theorem notBlank_of_trim (h : trim value ≠ []) : NotBlank (trim value) := by
  obtain ⟨c, rest, hvalue⟩ := List.exists_cons_of_ne_nil h
  exact ⟨c, hvalue ▸ List.mem_cons_self, isWhitespace_head_trim hvalue⟩

/-- A value that is cut has an ellipsis. -/
theorem notBlank_truncateText_iff :
    NotBlank (truncateText value n) ↔ NotBlank value ∨ n < value.length := by
  unfold truncateText
  split_ifs with hshort
  · rw [or_iff_left (by omega)]
  · exact iff_of_true ⟨'…', List.mem_append_right _ List.mem_cons_self, by decide⟩
      (.inr (by omega))

/-- A field within the limit of a value, and of `n` characters at most. -/
structure DiscordEmbedField.Within (n : ℕ) (field : DiscordEmbedField) : Prop where
  value : field.value.length ≤ 1024
  characters : field.characters ≤ n

theorem sum_characters_le (o : Option DiscordEmbedField) (h : ∀ field ∈ o, field.Within n) :
    (o.toList.map DiscordEmbedField.characters).sum ≤ n := by
  cases o with
  | none => exact Nat.zero_le n
  | some field => exact (Nat.add_zero _).trans_le (h field rfl).characters

theorem within_of (hvalue : field.value.length ≤ m) (hm : m ≤ 1024)
    (hn : field.name.length + m ≤ n) : field.Within n :=
  ⟨hvalue.trans hm, (Nat.add_le_add_left hvalue _).trans hn⟩

theorem versionField_within (clientVersion : Str) : (versionField clientVersion).Within 263 :=
  within_of (truncateText_length (by omega)) (by omega) le_rfl

theorem buildField_within (build : Str) :
    ∀ field ∈ buildField build, field.Within 517 ∧ NotBlank field.value := by
  intro field hfield
  unfold buildField at hfield
  split_ifs at hfield with hblank
  · cases hfield
  · cases hfield
    have hbuild : NotBlank build := by
      by_contra hnone
      refine hblank (trim_eq_nil_iff.mpr fun c hc => ?_)
      by_contra hshown
      exact hnone ⟨c, hc, Bool.eq_false_iff.mpr hshown⟩
    exact ⟨within_of (truncateText_length (by omega)) (by omega) le_rfl,
      notBlank_truncateText_iff.mpr (.inl hbuild)⟩

/-- A short link has the whole commit in its address. -/
theorem commitField_within {commit : Option DiscordEmbedField}
    (h : commitField fields repository = .ok commit) (hrepository : repository.length ≤ 922) :
    ∀ field ∈ commit, field.Within (108 + repository.length) ∧ NotBlank field.value := by
  unfold commitField at h
  cases hvalue : (fields "git_commit".toList).bind JsonValue.asStr with
  | none =>
    rw [hvalue] at h
    cases h
    exact nofun
  | some value =>
    rw [hvalue] at h
    dsimp only at h
    split_ifs at h with hcommit
    · cases h
      exact nofun
    · obtain ⟨short, hshort, h⟩ := bind_eq_ok.mp h
      cases h
      have hlength : (toAsciiLowercase (trim value)).length ≤ 64 := by
        unfold isCommitId at hcommit
        simp only [Bool.not_eq_true, Bool.not_eq_false', Bool.and_eq_true,
          decide_eq_true_eq] at hcommit
        unfold toAsciiLowercase
        rw [List.length_map]
        exact (length_le_byteLen _).trans hcommit.1.2
      have hseven : short.length ≤ 7 := by
        unfold sliceTo at hshort
        cases hslice : sliceTo? (toAsciiLowercase (trim value)) shortCommitCharacters with
        | none =>
          rw [hslice] at hshort
          cases hshort
        | some head =>
          rw [hslice] at hshort
          cases hshort
          obtain ⟨rest, -, hbytes⟩ := sliceTo?_eq_some hslice
          exact (length_le_byteLen _).trans_eq hbytes
      rintro _ ⟨rfl⟩
      have hopen : "[".toList.length = 1 := rfl
      have haddress : "](https://github.com/".toList.length = 21 := rfl
      have hpath : "/commit/".toList.length = 8 := rfl
      have hclose : ")".toList.length = 1 := rfl
      have hname : "Commit".toList.length = 6 := rfl
      refine ⟨within_of (m := 102 + repository.length) ?_ (by omega) ?_, '[', ?_, by decide⟩
      · simp only [List.length_append]
        omega
      · dsimp only
        omega
      · simp only [List.append_assoc]
        exact List.mem_append_left _ List.mem_cons_self

theorem plainField_within (numberText : JsonNumber → Str) (fields : DiagnosticFields)
    (key label : Str) :
    ∀ field ∈ plainField numberText fields key label, field.Within (label.length + 256) := by
  intro field hfield
  obtain ⟨value, -, rfl⟩ := Option.map_eq_some_iff.mp hfield
  exact within_of (truncateText_length (by omega)) (by omega) le_rfl

theorem signalText_eq_some (hn : 0 < n) (h : signalText numberText fields key n = some value) :
    value.length ≤ n ∧ NotBlank value := by
  unfold signalText at h
  obtain ⟨json, -, h⟩ := Option.bind_eq_some_iff.mp h
  dsimp only at h
  split_ifs at h with hblank
  cases h
  exact ⟨truncateText_length hn, notBlank_truncateText_iff.mpr (.inl (notBlank_of_trim hblank))⟩

theorem signalField_within (numberText : JsonNumber → Str) (fields : DiagnosticFields) :
    ∀ field ∈ signalField numberText fields, field.Within 241 ∧ NotBlank field.value := by
  intro field hfield
  have hmap (value : Str) (hlength : value.length ≤ 235) (hshown : NotBlank value)
      (h : field = { name := "Signal".toList, value, inline := true }) :
      field.Within 241 ∧ NotBlank field.value := by
    rw [h]
    exact ⟨within_of hlength (by omega) le_rfl, hshown⟩
  unfold signalField at hfield
  cases hname : signalText numberText fields "signal".toList 200 with
  | none =>
    cases hnumber : signalText numberText fields "signal_number".toList 32 with
    | none =>
      rw [hname, hnumber] at hfield
      cases hfield
    | some number =>
      obtain ⟨hlength, hshown⟩ := signalText_eq_some (by omega) hnumber
      rw [hname, hnumber] at hfield
      exact hmap number (by omega) hshown (Option.some.inj hfield).symm
  | some name =>
    obtain ⟨hlength, hshown⟩ := signalText_eq_some (by omega) hname
    cases hnumber : signalText numberText fields "signal_number".toList 32 with
    | none =>
      rw [hname, hnumber] at hfield
      exact hmap name (by omega) hshown (Option.some.inj hfield).symm
    | some number =>
      obtain ⟨hlength', -⟩ := signalText_eq_some (by omega) hnumber
      obtain ⟨c, hc, hwhite⟩ := hshown
      rw [hname, hnumber] at hfield
      refine hmap _ ?_ ⟨c, ?_, hwhite⟩ (Option.some.inj hfield).symm
      · have hopen : " (".toList.length = 2 := rfl
        have hclose : ")".toList.length = 1 := rfl
        simp only [List.length_append]
        omega
      · simp only [List.mem_append]
        exact .inl (.inl (.inl hc))

theorem pageUrlField_within (fields : DiagnosticFields) :
    ∀ field ∈ pageUrlField fields, field.Within 1010 ∧ NotBlank field.value := by
  intro field hfield
  unfold pageUrlField at hfield
  obtain ⟨url, -, hfield⟩ := Option.bind_eq_some_iff.mp hfield
  split_ifs at hfield with hblank
  cases hfield
  have hlength : (truncateText (pageUrlText url) maxUrlCharacters).length ≤ maxUrlCharacters :=
    truncateText_length (by decide)
  have hmaximum : maxUrlCharacters = 1000 := rfl
  have hquote : "\x60".toList.length = 1 := rfl
  refine ⟨within_of (m := 1002) ?_ (by omega) le_rfl, '\x60', ?_, by decide⟩
  · simp only [List.length_append]
    omega
  · simp only [List.append_assoc]
    exact List.mem_append_left _ List.mem_cons_self

/-- The fields of a message are within their limits, whatever the report has. -/
theorem embedFields_within {embedded : List DiscordEmbedField}
    (h : embedFields numberText notification repository = .ok embedded)
    (hrepository : repository.length ≤ 922) :
    (∀ field ∈ embedded, field.value.length ≤ 1024) ∧
      (embedded.map DiscordEmbedField.characters).sum ≤ 2_671 + repository.length := by
  unfold embedFields at h
  obtain ⟨commit, hcommit, h⟩ := bind_eq_ok.mp h
  cases h
  have hversion := versionField_within notification.clientVersion
  have hbuild := fun field hfield => (buildField_within notification.build field hfield).1
  have hcommit := fun field hfield => (commitField_within hcommit hrepository field hfield).1
  have hplatform := plainField_within numberText notification.fields "platform".toList
    "Platform".toList
  have harchitecture := plainField_within numberText notification.fields "architecture".toList
    "Architecture".toList
  have hsignal := fun field hfield =>
    (signalField_within numberText notification.fields field hfield).1
  have hurl := fun field hfield => (pageUrlField_within notification.fields field hfield).1
  constructor
  · simp only [List.forall_mem_append, List.forall_mem_singleton, Option.mem_toList]
    exact ⟨⟨⟨⟨⟨⟨hversion.value, fun f hf => (hbuild f hf).value⟩, fun f hf => (hcommit f hf).value⟩,
      fun f hf => (hplatform f hf).value⟩, fun f hf => (harchitecture f hf).value⟩,
      fun f hf => (hsignal f hf).value⟩, fun f hf => (hurl f hf).value⟩
  · have hversion := hversion.characters
    have hbuild := sum_characters_le _ hbuild
    have hcommit := sum_characters_le _ hcommit
    have hplatform := sum_characters_le _ hplatform
    have harchitecture := sum_characters_le _ harchitecture
    have hsignal := sum_characters_le _ hsignal
    have hurl := sum_characters_le _ hurl
    have hlabel : "Platform".toList.length = 8 := rfl
    have hlabel' : "Architecture".toList.length = 12 := rfl
    simp only [List.map_append, List.sum_append, List.map_cons, List.map_nil, List.sum_cons,
      List.sum_nil]
    omega

/-- Each field shows something exactly if the three do that are never left out. -/
theorem embedFields_notBlank_iff {embedded : List DiscordEmbedField}
    (h : embedFields numberText notification repository = .ok embedded)
    (hrepository : repository.length ≤ 922) :
    (∀ field ∈ embedded, NotBlank field.value) ↔ NoneBlank numberText notification := by
  unfold embedFields at h
  obtain ⟨commit, hcommit, h⟩ := bind_eq_ok.mp h
  cases h
  have hcommit := fun field hfield => (commitField_within hcommit hrepository field hfield).2
  have hplain (key label : Str) :
      (∀ field ∈ plainField numberText notification.fields key label, NotBlank field.value) ↔
        ∀ value ∈ notification.fields key, ShowsText (fieldText numberText value) := by
    unfold plainField
    simp only [Option.mem_map, forall_exists_index, and_imp, forall_apply_eq_imp_iff₂,
      notBlank_truncateText_iff]
    rfl
  simp only [List.forall_mem_append, List.forall_mem_singleton, Option.mem_toList]
  constructor
  · rintro ⟨⟨⟨⟨⟨⟨hversion, -⟩, -⟩, hplatform⟩, harchitecture⟩, -⟩, -⟩
    exact ⟨notBlank_truncateText_iff.mp hversion, (hplain _ _).mp hplatform,
      (hplain _ _).mp harchitecture⟩
  · rintro ⟨hversion, hplatform, harchitecture⟩
    exact ⟨⟨⟨⟨⟨⟨notBlank_truncateText_iff.mpr hversion,
      fun field hfield => (buildField_within _ field hfield).2⟩, hcommit⟩,
      (hplain _ _).mpr hplatform⟩, (hplain _ _).mpr harchitecture⟩,
      fun field hfield => (signalField_within _ _ field hfield).2⟩,
      fun field hfield => (pageUrlField_within _ field hfield).2⟩

end

/-! ## Titles and descriptions -/

section

variable {u : Unicode} {stack description : Str} {fields : DiagnosticFields}
  {configuration : DiscordConfiguration}

/-- A title begins with the kind of the report. -/
theorem titleKind_prefix {input : ReportTitleInput} {title : Str}
    (h : generateReportTitle u input = .ok title) :
    titleKind input.kind input.style <+: title := by
  have hcontext : titleKind input.kind input.style <+: contextTitle u input := by
    rw [contextTitle_eq]
    unfold contextIntro
    cases input.style <;> exact (List.prefix_append _ _).trans (List.prefix_append _ _)
  have hwith (rest : Str) : titleKind input.kind input.style <+:
      titleKind input.kind input.style ++ ": ".toList ++ rest :=
    (List.prefix_append _ _).trans (List.prefix_append _ _)
  cases hlocation : input.location? with
  | some location =>
    unfold generateReportTitle at h
    rw [hlocation] at h
    obtain ⟨expression, -, h⟩ := bind_eq_ok.mp h
    cases expression with
    | none =>
      cases h
      exact hwith location
    | some expression =>
      cases h
      exact ((hwith location).trans (List.prefix_append _ _)).trans (List.prefix_append _ _)
  | none =>
    rw [generateReportTitle_eq u input hlocation] at h
    cases hpage : input.page? with
    | some url =>
      rw [hpage] at h
      cases h
      exact hwith url
    | none =>
      rw [hpage] at h
      obtain ⟨name, -, h⟩ := bind_eq_ok.mp h
      cases name with
      | some name =>
        cases h
        exact hwith name
      | none =>
        cases h
        exact hcontext

/-- There is no room for an expression after the location. -/
theorem generateReportTitle_of_location {input : ReportTitleInput} {location : Str}
    (hlocation : input.location? = some location)
    (hexpression : failedExpression (input.failureReason.getD []) (maxTitleCharacters -
      ((titleKind input.kind input.style ++ ": ".toList ++ location).length +
        byteLen " · ".toList)) = .ok none) :
    generateReportTitle u input =
      .ok (titleKind input.kind input.style ++ ": ".toList ++ location) := by
  unfold generateReportTitle
  rw [hlocation]
  dsimp only
  rw [hexpression]
  rfl

theorem rawExcerpt_length_le (stack : Str) (hcharacters : 1 ≤ configuration.stackTraceCharacters) :
    (rawExcerpt stack configuration).length ≤ configuration.stackTraceCharacters + 1 := by
  rcases rawExcerpt_cases stack configuration with ⟨-, h⟩ | ⟨hshort, -, h⟩ | ⟨hshort, -, -, h⟩
  · rw [h, List.length_append, List.length_take, List.length_singleton]
    omega
  · rw [h]
    omega
  · rw [h, List.length_append, List.length_singleton]
    omega

theorem length_rawText (excerpt : Str) : (rawText excerpt).length = excerpt.length + 28 := by
  have hheading : descriptionHeading.length = 16 := rfl
  have hopen : "\x60\x60\x60text\n".toList.length = 8 := rfl
  have hclose : "\n\x60\x60\x60".toList.length = 4 := rfl
  unfold rawText
  simp only [List.length_append]
  omega

theorem stackDescription_length (hcharacters : 1 ≤ configuration.stackTraceCharacters)
    (h : stackDescription u stack configuration = .ok description) :
    description.length ≤ configuration.stackTraceCharacters + 29 := by
  rcases stackDescription_cases h with hframes | ⟨hraw, -⟩
  · obtain ⟨shown, runs, more, -, -, hlength, -⟩ := hframes
    omega
  · have hexcerpt := rawExcerpt_length_le stack hcharacters
    rw [hraw, rawStackDescription_eq, length_rawText]
    omega

theorem messageDescription_length (hcharacters : 1 ≤ configuration.stackTraceCharacters)
    (h : messageDescription u fields configuration = .ok description) :
    description.length ≤ max (configuration.stackTraceCharacters + 29) 2_016 := by
  unfold messageDescription at h
  cases hstack : (fields "stack".toList).bind JsonValue.asStr with
  | some stack =>
    rw [hstack] at h
    exact (stackDescription_length hcharacters h).trans (le_max_left _ _)
  | none =>
    rw [hstack] at h
    cases h
    refine le_trans ?_ (le_max_right _ _)
    cases (fields "description".toList).bind JsonValue.asStr with
    | none => decide
    | some text =>
      have hlength : (truncateText text 2_000).length ≤ 2_000 := truncateText_length (by omega)
      have hheading : "**Description**\n".toList.length = 16 := rfl
      dsimp only
      rw [List.length_append, length_withoutBackticks]
      omega

end

/-! ## Messages -/

section

variable {u : Unicode} {numberText columnText : JsonNumber → Str}
  {parseUrl : Str → Option Ingestion.UrlParts} {configuration : Ingestion.RuntimeConfiguration}
  {notification : PendingDiscordNotification} {message : DiscordWebhookMessage}

theorem discord_of_validate (h : configuration.validate parseUrl = .ok ()) :
    configuration.discord.validate parseUrl = .ok () := by
  unfold Ingestion.RuntimeConfiguration.validate at h
  iterate 9 obtain ⟨_, -, h⟩ := bind_eq_ok.mp h
  exact h

/-- The embed of a message, with its parts. -/
theorem embed_of_configuredMessage
    (h : configuredMessage u numberText configuration notification = .ok message) :
    ∃ embed, message.embeds = [embed] ∧ embed.title = truncateText notification.title 256 ∧
      messageDescription u notification.fields (previewLimits configuration.discord) =
        .ok embed.description ∧
      embedFields numberText notification configuration.github.repository = .ok embed.fields := by
  unfold configuredMessage reportMessage at h
  obtain ⟨description, hdescription, h⟩ := bind_eq_ok.mp h
  obtain ⟨embedded, hembedded, h⟩ := bind_eq_ok.mp h
  cases h
  exact ⟨_, rfl, rfl, hdescription, hembedded⟩

theorem IsAccepted.title_ne_nil (h : IsAccepted u columnText parseUrl notification) :
    notification.title ≠ [] := by
  obtain ⟨_, _, manifest, _, _, -, -, -, hannounces⟩ := h
  obtain ⟨current, rows, -, htitle⟩ := hannounces.title
  have hprefix := titleKind_prefix htitle
  intro hnil
  rw [hnil, List.prefix_nil] at hprefix
  change titleKind manifest.kind .report = [] at hprefix
  cases hkind : manifest.kind <;> rw [hkind] at hprefix <;> exact absurd hprefix (by decide)

/-- With a configuration that leaves room, the embed of an accepted report keeps the limits exactly
if none of the three fields is blank. -/
theorem embed_keeps_limits_iff (hvalid : configuration.validate parseUrl = .ok ())
    (hroom : HasRoom configuration) (haccepted : IsAccepted u columnText parseUrl notification)
    (h : configuredMessage u numberText configuration notification = .ok message) :
    (∀ embed ∈ message.embeds, embed.KeepsLimits) ↔ NoneBlank numberText notification := by
  obtain ⟨embed, hembeds, htitle, hdescription, hembedded⟩ := embed_of_configuredMessage h
  obtain ⟨-, hlower, hupper⟩ := previewLimits_of_validate (discord_of_validate hvalid)
  obtain ⟨hvalues, hsum⟩ := embedFields_within hembedded hroom.commit
  rw [hembeds, List.forall_mem_singleton, ← embedFields_notBlank_iff hembedded hroom.commit]
  refine ⟨fun hkeeps => hkeeps.notBlank, fun hshown => ?_⟩
  have hlength := messageDescription_length (show 1 ≤ configuration.discord.stackTraceCharacters by
    omega) hdescription
  have hmessage := hroom.message
  have hcommit := hroom.commit
  change embed.description.length ≤ max (configuration.discord.stackTraceCharacters + 29) 2_016
    at hlength
  have hcut : embed.title.length ≤ 256 := htitle ▸ truncateText_length (by omega)
  refine ⟨hshown, hvalues, ⟨?_, hcut⟩, by omega, ?_⟩
  · rw [htitle]
    have hpos := List.length_pos_of_ne_nil haccepted.title_ne_nil
    unfold truncateText
    split_ifs
    · exact hpos
    · rw [List.length_append, List.length_singleton]
      omega
  · unfold DiscordEmbed.characters
    omega

end

/-! ## A message with no room left -/

section

variable {line stack : Str} {lineCount characters : ℕ}

theorem number_frameRow_of_not_mem (h : '#' ∉ line) : (frameRow line).number = none := by
  have hnone : frameNumber? line = none := by
    unfold frameNumber?
    cases hstrip : stripPrefix? (trimStart line) ['#'] with
    | none => rfl
    | some rest =>
      unfold stripPrefix? at hstrip
      split_ifs at hstrip with hstart
      obtain ⟨tail, htail⟩ := startsWith_iff.mp hstart
      have hmem : '#' ∈ trimStart line := htail ▸ List.mem_cons_self
      exact absurd ((trimStart_sublist line).mem hmem) h
  have hparse : parseFrame line = .ok none := by
    unfold parseFrame
    rw [hnone]
    rfl
  rw [frameRow_of_parseFrame hparse]
  rfl

theorem mem_lines_of_mem_stackLines (h : line ∈ stackLines stack) : line ∈ lines stack := by
  refine List.mem_of_mem_take (i := maxRenderedLines) ?_
  unfold stackLines at h
  split at h
  · cases h
  · rename_i first rest heq
    rw [heq]
    split_ifs at h
    · exact List.mem_cons_of_mem _ h
    · exact h

theorem length_join (parts : List Str) :
    (join ['\n'] parts).length = (parts.map List.length).sum + (parts.length - 1) := by
  induction parts with
  | nil => rfl
  | cons part parts ih =>
    cases parts with
    | nil => simp [join]
    | cons next parts =>
      rw [join_cons_cons, List.length_append, List.length_append, ih]
      simp only [List.map_cons, List.sum_cons, List.length_cons, List.length_nil]
      omega

/-- Lines of so many characters together, that many of them. -/
def fullLines (lineCount characters : ℕ) : List Str :=
  List.replicate (lineCount - 1) ['x'] ++ [List.replicate (characters - 2 * (lineCount - 1)) 'x']

/-- Another line follows on them. -/
def fullStack (lineCount characters : ℕ) : Str :=
  join ['\n'] (fullLines lineCount characters ++ [['x']])

theorem eq_x_of_mem_fullLines {c : Char} (hline : line ∈ fullLines lineCount characters ++ [['x']])
    (hc : c ∈ line) : c = 'x' := by
  unfold fullLines at hline
  simp only [List.mem_append, List.mem_replicate, List.mem_singleton] at hline
  rcases hline with (⟨-, rfl⟩ | rfl) | rfl
  · exact List.mem_singleton.mp hc
  · exact List.eq_of_mem_replicate hc
  · exact List.mem_singleton.mp hc

/-- The excerpt of such a stack is as long as one can be. -/
theorem fullStack_ellipsisTooMany (hlines : 1 ≤ lineCount ∧ lineCount ≤ 100)
    (hcharacters : 256 ≤ characters) :
    EllipsisTooMany (fullStack lineCount characters) ⟨lineCount, characters⟩ := by
  have hlength : (fullLines lineCount characters).length = lineCount := by
    unfold fullLines
    rw [List.length_append, List.length_replicate, List.length_singleton]
    omega
  have hparts : lines (fullStack lineCount characters) =
      fullLines lineCount characters ++ [['x']] := by
    refine lines_join fun line hline => ⟨?_, fun hfeed => ?_, fun hreturn => ?_⟩
    · unfold fullLines at hline
      simp only [List.mem_append, List.mem_replicate, List.mem_singleton] at hline
      rcases hline with (⟨-, rfl⟩ | rfl) | rfl
      · exact List.cons_ne_nil _ _
      · rw [ne_eq, List.replicate_eq_nil_iff]
        omega
      · exact List.cons_ne_nil _ _
    · exact absurd (eq_x_of_mem_fullLines hline hfeed) (by decide)
    · exact absurd (eq_x_of_mem_fullLines hline (List.mem_of_getLast? hreturn)) (by decide)
  have htake : (lines (fullStack lineCount characters)).take lineCount =
      fullLines lineCount characters := by
    rw [hparts, List.take_append_of_le_length hlength.ge, List.take_of_length_le hlength.le]
  refine ⟨?_, ?_, ?_, ?_⟩
  · refine List.filterMap_eq_nil_iff.mpr fun row hrow => ?_
    obtain ⟨line, hline, rfl⟩ := List.mem_map.mp hrow
    have hmem := mem_lines_of_mem_stackLines hline
    rw [hparts] at hmem
    rw [number_frameRow_of_not_mem fun hnumber =>
      absurd (eq_x_of_mem_fullLines hmem hnumber) (by decide)]
    rfl
  · rw [hparts, List.length_append, hlength]
    exact Nat.lt_succ_self _
  · change (join ['\n'] ((lines (fullStack lineCount characters)).take lineCount)).length = _
    rw [htake, length_join, hlength]
    unfold fullLines
    simp only [List.map_append, List.map_replicate, List.map_cons, List.map_nil, List.sum_append,
      List.sum_replicate_nat, List.sum_cons, List.sum_nil, List.length_cons, List.length_nil,
      List.length_replicate]
    omega
  · change (join ['\n'] ((lines (fullStack lineCount characters)).take lineCount)).getLast? ≠ _
    rw [htake]
    intro hlast
    rcases mem_join (List.mem_of_getLast? hlast) with hmem | ⟨line, hline, hmem⟩
    · exact absurd (List.mem_singleton.mp hmem) (by decide)
    · exact absurd (eq_x_of_mem_fullLines (List.mem_append_left _ hline) hmem) (by decide)

end

/-- A source location longer than a title may be. -/
def fullLocation : Str := List.replicate 300 'f' ++ ".cpp:12".toList

def fullReason : Str := "x at ".toList ++ fullLocation

/-- Texts as long as a message shows them. -/
def fullTexts : List DiagnosticField :=
  [⟨failureReasonKey, .text fullReason⟩,
    ⟨"git_commit".toList, .text (List.replicate 64 'c')⟩,
    ⟨platformKey, .text (List.replicate 256 'p')⟩,
    ⟨architectureKey, .text (List.replicate 256 'a')⟩,
    ⟨signalKey, .text (List.replicate 200 's')⟩,
    ⟨"signal_number".toList, .text (List.replicate 32 '1')⟩,
    ⟨urlKey, .url (List.replicate 1000 'u')⟩]

/-- A report with all of them, and with this stack. -/
def fullManifest (stack : Str) : Ingestion.ReportManifest where
  protocol := 1
  submissionId := (Ingestion.sampleManifest [] 0).submissionId
  kind := .crash
  clientVersion := List.replicate 256 'v'
  build := List.replicate 512 'b'
  fields := fullTexts ++ [⟨stackKey, .multiline stack⟩]
  attachments := []

def fullRows (stack : Str) : List StoredField :=
  (fullManifest stack).fields.map (·.stored fun _ => none)

def fullTitle : Str := titleKind .crash .report ++ ": ".toList ++ fullLocation

def fullNotification (stack : Str) : PendingDiscordNotification where
  reportId := []
  title := fullTitle
  kind := .crash
  clientVersion := List.replicate 256 'v'
  build := List.replicate 512 'b'
  fields := fun key => (fieldOf (fullRows stack) key).map (·.value)
  createdAt := []

/-- Payloads that texts of this size are accepted with. -/
def withTexts (configuration : Ingestion.RuntimeConfiguration) : Ingestion.RuntimeConfiguration :=
  { configuration with
    limits := { configuration.limits with
      maximumFields := 64
      shortTextBytes := 4 * 1024
      multilineTextBytes := 256 * 1024
      metadataBytes := 1024 * 1024 } }

section

variable {u : Unicode} {numberText columnText : JsonNumber → Str} {stack : Str}
  {parseUrl : Str → Option Ingestion.UrlParts} {configuration : Ingestion.RuntimeConfiguration}

theorem validate_withTexts (h : configuration.validate parseUrl = .ok ()) :
    (withTexts configuration).validate parseUrl = .ok () := by
  have hpayload : configuration.limits.validatePayload = .ok () →
      (withTexts configuration).limits.validatePayload = .ok () := by
    intro h
    have hvalid := ensure_eq_ok.mp h
    refine ensure_eq_ok.mpr ?_
    simp only [Bool.not_eq_true', Bool.or_eq_false_iff, decide_eq_false_iff_not] at hvalid ⊢
    unfold withTexts Ingestion.hardMaxFields
    dsimp only
    unfold Ingestion.hardMaxFields at hvalid
    tauto
  unfold Ingestion.RuntimeConfiguration.validate at h ⊢
  obtain ⟨_, hpublic, h⟩ := bind_eq_ok.mp h
  obtain ⟨_, hadmin, h⟩ := bind_eq_ok.mp h
  obtain ⟨_, hrepository, h⟩ := bind_eq_ok.mp h
  obtain ⟨_, hteam, h⟩ := bind_eq_ok.mp h
  obtain ⟨_, hlabels, h⟩ := bind_eq_ok.mp h
  obtain ⟨_, hfield, h⟩ := bind_eq_ok.mp h
  obtain ⟨_, hrates, h⟩ := bind_eq_ok.mp h
  obtain ⟨_, hlimits, h⟩ := bind_eq_ok.mp h
  obtain ⟨_, hoperational, hdiscord⟩ := bind_eq_ok.mp h
  exact bind_eq_ok.mpr ⟨(), hpublic, bind_eq_ok.mpr ⟨(), hadmin, bind_eq_ok.mpr ⟨(), hrepository,
    bind_eq_ok.mpr ⟨(), hteam, bind_eq_ok.mpr ⟨(), hlabels, bind_eq_ok.mpr ⟨(), hfield,
    bind_eq_ok.mpr ⟨(), hrates, bind_eq_ok.mpr ⟨(), hpayload hlimits,
    bind_eq_ok.mpr ⟨(), hoperational, hdiscord⟩⟩⟩⟩⟩⟩⟩⟩⟩

/-- Fields are accepted if each is by itself, and no two have one key. -/
theorem validateFieldsFrom_of_forall {references keys : List Str} {definitions : FieldDefinitions}
    {limits : FieldLimits} {fields : List DiagnosticField} (hnodup : (fields.map (·.key)).Nodup)
    (hnew : ∀ field ∈ fields, field.key ∉ keys)
    (h : ∀ field ∈ fields, isValidFieldKey field.key = true ∧
      ((definitions field.key).all fun definition => definition.kind.accepts field.value.kind) =
        true ∧ field.value.validate references limits = .ok ()) :
    validateFieldsFrom references definitions limits keys fields = .ok () := by
  induction fields generalizing keys with
  | nil => rfl
  | cons field fields ih =>
    obtain ⟨hkey, hnodup⟩ := List.nodup_cons.mp hnodup
    obtain ⟨hfresh, hnew⟩ := List.forall_mem_cons.mp hnew
    obtain ⟨⟨hvalid, hkind, hvalue⟩, h⟩ := List.forall_mem_cons.mp h
    have hlater : ∀ other ∈ fields, other.key ∉ field.key :: keys := by
      intro other hother hmem
      rcases List.mem_cons.mp hmem with heq | hmem
      · exact hkey (List.mem_map.mpr ⟨other, hother, heq⟩)
      · exact hnew other hother hmem
    rw [validateFieldsFrom]
    exact bind_eq_ok.mpr ⟨(), ensure_eq_ok.mpr hvalid, bind_eq_ok.mpr ⟨(),
      ensure_eq_ok.mpr (by simpa using hfresh), bind_eq_ok.mpr ⟨(), ensure_eq_ok.mpr hkind,
      bind_eq_ok.mpr ⟨(), hvalue, ih hnodup hlater h⟩⟩⟩⟩

theorem validate_fullManifest (configuration : Ingestion.RuntimeConfiguration)
    (hstack : byteLen stack ≤ 256 * 1024) :
    (fullManifest stack).validate (fun _ => none) (withTexts configuration).limits = .ok () := by
  have htexts : ∀ field ∈ fullTexts, isValidFieldKey field.key = true ∧
      field.value.validate [] ⟨64, 4 * 1024, 256 * 1024⟩ = .ok () := by decide +kernel
  have hfields : validateFields (fullManifest stack).fields [] (fun _ => none)
      ⟨64, 4 * 1024, 256 * 1024⟩ = .ok () := by
    refine bind_eq_ok.mpr ⟨(), rfl, validateFieldsFrom_of_forall ?_ nofun fun field hfield => ?_⟩
    · change (fullTexts.map (·.key) ++ [stackKey]).Nodup
      decide
    · rcases List.mem_append.mp hfield with hfield | hfield
      · exact ⟨(htexts field hfield).1, rfl, (htexts field hfield).2⟩
      · rw [List.mem_singleton.mp hfield]
        exact ⟨show isValidFieldKey stackKey = true by decide, rfl,
          ensure_eq_ok.mpr (decide_eq_true hstack)⟩
  unfold Ingestion.ReportManifest.validate
  refine bind_eq_ok.mpr ⟨(), rfl, bind_eq_ok.mpr ⟨(), ?_, bind_eq_ok.mpr ⟨(), ?_,
    bind_eq_ok.mpr ⟨(), rfl, bind_eq_ok.mpr ⟨[], ?_, hfields⟩⟩⟩⟩⟩
  · change ensure (List.replicate 256 'v' ≠ [] && byteLen (List.replicate 256 'v') ≤ 256) _ = _
    decide +kernel
  · change ensure (byteLen (List.replicate 512 'b') ≤ 1024) _ = _
    decide +kernel
  · exact bind_eq_ok.mpr ⟨(), ensure_eq_ok.mpr (decide_eq_true (Nat.zero_le _)), rfl⟩

theorem fullRows_keys (stack : Str) : ((fullRows stack).map (·.key)).Nodup := by
  change (fullTexts.map (·.key) ++ [stackKey]).Nodup
  decide

theorem title_fullRows (stack : Str) :
    (reportTitleFields columnText (fun _ => none) (fullRows stack)).title u .crash
      (List.replicate 256 'v') = .ok fullTitle := by
  have hfailure : (reportTitleFields columnText (fun _ => none) (fullRows stack)).failureReason =
      some fullReason := by
    have hmem : (TitleFields.failureReason, failureReasonKey) ∈ titleColumns := List.mem_cons_self
    have hcolumn := @reportTitleFields_column columnText (fun _ => none) _ _ _ hmem
      (fullRows_keys stack) (.refl _)
    dsimp only at hcolumn
    have hrow : fieldOf (fullRows stack) failureReasonKey =
        some ⟨failureReasonKey, .text, .string fullReason, false⟩ := rfl
    have hcut : fullReason.take 4096 = fullReason := by decide +kernel
    rw [hcolumn]
    unfold listedText
    rw [hrow, Option.map_some]
    unfold StoredField.titleText
    rw [if_pos rfl, show (JsonValue.string fullReason).text columnText = fullReason from rfl, hcut]
  unfold TitleFields.title
  generalize reportTitleFields columnText (fun _ => none) (fullRows stack) = fields at hfailure ⊢
  have hlocation : (fields.input .crash (List.replicate 256 'v')).location? =
      some fullLocation := by
    change fields.failureReason.bind sourceLocationFromFailure = _
    rw [hfailure]
    decide +kernel
  refine generateReportTitle_of_location hlocation ?_
  change failedExpression (fields.failureReason.getD [])
    (maxTitleCharacters - (fullTitle.length + byteLen " · ".toList)) = _
  rw [hfailure]
  decide +kernel

theorem fullNotification_isAccepted (h : configuration.validate parseUrl = .ok ())
    (hstack : byteLen stack ≤ 256 * 1024) (hzero : '\x00' ∉ stack) :
    IsAccepted u columnText parseUrl (fullNotification stack) := by
  have hvalid := validate_withTexts h
  have hmanifest := validate_fullManifest configuration hstack
  have htexts : ∀ field ∈ fullTexts, field.value.jsonValue.isStorable = true := by decide +kernel
  have hstorable : (fullManifest stack).Storable := by
    refine ⟨?_, ?_, fun field hfield => ?_, nofun⟩
    · exact fun hmem => absurd (List.eq_of_mem_replicate hmem) (by decide)
    · exact fun hmem => absurd (List.eq_of_mem_replicate hmem) (by decide)
    · rcases List.mem_append.mp hfield with hfield | hfield
      · exact htexts field hfield
      · rw [List.mem_singleton.mp hfield]
        simpa [FieldValue.jsonValue, JsonValue.isStorable] using hzero
  obtain ⟨rows, hrows⟩ : ∃ rows, Ingestion.sampleAcceptance.insert _ (fun _ => none) = .ok rows :=
    (Ingestion.insert_succeeds_iff hvalid hmanifest).mpr hstorable
  refine ⟨_, fun _ => none, fullManifest stack, _, rows, hvalid, hmanifest, hrows, rfl, rfl, rfl,
    fun _ => rfl, fun _ => none, fullRows stack, .refl _, title_fullRows stack⟩

/-- The link of the commit, with the commit as it is. -/
def fullLink (repository : Str) : DiscordEmbedField where
  name := "Commit".toList
  value := "[".toList ++ List.replicate 7 'c' ++ "](https://github.com/".toList ++ repository ++
    "/commit/".toList ++ List.replicate 64 'c' ++ ")".toList
  inline := true

theorem length_fullLink (repository : Str) :
    (fullLink repository).value.length = 102 + repository.length := by
  have hopen : "[".toList.length = 1 := rfl
  have haddress : "](https://github.com/".toList.length = 21 := rfl
  have hpath : "/commit/".toList.length = 8 := rfl
  have hclose : ")".toList.length = 1 := rfl
  unfold fullLink
  simp only [List.length_append, List.length_replicate]
  omega

theorem commitField_full (stack repository : Str) :
    commitField (fullNotification stack).fields repository = .ok (some (fullLink repository)) := by
  have hcommit : ((fullNotification stack).fields "git_commit".toList).bind JsonValue.asStr =
      some (List.replicate 64 'c') := rfl
  have hvalid : isCommitId (trim (List.replicate 64 'c')) = true := by decide
  have hlower : toAsciiLowercase (trim (List.replicate 64 'c')) = List.replicate 64 'c' := by
    decide
  have hshort : sliceTo (List.replicate 64 'c') shortCommitCharacters =
      .ok (List.replicate 7 'c') := by decide
  unfold commitField
  rw [hcommit]
  dsimp only
  rw [hvalid, hlower, hshort]
  rfl

/-- All fields are there, and each is as long as it can be. -/
theorem embedFields_full (numberText : JsonNumber → Str) (stack repository : Str) : ∃ embedded,
    embedFields numberText (fullNotification stack) repository = .ok embedded ∧
      fullLink repository ∈ embedded ∧
      (embedded.map DiscordEmbedField.characters).sum = 2_671 + repository.length := by
  have hlink : (fullLink repository).characters = 108 + repository.length := by
    have hlength := length_fullLink repository
    have hname : (fullLink repository).name.length = 6 := rfl
    unfold DiscordEmbedField.characters
    omega
  have hversion : (versionField (List.replicate 256 'v')).characters = 263 := by decide +kernel
  have hbuild : (buildField (List.replicate 512 'b')).toList.map DiscordEmbedField.characters =
      [517] := by decide +kernel
  have hplatform : (plainField numberText (fullNotification stack).fields "platform".toList
      "Platform".toList).toList.map DiscordEmbedField.characters = [264] := by
    change [DiscordEmbedField.characters
      ⟨"Platform".toList, truncateText (List.replicate 256 'p') 256, true⟩] = _
    decide +kernel
  have harchitecture : (plainField numberText (fullNotification stack).fields "architecture".toList
      "Architecture".toList).toList.map DiscordEmbedField.characters = [268] := by
    change [DiscordEmbedField.characters
      ⟨"Architecture".toList, truncateText (List.replicate 256 'a') 256, true⟩] = _
    decide +kernel
  have hname : signalText numberText (fullNotification stack).fields "signal".toList 200 =
      some (List.replicate 200 's') := by
    change (if trim (List.replicate 200 's') = [] then none
      else some (truncateText (trim (List.replicate 200 's')) 200)) = _
    decide +kernel
  have hnumber : signalText numberText (fullNotification stack).fields "signal_number".toList 32 =
      some (List.replicate 32 '1') := by
    change (if trim (List.replicate 32 '1') = [] then none
      else some (truncateText (trim (List.replicate 32 '1')) 32)) = _
    decide
  have hsignal : (signalField numberText (fullNotification stack).fields).toList.map
      DiscordEmbedField.characters = [241] := by
    unfold signalField
    rw [hname, hnumber]
    decide +kernel
  have hurl : (pageUrlField (fullNotification stack).fields).toList.map
      DiscordEmbedField.characters = [1010] := by
    unfold pageUrlField
    rw [show ((fullNotification stack).fields "url".toList).bind JsonValue.asStr =
      some (List.replicate 1000 'u') from rfl]
    decide +kernel
  unfold embedFields
  dsimp only
  rw [commitField_full]
  refine ⟨_, rfl, by simp, ?_⟩
  simp only [List.map_append, List.sum_append, hplatform, harchitecture, hsignal, hurl,
    List.map_cons, List.map_nil, List.sum_cons, List.sum_nil, Option.toList_some, hlink]
  rw [show (fullNotification stack).clientVersion = List.replicate 256 'v' from rfl,
    show (fullNotification stack).build = List.replicate 512 'b' from rfl, hversion, hbuild]
  simp only [List.sum_cons, List.sum_nil]
  omega

theorem noneBlank_full (stack : Str) : NoneBlank numberText (fullNotification stack) := by
  refine ⟨.inl ⟨'v', ?_, by decide⟩, ?_, ?_⟩
  · exact List.mem_replicate.mpr ⟨by decide, rfl⟩
  · rintro _ ⟨rfl⟩
    exact .inl ⟨'p', List.mem_replicate.mpr ⟨by decide, rfl⟩, by decide⟩
  · rintro _ ⟨rfl⟩
    exact .inl ⟨'a', List.mem_replicate.mpr ⟨by decide, rfl⟩, by decide⟩

theorem fullStack_isAccepted (h : configuration.validate parseUrl = .ok ())
    {lineCount characters : ℕ} (hlines : 1 ≤ lineCount ∧ lineCount ≤ 100)
    (hcharacters : 256 ≤ characters) (hmaximum : characters ≤ 3_500) :
    IsAccepted u columnText parseUrl (fullNotification (fullStack lineCount characters)) := by
  have hchars : ∀ c ∈ fullStack lineCount characters, c = 'x' ∨ c = '\n' := by
    intro c hc
    rcases mem_join hc with hc | ⟨line, hline, hc⟩
    · exact .inr (List.mem_singleton.mp hc)
    · exact .inl (eq_x_of_mem_fullLines hline hc)
  refine fullNotification_isAccepted h ?_ fun hzero => ?_
  · rw [byteLen_of_ascii fun c hc => by rcases hchars c hc with rfl | rfl <;> decide]
    unfold fullStack fullLines
    rw [length_join]
    simp only [List.map_append, List.map_replicate, List.map_cons, List.map_nil, List.sum_append,
      List.sum_replicate_nat, List.sum_cons, List.sum_nil, List.length_append, List.length_cons,
      List.length_nil, List.length_replicate]
    omega
  · rcases hchars _ hzero with h | h <;> exact absurd h (by decide)

/-- A message of such a report is as long as a message of the configuration can be. -/
theorem fullNotification_total (u : Unicode) (numberText : JsonNumber → Str)
    (h : configuration.validate parseUrl = .ok ()) :
    ∃ message embed, configuredMessage u numberText configuration (fullNotification
        (fullStack configuration.discord.stackTraceLines
          configuration.discord.stackTraceCharacters)) = .ok message ∧
      message.embeds = [embed] ∧ fullLink configuration.github.repository ∈ embed.fields ∧
      2_956 + configuration.discord.stackTraceCharacters +
        configuration.github.repository.length ≤ embed.characters := by
  obtain ⟨hlines, hlower, -⟩ := previewLimits_of_validate (discord_of_validate h)
  have hmany := fullStack_ellipsisTooMany hlines hlower
  obtain ⟨embedded, hembedded, hlink, hsum⟩ := embedFields_full numberText
    (fullStack configuration.discord.stackTraceLines configuration.discord.stackTraceCharacters)
    configuration.github.repository
  have hdescription : messageDescription u (fullNotification
      (fullStack configuration.discord.stackTraceLines
        configuration.discord.stackTraceCharacters)).fields (previewLimits configuration.discord) =
      .ok (rawText (rawExcerpt _ (previewLimits configuration.discord))) :=
    stackDescription_raw u hmany.no_frames
  have hexcerpt := (length_rawExcerpt_iff (show 1 ≤ configuration.discord.stackTraceCharacters by
    omega) hmany.no_frames).not.mpr (not_not.mpr hmany)
  have htitle : (truncateText fullTitle 256).length = 256 := by decide +kernel
  unfold configuredMessage reportMessage
  rw [hdescription, ok_bind, hembedded]
  refine ⟨_, _, rfl, rfl, hlink, ?_⟩
  unfold DiscordEmbed.characters
  dsimp only
  rw [show (fullNotification _).title = fullTitle from rfl, htitle, length_rawText, hsum]
  change ¬ (rawExcerpt _ (previewLimits configuration.discord)).length ≤
    configuration.discord.stackTraceCharacters at hexcerpt
  omega

/-- A configuration leaves room exactly if the embeds of accepted reports keep the limits wherever
none of the three fields is blank. -/
theorem embeds_keep_limits_iff (hvalid : configuration.validate parseUrl = .ok ()) (u : Unicode)
    (numberText columnText : JsonNumber → Str) :
    (∀ notification, IsAccepted u columnText parseUrl notification → ∀ message,
      configuredMessage u numberText configuration notification = .ok message →
      ((∀ embed ∈ message.embeds, embed.KeepsLimits) ↔ NoneBlank numberText notification)) ↔
    HasRoom configuration := by
  refine ⟨fun h => ?_, fun hroom notification haccepted message hmessage =>
    embed_keeps_limits_iff hvalid hroom haccepted hmessage⟩
  obtain ⟨hlines, hlower, hupper⟩ := previewLimits_of_validate (discord_of_validate hvalid)
  obtain ⟨message, embed, hmessage, hembeds, hlink, htotal⟩ :=
    fullNotification_total u numberText hvalid
  have hkeeps := (h _ (fullStack_isAccepted hvalid hlines hlower hupper) message hmessage).mpr
    (noneBlank_full _)
  rw [hembeds, List.forall_mem_singleton] at hkeeps
  have hcharacters := hkeeps.characters
  have hvalue := hkeeps.values _ hlink
  rw [length_fullLink] at hvalue
  exact ⟨by omega, by omega⟩

end

theorem default_hasRoom : HasRoom .default := ⟨by decide, by decide⟩

/-- As many lines and characters of a stack as the default configuration allows. -/
def defaultFullStack : Str :=
  fullStack Ingestion.RuntimeConfiguration.default.discord.stackTraceLines
    Ingestion.RuntimeConfiguration.default.discord.stackTraceCharacters

theorem full_message_keeps_limits : ∃ message,
    configuredMessage Unicode.ascii (fun _ => []) .default (fullNotification defaultFullStack) =
      .ok message ∧
    ∀ embed ∈ message.embeds, embed.KeepsLimits := by
  have hvalid : Ingestion.RuntimeConfiguration.default.validate Ingestion.sampleParseUrl =
      .ok () := by decide
  have haccepted : IsAccepted Unicode.ascii (fun _ => []) Ingestion.sampleParseUrl
      (fullNotification defaultFullStack) :=
    fullStack_isAccepted hvalid (by decide) (by decide) (by decide)
  obtain ⟨message, _, hmessage, -⟩ :=
    fullNotification_total Unicode.ascii (fun _ => []) hvalid
  have hkeeps := (embeds_keep_limits_iff hvalid Unicode.ascii (fun _ => []) fun _ => []).mpr
    default_hasRoom _ haccepted message hmessage
  exact ⟨message, hmessage, hkeeps.mpr (noneBlank_full _)⟩

/-! ## A version that shows nothing -/

/-- A crash of a client whose version is a blank. -/
def blankManifest : Ingestion.ReportManifest :=
  { Ingestion.sampleManifest [] 0 with
    clientVersion := [' ']
    fields := []
    attachments := [] }

def blankNotification : PendingDiscordNotification where
  reportId := []
  title := "Crash report · Unknown build".toList
  kind := .crash
  clientVersion := [' ']
  build := []
  fields := fun _ => none
  createdAt := []

theorem blank_version_breaks_limits : ¬ ∀ configuration notification message,
    Ingestion.RuntimeConfiguration.validate Ingestion.sampleParseUrl configuration = .ok () →
    IsAccepted Unicode.ascii (fun _ => []) Ingestion.sampleParseUrl notification →
    configuredMessage Unicode.ascii (fun _ => []) configuration notification = .ok message →
    ∀ embed ∈ message.embeds, embed.KeepsLimits := by
  intro h
  have hvalid : Ingestion.RuntimeConfiguration.default.validate Ingestion.sampleParseUrl =
      .ok () := by decide
  have hmanifest : blankManifest.validate (fun _ => none)
      Ingestion.RuntimeConfiguration.default.limits = .ok () := by decide
  have hstorable : blankManifest.Storable := ⟨by decide, by decide, nofun, nofun⟩
  obtain ⟨rows, hrows⟩ : ∃ rows, Ingestion.sampleAcceptance.insert _ (fun _ => none) = .ok rows :=
    (Ingestion.insert_succeeds_iff hvalid hmanifest).mpr hstorable
  have haccepted : IsAccepted Unicode.ascii (fun _ => []) Ingestion.sampleParseUrl
      blankNotification :=
    ⟨.default, fun _ => none, blankManifest, _, rows, hvalid, hmanifest, hrows, rfl, rfl, rfl,
      fun _ => rfl, fun _ => none, [], .refl _, by decide⟩
  have hkeeps := h .default blankNotification _ hvalid haccepted rfl _ List.mem_cons_self
  obtain ⟨c, hc, hshown⟩ := hkeeps.notBlank _ List.mem_cons_self
  rw [List.mem_singleton.mp hc] at hshown
  exact absurd hshown (by decide)

end LadybirdReports
