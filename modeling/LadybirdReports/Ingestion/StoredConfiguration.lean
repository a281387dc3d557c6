import LadybirdReports.Domain.ChangedPaths
import LadybirdReports.Ingestion.Limits

/-!
# Stored configurations

The JSON that `serde` makes of a configuration, and the configurations that it reads from JSON. It
reads a struct from an object without other keys, or from an array of the fields in their order;
where a field has a default it can be missing.

What is written is read again (`ofValue?_toValue`).
-/

namespace LadybirdReports.Ingestion

open Rust

/-! ## Values -/

def unsigned (n : ℕ) : Json := .number (.integer n)

def readString : Json → Option Str
  | .string text => some text
  | _ => none

/-- An unsigned integer of so many bits. -/
def readUnsigned (bits : ℕ) : Json → Option ℕ
  | .number (.integer n) => if 0 ≤ n ∧ n < 2 ^ bits then some n.toNat else none
  | _ => none

def readSigned (bits : ℕ) : Json → Option ℤ
  | .number (.integer n) =>
    if -2 ^ (bits - 1) ≤ n ∧ n < 2 ^ (bits - 1) then some n else none
  | _ => none

def readOption {α : Type} (read : Json → Option α) : Json → Option (Option α)
  | .null => some none
  | value => (read value).map some

def readList {α : Type} (read : Json → Option α) : Json → Option (List α)
  | .array items => items.mapM read
  | _ => none

/-! ## Structs -/

/-- The fields of a struct, in the order of a `BTreeMap`. -/
def structValue (fields : List (String × Json)) : Json :=
  .object ((fields.map fun (name, value) => (name.toList, value)).insertionSort
    fun field next => field.1 ≤ next.1)

/-- What a value has for each field of a struct: an object by its keys, an array one after
another. -/
def structFields? (names : List String) : Json → Option (String → Option Json)
  | .object entries =>
    if entries.all fun entry => names.any fun name => name.toList = entry.1 then
      some fun name => entries.lookup name.toList
    else none
  | .array items =>
    if items.length ≤ names.length then some fun name => items[names.idxOf name]? else none
  | _ => none

def withDefault {α : Type} (default : α) (read : Json → Option α) : Option Json → Option α
  | none => some default
  | some value => read value

/-! ## The configuration -/

/-- The fields that are `u32`, and those that are `u64` or `usize`. -/
def IngestionLimits.shortFields (limits : IngestionLimits) : List (String × ℕ) :=
  [("public_requests_per_minute", limits.publicRequestsPerMinute),
    ("public_request_burst", limits.publicRequestBurst),
    ("challenges_per_minute", limits.challengesPerMinute),
    ("challenge_burst", limits.challengeBurst),
    ("challenges_per_hour", limits.challengesPerHour),
    ("submissions_per_minute", limits.submissionsPerMinute),
    ("submission_burst", limits.submissionBurst),
    ("submissions_per_hour", limits.submissionsPerHour),
    ("concurrent_uploads_per_ip", limits.concurrentUploadsPerIp),
    ("concurrent_uploads_global", limits.concurrentUploadsGlobal)]

def IngestionLimits.longFields (limits : IngestionLimits) : List (String × ℕ) :=
  [("maximum_fields", limits.maximumFields),
    ("short_text_bytes", limits.shortTextBytes),
    ("multiline_text_bytes", limits.multilineTextBytes),
    ("metadata_bytes", limits.metadataBytes),
    ("maximum_attachments", limits.maximumAttachments),
    ("attachment_bytes", limits.attachmentBytes),
    ("submission_bytes", limits.submissionBytes),
    ("png_pixels", limits.pngPixels),
    ("png_decoded_bytes", limits.pngDecodedBytes),
    ("upload_timeout_seconds", limits.uploadTimeoutSeconds),
    ("minimum_free_storage_bytes", limits.minimumFreeStorageBytes)]

def IngestionLimits.settings (limits : IngestionLimits) : List (String × Json) :=
  (limits.shortFields ++ limits.longFields).map fun (name, n) => (name, unsigned n)

def IngestionLimits.names : List String :=
  ["public_requests_per_minute", "public_request_burst", "challenges_per_minute",
    "challenge_burst", "challenges_per_hour", "submissions_per_minute", "submission_burst",
    "submissions_per_hour", "concurrent_uploads_per_ip", "concurrent_uploads_global",
    "maximum_fields", "short_text_bytes", "multiline_text_bytes", "metadata_bytes",
    "maximum_attachments", "attachment_bytes", "submission_bytes", "png_pixels",
    "png_decoded_bytes", "upload_timeout_seconds", "minimum_free_storage_bytes"]

def IngestionLimits.ofValue? (value : Json) : Option IngestionLimits := do
  let field ← structFields? IngestionLimits.names value
  let u32 (name : String) : Option ℕ := (field name).bind (readUnsigned 32)
  let u64 (name : String) : Option ℕ := (field name).bind (readUnsigned 64)
  return {
    publicRequestsPerMinute := ← u32 "public_requests_per_minute"
    publicRequestBurst := ← u32 "public_request_burst"
    challengesPerMinute := ← u32 "challenges_per_minute"
    challengeBurst := ← u32 "challenge_burst"
    challengesPerHour := ← u32 "challenges_per_hour"
    submissionsPerMinute := ← u32 "submissions_per_minute"
    submissionBurst := ← u32 "submission_burst"
    submissionsPerHour := ← u32 "submissions_per_hour"
    concurrentUploadsPerIp := ← u32 "concurrent_uploads_per_ip"
    concurrentUploadsGlobal := ← u32 "concurrent_uploads_global"
    maximumFields := ← u64 "maximum_fields"
    shortTextBytes := ← u64 "short_text_bytes"
    multilineTextBytes := ← u64 "multiline_text_bytes"
    metadataBytes := ← u64 "metadata_bytes"
    maximumAttachments := ← u64 "maximum_attachments"
    attachmentBytes := ← u64 "attachment_bytes"
    submissionBytes := ← u64 "submission_bytes"
    pngPixels := ← u64 "png_pixels"
    pngDecodedBytes := ← u64 "png_decoded_bytes"
    uploadTimeoutSeconds := ← u64 "upload_timeout_seconds"
    minimumFreeStorageBytes := ← u64 "minimum_free_storage_bytes" }

def ProofOfWorkConfiguration.settings (proof : ProofOfWorkConfiguration) : List (String × Json) :=
  [("expected_work", unsigned proof.expectedWork),
    ("challenge_lifetime_seconds", unsigned proof.challengeLifetimeSeconds)]

def ProofOfWorkConfiguration.ofValue? (value : Json) : Option ProofOfWorkConfiguration := do
  let field ← structFields? ["expected_work", "challenge_lifetime_seconds"] value
  return {
    expectedWork := ← (field "expected_work").bind (readUnsigned 64)
    challengeLifetimeSeconds := ← (field "challenge_lifetime_seconds").bind (readUnsigned 64) }

def MaintenanceConfiguration.settings (maintenance : MaintenanceConfiguration) :
    List (String × Json) :=
  [("sweep_interval_seconds", unsigned maintenance.sweepIntervalSeconds),
    ("staging_retention_seconds", unsigned maintenance.stagingRetentionSeconds),
    ("report_retention_days", unsigned maintenance.reportRetentionDays),
    ("submission_source_retention_hours", unsigned maintenance.submissionSourceRetentionHours)]

def MaintenanceConfiguration.ofValue? (value : Json) : Option MaintenanceConfiguration := do
  let field ← structFields? ["sweep_interval_seconds", "staging_retention_seconds",
    "report_retention_days", "submission_source_retention_hours"] value
  return {
    sweepIntervalSeconds := ← (field "sweep_interval_seconds").bind (readUnsigned 64)
    stagingRetentionSeconds := ← (field "staging_retention_seconds").bind (readUnsigned 64)
    reportRetentionDays := ← (field "report_retention_days").bind (readUnsigned 32)
    submissionSourceRetentionHours :=
      ← (field "submission_source_retention_hours").bind (readUnsigned 32) }

def GithubIssueLabels.settings (labels : GithubIssueLabels) : List (String × Json) :=
  [("crash", .array (labels.crash.map .string)),
    ("web_compat", .array (labels.webCompat.map .string))]

def GithubIssueLabels.ofValue? (value : Json) : Option GithubIssueLabels := do
  let field ← structFields? ["crash", "web_compat"] value
  return {
    crash := ← (field "crash").bind (readList readString)
    webCompat := ← (field "web_compat").bind (readList readString) }

def GithubConfiguration.settings (github : GithubConfiguration) : List (String × Json) :=
  [("repository", .string github.repository),
    ("authorization_team", .string github.authorizationTeam),
    ("reports_issue_field_id",
      (github.reportsIssueFieldId.map fun id => .number (.integer id)).getD .null),
    ("token_refresh_before_seconds", unsigned github.tokenRefreshBeforeSeconds),
    ("membership_recheck_seconds", unsigned github.membershipRecheckSeconds),
    ("labels", structValue github.labels.settings)]

def GithubConfiguration.names : List String :=
  ["repository", "authorization_team", "reports_issue_field_id", "token_refresh_before_seconds",
    "membership_recheck_seconds", "labels"]

def GithubConfiguration.ofValue? (value : Json) : Option GithubConfiguration := do
  let field ← structFields? GithubConfiguration.names value
  let default := GithubConfiguration.default
  return {
    repository := ← (field "repository").bind readString
    authorizationTeam :=
      ← withDefault default.authorizationTeam readString (field "authorization_team")
    reportsIssueFieldId :=
      ← withDefault none (readOption (readSigned 64)) (field "reports_issue_field_id")
    tokenRefreshBeforeSeconds := ← withDefault default.tokenRefreshBeforeSeconds (readUnsigned 64)
      (field "token_refresh_before_seconds")
    membershipRecheckSeconds := ← (field "membership_recheck_seconds").bind (readUnsigned 64)
    labels := ← withDefault default.labels GithubIssueLabels.ofValue? (field "labels") }

def DiscordWebhookUrls.settings (urls : DiscordWebhookUrls) : List (String × Json) :=
  [("crash", (urls.crash.map Json.string).getD .null),
    ("web_compat", (urls.webCompat.map Json.string).getD .null)]

def DiscordWebhookUrls.ofValue? (value : Json) : Option DiscordWebhookUrls := do
  let field ← structFields? ["crash", "web_compat"] value
  return {
    crash := ← withDefault none (readOption readString) (field "crash")
    webCompat := ← withDefault none (readOption readString) (field "web_compat") }

def DiscordConfiguration.settings (discord : DiscordConfiguration) : List (String × Json) :=
  [("webhook_urls", structValue discord.webhookUrls.settings),
    ("poll_interval_seconds", unsigned discord.pollIntervalSeconds),
    ("request_timeout_seconds", unsigned discord.requestTimeoutSeconds),
    ("initial_retry_seconds", unsigned discord.initialRetrySeconds),
    ("maximum_retry_seconds", unsigned discord.maximumRetrySeconds),
    ("stack_trace_lines", unsigned discord.stackTraceLines),
    ("stack_trace_characters", unsigned discord.stackTraceCharacters)]

def DiscordConfiguration.names : List String :=
  ["webhook_urls", "poll_interval_seconds", "request_timeout_seconds", "initial_retry_seconds",
    "maximum_retry_seconds", "stack_trace_lines", "stack_trace_characters"]

def DiscordConfiguration.ofValue? (value : Json) : Option DiscordConfiguration := do
  let field ← structFields? DiscordConfiguration.names value
  let u64 (name : String) : Option ℕ := (field name).bind (readUnsigned 64)
  return {
    webhookUrls := ← (field "webhook_urls").bind DiscordWebhookUrls.ofValue?
    pollIntervalSeconds := ← u64 "poll_interval_seconds"
    requestTimeoutSeconds := ← u64 "request_timeout_seconds"
    initialRetrySeconds := ← u64 "initial_retry_seconds"
    maximumRetrySeconds := ← u64 "maximum_retry_seconds"
    stackTraceLines := ← u64 "stack_trace_lines"
    stackTraceCharacters := ← u64 "stack_trace_characters" }

def AuditConfiguration.default : AuditConfiguration := ⟨10 * 60, 3_650⟩

def AuditConfiguration.settings (audit : AuditConfiguration) : List (String × Json) :=
  [("denied_sign_in_window_seconds", unsigned audit.deniedSignInWindowSeconds),
    ("retention_days", unsigned audit.retentionDays)]

def AuditConfiguration.ofValue? (value : Json) : Option AuditConfiguration := do
  let field ← structFields? ["denied_sign_in_window_seconds", "retention_days"] value
  let default := AuditConfiguration.default
  return {
    deniedSignInWindowSeconds := ← withDefault default.deniedSignInWindowSeconds (readUnsigned 64)
      (field "denied_sign_in_window_seconds")
    retentionDays := ← withDefault default.retentionDays (readUnsigned 32)
      (field "retention_days") }

/-- The fields of a configuration and of the proxies that it trusts, which are kept by their
texts. -/
def RuntimeConfiguration.settings (configuration : RuntimeConfiguration)
    (trustedProxies : List Str) : List (String × Json) :=
  [("public_base_url", .string configuration.publicBaseUrl),
    ("admin_base_url", .string configuration.adminBaseUrl),
    ("github", structValue configuration.github.settings),
    ("trusted_proxies", .array (trustedProxies.map .string)),
    ("limits", structValue configuration.limits.settings),
    ("proof_of_work", structValue configuration.proofOfWork.settings),
    ("maintenance", structValue configuration.maintenance.settings),
    ("discord", structValue configuration.discord.settings),
    ("session_lifetime_seconds", unsigned configuration.sessionLifetimeSeconds),
    ("audit", structValue configuration.audit.settings)]

def RuntimeConfiguration.names : List String :=
  ["public_base_url", "admin_base_url", "github", "trusted_proxies", "limits", "proof_of_work",
    "maintenance", "discord", "session_lifetime_seconds", "audit"]

/-- `serde_json::to_value`. -/
def RuntimeConfiguration.toValue (configuration : RuntimeConfiguration)
    (trustedProxies : List Str) : Json :=
  structValue (configuration.settings trustedProxies)

/-- `serde_json::from_value`, where `readProxy` reads a proxy and prints it. -/
def RuntimeConfiguration.ofValue? (readProxy : Str → Option Str) (value : Json) :
    Option (RuntimeConfiguration × List Str) := do
  let field ← structFields? RuntimeConfiguration.names value
  let trustedProxies ← (field "trusted_proxies").bind
    (readList fun value => (readString value).bind readProxy)
  let configuration := {
    publicBaseUrl := ← (field "public_base_url").bind readString
    adminBaseUrl := ← (field "admin_base_url").bind readString
    github := ← (field "github").bind GithubConfiguration.ofValue?
    limits := ← (field "limits").bind IngestionLimits.ofValue?
    proofOfWork := ← (field "proof_of_work").bind ProofOfWorkConfiguration.ofValue?
    maintenance := ← (field "maintenance").bind MaintenanceConfiguration.ofValue?
    discord := ← withDefault .default DiscordConfiguration.ofValue? (field "discord")
    sessionLifetimeSeconds := ← withDefault (24 * 60 * 60) (readUnsigned 64)
      (field "session_lifetime_seconds")
    audit := ← withDefault .default AuditConfiguration.ofValue? (field "audit") }
  return (configuration, trustedProxies)

/-! ## What is written is read -/

section

variable {names : List String} {fields : List (String × Json)} {value : Json} {n bits : ℕ}

theorem readUnsigned_unsigned (h : n < 2 ^ bits) : readUnsigned bits (unsigned n) = some n := by
  have hbound : (0 : ℤ) ≤ n ∧ (n : ℤ) < 2 ^ bits := ⟨Int.natCast_nonneg n, by exact_mod_cast h⟩
  unfold readUnsigned unsigned
  dsimp only
  rw [if_pos hbound, Int.toNat_natCast]

theorem readUnsigned32 (h : n < 2 ^ 32) : readUnsigned 32 (unsigned n) = some n :=
  readUnsigned_unsigned h

theorem readUnsigned64 (h : n < 2 ^ 64) : readUnsigned 64 (unsigned n) = some n :=
  readUnsigned_unsigned h

theorem readList_map {α : Type} {read : Json → Option α} {write : α → Json} {items : List α}
    (h : ∀ item ∈ items, read (write item) = some item) :
    readList read (.array (items.map write)) = some items := by
  unfold readList
  dsimp only
  induction items with
  | nil => rfl
  | cons item items ih =>
    obtain ⟨hitem, hitems⟩ := List.forall_mem_cons.mp h
    rw [List.map_cons, List.mapM_cons, hitem, ih hitems]
    rfl

theorem readOption_getD {α : Type} {read : Json → Option α} {write : α → Json} {item : Option α}
    (hwrite : ∀ item, write item ≠ .null) (h : ∀ value ∈ item, read (write value) = some value) :
    readOption read ((item.map write).getD .null) = some item := by
  cases item with
  | none => rfl
  | some value =>
    have hvalue := h value rfl
    change readOption read (write value) = _
    unfold readOption
    split
    · exact absurd ‹_› (hwrite value)
    · rw [hvalue]
      rfl

/-- Each field of a struct is found by its name. -/
theorem lookup_structValue (hnodup : (fields.map Prod.fst).Nodup) :
    ∃ entries, structValue fields = .object entries ∧
      (∀ entry ∈ fields, entries.lookup entry.1.toList = some entry.2) ∧
      ∀ entry ∈ entries, ∃ field ∈ fields, field.1.toList = entry.1 := by
  have hperm := List.perm_insertionSort (fun field next : Str × Json => field.1 ≤ next.1)
    (fields.map fun (name, value) => (name.toList, value))
  have hkeys : ((fields.map fun (name, value) => (name.toList, value)).map Prod.fst).Nodup := by
    have hmap : (fields.map Prod.fst).map String.toList =
        fields.map (Prod.fst ∘ fun (name, value) => (name.toList, value)) := List.map_map
    rw [List.map_map, ← hmap]
    exact hnodup.map fun _ _ => String.toList_injective
  refine ⟨_, rfl, fun entry hentry => ?_, fun entry hentry => ?_⟩
  · refine Json.lookup_of_mem ((hperm.map Prod.fst).nodup_iff.mpr hkeys) (hperm.mem_iff.mpr ?_)
    exact List.mem_map.mpr ⟨entry, hentry, rfl⟩
  · obtain ⟨field, hfield, rfl⟩ := List.mem_map.mp (hperm.mem_iff.mp hentry)
    exact ⟨field, hfield, rfl⟩

theorem structFields?_structValue (hnames : fields.map Prod.fst = names) (hnodup : names.Nodup) :
    ∃ field, structFields? names (structValue fields) = some field ∧
      ∀ entry ∈ fields, field entry.1 = some entry.2 := by
  obtain ⟨entries, hentries, hlookup, hkeys⟩ := lookup_structValue (hnames ▸ hnodup)
  refine ⟨fun name => entries.lookup name.toList, ?_, hlookup⟩
  rw [hentries]
  refine if_pos (List.all_eq_true.mpr fun entry hentry => List.any_eq_true.mpr ?_)
  obtain ⟨field, hfield, hkey⟩ := hkeys entry hentry
  exact ⟨field.1, hnames ▸ List.mem_map_of_mem hfield, decide_eq_true hkey⟩

theorem structFields?_array (hnames : fields.map Prod.fst = names) (hnodup : names.Nodup) :
    ∃ field, structFields? names (.array (fields.map Prod.snd)) = some field ∧
      ∀ entry ∈ fields, field entry.1 = some entry.2 := by
  have hlength : (fields.map Prod.snd).length ≤ names.length := by
    rw [← hnames, List.length_map, List.length_map]
  refine ⟨_, if_pos hlength, fun entry hentry => ?_⟩
  obtain ⟨i, hi, rfl⟩ := List.getElem_of_mem hentry
  have hname : names.idxOf fields[i].1 = i := by
    subst hnames
    have hmap : i < (fields.map Prod.fst).length := by rwa [List.length_map]
    have hget : (fields.map Prod.fst)[i] = fields[i].1 := List.getElem_map _
    rw [← hget]
    exact hnodup.idxOf_getElem i _
  rw [hname, List.getElem?_map, List.getElem?_eq_getElem hi]
  rfl

/-- The numbers of the limits are of their types. -/
structure IngestionLimits.Fits (limits : IngestionLimits) : Prop where
  short : ∀ field ∈ limits.shortFields, field.2 < 2 ^ 32
  long : ∀ field ∈ limits.longFields, field.2 < 2 ^ 64

theorem IngestionLimits.ofValue?_settings {limits : IngestionLimits} (h : limits.Fits) :
    IngestionLimits.ofValue? (structValue limits.settings) = some limits := by
  have hnames : limits.settings.map Prod.fst = IngestionLimits.names := rfl
  obtain ⟨field, hfield, hfields⟩ := structFields?_structValue hnames (by decide)
  have hshort : ∀ number ∈ limits.shortFields,
      (field number.1).bind (readUnsigned 32) = some number.2 := by
    intro number hnumber
    rw [hfields (number.1, unsigned number.2)
      (List.mem_map.mpr ⟨number, List.mem_append_left _ hnumber, rfl⟩), Option.bind_some,
      readUnsigned_unsigned (h.short number hnumber)]
  have hlong : ∀ number ∈ limits.longFields,
      (field number.1).bind (readUnsigned 64) = some number.2 := by
    intro number hnumber
    rw [hfields (number.1, unsigned number.2)
      (List.mem_map.mpr ⟨number, List.mem_append_right _ hnumber, rfl⟩), Option.bind_some,
      readUnsigned_unsigned (h.long number hnumber)]
  simp only [shortFields, List.forall_mem_cons] at hshort
  simp only [longFields, List.forall_mem_cons] at hlong
  obtain ⟨_, _, _, _, _, _, _, _, _, _, -⟩ := hshort
  obtain ⟨_, _, _, _, _, _, _, _, _, _, _, -⟩ := hlong
  unfold IngestionLimits.ofValue?
  dsimp only
  refine Option.bind_eq_some_iff.mpr ⟨field, hfield, ?_⟩
  iterate 21 refine Option.bind_eq_some_iff.mpr ⟨_, ‹_›, ?_⟩
  rfl

section

variable {α : Type} {read : Json → Option α} {field : String → Option Json} {name : String} {x : α}

theorem bind_field (hfield : field name = some value) (hread : read value = some x) :
    (field name).bind read = some x := by
  rw [hfield, Option.bind_some, hread]

theorem withDefault_field {default : α} (hfield : field name = some value)
    (hread : read value = some x) : withDefault default read (field name) = some x := by
  rw [hfield, withDefault, hread]

end

theorem ProofOfWorkConfiguration.ofValue?_settings {proof : ProofOfWorkConfiguration}
    (hwork : proof.expectedWork < 2 ^ 64) (hlifetime : proof.challengeLifetimeSeconds < 2 ^ 64) :
    ProofOfWorkConfiguration.ofValue? (structValue proof.settings) = some proof := by
  have hnames : proof.settings.map Prod.fst = ["expected_work", "challenge_lifetime_seconds"] := rfl
  obtain ⟨field, hfield, hfields⟩ := structFields?_structValue hnames (by decide)
  simp only [settings, List.forall_mem_cons] at hfields
  obtain ⟨h₁, h₂, -⟩ := hfields
  unfold ProofOfWorkConfiguration.ofValue?
  exact Option.bind_eq_some_iff.mpr ⟨field, hfield,
    Option.bind_eq_some_iff.mpr ⟨_, bind_field h₁ (readUnsigned64 hwork),
    Option.bind_eq_some_iff.mpr ⟨_, bind_field h₂ (readUnsigned64 hlifetime), rfl⟩⟩⟩

theorem MaintenanceConfiguration.ofValue?_settings {maintenance : MaintenanceConfiguration}
    (hsweep : maintenance.sweepIntervalSeconds < 2 ^ 64)
    (hstaging : maintenance.stagingRetentionSeconds < 2 ^ 64)
    (hreports : maintenance.reportRetentionDays < 2 ^ 32)
    (hsources : maintenance.submissionSourceRetentionHours < 2 ^ 32) :
    MaintenanceConfiguration.ofValue? (structValue maintenance.settings) = some maintenance := by
  have hnames : maintenance.settings.map Prod.fst = ["sweep_interval_seconds",
    "staging_retention_seconds", "report_retention_days",
    "submission_source_retention_hours"] := rfl
  obtain ⟨field, hfield, hfields⟩ := structFields?_structValue hnames (by decide)
  simp only [settings, List.forall_mem_cons] at hfields
  obtain ⟨h₁, h₂, h₃, h₄, -⟩ := hfields
  unfold MaintenanceConfiguration.ofValue?
  exact Option.bind_eq_some_iff.mpr ⟨field, hfield,
    Option.bind_eq_some_iff.mpr ⟨_, bind_field h₁ (readUnsigned64 hsweep),
    Option.bind_eq_some_iff.mpr ⟨_, bind_field h₂ (readUnsigned64 hstaging),
    Option.bind_eq_some_iff.mpr ⟨_, bind_field h₃ (readUnsigned32 hreports),
    Option.bind_eq_some_iff.mpr ⟨_, bind_field h₄ (readUnsigned32 hsources), rfl⟩⟩⟩⟩⟩

theorem GithubIssueLabels.ofValue?_settings (labels : GithubIssueLabels) :
    GithubIssueLabels.ofValue? (structValue labels.settings) = some labels := by
  have hnames : labels.settings.map Prod.fst = ["crash", "web_compat"] := rfl
  obtain ⟨field, hfield, hfields⟩ := structFields?_structValue hnames (by decide)
  simp only [settings, List.forall_mem_cons] at hfields
  obtain ⟨h₁, h₂, -⟩ := hfields
  unfold GithubIssueLabels.ofValue?
  exact Option.bind_eq_some_iff.mpr ⟨field, hfield,
    Option.bind_eq_some_iff.mpr ⟨_, bind_field h₁ (readList_map fun _ _ => rfl),
    Option.bind_eq_some_iff.mpr ⟨_, bind_field h₂ (readList_map fun _ _ => rfl), rfl⟩⟩⟩

/-- The numbers of the settings are of their types. -/
structure GithubConfiguration.Fits (github : GithubConfiguration) : Prop where
  id : ∀ id ∈ github.reportsIssueFieldId, -2 ^ 63 ≤ id ∧ id < 2 ^ 63
  refresh : github.tokenRefreshBeforeSeconds < 2 ^ 64
  recheck : github.membershipRecheckSeconds < 2 ^ 64

theorem GithubConfiguration.ofValue?_settings {github : GithubConfiguration} (h : github.Fits) :
    GithubConfiguration.ofValue? (structValue github.settings) = some github := by
  have hnames : github.settings.map Prod.fst = GithubConfiguration.names := rfl
  obtain ⟨field, hfield, hfields⟩ := structFields?_structValue hnames (by decide)
  have hid : readOption (readSigned 64)
      ((github.reportsIssueFieldId.map fun id => Json.number (.integer id)).getD .null) =
        some github.reportsIssueFieldId :=
    readOption_getD (fun _ => nofun) fun id hid => if_pos (h.id id hid)
  simp only [settings, List.forall_mem_cons] at hfields
  obtain ⟨h₁, h₂, h₃, h₄, h₅, h₆, -⟩ := hfields
  unfold GithubConfiguration.ofValue?
  exact Option.bind_eq_some_iff.mpr ⟨field, hfield,
    Option.bind_eq_some_iff.mpr ⟨_, bind_field h₁ rfl,
    Option.bind_eq_some_iff.mpr ⟨_, withDefault_field h₂ rfl,
    Option.bind_eq_some_iff.mpr ⟨_, withDefault_field h₃ hid,
    Option.bind_eq_some_iff.mpr ⟨_, withDefault_field h₄ (readUnsigned64 h.refresh),
    Option.bind_eq_some_iff.mpr ⟨_, bind_field h₅ (readUnsigned64 h.recheck),
    Option.bind_eq_some_iff.mpr
      ⟨_, withDefault_field h₆ github.labels.ofValue?_settings, rfl⟩⟩⟩⟩⟩⟩⟩

theorem DiscordWebhookUrls.ofValue?_settings (urls : DiscordWebhookUrls) :
    DiscordWebhookUrls.ofValue? (structValue urls.settings) = some urls := by
  have hnames : urls.settings.map Prod.fst = ["crash", "web_compat"] := rfl
  obtain ⟨field, hfield, hfields⟩ := structFields?_structValue hnames (by decide)
  have hurl (url : Option Str) :
      readOption readString ((url.map Json.string).getD .null) = some url :=
    readOption_getD (fun _ => nofun) fun _ _ => rfl
  simp only [settings, List.forall_mem_cons] at hfields
  obtain ⟨h₁, h₂, -⟩ := hfields
  unfold DiscordWebhookUrls.ofValue?
  exact Option.bind_eq_some_iff.mpr ⟨field, hfield,
    Option.bind_eq_some_iff.mpr ⟨_, withDefault_field h₁ (hurl _),
    Option.bind_eq_some_iff.mpr ⟨_, withDefault_field h₂ (hurl _), rfl⟩⟩⟩

theorem DiscordConfiguration.ofValue?_settings {discord : DiscordConfiguration}
    (h : ∀ n ∈ [discord.pollIntervalSeconds, discord.requestTimeoutSeconds,
      discord.initialRetrySeconds, discord.maximumRetrySeconds, discord.stackTraceLines,
      discord.stackTraceCharacters], n < 2 ^ 64) :
    DiscordConfiguration.ofValue? (structValue discord.settings) = some discord := by
  have hnames : discord.settings.map Prod.fst = DiscordConfiguration.names := rfl
  obtain ⟨field, hfield, hfields⟩ := structFields?_structValue hnames (by decide)
  simp only [settings, List.forall_mem_cons] at hfields
  obtain ⟨h₁, h₂, h₃, h₄, h₅, h₆, h₇, -⟩ := hfields
  simp only [List.forall_mem_cons] at h
  obtain ⟨hpoll, htimeout, hinitial, hmaximum, hlines, hcharacters, -⟩ := h
  unfold DiscordConfiguration.ofValue?
  exact Option.bind_eq_some_iff.mpr ⟨field, hfield,
    Option.bind_eq_some_iff.mpr ⟨_, bind_field h₁ discord.webhookUrls.ofValue?_settings,
    Option.bind_eq_some_iff.mpr ⟨_, bind_field h₂ (readUnsigned64 hpoll),
    Option.bind_eq_some_iff.mpr ⟨_, bind_field h₃ (readUnsigned64 htimeout),
    Option.bind_eq_some_iff.mpr ⟨_, bind_field h₄ (readUnsigned64 hinitial),
    Option.bind_eq_some_iff.mpr ⟨_, bind_field h₅ (readUnsigned64 hmaximum),
    Option.bind_eq_some_iff.mpr ⟨_, bind_field h₆ (readUnsigned64 hlines),
    Option.bind_eq_some_iff.mpr
      ⟨_, bind_field h₇ (readUnsigned64 hcharacters), rfl⟩⟩⟩⟩⟩⟩⟩⟩

theorem AuditConfiguration.ofValue?_settings {audit : AuditConfiguration}
    (hwindow : audit.deniedSignInWindowSeconds < 2 ^ 64) (hdays : audit.retentionDays < 2 ^ 32) :
    AuditConfiguration.ofValue? (structValue audit.settings) = some audit := by
  have hnames : audit.settings.map Prod.fst =
    ["denied_sign_in_window_seconds", "retention_days"] := rfl
  obtain ⟨field, hfield, hfields⟩ := structFields?_structValue hnames (by decide)
  simp only [settings, List.forall_mem_cons] at hfields
  obtain ⟨h₁, h₂, -⟩ := hfields
  unfold AuditConfiguration.ofValue?
  exact Option.bind_eq_some_iff.mpr ⟨field, hfield,
    Option.bind_eq_some_iff.mpr ⟨_, withDefault_field h₁ (readUnsigned64 hwindow),
    Option.bind_eq_some_iff.mpr ⟨_, withDefault_field h₂ (readUnsigned32 hdays), rfl⟩⟩⟩

/-- What `validate` leaves open of the types of the numbers. -/
structure RuntimeConfiguration.Fits (configuration : RuntimeConfiguration) : Prop where
  id : ∀ id ∈ configuration.github.reportsIssueFieldId, id < 2 ^ 63
  storage : configuration.limits.minimumFreeStorageBytes < 2 ^ 64

variable {parseUrl : Str → Option UrlParts} {configuration : RuntimeConfiguration}
  {readProxy : Str → Option Str} {trustedProxies : List Str}

/-- The limits of a valid configuration are of their types. -/
theorem IngestionLimits.fits_of_validate (h : configuration.validate parseUrl = .ok ())
    (hfits : configuration.Fits) : configuration.limits.Fits := by
  unfold RuntimeConfiguration.validate at h
  obtain ⟨_, -, h⟩ := bind_eq_ok.mp h
  obtain ⟨_, -, h⟩ := bind_eq_ok.mp h
  obtain ⟨_, -, h⟩ := bind_eq_ok.mp h
  obtain ⟨_, -, h⟩ := bind_eq_ok.mp h
  obtain ⟨_, -, h⟩ := bind_eq_ok.mp h
  obtain ⟨_, -, h⟩ := bind_eq_ok.mp h
  obtain ⟨_, hrates, h⟩ := bind_eq_ok.mp h
  obtain ⟨_, hpayload, h⟩ := bind_eq_ok.mp h
  obtain ⟨_, hoperational, -⟩ := bind_eq_ok.mp h
  have hrates := ensure_eq_ok.mp hrates
  have hpayload := ensure_eq_ok.mp hpayload
  have hoperational := ensure_eq_ok.mp hoperational
  have hstorage := hfits.storage
  simp only [List.all_eq_true, List.forall_mem_cons, Bool.and_eq_true, decide_eq_true_eq] at hrates
  simp only [Bool.not_eq_true', Bool.or_eq_false_iff, decide_eq_false_iff_not, outside,
    Bool.not_eq_false', Bool.and_eq_true, decide_eq_true_eq] at hpayload hoperational
  unfold hardMaxFields hardMaxAttachments hardMaxBodyBytes hardMaxPngPixels hardMaxPngDecodedBytes
    at hpayload
  refine ⟨?_, ?_⟩
  · simp only [shortFields, List.forall_mem_cons, List.not_mem_nil, false_implies, implies_true,
      and_true]
    omega
  · simp only [longFields, List.forall_mem_cons, List.not_mem_nil, false_implies, implies_true,
      and_true]
    omega

/-- The fields of a valid configuration are read, however its value keeps them. -/
theorem RuntimeConfiguration.ofValue?_of_fields {field : String → Option Json}
    (h : configuration.validate parseUrl = .ok ()) (hfits : configuration.Fits)
    (hproxies : ∀ proxy ∈ trustedProxies, readProxy proxy = some proxy)
    (hfield : structFields? RuntimeConfiguration.names value = some field)
    (hfields : ∀ entry ∈ configuration.settings trustedProxies, field entry.1 = some entry.2) :
    RuntimeConfiguration.ofValue? readProxy value = some (configuration, trustedProxies) := by
  have hlimits := IngestionLimits.fits_of_validate h hfits
  unfold RuntimeConfiguration.validate at h
  obtain ⟨_, -, h⟩ := bind_eq_ok.mp h
  obtain ⟨_, -, h⟩ := bind_eq_ok.mp h
  obtain ⟨_, -, h⟩ := bind_eq_ok.mp h
  obtain ⟨_, -, h⟩ := bind_eq_ok.mp h
  obtain ⟨_, -, h⟩ := bind_eq_ok.mp h
  obtain ⟨_, hid, h⟩ := bind_eq_ok.mp h
  obtain ⟨_, -, h⟩ := bind_eq_ok.mp h
  obtain ⟨_, -, h⟩ := bind_eq_ok.mp h
  obtain ⟨_, hoperational, hdiscord⟩ := bind_eq_ok.mp h
  obtain ⟨_, hdiscord, -⟩ := bind_eq_ok.mp hdiscord
  have hid := ensure_eq_ok.mp hid
  have hoperational := ensure_eq_ok.mp hoperational
  have hdiscord := ensure_eq_ok.mp hdiscord
  simp only [Bool.not_eq_true', Bool.or_eq_false_iff, decide_eq_false_iff_not, outside,
    Bool.not_eq_false', Bool.and_eq_true, decide_eq_true_eq] at hoperational hdiscord
  have hgithub : configuration.github.Fits := by
    refine ⟨fun id hmem => ⟨?_, hfits.id id hmem⟩, by omega, by omega⟩
    rw [Option.mem_def.mp hmem] at hid
    have hpositive : 1 ≤ id := of_decide_eq_true hid
    omega
  have hnumbers : ∀ n ∈ [configuration.discord.pollIntervalSeconds,
      configuration.discord.requestTimeoutSeconds, configuration.discord.initialRetrySeconds,
      configuration.discord.maximumRetrySeconds, configuration.discord.stackTraceLines,
      configuration.discord.stackTraceCharacters], n < 2 ^ 64 := by
    simp only [List.forall_mem_cons, List.not_mem_nil, false_implies, implies_true,
      and_true]
    omega
  simp only [settings, List.forall_mem_cons] at hfields
  obtain ⟨h₁, h₂, h₃, h₄, h₅, h₆, h₇, h₈, h₉, h₁₀, -⟩ := hfields
  have hlist : readList (fun value => (readString value).bind readProxy)
      (.array (trustedProxies.map .string)) = some trustedProxies := readList_map hproxies
  unfold RuntimeConfiguration.ofValue?
  refine Option.bind_eq_some_iff.mpr ⟨field, hfield,
    Option.bind_eq_some_iff.mpr ⟨_, bind_field h₄ hlist,
    Option.bind_eq_some_iff.mpr ⟨_, bind_field h₁ rfl,
    Option.bind_eq_some_iff.mpr ⟨_, bind_field h₂ rfl,
    Option.bind_eq_some_iff.mpr ⟨_, bind_field h₃ (GithubConfiguration.ofValue?_settings hgithub),
    Option.bind_eq_some_iff.mpr ⟨_, bind_field h₅ (IngestionLimits.ofValue?_settings hlimits),
    Option.bind_eq_some_iff.mpr ⟨_, bind_field h₆
      (ProofOfWorkConfiguration.ofValue?_settings ?_ ?_),
    Option.bind_eq_some_iff.mpr ⟨_, bind_field h₇
      (MaintenanceConfiguration.ofValue?_settings ?_ ?_ ?_ ?_),
    Option.bind_eq_some_iff.mpr ⟨_, withDefault_field h₈
      (DiscordConfiguration.ofValue?_settings hnumbers),
    Option.bind_eq_some_iff.mpr ⟨_, withDefault_field h₉ (readUnsigned64 ?_),
    Option.bind_eq_some_iff.mpr ⟨_, withDefault_field h₁₀
      (AuditConfiguration.ofValue?_settings ?_ ?_), rfl⟩⟩⟩⟩⟩⟩⟩⟩⟩⟩⟩
  all_goals omega

/-- A valid configuration that is written is read again. -/
theorem RuntimeConfiguration.ofValue?_toValue (h : configuration.validate parseUrl = .ok ())
    (hfits : configuration.Fits)
    (hproxies : ∀ proxy ∈ trustedProxies, readProxy proxy = some proxy) :
    RuntimeConfiguration.ofValue? readProxy (configuration.toValue trustedProxies) =
      some (configuration, trustedProxies) := by
  have hnames : (configuration.settings trustedProxies).map Prod.fst =
    RuntimeConfiguration.names := rfl
  obtain ⟨field, hfield, hfields⟩ := structFields?_structValue hnames (by decide)
  exact ofValue?_of_fields h hfits hproxies hfield hfields

end

end LadybirdReports.Ingestion
