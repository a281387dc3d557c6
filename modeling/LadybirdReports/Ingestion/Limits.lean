import LadybirdReports.Lib.StrSearch

/-!
# The limits that a configuration sets

`RuntimeConfiguration::validate`, in the order of its checks. A configuration that passes it has
limits within the hard ones, which the defaults are (`limits_of_validate`, `validate_default`). Of a
URL that parses, only the parts that are looked at are kept.
-/

namespace LadybirdReports.Ingestion

open Rust

def hardMaxBodyBytes : ℕ := 66 * 1024 * 1024

def hardMaxFields : ℕ := 256

def hardMaxAttachments : ℕ := 16

def hardMaxPngPixels : ℕ := 50_000_000

def hardMaxPngDecodedBytes : ℕ := 64 * 1024 * 1024

structure IngestionLimits where
  publicRequestsPerMinute : ℕ
  publicRequestBurst : ℕ
  challengesPerMinute : ℕ
  challengeBurst : ℕ
  challengesPerHour : ℕ
  submissionsPerMinute : ℕ
  submissionBurst : ℕ
  submissionsPerHour : ℕ
  concurrentUploadsPerIp : ℕ
  concurrentUploadsGlobal : ℕ
  maximumFields : ℕ
  shortTextBytes : ℕ
  multilineTextBytes : ℕ
  metadataBytes : ℕ
  maximumAttachments : ℕ
  attachmentBytes : ℕ
  submissionBytes : ℕ
  pngPixels : ℕ
  pngDecodedBytes : ℕ
  uploadTimeoutSeconds : ℕ
  minimumFreeStorageBytes : ℕ

structure ProofOfWorkConfiguration where
  expectedWork : ℕ
  challengeLifetimeSeconds : ℕ

structure MaintenanceConfiguration where
  sweepIntervalSeconds : ℕ
  stagingRetentionSeconds : ℕ
  reportRetentionDays : ℕ
  submissionSourceRetentionHours : ℕ

/-- The labels of the GitHub issue created from a report, by kind of report. -/
structure GithubIssueLabels where
  crash : List Str
  webCompat : List Str

structure GithubConfiguration where
  repository : Str
  authorizationTeam : Str
  reportsIssueFieldId : Option ℤ
  tokenRefreshBeforeSeconds : ℕ
  membershipRecheckSeconds : ℕ
  labels : GithubIssueLabels

structure DiscordWebhookUrls where
  crash : Option Str
  webCompat : Option Str

structure DiscordConfiguration where
  webhookUrls : DiscordWebhookUrls
  pollIntervalSeconds : ℕ
  requestTimeoutSeconds : ℕ
  initialRetrySeconds : ℕ
  maximumRetrySeconds : ℕ
  stackTraceLines : ℕ
  stackTraceCharacters : ℕ

structure AuditConfiguration where
  deniedSignInWindowSeconds : ℕ
  retentionDays : ℕ

/-- The configuration, less the proxies that are trusted. -/
structure RuntimeConfiguration where
  publicBaseUrl : Str
  adminBaseUrl : Str
  github : GithubConfiguration
  limits : IngestionLimits
  proofOfWork : ProofOfWorkConfiguration
  maintenance : MaintenanceConfiguration
  discord : DiscordConfiguration
  sessionLifetimeSeconds : ℕ
  audit : AuditConfiguration

/-- What `reqwest::Url` makes of a URL. One that cannot be a base has no segments. -/
structure UrlParts where
  scheme : Str
  hostStr : Option Str
  path : Str
  pathSegments : Option (List Str)
  query : Option Str
  fragment : Option Str
  username : Str
  password : Option Str

/-! ## Validation -/

section

variable (parseUrl : Str → Option UrlParts)

def validateOrigin (value : Str) (errorMessage : String) : Except String Unit := do
  let url ← okOr (parseUrl value) errorMessage
  let allowedScheme := url.scheme = "https".toList ||
    (url.scheme = "http".toList &&
      (url.hostStr = some "localhost".toList || url.hostStr = some "127.0.0.1".toList))
  let isOrigin := url.path = "/".toList && url.query.isNone && url.fragment.isNone &&
    url.username = [] && url.password.isNone
  ensure (allowedScheme && isOrigin) errorMessage

/-- `split('/')` has the two components that are valid, and no other. -/
def isPath (validComponent : Str → Bool) (value : Str) : Bool :=
  match split ['/'] value with
  | [first, second] => validComponent first && validComponent second
  | _ => false

def GithubConfiguration.validateRepository (github : GithubConfiguration) : Except String Unit :=
  ensure (isPath (fun component => component ≠ [] && component.all fun c =>
    isAsciiAlphanumeric c || "-._".toList.contains c) github.repository)
    "Invalid GitHub repository"

def GithubConfiguration.validateAuthorizationTeam (github : GithubConfiguration) :
    Except String Unit :=
  ensure (isPath (fun component => component ≠ [] && byteLen component ≤ 100 &&
    component.all fun c => isAsciiAlphanumeric c || c = '-') github.authorizationTeam)
    "Invalid GitHub access team"

def isValidLabel (label : Str) : Bool :=
  trim label ≠ [] && trim label = label && label.length ≤ 50 && !label.any isControl

def GithubIssueLabels.validate (labels : GithubIssueLabels) : Except String Unit :=
  [labels.crash, labels.webCompat].forM fun labels =>
    ensure (labels.length ≤ 20 && labels.all isValidLabel) "Invalid GitHub issue labels"

def IngestionLimits.validateRates (limits : IngestionLimits) : Except String Unit :=
  ensure ([limits.publicRequestsPerMinute, limits.publicRequestBurst, limits.challengesPerMinute,
    limits.challengeBurst, limits.challengesPerHour, limits.submissionsPerMinute,
    limits.submissionBurst, limits.submissionsPerHour].all fun value =>
      1 ≤ value && value ≤ 100_000)
    "Rate limits must be between 1 and 100000"

def IngestionLimits.validatePayload (limits : IngestionLimits) : Except String Unit :=
  let invalid := limits.maximumFields = 0 ||
    limits.maximumFields > hardMaxFields ||
    limits.maximumAttachments > hardMaxAttachments ||
    limits.metadataBytes = 0 ||
    limits.metadataBytes > 2 * 1024 * 1024 ||
    limits.shortTextBytes = 0 ||
    limits.shortTextBytes > limits.multilineTextBytes ||
    limits.multilineTextBytes > limits.metadataBytes ||
    limits.attachmentBytes = 0 ||
    limits.attachmentBytes > limits.submissionBytes ||
    limits.submissionBytes > hardMaxBodyBytes ||
    limits.pngPixels = 0 ||
    limits.pngPixels > hardMaxPngPixels ||
    limits.pngDecodedBytes = 0 ||
    limits.pngDecodedBytes > hardMaxPngDecodedBytes
  ensure (!invalid) "Unsafe payload limits"

/-- `!(first..=last).contains(&value)`. -/
def outside (first last value : ℕ) : Bool := !(first ≤ value && value ≤ last)

def RuntimeConfiguration.validateOperationalLimits (configuration : RuntimeConfiguration) :
    Except String Unit :=
  let limits := configuration.limits
  let proof := configuration.proofOfWork
  let maintenance := configuration.maintenance
  let invalid := limits.concurrentUploadsPerIp = 0 ||
    limits.concurrentUploadsGlobal < limits.concurrentUploadsPerIp ||
    limits.concurrentUploadsGlobal > 128 ||
    outside 5 300 limits.uploadTimeoutSeconds ||
    outside 1 1_000_000_000 proof.expectedWork ||
    outside 30 3600 proof.challengeLifetimeSeconds ||
    outside 3600 2_592_000 configuration.sessionLifetimeSeconds ||
    outside 60 3600 configuration.github.tokenRefreshBeforeSeconds ||
    outside 30 3600 configuration.github.membershipRecheckSeconds ||
    configuration.audit.deniedSignInWindowSeconds > 86_400 ||
    outside 30 36_500 configuration.audit.retentionDays
  let invalid := invalid ||
    outside 60 86_400 maintenance.sweepIntervalSeconds ||
    maintenance.stagingRetentionSeconds < limits.uploadTimeoutSeconds + 60 ||
    maintenance.stagingRetentionSeconds > 604_800 ||
    outside 30 36_500 maintenance.reportRetentionDays ||
    outside 1 8_760 maintenance.submissionSourceRetentionHours
  ensure (!invalid) "Unsafe operational limits"

def validateDiscordWebhookUrl (webhookUrl : Str) : Except String Unit := do
  let url ← okOr (parseUrl webhookUrl) "Invalid Discord webhook URL"
  let validHost := url.hostStr = some "discord.com".toList ||
    url.hostStr = some "discordapp.com".toList
  let validPath := match url.pathSegments with
    | some [api, webhooks, webhookId, webhookToken] =>
      api = "api".toList && webhooks = "webhooks".toList && webhookId ≠ [] && webhookToken ≠ []
    | _ => false
  ensure (url.scheme = "https".toList && validHost && validPath && url.query.isNone &&
    url.fragment.isNone && url.username = [] && url.password.isNone)
    "Invalid Discord webhook URL"

def DiscordConfiguration.validate (discord : DiscordConfiguration) : Except String Unit := do
  let invalidLimits := outside 1 300 discord.pollIntervalSeconds ||
    outside 1 60 discord.requestTimeoutSeconds ||
    outside 5 3_600 discord.initialRetrySeconds ||
    discord.maximumRetrySeconds < discord.initialRetrySeconds ||
    discord.maximumRetrySeconds > 86_400 ||
    outside 1 100 discord.stackTraceLines ||
    outside 256 3_500 discord.stackTraceCharacters
  ensure (!invalidLimits) "Invalid Discord notification settings"
  [discord.webhookUrls.crash, discord.webhookUrls.webCompat].reduceOption.forM
    (validateDiscordWebhookUrl parseUrl)

def RuntimeConfiguration.validate (configuration : RuntimeConfiguration) : Except String Unit := do
  validateOrigin parseUrl configuration.publicBaseUrl "Invalid public URL"
  validateOrigin parseUrl configuration.adminBaseUrl "Invalid admin URL"
  configuration.github.validateRepository
  configuration.github.validateAuthorizationTeam
  configuration.github.labels.validate
  ensure (configuration.github.reportsIssueFieldId.all (1 ≤ ·)) "Invalid GitHub Reports field ID"
  configuration.limits.validateRates
  configuration.limits.validatePayload
  configuration.validateOperationalLimits
  configuration.discord.validate parseUrl

end

/-! ## The hard limits -/

section

variable {parseUrl : Str → Option UrlParts} {configuration : RuntimeConfiguration}
  {limits : IngestionLimits}

theorem hardLimits_of_validatePayload (h : limits.validatePayload = .ok ()) :
    limits.maximumFields ≤ hardMaxFields ∧ limits.maximumAttachments ≤ hardMaxAttachments ∧
      limits.attachmentBytes ≤ limits.submissionBytes ∧
      limits.submissionBytes ≤ hardMaxBodyBytes := by
  have hvalid := ensure_eq_ok.mp h
  simp only [Bool.not_eq_true', Bool.or_eq_false_iff, decide_eq_false_iff_not, Nat.not_lt,
    gt_iff_lt] at hvalid
  tauto

/-- Each limit of a valid configuration is within the hard one. -/
theorem limits_of_validate (h : configuration.validate parseUrl = .ok ()) :
    configuration.limits.maximumFields ≤ hardMaxFields ∧
      configuration.limits.maximumAttachments ≤ hardMaxAttachments ∧
      configuration.limits.attachmentBytes ≤ configuration.limits.submissionBytes ∧
      configuration.limits.submissionBytes ≤ hardMaxBodyBytes := by
  unfold RuntimeConfiguration.validate at h
  obtain ⟨_, -, h⟩ := bind_eq_ok.mp h
  obtain ⟨_, -, h⟩ := bind_eq_ok.mp h
  obtain ⟨_, -, h⟩ := bind_eq_ok.mp h
  obtain ⟨_, -, h⟩ := bind_eq_ok.mp h
  obtain ⟨_, -, h⟩ := bind_eq_ok.mp h
  obtain ⟨_, -, h⟩ := bind_eq_ok.mp h
  obtain ⟨_, -, h⟩ := bind_eq_ok.mp h
  obtain ⟨_, hpayload, -⟩ := bind_eq_ok.mp h
  exact hardLimits_of_validatePayload hpayload

end

/-! ## The defaults -/

def IngestionLimits.default : IngestionLimits where
  publicRequestsPerMinute := 120
  publicRequestBurst := 30
  challengesPerMinute := 10
  challengeBurst := 3
  challengesPerHour := 100
  submissionsPerMinute := 5
  submissionBurst := 2
  submissionsPerHour := 50
  concurrentUploadsPerIp := 2
  concurrentUploadsGlobal := 16
  maximumFields := 64
  shortTextBytes := 4 * 1024
  multilineTextBytes := 256 * 1024
  metadataBytes := 1024 * 1024
  maximumAttachments := 5
  attachmentBytes := 10 * 1024 * 1024
  submissionBytes := 25 * 1024 * 1024
  pngPixels := 25_000_000
  pngDecodedBytes := 32 * 1024 * 1024
  uploadTimeoutSeconds := 120
  minimumFreeStorageBytes := 5 * 1024 * 1024 * 1024

def GithubConfiguration.default : GithubConfiguration where
  repository := "LadybirdBrowser/ladybird".toList
  authorizationTeam := "LadybirdBrowser/maintainers".toList
  reportsIssueFieldId := none
  tokenRefreshBeforeSeconds := 15 * 60
  membershipRecheckSeconds := 1800
  labels := ⟨["crash".toList], ["web compatibility".toList]⟩

def DiscordConfiguration.default : DiscordConfiguration where
  webhookUrls := ⟨none, none⟩
  pollIntervalSeconds := 2
  requestTimeoutSeconds := 10
  initialRetrySeconds := 30
  maximumRetrySeconds := 3_600
  stackTraceLines := 20
  stackTraceCharacters := 3_000

def RuntimeConfiguration.default : RuntimeConfiguration where
  publicBaseUrl := "https://reports.app.ladybird.org".toList
  adminBaseUrl := "http://localhost:3000".toList
  github := .default
  limits := .default
  proofOfWork := ⟨5_244_236, 600⟩
  maintenance := ⟨900, 3_600, 3_650, 48⟩
  discord := .default
  sessionLifetimeSeconds := 24 * 60 * 60
  audit := ⟨10 * 60, 3_650⟩

/-- The parts of an origin. -/
def UrlParts.origin (scheme host : Str) : UrlParts where
  scheme := scheme
  hostStr := some host
  path := "/".toList
  pathSegments := some [[]]
  query := none
  fragment := none
  username := []
  password := none

/-- The default configuration passes its own checks. -/
theorem validate_default {parseUrl : Str → Option UrlParts}
    (hpublic : parseUrl RuntimeConfiguration.default.publicBaseUrl =
      some (.origin "https".toList "reports.app.ladybird.org".toList))
    (hadmin : parseUrl RuntimeConfiguration.default.adminBaseUrl =
      some (.origin "http".toList "localhost".toList)) :
    RuntimeConfiguration.default.validate parseUrl = .ok () := by
  have hpublicUrl : validateOrigin parseUrl RuntimeConfiguration.default.publicBaseUrl
      "Invalid public URL" = .ok () := by
    unfold validateOrigin
    rw [hpublic]
    decide +kernel
  have hadminUrl : validateOrigin parseUrl RuntimeConfiguration.default.adminBaseUrl
      "Invalid admin URL" = .ok () := by
    unfold validateOrigin
    rw [hadmin]
    decide +kernel
  -- No webhook is set, so that no other URL is parsed.
  have hdiscord : RuntimeConfiguration.default.discord.validate parseUrl = .ok () := rfl
  unfold RuntimeConfiguration.validate
  rw [hpublicUrl, hadminUrl, hdiscord]
  decide +kernel

end LadybirdReports.Ingestion
