import LadybirdReports.Application.DiscordPreview
import LadybirdReports.Domain.ReportSignature

/-!
# The message of a Discord notification

`reportMessage` puts an embed together from what is known about an accepted report: its title, a
preview of the stack or else the description, and fields. All these texts come from an anonymous
client; each is cut, or left out, in a way of its own.
-/

namespace LadybirdReports

open Rust

structure DiscordEmbedField where
  name : Str
  value : Str
  inline : Bool
  deriving DecidableEq, Repr

structure DiscordEmbed where
  title : Str
  url : Str
  description : Str
  color : ℕ
  fields : List DiscordEmbedField
  timestamp : Str
  deriving DecidableEq, Repr

structure DiscordWebhookMessage where
  username : Str
  embeds : List DiscordEmbed
  /-- The mentions that are allowed. -/
  parse : List Str
  deriving DecidableEq, Repr

/-- The fields of a report by their key, as the database aggregates them. -/
abbrev DiagnosticFields := Str → Option JsonValue

structure PendingDiscordNotification where
  reportId : Str
  title : Str
  kind : ReportKind
  clientVersion : Str
  build : Str
  fields : DiagnosticFields
  /-- As RFC 3339 writes it, with seconds. -/
  createdAt : Str

/-- What `field_text` shows of a value, where `numberText` prints numbers. -/
def fieldText (numberText : JsonNumber → Str) : JsonValue → Str
  | .string text => text
  | .number value => numberText value
  | .boolean true => "true".toList
  | .boolean false => "false".toList

/-- Seven to sixty-four hexadecimal digits. -/
def isCommitId (value : Str) : Bool :=
  (7 ≤ byteLen value && byteLen value ≤ 64) && value.all isAsciiHexdigit

def shortCommitCharacters : ℕ := 7

/-- The commit a build was made from, as a short link to it in the repository. -/
def commitField (fields : DiagnosticFields) (githubRepository : Str) :
    Checked (Option DiscordEmbedField) :=
  match (fields "git_commit".toList).bind JsonValue.asStr with
  | none => return none
  | some value =>
    let commit := trim value
    if !isCommitId commit then return none
    else do
      let commit := toAsciiLowercase commit
      let short ← sliceTo commit shortCommitCharacters
      return some
        { name := "Commit".toList
          value := "[".toList ++ short ++ "](https://github.com/".toList ++ githubRepository ++
            "/commit/".toList ++ commit ++ ")".toList
          inline := true }

/-- A field of a signal: its text, unless it is blank. -/
def signalText (numberText : JsonNumber → Str) (fields : DiagnosticFields) (key : Str)
    (maximumCharacters : ℕ) : Option Str :=
  (fields key).bind fun value =>
    let text := trim (fieldText numberText value)
    if text = [] then none else some (truncateText text maximumCharacters)

/-- The signal that ended the process, by name and number. -/
def signalField (numberText : JsonNumber → Str) (fields : DiagnosticFields) :
    Option DiscordEmbedField :=
  let value := match signalText numberText fields "signal".toList 200,
      signalText numberText fields "signal_number".toList 32 with
    | some name, some number => some (name ++ " (".toList ++ number ++ ")".toList)
    | some value, none | none, some value => some value
    | none, none => none
  value.map fun value => { name := "Signal".toList, value, inline := true }

def maxUrlCharacters : ℕ := 1000

/-- What is shown of a page: no query and no fragment, no controls and no backtick. -/
def pageUrlText (url : Str) : Str :=
  (trim (splitHead (fun c => c == '?' || c == '#') url)).map fun c =>
    if c = '\x60' then '′' else if isControl c then ' ' else c

/-- The page a report came from, as code. -/
def pageUrlField (fields : DiagnosticFields) : Option DiscordEmbedField :=
  ((fields "url".toList).bind JsonValue.asStr).bind fun url =>
    if trim (splitHead (fun c => c == '?' || c == '#') url) = [] then none
    else some
      { name := "Page URL".toList
        value := "\x60".toList ++ truncateText (pageUrlText url) maxUrlCharacters ++ "\x60".toList
        inline := false }

def reportColor : ReportKind → ℕ
  | .crash => 0xd84a4a
  | .webCompat => 0x5d55dc

/-- The preview of the stack, or else the description. -/
def messageDescription (u : Unicode) (fields : DiagnosticFields)
    (configuration : DiscordConfiguration) : Checked Str :=
  match (fields "stack".toList).bind JsonValue.asStr with
  | some stack => stackDescription u stack configuration
  | none =>
    return match (fields "description".toList).bind JsonValue.asStr with
      | some description =>
        "**Description**\n".toList ++ withoutBackticks (truncateText description 2_000)
      | none => "A new report is ready for triage.".toList

/-- The field of a version, which every report has. -/
def versionField (clientVersion : Str) : DiscordEmbedField :=
  { name := "Version".toList, value := truncateText clientVersion 256, inline := true }

def buildField (build : Str) : Option DiscordEmbedField :=
  if trim build = [] then none
  else some { name := "Build".toList, value := truncateText build 512, inline := true }

/-- A field that is shown as it is. -/
def plainField (numberText : JsonNumber → Str) (fields : DiagnosticFields) (key label : Str) :
    Option DiscordEmbedField :=
  (fields key).map fun value =>
    { name := label, value := truncateText (fieldText numberText value) 256, inline := true }

def embedFields (numberText : JsonNumber → Str) (notification : PendingDiscordNotification)
    (githubRepository : Str) : Checked (List DiscordEmbedField) := do
  let fields := notification.fields
  let commit ← commitField fields githubRepository
  return [versionField notification.clientVersion] ++ (buildField notification.build).toList ++
    commit.toList ++ (plainField numberText fields "platform".toList "Platform".toList).toList ++
    (plainField numberText fields "architecture".toList "Architecture".toList).toList ++
    (signalField numberText fields).toList ++ (pageUrlField fields).toList

def reportMessage (u : Unicode) (numberText : JsonNumber → Str)
    (notification : PendingDiscordNotification) (adminBaseUrl githubRepository : Str)
    (configuration : DiscordConfiguration) : Checked DiscordWebhookMessage := do
  let description ← messageDescription u notification.fields configuration
  let embedFields ← embedFields numberText notification githubRepository
  return {
    username := "Ladybird Reports".toList
    embeds := [{
      title := truncateText notification.title 256
      url := (adminBaseUrl.reverse.dropWhile (· == '/')).reverse ++ "/reports/".toList ++
        notification.reportId
      description
      color := reportColor notification.kind
      fields := embedFields
      timestamp := notification.createdAt }]
    parse := [] }

end LadybirdReports
