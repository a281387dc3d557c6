import LadybirdReports.Application.ReportTitles
import LadybirdReports.Domain.ReportSearch
import LadybirdReports.Lib.Occurrences

/-!
# Issue proposals

`propose_issue` drafts an issue on GitHub for a report. Of the report's texts the draft has the
stack trace, in a fence, the page, in a code span, and details that are made of safe characters
only.

1. The fence is longer than every run of backticks in the stack (`fencesStack`), no character of the
   page ends its span, and a detail is one line, so that these texts stay where they are put
   (`description_confines_texts`).
2. The draft has a placeholder for the screenshot, which is looked for in the whole text, the texts
   of the report included. So it is found exactly once where there is a screenshot, and nowhere
   else, exactly if it is neither in the stack nor in the page (`has_one_placeholder_iff`).
-/

namespace LadybirdReports

open Occurrences Rust

/-! ## The draft -/

def screenshotPlaceholder : Str := "\x7bscreenshot\x7d".toList

structure ReportAttachment where
  name : Str
  mediaType : Str
  deriving DecidableEq, Repr

/-- What is read of a report for its page, as far as a draft needs it. -/
structure ReportDetails where
  report : StoredReport
  build : Str
  attachments : List ReportAttachment

structure IssueProposal where
  title : Str
  description : Str
  deriving DecidableEq, Repr

/-- The first PNG by name. -/
def screenshotAttachment (u : Unicode) (attachments : List ReportAttachment) :
    Option ReportAttachment :=
  let name (attachment : ReportAttachment) : List ℕ := keyBytes (u.toLowercase attachment.name)
  Rows.first? (fun a b => name a ≤ name b)
    (attachments.filter fun attachment => attachment.mediaType = "image/png".toList)

def embedScreenshot (description url : Str) : Str :=
  replace screenshotPlaceholder
    ("![Screenshot of the page in the report](".toList ++ url ++ ")".toList) description

namespace IssueProposal

def pageUrlCharacter (c : Char) : Char :=
  if c = '\x60' then '′' else if isControl c then ' ' else c

/-- `page_url`. -/
def pageUrl (fields : List StoredField) : Option Str := do
  let field ← fields.find? fun field =>
    field.key = urlKey && (field.kind = .text || field.kind = .url)
  let url := trim (← field.value.asStr)
  guard (url ≠ [])
  return url.map pageUrlCharacter

/-- How many backticks are together at most. -/
def longestRun (stackTrace : Str) : ℕ :=
  ((stackTrace.splitOnP (· ≠ '\x60')).map byteLen).max?.getD 0

/-- The addition would saturate for texts longer than there are. -/
def fence (stackTrace : Str) : Str := List.replicate (max (longestRun stackTrace + 1) 3) '\x60'

def addStackTrace (stackTrace : Str) : Str :=
  "\n## Stack trace\n\n".toList ++ fence stackTrace ++ "text\n".toList ++ stackTrace ++
    (if endsWith stackTrace ['\n'] then [] else ['\n']) ++ fence stackTrace ++ ['\n']

section

variable (u : Unicode)

def isSafeCharacter (c : Char) : Bool :=
  u.isAlphanumeric c || " ._-+()/·:,".toList.contains c

def safeValue (value : Str) (maximumCharacters : ℕ) : Option Str :=
  let value := trim value
  if value = [] || maximumCharacters < value.length || contains value "://".toList ||
    value.any fun c => !isSafeCharacter u c then none
  else some value

def fieldValue (fields : List StoredField) (key : Str) (maximumCharacters : ℕ) : Option Str := do
  let field ← fields.find? fun field => field.key = key && field.kind = .text
  safeValue u (← field.value.asStr) maximumCharacters

def addDetail (label : Str) (value : Option Str) : Str :=
  value.elim [] fun value =>
    "- ".toList ++ label ++ ": ".toList ++ replaceWith value '_' ['\\', '_'] ++ ['\n']

def reportType : ReportKind → Str
  | .crash => "Crash".toList
  | .webCompat => "Web compatibility issue".toList

variable (collate : Str → Str → Bool) (definitions : FieldDefinitions) (details : ReportDetails)

def fields : List StoredField := reportFields collate definitions details.report.fields

/-- The stack trace, unless it is empty. -/
def stackTrace : Option Str :=
  (stackTraceForReport definitions (fields collate definitions details)).filter (· ≠ [])

def environmentLabels : List Str :=
  ["Ladybird version", "Build", "Platform", "Architecture", "Signal"].map (·.toList)

/-- The details, by their labels. -/
def environment : List (Str × Option Str) :=
  let fields := fields collate definitions details
  environmentLabels.zip [safeValue u details.report.clientVersion 100,
    safeValue u details.build 100, fieldValue u fields platformKey 40,
    fieldValue u fields architectureKey 40, fieldValue u fields signalKey 40]

/-- The description, with a text that stands for the screenshot. -/
def describe (screenshot : Option Str) : Str :=
  "## Summary\n\n".toList ++ reportType details.report.kind ++
    " reported by a Ladybird user.\n".toList ++
  screenshot.elim [] (fun text => "\n## Screenshot\n\n".toList ++ text ++ ['\n']) ++
  (stackTrace collate definitions details).elim [] addStackTrace ++
  "\n## Environment\n\n".toList ++
  (environment u collate definitions details).flatMap (fun detail => addDetail detail.1 detail.2) ++
  (pageUrl (fields collate definitions details)).elim [] fun url =>
    "- Page URL: \x60".toList ++ url ++ "\x60\n".toList

end

end IssueProposal

section

variable (u : Unicode) (collate : Str → Str → Bool) (definitions : FieldDefinitions)

def proposeIssue (details : ReportDetails) : Checked IssueProposal := do
  let title ← titleInStyle u collate definitions details.report .issue
  return ⟨title, IssueProposal.describe u collate definitions details
    ((screenshotAttachment u details.attachments).map fun _ => screenshotPlaceholder)⟩

/-- What `create_from_report` sends to GitHub, where `upload` is given the screenshot. -/
def createdDescription (attachments : List ReportAttachment)
    (upload : ReportAttachment → Except String Str) (description : Str) : Except String Str :=
  if contains description screenshotPlaceholder then do
    let screenshot ← okOr (screenshotAttachment u attachments)
      "This report has no screenshot. Remove \x7bscreenshot\x7d from the description."
    let url ← upload screenshot
    return embedScreenshot description url
  else return description

/-- The text of the page's address, as it was submitted. -/
def submittedPage (details : ReportDetails) : Option Str := do
  let field ← (IssueProposal.fields collate definitions details).find? fun field =>
    field.key = urlKey && (field.kind = .text || field.kind = .url)
  field.value.asStr

end

/-- Of ASCII, the letters and the digits are alphanumeric. -/
def ExtendsAscii (u : Unicode) : Prop :=
  ∀ c, c.toNat < 128 → u.isAlphanumeric c = isAsciiAlphanumeric c

/-! ## Where the texts are -/

/-- A part of a description. What the report says is in the last three. -/
inductive Passage
  | summary (kind : ReportKind)
  | screenshot
  | environment
  | stackTrace (fence stack : Str)
  | detail (label value : Str)
  | pageUrl (url : Str)

def Passage.render : Passage → Str
  | .summary kind => "## Summary\n\n".toList ++ IssueProposal.reportType kind ++
      " reported by a Ladybird user.\n".toList
  | .screenshot => "\n## Screenshot\n\n".toList ++ screenshotPlaceholder ++ ['\n']
  | .environment => "\n## Environment\n\n".toList
  | .stackTrace fence stack => "\n## Stack trace\n\n".toList ++ fence ++ "text\n".toList ++ stack ++
      (if endsWith stack ['\n'] then [] else ['\n']) ++ fence ++ ['\n']
  | .detail label value =>
      "- ".toList ++ label ++ ": ".toList ++ replaceWith value '_' ['\\', '_'] ++ ['\n']
  | .pageUrl url => "- Page URL: \x60".toList ++ url ++ "\x60\n".toList

/-- The fence is not ended by a text. -/
structure Fences (fence stack : Str) : Prop where
  backticks : ∃ n ≥ 3, fence = List.replicate n '\x60'
  longer : ∀ n, List.replicate n '\x60' <:+: stack → n < fence.length

/-- What the report says stays where it is: the stack trace in its fence, a detail on its line, and
the page on one line and in its span. -/
def Passage.Confined (u : Unicode) (stackTrace : Option Str) : Passage → Prop
  | .stackTrace fence stack => stackTrace = some stack ∧ Fences fence stack
  | .detail label value => label ∈ IssueProposal.environmentLabels ∧
      ∀ c ∈ value, IssueProposal.isSafeCharacter u c = true ∧ c ≠ '\n' ∧ c ≠ '\r'
  | .pageUrl url => ∀ c ∈ url, c ≠ '\x60' ∧ isControl c = false
  | _ => True

namespace IssueProposal

section

variable {u : Unicode} {collate : Str → Str → Bool} {definitions : FieldDefinitions}
  {details : ReportDetails} {fields : List StoredField} {stack value url key : Str} {n : ℕ}
  {c : Char}

theorem fences_stackTrace : Fences (fence stack) stack := by
  refine ⟨⟨_, le_max_right _ _, rfl⟩, fun n hrun => ?_⟩
  obtain ⟨piece, hmem, hpiece⟩ := infix_of_splitOnP
    (p := fun c => decide (c ≠ '\x60')) (fun c hc => by simp [List.eq_of_mem_replicate hc]) hrun
  have hlength : n ≤ byteLen piece := by
    have hle := hpiece.length_le
    rw [List.length_replicate] at hle
    exact hle.trans (length_le_byteLen piece)
  have hmax : byteLen piece ≤ longestRun stack := by
    unfold longestRun
    obtain ⟨longest, hlongest⟩ := Option.isSome_iff_exists.mp (List.isSome_max?_of_mem
      (List.mem_map_of_mem (f := byteLen) hmem))
    rw [hlongest]
    exact (List.max?_eq_some_iff.mp hlongest).2 _ (List.mem_map_of_mem hmem)
  unfold fence
  rw [List.length_replicate]
  omega

theorem safe_of_safeValue (hletters : ExtendsAscii u) (h : safeValue u value n = some url) :
    ∀ c ∈ url, isSafeCharacter u c = true ∧ c ≠ '\n' ∧ c ≠ '\r' := by
  unfold safeValue at h
  dsimp only at h
  split_ifs at h with hrefused
  cases h
  intro c hc
  have hsafe : isSafeCharacter u c = true := by
    by_contra hletter
    refine hrefused (Bool.or_eq_true_iff.mpr (.inr (List.any_eq_true.mpr ⟨c, hc, ?_⟩)))
    rw [Bool.not_eq_true] at hletter
    rw [hletter]
    rfl
  refine ⟨hsafe, ?_, ?_⟩
  all_goals
    rintro rfl
    unfold isSafeCharacter at hsafe
    rw [hletters _ (by decide)] at hsafe
    exact absurd hsafe (by decide)

theorem safe_of_fieldValue (hletters : ExtendsAscii u)
    (h : fieldValue u fields key n = some value) :
    ∀ c ∈ value, isSafeCharacter u c = true ∧ c ≠ '\n' ∧ c ≠ '\r' := by
  unfold fieldValue at h
  obtain ⟨field, -, h⟩ := Option.bind_eq_some_iff.mp h
  obtain ⟨text, -, h⟩ := Option.bind_eq_some_iff.mp h
  exact safe_of_safeValue hletters h

theorem pageUrlCharacter_plain (c : Char) :
    pageUrlCharacter c ≠ '\x60' ∧ isControl (pageUrlCharacter c) = false := by
  unfold pageUrlCharacter
  split_ifs with htick hcontrol
  · decide
  · decide
  · exact ⟨htick, by simpa using hcontrol⟩

theorem plain_of_pageUrl (h : pageUrl fields = some url) :
    ∀ c ∈ url, c ≠ '\x60' ∧ isControl c = false := by
  unfold pageUrl at h
  obtain ⟨field, -, h⟩ := Option.bind_eq_some_iff.mp h
  obtain ⟨text, -, h⟩ := Option.bind_eq_some_iff.mp h
  obtain ⟨_, -, h⟩ := Option.bind_eq_some_iff.mp h
  cases h
  intro c hc
  obtain ⟨original, -, rfl⟩ := List.mem_map.mp hc
  exact pageUrlCharacter_plain original

variable (u collate definitions details) in
/-- The passages of a draft. -/
def passages : List Passage :=
  [.summary details.report.kind] ++
    ((screenshotAttachment u details.attachments).map fun _ => Passage.screenshot).toList ++
    ((stackTrace collate definitions details).map fun stack =>
      Passage.stackTrace (fence stack) stack).toList ++
    [.environment] ++
    (environment u collate definitions details).flatMap (fun detail =>
      (detail.2.map (Passage.detail detail.1)).toList) ++
    ((pageUrl (IssueProposal.fields collate definitions details)).map Passage.pageUrl).toList

theorem describe_eq : describe u collate definitions details
      ((screenshotAttachment u details.attachments).map fun _ => screenshotPlaceholder) =
    (passages u collate definitions details).flatMap Passage.render := by
  have hdetails : (environment u collate definitions details).flatMap
      (fun detail => addDetail detail.1 detail.2) =
        ((environment u collate definitions details).flatMap fun detail =>
          (detail.2.map (Passage.detail detail.1)).toList).flatMap Passage.render := by
    rw [List.flatMap_assoc]
    refine List.flatMap_congr fun detail _ => ?_
    obtain ⟨label, value⟩ := detail
    cases value with
    | none => rfl
    | some value => exact (List.flatMap_singleton _ _).symm
  unfold describe passages
  rw [hdetails]
  simp only [List.flatMap_append, List.flatMap_singleton]
  congr 1
  · congr 1
    congr 1
    congr 1
    · congr 1
      cases screenshotAttachment u details.attachments with
      | none => rfl
      | some _ => exact (List.flatMap_singleton _ _).symm
    · cases stackTrace collate definitions details with
      | none => rfl
      | some stack => exact (List.flatMap_singleton _ _).symm
  · cases pageUrl (IssueProposal.fields collate definitions details) with
    | none => rfl
    | some url => exact (List.flatMap_singleton _ _).symm

theorem confined_passages (hletters : ExtendsAscii u) :
    ∀ passage ∈ passages u collate definitions details,
      passage.Confined u (stackTrace collate definitions details) := by
  have hdetail : ∀ detail ∈ environment u collate definitions details, ∀ value ∈ detail.2,
      (Passage.detail detail.1 value).Confined u (stackTrace collate definitions details) := by
    intro detail hdetail value hvalue
    refine ⟨(List.of_mem_zip hdetail).1, ?_⟩
    have hmem := (List.of_mem_zip hdetail).2
    simp only [List.mem_cons, List.not_mem_nil, or_false] at hmem
    rcases hmem with h | h | h | h | h
    · exact safe_of_safeValue hletters (h ▸ hvalue)
    · exact safe_of_safeValue hletters (h ▸ hvalue)
    · exact safe_of_fieldValue hletters (h ▸ hvalue)
    · exact safe_of_fieldValue hletters (h ▸ hvalue)
    · exact safe_of_fieldValue hletters (h ▸ hvalue)
  intro passage hpassage
  unfold passages at hpassage
  simp only [List.mem_append, List.mem_singleton, Option.mem_toList, List.mem_flatMap,
    Option.map_eq_some_iff] at hpassage
  rcases hpassage with ((((rfl | ⟨_, -, rfl⟩) | ⟨stack, hstack, rfl⟩) | rfl) |
    ⟨detail, hmem, value, hvalue, rfl⟩) | ⟨url, hurl, rfl⟩
  · trivial
  · trivial
  · exact ⟨hstack, fences_stackTrace⟩
  · trivial
  · exact hdetail detail hmem value hvalue
  · exact plain_of_pageUrl hurl

end

end IssueProposal

section

variable {u : Unicode} {collate : Str → Str → Bool} {definitions : FieldDefinitions}
  {details : ReportDetails} {proposal : IssueProposal}

/-- A description is made of passages, and each text of the report is confined to its own. -/
theorem description_confines_texts (hletters : ExtendsAscii u)
    (h : proposeIssue u collate definitions details = .ok proposal) :
    ∃ passages : List Passage, proposal.description = passages.flatMap Passage.render ∧
      ∀ passage ∈ passages,
        passage.Confined u (IssueProposal.stackTrace collate definitions details) := by
  unfold proposeIssue at h
  obtain ⟨title, -, h⟩ := bind_eq_ok.mp h
  cases h
  exact ⟨_, IssueProposal.describe_eq, IssueProposal.confined_passages hletters⟩

end

/-! ## The placeholder -/

section

variable (u : Unicode) (collate : Str → Str → Bool) (definitions : FieldDefinitions)
  (details : ReportDetails)

/-- Neither the stack trace nor the page has the placeholder. -/
structure IsFreeOfPlaceholder : Prop where
  stackTrace : ∀ stack ∈ stackTraceForReport definitions
    (IssueProposal.fields collate definitions details),
      contains stack screenshotPlaceholder = false
  page : ∀ page ∈ submittedPage collate definitions details,
    contains page screenshotPlaceholder = false

/-- The placeholder is where the screenshot belongs, and nowhere else: the image takes its place,
and without it there is no screenshot. -/
structure HasOnePlaceholder (proposal : IssueProposal) : Prop where
  once : occurrences screenshotPlaceholder proposal.description =
    if (screenshotAttachment u details.attachments).isSome then 1 else 0
  created : ∀ upload, createdDescription u details.attachments upload proposal.description =
    match screenshotAttachment u details.attachments with
    | none => .ok proposal.description
    | some screenshot => (upload screenshot).map fun url =>
      IssueProposal.describe u collate definitions details
        (some ("![Screenshot of the page in the report](".toList ++ url ++ ")".toList))
  removed : ∀ upload, createdDescription u details.attachments upload
      (IssueProposal.describe u collate definitions details (some [])) =
    .ok (IssueProposal.describe u collate definitions details (some []))

/-- The description after the screenshot. -/
def IssueProposal.afterScreenshot : Str :=
  (stackTrace collate definitions details).elim [] addStackTrace ++
  ("\n## Environment\n\n".toList ++
  ((environment u collate definitions details).flatMap
    (fun detail => addDetail detail.1 detail.2) ++
  (pageUrl (fields collate definitions details)).elim [] fun url =>
    "- Page URL: \x60".toList ++ url ++ "\x60\n".toList))

def IssueProposal.summary (kind : ReportKind) : Str :=
  "## Summary\n\n".toList ++ reportType kind ++ " reported by a Ladybird user.\n".toList

end

section

variable {u : Unicode} {collate : Str → Str → Bool} {definitions : FieldDefinitions}
  {details : ReportDetails} {proposal : IssueProposal} {s t text stack url : Str}

theorem contains_eq_false_iff :
    contains s screenshotPlaceholder = false ↔ occurrences screenshotPlaceholder s = 0 := by
  rw [occurrences_eq_zero_iff (by decide), ← Bool.not_eq_true, contains_iff]
  exact not_congr ⟨fun ⟨a, b, h⟩ => ⟨a, b, h.symm⟩, fun ⟨a, b, h⟩ => ⟨a, b, h.symm⟩⟩

theorem occurrences_eq_zero (h : '\x7b' ∉ s) : occurrences screenshotPlaceholder s = 0 :=
  (occurrences_eq_zero_iff (by decide)).mpr (not_infix_of_not_mem (by decide) h)

/-- A text between line feeds or backticks is looked at by itself. -/
theorem occurrences_delimited (hs : '\x7b' ∉ s) (ht : '\x7b' ∉ t)
    (hlast : ∀ c ∈ s.getLast?, c ∉ screenshotPlaceholder)
    (hhead : ∀ c ∈ t.head?, c ∉ screenshotPlaceholder) :
    occurrences screenshotPlaceholder (s ++ (text ++ t)) =
      occurrences screenshotPlaceholder text := by
  rw [occurrences_append (.inl hlast), occurrences_append (.inr hhead), occurrences_eq_zero hs,
    occurrences_eq_zero ht, Nat.zero_add, Nat.add_zero]

namespace IssueProposal

theorem describe_none : describe u collate definitions details none =
    summary details.report.kind ++ afterScreenshot u collate definitions details := by
  unfold describe summary afterScreenshot
  simp only [Option.elim_none, List.append_nil, List.append_assoc]

theorem describe_some : describe u collate definitions details (some text) =
    (summary details.report.kind ++ "\n## Screenshot\n\n".toList) ++
      (text ++ ('\n' :: afterScreenshot u collate definitions details)) := by
  unfold describe summary afterScreenshot
  simp only [Option.elim_some, List.append_assoc, List.cons_append, List.nil_append]

theorem occurrences_addStackTrace : occurrences screenshotPlaceholder (addStackTrace stack) =
    occurrences screenshotPlaceholder stack := by
  have hfence : ∀ c ∈ fence stack, c = '\x60' := fun c hc => List.eq_of_mem_replicate hc
  have htext : addStackTrace stack = ("\n## Stack trace\n\n".toList ++ fence stack ++
      "text\n".toList) ++ (stack ++ ((if endsWith stack ['\n'] then [] else ['\n']) ++
        fence stack ++ ['\n'])) := by
    unfold addStackTrace
    simp only [List.append_assoc]
  rw [htext]
  have hopen : '\x7b' ∉ fence stack := fun h => absurd (hfence _ h) (by decide)
  refine occurrences_delimited ?_ ?_ ?_ ?_
  · simp only [List.mem_append, hopen, or_false]
    decide
  · simp only [List.mem_append, hopen, or_false]
    split_ifs <;> decide
  · intro c hc
    rw [List.getLast?_append_of_ne_nil _ (by decide)] at hc
    obtain rfl : '\n' = c := Option.some.inj hc
    decide
  · intro c hc
    have hmem := List.mem_of_mem_head? hc
    split_ifs at hmem hc with hend
    · rw [List.nil_append] at hc
      have hlong : fence stack ≠ [] := by
        intro hnil
        have hlength := congrArg List.length hnil
        unfold fence at hlength
        rw [List.length_replicate, List.length_nil] at hlength
        omega
      rw [List.head?_append_of_ne_nil _ hlong] at hc
      rw [hfence c (List.mem_of_mem_head? hc)]
      decide
    · obtain rfl : '\n' = c := Option.some.inj hc
      decide

theorem open_not_mem_environment (hletters : ExtendsAscii u) :
    '\x7b' ∉ (environment u collate definitions details).flatMap
      fun detail => addDetail detail.1 detail.2 := by
  intro h
  obtain ⟨⟨label, value⟩, hdetail, hopen⟩ := List.mem_flatMap.mp h
  cases value with
  | none => cases hopen
  | some value =>
    have hconfined := confined_passages hletters (Passage.detail label value) (by
      unfold passages
      refine List.mem_append_left _ (List.mem_append_right _ ?_)
      exact List.mem_flatMap.mpr ⟨_, hdetail, List.mem_cons_self⟩)
    obtain ⟨hlabel, hsafe⟩ := hconfined
    have hlabels : ∀ label ∈ environmentLabels, '\x7b' ∉ label := by decide
    have hvalue : '\x7b' ∉ value := by
      intro hmem
      have hletter := (hsafe _ hmem).1
      unfold isSafeCharacter at hletter
      rw [hletters _ (by decide)] at hletter
      exact absurd hletter (by decide)
    have hreplaced : '\x7b' ∉ replaceWith value '_' ['\\', '_'] := by
      intro hmem
      obtain ⟨c, hc, hcopied⟩ := List.mem_flatMap.mp hmem
      split_ifs at hcopied
      · exact absurd hcopied (by decide)
      · exact hvalue (List.mem_singleton.mp hcopied ▸ hc)
    unfold addDetail at hopen
    simp only [Option.elim_some, List.mem_append, hlabels label hlabel, hreplaced,
      or_false] at hopen
    exact absurd hopen (by decide)

/-- White space is cut off a text at its ends. -/
theorem exists_eq_trim (s : Str) : ∃ a b, s = a ++ trim s ++ b ∧
    (∀ c ∈ a, isWhitespace c = true) ∧ ∀ c ∈ b, isWhitespace c = true := by
  refine ⟨s.takeWhile isWhitespace, ((trimStart s).reverse.takeWhile isWhitespace).reverse, ?_,
    fun c hc => List.mem_takeWhile_imp hc,
    fun c hc => List.mem_takeWhile_imp (List.mem_reverse.mp hc)⟩
  have hend : trim s ++ ((trimStart s).reverse.takeWhile isWhitespace).reverse = trimStart s := by
    unfold trim trimEnd
    rw [← List.reverse_append, List.takeWhile_append_dropWhile, List.reverse_reverse]
  rw [List.append_assoc, hend]
  exact List.takeWhile_append_dropWhile.symm

theorem occurrences_trim :
    occurrences screenshotPlaceholder (trim s) = occurrences screenshotPlaceholder s := by
  have hspace {c : Char} (hc : isWhitespace c = true) : c ∉ screenshotPlaceholder := by
    have hplain : ∀ p ∈ screenshotPlaceholder, isWhitespace p = false :=
      forall_of_all (by decide)
    intro hmem
    rw [hplain c hmem] at hc
    cases hc
  obtain ⟨a, b, hs, ha, hb⟩ := exists_eq_trim s
  conv_rhs => rw [hs]
  exact (occurrences_between (by decide) (fun c hc => hspace (ha c hc))
    fun c hc => hspace (hb c hc)).symm

/-- The page has the placeholder where its text has it. -/
theorem occurrences_pageUrl :
    (pageUrl (fields collate definitions details)).elim 0 (occurrences screenshotPlaceholder) =
      (submittedPage collate definitions details).elim 0 (occurrences screenshotPlaceholder) := by
  have hcharacter (c p : Char) (hp : p ∈ screenshotPlaceholder) :
      pageUrlCharacter c = p ↔ c = p := by
    have hplain : ∀ p ∈ screenshotPlaceholder, p ≠ '′' ∧ p ≠ ' ' ∧ pageUrlCharacter p = p :=
      forall_of_all (by decide)
    obtain ⟨hprime, hblank, hkept⟩ := hplain p hp
    refine ⟨fun h => ?_, fun h => by rw [h, hkept]⟩
    unfold pageUrlCharacter at h
    split_ifs at h
    · exact absurd h.symm hprime
    · exact absurd h.symm hblank
    · exact h
  unfold pageUrl submittedPage
  cases (fields collate definitions details).find? fun field =>
      field.key = urlKey && (field.kind = .text || field.kind = .url) with
  | none => rfl
  | some field =>
    change (field.value.asStr.bind _).elim 0 _ = field.value.asStr.elim 0 _
    cases field.value.asStr with
    | none => rfl
    | some page =>
      rw [Option.elim_some, ← occurrences_trim, Option.bind_some]
      dsimp only
      by_cases hempty : trim page = []
      · rw [hempty]
        rfl
      · rw [guard, if_pos hempty]
        exact occurrences_map hcharacter

theorem occurrences_stackTrace :
    (stackTrace collate definitions details).elim 0 (occurrences screenshotPlaceholder) =
      (stackTraceForReport definitions (fields collate definitions details)).elim 0
        (occurrences screenshotPlaceholder) := by
  unfold stackTrace
  cases stackTraceForReport definitions (fields collate definitions details) with
  | none => rfl
  | some stack =>
    by_cases hempty : stack = []
    · rw [hempty]
      rfl
    · rw [Option.filter_some, if_pos (by simpa using hempty)]

/-- After the screenshot the placeholder is where the texts of the report have it. -/
theorem occurrences_afterScreenshot (hletters : ExtendsAscii u) :
    occurrences screenshotPlaceholder (afterScreenshot u collate definitions details) =
      (stackTraceForReport definitions (fields collate definitions details)).elim 0
        (occurrences screenshotPlaceholder) +
      (submittedPage collate definitions details).elim 0 (occurrences screenshotPlaceholder) := by
  have hstack : occurrences screenshotPlaceholder
      ((stackTrace collate definitions details).elim [] addStackTrace) =
        (stackTrace collate definitions details).elim 0 (occurrences screenshotPlaceholder) := by
    cases stackTrace collate definitions details with
    | none => rfl
    | some stack => exact occurrences_addStackTrace
  have hpage : occurrences screenshotPlaceholder
      ((pageUrl (fields collate definitions details)).elim [] fun url =>
        "- Page URL: \x60".toList ++ url ++ "\x60\n".toList) =
        (pageUrl (fields collate definitions details)).elim 0
          (occurrences screenshotPlaceholder) := by
    cases pageUrl (fields collate definitions details) with
    | none => rfl
    | some url =>
      rw [Option.elim_some, Option.elim_some, List.append_assoc]
      have htick (c : Char) (hc : c ∈ some '\x60') : c ∉ screenshotPlaceholder := by
        obtain rfl : '\x60' = c := Option.some.inj hc
        decide
      exact occurrences_delimited (by decide) (by decide) htick htick
  unfold afterScreenshot
  rw [occurrences_append, occurrences_append, occurrences_append, hstack, hpage,
    occurrences_stackTrace, occurrences_pageUrl, occurrences_eq_zero (by decide),
    occurrences_eq_zero (open_not_mem_environment hletters), Nat.zero_add, Nat.zero_add]
  · refine .inr fun c hc => ?_
    cases hpageUrl : pageUrl (fields collate definitions details) with
    | none =>
      rw [hpageUrl] at hc
      cases hc
    | some url =>
      rw [hpageUrl] at hc
      obtain rfl : '-' = c := Option.some.inj hc
      decide
  · refine .inl fun c hc => ?_
    obtain rfl : '\n' = c := Option.some.inj hc
    decide
  · refine .inr fun c hc => ?_
    obtain rfl : '\n' = c := Option.some.inj hc
    decide

theorem afterScreenshot_free (hletters : ExtendsAscii u) :
    occurrences screenshotPlaceholder (afterScreenshot u collate definitions details) = 0 ↔
      IsFreeOfPlaceholder collate definitions details := by
  rw [occurrences_afterScreenshot hletters, Nat.add_eq_zero_iff]
  have helim (value : Option Str) : value.elim 0 (occurrences screenshotPlaceholder) = 0 ↔
      ∀ text ∈ value, contains text screenshotPlaceholder = false := by
    cases value with
    | none => exact ⟨fun _ _ h => (by cases h), fun _ => rfl⟩
    | some text =>
      rw [Option.elim_some, ← contains_eq_false_iff]
      exact ⟨fun h _ htext => Option.some.inj htext ▸ h, fun h => h text rfl⟩
  rw [helim, helim]
  exact ⟨fun ⟨hstack, hpage⟩ => ⟨hstack, hpage⟩, fun ⟨hstack, hpage⟩ => ⟨hstack, hpage⟩⟩

theorem apart_summary : Apart screenshotPlaceholder (summary details.report.kind) t := by
  refine .inl fun c hc => ?_
  unfold summary at hc
  rw [List.getLast?_append_of_ne_nil _ (by decide)] at hc
  obtain rfl : '\n' = c := Option.some.inj hc
  decide

theorem open_not_mem_summary : '\x7b' ∉ summary details.report.kind := by
  cases details.report.kind <;> decide

theorem occurrences_describe_none :
    occurrences screenshotPlaceholder (describe u collate definitions details none) =
      occurrences screenshotPlaceholder (afterScreenshot u collate definitions details) := by
  rw [describe_none, occurrences_append apart_summary, occurrences_eq_zero open_not_mem_summary,
    Nat.zero_add]

/-- The heading of the screenshot, and what comes before it. -/
theorem heading_apart : Apart screenshotPlaceholder
    (summary details.report.kind ++ "\n## Screenshot\n\n".toList) t := by
  refine .inl fun c hc => ?_
  rw [List.getLast?_append_of_ne_nil _ (by decide)] at hc
  obtain rfl : '\n' = c := Option.some.inj hc
  decide

theorem open_not_mem_heading :
    '\x7b' ∉ summary details.report.kind ++ "\n## Screenshot\n\n".toList := by
  rw [List.mem_append, not_or]
  exact ⟨open_not_mem_summary, by decide⟩

theorem feed_apart : Apart screenshotPlaceholder s ('\n' :: t) :=
  .inr fun c hc => by
    obtain rfl : '\n' = c := Option.some.inj hc
    decide

theorem occurrences_feed :
    occurrences screenshotPlaceholder ('\n' :: t) = occurrences screenshotPlaceholder t := by
  have hfree : screenshotPlaceholder.isPrefixOf ('\n' :: t) = false := rfl
  rw [occurrences, hfree]
  exact Nat.zero_add _

theorem occurrences_describe_some :
    occurrences screenshotPlaceholder (describe u collate definitions details (some text)) =
      occurrences screenshotPlaceholder text +
        occurrences screenshotPlaceholder (afterScreenshot u collate definitions details) := by
  rw [describe_some, occurrences_append heading_apart, occurrences_append feed_apart,
    occurrences_feed,
    occurrences_eq_zero open_not_mem_heading, Nat.zero_add]

end IssueProposal

/-- The image takes the place of the placeholder, and the rest stays as it is. -/
theorem embedScreenshot_describe (hletters : ExtendsAscii u)
    (hfree : IsFreeOfPlaceholder collate definitions details) :
    embedScreenshot
        (IssueProposal.describe u collate definitions details (some screenshotPlaceholder)) url =
      IssueProposal.describe u collate definitions details
        (some ("![Screenshot of the page in the report](".toList ++ url ++ ")".toList)) := by
  have hkept {s : Str} (h : occurrences screenshotPlaceholder s = 0) {new : Str} :
      replace screenshotPlaceholder new s = s :=
    replace_of_not_infix ((occurrences_eq_zero_iff (by decide)).mp h)
  have hafter := (IssueProposal.afterScreenshot_free hletters).mpr hfree
  unfold embedScreenshot
  rw [IssueProposal.describe_some, IssueProposal.describe_some,
    replace_append IssueProposal.heading_apart, replace_append IssueProposal.feed_apart,
    replace_self (by decide), hkept (occurrences_eq_zero IssueProposal.open_not_mem_heading)]
  congr 2
  exact hkept (IssueProposal.occurrences_feed.trans hafter)

/-- A draft has the placeholder where the screenshot belongs and nowhere else exactly if neither the
stack trace nor the page has it. -/
theorem has_one_placeholder_iff (hletters : ExtendsAscii u)
    (h : proposeIssue u collate definitions details = .ok proposal) :
    HasOnePlaceholder u collate definitions details proposal ↔
      IsFreeOfPlaceholder collate definitions details := by
  unfold proposeIssue at h
  obtain ⟨title, -, h⟩ := bind_eq_ok.mp h
  cases h
  have hplaceholder : occurrences screenshotPlaceholder screenshotPlaceholder = 1 :=
    occurrences_self
  have hnone {s : Str} {upload : ReportAttachment → Except String Str}
      (hs : occurrences screenshotPlaceholder s = 0) :
      createdDescription u details.attachments upload s = .ok s := by
    unfold createdDescription
    rw [contains_eq_false_iff.mpr hs]
    rfl
  constructor
  · intro h
    have honce := h.once
    refine (IssueProposal.afterScreenshot_free hletters).mp ?_
    cases hscreenshot : screenshotAttachment u details.attachments with
    | none =>
      rw [hscreenshot, Option.map_none, IssueProposal.occurrences_describe_none] at honce
      exact honce
    | some screenshot =>
      rw [hscreenshot, Option.map_some, IssueProposal.occurrences_describe_some, hplaceholder,
        Option.isSome_some, if_pos rfl] at honce
      omega
  · intro hfree
    have hafter := (IssueProposal.afterScreenshot_free hletters).mpr hfree
    refine ⟨?_, fun upload => ?_, fun upload => hnone ?_⟩
    · cases screenshotAttachment u details.attachments with
      | none => exact IssueProposal.occurrences_describe_none.trans hafter
      | some screenshot =>
        rw [Option.map_some, IssueProposal.occurrences_describe_some, hplaceholder, hafter]
        rfl
    · cases hscreenshot : screenshotAttachment u details.attachments with
      | none => exact hnone (IssueProposal.occurrences_describe_none.trans hafter)
      | some screenshot =>
        have hcontains : contains (IssueProposal.describe u collate definitions details
            (some screenshotPlaceholder)) screenshotPlaceholder = true := by
          rw [← Bool.not_eq_false, contains_eq_false_iff, IssueProposal.occurrences_describe_some,
            hplaceholder, hafter]
          decide
        unfold createdDescription
        rw [Option.map_some, if_pos hcontains, hscreenshot, okOr, ok_bind]
        dsimp only
        cases upload screenshot with
        | error _ => rfl
        | ok url => exact congrArg Except.ok (embedScreenshot_describe hletters hfree)
    · rw [IssueProposal.occurrences_describe_some, hafter]
      rfl

end

/-! ## Pages with a placeholder -/

/-- A report about a page, with a screenshot. -/
def pageReport (url : Str) : ReportDetails where
  report := {
    kind := .webCompat
    clientVersion := "1".toList
    fields := [⟨urlKey, .url, .string url, false⟩]
    keys := List.nodup_singleton _
    typed := by
      intro row hrow
      rw [List.mem_singleton.mp hrow]
      rfl }
  build := "Release".toList
  attachments := [⟨"page.png".toList, "image/png".toList⟩]

theorem extendsAscii_ascii : ExtendsAscii Unicode.ascii := fun _ _ => rfl

def emptyProposal : IssueProposal := ⟨[], []⟩

theorem ordinary_page_stays_in_its_span : ∃ proposal,
    proposeIssue .ascii (fun _ _ => true) (fun _ => none)
      (pageReport "https://example.org/\x60".toList) = .ok proposal ∧
    ∃ passages : List Passage, proposal.description = passages.flatMap Passage.render ∧
      ∀ passage ∈ passages, passage.Confined .ascii (IssueProposal.stackTrace (fun _ _ => true)
        (fun _ => none) (pageReport "https://example.org/\x60".toList)) := by
  have hproposal := eq_ok_of_isOk emptyProposal (x := proposeIssue .ascii (fun _ _ => true)
    (fun _ => none) (pageReport "https://example.org/\x60".toList)) (by decide +kernel)
  exact ⟨_, hproposal, description_confines_texts extendsAscii_ascii hproposal⟩

theorem ordinary_page_has_one_placeholder : ∃ proposal,
    proposeIssue .ascii (fun _ _ => true) (fun _ => none)
      (pageReport "https://example.org/".toList) = .ok proposal ∧
    HasOnePlaceholder .ascii (fun _ _ => true) (fun _ => none)
      (pageReport "https://example.org/".toList) proposal := by
  have hproposal := eq_ok_of_isOk emptyProposal (x := proposeIssue .ascii (fun _ _ => true)
    (fun _ => none) (pageReport "https://example.org/".toList)) (by decide +kernel)
  refine ⟨_, hproposal, (has_one_placeholder_iff extendsAscii_ascii hproposal).mpr ⟨?_, ?_⟩⟩
  · decide +kernel
  · decide +kernel

/-- An address with the placeholder is taken for a second screenshot. -/
theorem page_may_have_the_placeholder : ∃ proposal,
    proposeIssue .ascii (fun _ _ => true) (fun _ => none)
      (pageReport "https://example.org/\x7bscreenshot\x7d".toList) = .ok proposal ∧
    occurrences screenshotPlaceholder proposal.description = 2 ∧
    ¬ HasOnePlaceholder .ascii (fun _ _ => true) (fun _ => none)
      (pageReport "https://example.org/\x7bscreenshot\x7d".toList) proposal := by
  have hproposal := eq_ok_of_isOk emptyProposal (x := proposeIssue .ascii (fun _ _ => true)
    (fun _ => none) (pageReport "https://example.org/\x7bscreenshot\x7d".toList))
    (by decide +kernel)
  refine ⟨_, hproposal, by decide +kernel, fun h => absurd h.once ?_⟩
  decide +kernel

end LadybirdReports
