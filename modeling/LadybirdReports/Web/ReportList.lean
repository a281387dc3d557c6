import LadybirdReports.Domain.ReportSearch
import LadybirdReports.Ingestion.ReportManifest
import LadybirdReports.Lib.Keyset
import LadybirdReports.Lib.StrRender
import Mathlib.Data.Fintype.Basic
import Mathlib.Data.Prod.Lex
import Mathlib.Tactic.FinCases

/-!
# The list of reports

A list of reports is read page by page, each with the link of the one before it. The link has the
filters of the list, and the time and the identifier of the last report shown, as text.

Whatever a filter selects, the pages are the selected reports, each once and the newest first, and
there is a last one (`pages_are_all_reports`): what is read of a link are the filters with the
cursor of the last row (`filtersOfLink_nextPageUrl`), and `Keyset` says what the pages after it are.

The filters are ones that the database reads: it answers with an error, to the first page as to any
other, where a term or a value of the search has U+0000, which its texts have not, or where a day is
before 4713 BC, where its dates begin.
-/

namespace LadybirdReports

open Rust
open Ingestion (ServerUuid)

def reportPageSize : ℕ := 50

/-- A report and the texts of its fields, as far as a search reads them. -/
structure ListedReport where
  id : ServerUuid
  kind : Str
  clientVersion : Str
  build : Str
  state : ReportState
  /-- `storage_state = 'ready'`. -/
  ready : Bool
  issueId : Option ServerUuid
  /-- In microseconds. -/
  createdAt : ℤ
  /-- The key and the text of each field. -/
  fields : List (Str × Str)

/-- What is asked of the database, which reads it. Days are counted. -/
structure ReportQuery where
  search : ReportSearch
  issueId : Option ServerUuid
  since : Option ℤ
  untilDay : Option ℤ
  before : Option ℤ
  beforeId : Option ServerUuid

/-- What the parameters of a list say. -/
structure ReportFilters where
  q : Str
  issue : Option ServerUuid
  since : Option ℤ
  untilDay : Option ℤ
  before : Option ℤ
  beforeId : Option ServerUuid

/-! ## The query -/

/-- `uuid` is ordered by its bytes. -/
def uuidKey (id : ServerUuid) : List ℕ := List.ofFn fun i => (id.uuid.bytes i).val

/-- `(created_at, id)`. -/
def ListedReport.position (report : ListedReport) : ℤ ×ₗ List ℕ :=
  toLex (report.createdAt, uuidKey report.id)

section

variable (lower : Str → Str) (midnight : ℤ → ℤ)

/-- `push_text_search`. -/
def ListedReport.hasText (report : ListedReport) (term : Str) : Bool :=
  ([report.id.uuid.text, report.kind, report.clientVersion, report.build] ++
    report.fields.map Prod.snd).any fun text => contains (lower text) (lower term)

/-- `push_qualified_search_predicate`. -/
def ListedReport.hasQualifier (report : ListedReport) (key value : Str) : Bool :=
  let column (text : Str) : Bool := lower text = lower value
  if key = "state".toList then ReportState.parse (toAsciiLowercase value) = some report.state
  else if key = "kind".toList then column report.kind
  else if key = "version".toList || key = "client_version".toList then column report.clientVersion
  else if key = "build".toList then column report.build
  else if key = "id".toList || key = "report".toList then column report.id.uuid.text
  else report.fields.any fun field =>
    lower field.1 = lower key && contains (lower field.2) (lower value)

/-- The values of each key, the keys in the order in which they come first. -/
def qualifierGroups (qualifiers : List ReportQualifier) : List (Str × List Str) :=
  qualifiers.foldl (fun groups qualifier =>
    if groups.any (·.1 = qualifier.key) then groups.map fun group =>
      if group.1 = qualifier.key then (group.1, group.2 ++ [qualifier.value]) else group
    else groups ++ [(qualifier.key, [qualifier.value])]) []

/-- The conditions but for that of the cursor. -/
def ReportQuery.selects (query : ReportQuery) (report : ListedReport) : Bool :=
  report.ready && query.search.terms.all (report.hasText lower) &&
    (qualifierGroups query.search.qualifiers).all (fun group =>
      group.2.any (report.hasQualifier lower group.1)) &&
    query.issueId.all (fun id => report.issueId.any (uuidKey · = uuidKey id)) &&
    query.since.all (fun day => midnight day ≤ report.createdAt) &&
    query.untilDay.all fun day => report.createdAt < midnight (day + 1)

/-- The cursor, if it is complete. -/
def ReportQuery.cursor (query : ReportQuery) : Option (ℤ ×ₗ List ℕ) :=
  query.before.bind fun before => query.beforeId.map fun id => toLex (before, uuidKey id)

/-- `list_reports`: one report more than a page shows. -/
def listReports (reports : List ListedReport) (query : ReportQuery) : List ListedReport :=
  (Keyset.descending ListedReport.position (Keyset.afterCursor ListedReport.position query.cursor
    (reports.filter (query.selects lower midnight)))).take (reportPageSize + 1)

end

/-! ## Links -/

/-- What other libraries print and read. -/
structure LinkTexts where
  /-- `DateTime::to_rfc3339`, and how it is read. -/
  printTime : ℤ → Str
  readTime : Str → Option ℤ
  printDate : ℤ → Str
  readDate : Str → Option ℤ
  readUuid : Str → Option Uuid
  /-- The pairs of the query of a URL. -/
  printPairs : List (Str × Str) → Str
  readPairs : Str → Option (List (Str × Str))

section

variable (texts : LinkTexts)

def listPath : Str := "/api/report-list?".toList

/-- The pairs of `next_page_url`. -/
def linkPairs (filters : ReportFilters) (last : ListedReport) : List (Str × Str) :=
  [("q".toList, filters.q), ("before".toList, texts.printTime last.createdAt),
    ("before_id".toList, last.id.uuid.text)] ++
    (filters.issue.map fun id => ("issue".toList, id.uuid.text)).toList ++
    (filters.since.map fun day => ("since".toList, texts.printDate day)).toList ++
    (filters.untilDay.map fun day => ("until".toList, texts.printDate day)).toList

def nextPageUrl (filters : ReportFilters) (last : Option ListedReport) : Option Str :=
  last.map fun last => listPath ++ texts.printPairs (linkPairs texts filters last)

/-- `uuid_identifier!`: a UUID that the service made. -/
def readId (text : Str) : Option ServerUuid :=
  (texts.readUuid text).bind fun uuid =>
    if h : (uuid.isRfc4122 && uuid.version = 7) = true then some ⟨uuid, h⟩ else none

/-- A parameter that may be missing, but not be unreadable. -/
def optionalParameter {α : Type} (read : Str → Option α) (pairs : List (Str × Str)) (name : Str) :
    Except String (Option α) :=
  match pairs.lookup name with
  | none => .ok none
  | some text => (okOr (read text) "Failed to deserialize query string").map some

def defaultReportSearch : Str := "state:triage state:confirmed".toList

/-- `Query<ReportFilters>`. -/
def filtersOfPairs (pairs : List (Str × Str)) : Except String ReportFilters := do
  ensure (["q", "issue", "since", "until", "before", "before_id"].all fun name =>
    (pairs.map Prod.fst).count name.toList ≤ 1) "Failed to deserialize query string"
  let issue ← optionalParameter (readId texts) pairs "issue".toList
  let since ← optionalParameter texts.readDate pairs "since".toList
  let untilDay ← optionalParameter texts.readDate pairs "until".toList
  let before ← optionalParameter texts.readTime pairs "before".toList
  let beforeId ← optionalParameter (readId texts) pairs "before_id".toList
  return ⟨(pairs.lookup "q".toList).getD defaultReportSearch, issue, since, untilDay, before,
    beforeId⟩

/-- What is asked for with a link to the list. -/
def filtersOfLink (link : Str) : Except String ReportFilters := do
  let query ← okOr (stripPrefix? link listPath) "Not found"
  let pairs ← okOr (texts.readPairs query) "Failed to deserialize query string"
  filtersOfPairs texts pairs

end

/-! ## Pages -/

section

variable (lower : Str → Str) (midnight : ℤ → ℤ) (texts : LinkTexts) (reports : List ListedReport)

/-- `load_report_list`: the rows of a page, and the link of the next one. -/
def loadReportList (filters : ReportFilters) : Except String (List ListedReport × Option Str) := do
  ensure (filters.before.isSome = filters.beforeId.isSome) "Incomplete report cursor"
  let search ← ReportSearch.parse filters.q
  let fetched := listReports lower midnight reports
    ⟨search, filters.issue, filters.since, filters.untilDay, filters.before, filters.beforeId⟩
  let hasMore : Bool := reportPageSize < fetched.length
  let shown := fetched.take reportPageSize
  return (shown, if hasMore then nextPageUrl texts filters shown.getLast? else none)

/-- The pages from these filters on, as far as the links are followed; none if there are more. -/
def pagesFrom : ℕ → ReportFilters → Except String (Option (List (List ListedReport)))
  | 0, _ => return none
  | links + 1, filters => do
    let (shown, next) ← loadReportList lower midnight texts reports filters
    match next with
    | none => return some [shown]
    | some link => do
      let filters ← filtersOfLink texts link
      return (← pagesFrom links filters).map (shown :: ·)

end

/-- What is printed for a link is read again: the cursors and the filters, and the pairs that have
them. -/
structure ReadsLinks (texts : LinkTexts) (reports : List ListedReport) (filters : ReportFilters) :
    Prop where
  time : ∀ report ∈ reports, texts.readTime (texts.printTime report.createdAt) =
    some report.createdAt
  id : ∀ report ∈ reports, texts.readUuid report.id.uuid.text = some report.id.uuid
  issue : ∀ id ∈ filters.issue, texts.readUuid id.uuid.text = some id.uuid
  since : ∀ day ∈ filters.since, texts.readDate (texts.printDate day) = some day
  untilDay : ∀ day ∈ filters.untilDay, texts.readDate (texts.printDate day) = some day
  pairs : ∀ report ∈ reports, texts.readPairs (texts.printPairs (linkPairs texts filters report)) =
    some (linkPairs texts filters report)

section

variable {lower : Str → Str} {midnight : ℤ → ℤ} {texts : LinkTexts} {reports : List ListedReport}
  {filters : ReportFilters} {last : ListedReport} {search : ReportSearch}

theorem stripPrefix?_append (s t : Str) : stripPrefix? (s ++ t) s = some t := by
  unfold stripPrefix?
  rw [if_pos (startsWith_iff.mpr ⟨t, rfl⟩), List.drop_left]

theorem readId_eq {id : ServerUuid} (h : texts.readUuid id.uuid.text = some id.uuid) :
    readId texts id.uuid.text = some id := by
  unfold readId
  rw [h, Option.bind_some, dif_pos id.isUuidV7]

theorem optionalParameter_eq {α : Type} {read : Str → Option α} {print : α → Str}
    {pairs : List (Str × Str)} {name : Str} {value : Option α}
    (hlookup : pairs.lookup name = value.map print)
    (hread : ∀ v ∈ value, read (print v) = some v) :
    optionalParameter read pairs name = .ok value := by
  unfold optionalParameter
  rw [hlookup]
  cases value with
  | none => rfl
  | some v =>
    rw [Option.map_some]
    dsimp only
    rw [hread v rfl]
    rfl

/-- The filters of a list after a report. -/
def ReportFilters.after (filters : ReportFilters) (last : Option ListedReport) : ReportFilters :=
  { filters with before := last.map (·.createdAt), beforeId := last.map (·.id) }

/-- What is read of a link are the filters, after the last report that was shown. -/
theorem filtersOfLink_nextPageUrl (hreads : ReadsLinks texts reports filters)
    (hlast : last ∈ reports) :
    filtersOfLink texts (listPath ++ texts.printPairs (linkPairs texts filters last)) =
      .ok (filters.after (some last)) := by
  unfold filtersOfLink
  rw [stripPrefix?_append, okOr, ok_bind, hreads.pairs last hlast, okOr, ok_bind]
  have hq : (linkPairs texts filters last).lookup "q".toList = some filters.q := rfl
  have hbefore : (linkPairs texts filters last).lookup "before".toList =
      (some last.createdAt).map texts.printTime := rfl
  have hbeforeId : (linkPairs texts filters last).lookup "before_id".toList =
      (some last.id).map (·.uuid.text) := rfl
  obtain ⟨hissue, hsince, huntil, hcount⟩ :
      (linkPairs texts filters last).lookup "issue".toList = filters.issue.map (·.uuid.text) ∧
      (linkPairs texts filters last).lookup "since".toList = filters.since.map texts.printDate ∧
      (linkPairs texts filters last).lookup "until".toList =
        filters.untilDay.map texts.printDate ∧
      (["q", "issue", "since", "until", "before", "before_id"].all fun name =>
        ((linkPairs texts filters last).map Prod.fst).count name.toList ≤ 1) = true := by
    obtain ⟨q, issue, since, untilDay, before, beforeId⟩ := filters
    cases issue <;> cases since <;> cases untilDay <;> exact ⟨rfl, rfl, rfl, rfl⟩
  have hensured : ensure (["q", "issue", "since", "until", "before", "before_id"].all fun name =>
      ((linkPairs texts filters last).map Prod.fst).count name.toList ≤ 1)
      "Failed to deserialize query string" = .ok () := ensure_eq_ok.mpr hcount
  unfold filtersOfPairs
  rw [hensured, ok_bind,
    optionalParameter_eq hissue fun id hid => readId_eq (hreads.issue id hid), ok_bind,
    optionalParameter_eq hsince hreads.since, ok_bind,
    optionalParameter_eq huntil hreads.untilDay, ok_bind,
    optionalParameter_eq hbefore (by rintro _ ⟨rfl⟩; exact hreads.time last hlast), ok_bind,
    optionalParameter_eq hbeforeId (by rintro _ ⟨rfl⟩; exact readId_eq (hreads.id last hlast)),
    ok_bind, hq]
  rfl

/-- What is asked of the database for a list. -/
def ReportFilters.query (filters : ReportFilters) (search : ReportSearch) : ReportQuery :=
  ⟨search, filters.issue, filters.since, filters.untilDay, filters.before, filters.beforeId⟩

/-- The reports that a list shows, in any order. -/
def selectedReports (lower : Str → Str) (midnight : ℤ → ℤ) (reports : List ListedReport)
    (filters : ReportFilters) (search : ReportSearch) : List ListedReport :=
  reports.filter ((filters.query search).selects lower midnight)

theorem uuidKey_injective : Function.Injective uuidKey := by
  rintro ⟨⟨a⟩, ha⟩ ⟨⟨b⟩, hb⟩ h
  have hbytes : a = b := by
    funext i
    exact Fin.val_injective (congrFun (List.ofFn_injective h) i)
  subst hbytes
  rfl

theorem positions_nodup (hids : (reports.map (·.id)).Nodup) :
    (reports.map ListedReport.position).Nodup := by
  have hkeys : (reports.map fun report => uuidKey report.id).Nodup := by
    have hmap := hids.map uuidKey_injective
    rwa [List.map_map] at hmap
  refine List.Nodup.of_map (fun position => (ofLex position).2) ?_
  rwa [List.map_map]

variable (lower midnight texts reports) in
/-- The rows of a page, and the link after its last row if there are more. -/
theorem loadReportList_eq (hsearch : ReportSearch.parse filters.q = .ok search)
    (last : Option ListedReport) :
    let page := Keyset.page ListedReport.position reportPageSize
      (last.map ListedReport.position) (selectedReports lower midnight reports filters search)
    loadReportList lower midnight texts reports (filters.after last) =
      .ok (page.1, page.2.bind fun _ => nextPageUrl texts filters page.1.getLast?) := by
  intro page
  have hcomplete : ensure
      ((filters.after last).before.isSome = (filters.after last).beforeId.isSome)
      "Incomplete report cursor" = .ok () := by
    refine ensure_eq_ok.mpr (decide_eq_true ?_)
    cases last <;> rfl
  have hcursor : ((filters.after last).query search).cursor = last.map ListedReport.position := by
    cases last <;> rfl
  have hfetched : listReports lower midnight reports ((filters.after last).query search) =
      (Keyset.descending ListedReport.position (Keyset.afterCursor ListedReport.position
        (last.map ListedReport.position)
        (selectedReports lower midnight reports filters search))).take (reportPageSize + 1) := by
    unfold listReports
    rw [hcursor]
    rfl
  unfold loadReportList
  rw [hcomplete, ok_bind, show (filters.after last).q = filters.q from rfl, hsearch, ok_bind]
  change Except.ok _ = Except.ok _
  have hquery : (⟨search, (filters.after last).issue, (filters.after last).since,
    (filters.after last).untilDay, (filters.after last).before, (filters.after last).beforeId⟩ :
      ReportQuery) = (filters.after last).query search := rfl
  rw [hquery, hfetched]
  refine congrArg Except.ok (Prod.ext rfl ?_)
  change (if decide _ = true then nextPageUrl texts (filters.after last) page.1.getLast?
      else none) =
    (if _ then page.1.getLast?.map ListedReport.position else none).bind _
  simp only [decide_eq_true_eq]
  split_ifs with hmore
  · cases page.1.getLast? <;> rfl
  · rfl

variable (lower midnight) in
/-- The pages after a report are all that are left of the list, in its order, and there is a last
one. -/
theorem pagesFrom_after (hsearch : ReportSearch.parse filters.q = .ok search)
    (hids : (reports.map (·.id)).Nodup) (hreads : ReadsLinks texts reports filters) (n : ℕ)
    (last : Option ListedReport)
    (hn : (Keyset.descending ListedReport.position (Keyset.afterCursor ListedReport.position
      (last.map ListedReport.position)
      (selectedReports lower midnight reports filters search))).length ≤ n) :
    ∃ pages, (∀ links, n / reportPageSize < links →
        pagesFrom lower midnight texts reports links (filters.after last) = .ok (some pages)) ∧
      pages.flatten = Keyset.descending ListedReport.position
        (Keyset.afterCursor ListedReport.position (last.map ListedReport.position)
          (selectedReports lower midnight reports filters search)) := by
  have hkeys : ((selectedReports lower midnight reports filters search).map
      ListedReport.position).Nodup :=
    (positions_nodup hids).sublist (List.filter_sublist.map _)
  induction n using Nat.strong_induction_on generalizing last with
  | _ n ih =>
    have hload := loadReportList_eq lower midnight texts reports hsearch last
    dsimp only at hload
    generalize hpage : Keyset.page ListedReport.position reportPageSize
      (last.map ListedReport.position) (selectedReports lower midnight reports filters search) =
        page at hload
    cases hnext : page.2 with
    | none =>
      rw [hnext] at hload
      refine ⟨[page.1], fun links hlinks => ?_, ?_⟩
      · obtain ⟨links, rfl⟩ := Nat.exists_eq_add_of_lt (Nat.zero_lt_of_lt hlinks)
        rw [Nat.zero_add, pagesFrom, hload]
        rfl
      · rw [← hpage] at hnext ⊢
        rw [Keyset.page_last (by decide) hnext]
        simp
    | some next =>
      rw [hnext] at hload
      rw [← hpage] at hnext
      obtain ⟨hsize, hlast, hrest⟩ := Keyset.page_next hkeys hnext
      rw [hpage] at hsize hlast hrest
      obtain ⟨shown, hshown, rfl⟩ := Option.map_eq_some_iff.mp hlast
      have hmem : shown ∈ reports := by
        have hpageMem := List.mem_of_getLast? hshown
        rw [← hpage, Keyset.page_shown] at hpageMem
        have hrows := (Keyset.descending_perm _).mem_iff.mp (List.mem_of_mem_take hpageMem)
        exact (List.mem_filter.mp (List.mem_filter.mp hrows).1).1
      have hlength := congrArg List.length hrest
      rw [List.length_append, hsize] at hlength
      have hpageSize : reportPageSize = 50 := rfl
      obtain ⟨pages, hpages, hflatten⟩ := ih (n - reportPageSize) (by omega) (some shown)
        (by rw [Option.map_some]; omega)
      refine ⟨page.1 :: pages, fun links hlinks => ?_, ?_⟩
      · obtain ⟨links, rfl⟩ := Nat.exists_eq_add_of_lt (Nat.zero_lt_of_lt hlinks)
        rw [Nat.zero_add, pagesFrom, hload, ok_bind]
        dsimp only
        rw [Option.bind_some, hshown, nextPageUrl, Option.map_some]
        dsimp only
        have hfewer : (n - reportPageSize) / reportPageSize < links := by
          rw [hpageSize] at hlinks ⊢
          omega
        rw [filtersOfLink_nextPageUrl hreads hmem, ok_bind, hpages links hfewer]
        rfl
      · rw [List.flatten_cons, hflatten, ← hrest]
        rfl

variable (lower midnight) in
/-- Following the links from the first page shows each report that is selected once, the newest
first, and ends. -/
theorem pages_are_all_reports (hsearch : ReportSearch.parse filters.q = .ok search)
    (hbefore : filters.before = none) (hbeforeId : filters.beforeId = none)
    (hids : (reports.map (·.id)).Nodup) (hreads : ReadsLinks texts reports filters) :
    ∃ pages, (∀ links, (selectedReports lower midnight reports filters search).length /
          reportPageSize < links →
        pagesFrom lower midnight texts reports links filters = .ok (some pages)) ∧
      pages.flatten.Perm (selectedReports lower midnight reports filters search) ∧
      pages.flatten.Pairwise fun report next => next.position < report.position := by
  have hfirst : filters.after none = filters := by
    obtain ⟨q, issue, since, untilDay, before, beforeId⟩ := filters
    obtain rfl : before = none := hbefore
    obtain rfl : beforeId = none := hbeforeId
    rfl
  have hall : Keyset.afterCursor ListedReport.position ((none : Option ListedReport).map
      ListedReport.position) (selectedReports lower midnight reports filters search) =
        selectedReports lower midnight reports filters search :=
    List.filter_eq_self.mpr fun _ _ => rfl
  have hperm : (Keyset.descending ListedReport.position
      (selectedReports lower midnight reports filters search)).Perm
        (selectedReports lower midnight reports filters search) := Keyset.descending_perm _
  obtain ⟨pages, hpages, hflatten⟩ := pagesFrom_after lower midnight hsearch hids hreads
    (selectedReports lower midnight reports filters search).length none
    (by rw [hall, hperm.length_eq])
  rw [hfirst] at hpages
  rw [hall] at hflatten
  refine ⟨pages, hpages, ?_, ?_⟩
  · rw [hflatten]
    exact hperm
  · rw [hflatten]
    exact Keyset.descending_pairwise ((positions_nodup hids).sublist (List.filter_sublist.map _))

end

/-! ## Reports of one moment -/

/-- Of the queries of URLs, the characters of ASCII. -/
def encodeCharacter (c : Char) : Str :=
  if c.isAlphanum || c = '*' || c = '-' || c = '.' || c = '_' then [c]
  else if c = ' ' then ['+']
  else '%' :: ((Uuid.byteText (Fin.ofNat 256 c.toNat)).map Char.toUpper)

def digitValue (c : Char) : ℕ := Uuid.digits.idxOf c.toLower

def decodeCharacters : Str → Str
  | '%' :: high :: low :: s => Char.ofNat (16 * digitValue high + digitValue low) ::
    decodeCharacters s
  | '+' :: s => ' ' :: decodeCharacters s
  | c :: s => c :: decodeCharacters s
  | [] => []

def textByte (text : Str) (i : Fin 16) : Fin 256 :=
  let values := (text.filter (· ≠ '-')).map digitValue
  Fin.ofNat 256 (16 * values.getD (2 * i.val) 0 + values.getD (2 * i.val + 1) 0)

theorem digitValue_digit (n : Fin 16) : digitValue (Uuid.digit n) = n := by
  revert n
  decide

theorem digitValue_toUpper (n : Fin 16) : digitValue (Uuid.digit n).toUpper = n := by
  revert n
  decide

theorem value_high_low (b : Fin 256) : 16 * (Uuid.high b).val + (Uuid.low b).val = b.val := by
  simp only [Uuid.high, Uuid.low]
  omega

/-- The text of a UUID has the digits of its bytes. -/
theorem textByte_text (u : Uuid) (i : Fin 16) : textByte u.text i = u.bytes i := by
  have hbyte (b : Fin 256) : (Uuid.byteText b).filter (· ≠ '-') = Uuid.byteText b := by
    refine List.filter_eq_self.mpr fun c hc => decide_eq_true ?_
    rintro rfl
    exact absurd (Uuid.mem_digits_of_mem_byteText hc) (by decide)
  have hdigits (b : Fin 256) : (Uuid.byteText b).map digitValue =
      [(Uuid.high b).val, (Uuid.low b).val] := by
    simp only [Uuid.byteText, List.map_cons, List.map_nil, digitValue_digit]
  have hvalue (b : Fin 256) : Fin.ofNat 256 (16 * (Uuid.high b).val + (Uuid.low b).val) = b := by
    rw [value_high_low]
    exact Fin.ext (Nat.mod_eq_of_lt b.isLt)
  have hdash : decide ('-' ≠ '-') = false := by decide
  unfold textByte Uuid.text
  simp only [List.filter_append, List.filter_cons, hbyte, hdash, List.map_append, hdigits,
    Bool.false_eq_true, if_false]
  fin_cases i <;> exact hvalue _

/-- A character of ASCII is read again. -/
theorem decodeCharacters_encodeCharacter {c : Char} (hc : c.toNat < 128) (s : Str) :
    decodeCharacters (encodeCharacter c ++ s) = c :: decodeCharacters s := by
  unfold encodeCharacter
  split_ifs with hplain hspace
  · have hpercent : c ≠ '%' := by
      rintro rfl
      exact absurd hplain (by decide)
    have hplus : c ≠ '+' := by
      rintro rfl
      exact absurd hplain (by decide)
    rw [List.singleton_append, decodeCharacters]
    · rintro high low rest rfl
      exact absurd rfl hpercent
    · exact hplus
  · rw [hspace]
    rfl
  · have hvalue : (Fin.ofNat 256 c.toNat).val = c.toNat := Nat.mod_eq_of_lt (by omega)
    change Char.ofNat (16 * digitValue (Uuid.digit (Uuid.high _)).toUpper +
      digitValue (Uuid.digit (Uuid.low _)).toUpper) :: decodeCharacters s = _
    rw [digitValue_toUpper, digitValue_toUpper, value_high_low, hvalue, Char.ofNat_toNat]

theorem decodeCharacters_encode {s : Str} (h : ∀ c ∈ s, c.toNat < 128) :
    decodeCharacters (s.flatMap encodeCharacter) = s := by
  induction s with
  | nil => rfl
  | cons c s ih =>
    rw [List.flatMap_cons, decodeCharacters_encodeCharacter (h c List.mem_cons_self),
      ih fun d hd => h d (List.mem_cons_of_mem _ hd)]

/-- What is between the pairs, and within them, is in no text. -/
theorem not_mem_encode {s : Str} (h : ∀ c ∈ s, c.toNat < 128) {d : Char} (hd : d = '&' ∨ d = '=') :
    d ∉ s.flatMap encodeCharacter := by
  have hencoded : ∀ n < 128,
      ((encodeCharacter (Char.ofNat n)).all fun d => d ≠ '&' ∧ d ≠ '=') = true := by
    decide +kernel
  intro hmem
  obtain ⟨c, hc, hmem⟩ := List.mem_flatMap.mp hmem
  have hother := of_decide_eq_true
    (List.all_eq_true.mp (hencoded c.toNat (h c hc)) d ((Char.ofNat_toNat c).symm ▸ hmem))
  rcases hd with hd | hd
  · exact hother.1 hd
  · exact hother.2 hd

def sampleMoment : ℤ := 1767225600000000
def sampleMomentText : Str := "2026-01-01T00:00:00+00:00".toList

def sampleLinkTexts : LinkTexts where
  printTime _ := sampleMomentText
  readTime text := if text = sampleMomentText then some sampleMoment else none
  printDate _ := "2026-01-01".toList
  readDate _ := some 20454
  readUuid text := if text.length = 36 then some ⟨textByte text⟩ else none
  printPairs pairs := join ['&'] (pairs.map fun pair =>
    pair.1.flatMap encodeCharacter ++ '=' :: pair.2.flatMap encodeCharacter)
  readPairs query := (split ['&'] query).mapM fun pair =>
    (splitOnce? ['='] pair).map fun (name, value) => (decodeCharacters name, decodeCharacters value)

def printPair (pair : Str × Str) : Str :=
  pair.1.flatMap encodeCharacter ++ '=' :: pair.2.flatMap encodeCharacter

def readPair (text : Str) : Option (Str × Str) :=
  (splitOnce? ['='] text).map fun (name, value) => (decodeCharacters name, decodeCharacters value)

theorem readPair_printPair {pair : Str × Str}
    (h : (∀ c ∈ pair.1, c.toNat < 128) ∧ ∀ c ∈ pair.2, c.toNat < 128) :
    readPair (printPair pair) = some pair := by
  have hcut : printPair pair = pair.1.flatMap encodeCharacter ++ ['='] ++
      pair.2.flatMap encodeCharacter := by
    rw [List.append_assoc]
    rfl
  unfold readPair
  rw [hcut, splitOnce?_append (not_mem_encode h.1 (.inr rfl))]
  simp only [Option.map_some, decodeCharacters_encode h.1, decodeCharacters_encode h.2]

/-- Pairs of texts of ASCII are read again. -/
theorem readPairs_printPairs {pair : Str × Str} {pairs : List (Str × Str)}
    (h : ∀ q ∈ pair :: pairs, (∀ c ∈ q.1, c.toNat < 128) ∧ ∀ c ∈ q.2, c.toNat < 128) :
    sampleLinkTexts.readPairs (sampleLinkTexts.printPairs (pair :: pairs)) =
      some (pair :: pairs) := by
  have hsplit : split ['&'] (join ['&'] ((pair :: pairs).map printPair)) =
      (pair :: pairs).map printPair := by
    refine split_join fun t ht => ?_
    have ht : t ∈ (pair :: pairs).map printPair := ht
    obtain ⟨q, hq, rfl⟩ := List.mem_map.mp ht
    have hname := not_mem_encode (h q hq).1 (.inl rfl)
    have hvalue := not_mem_encode (h q hq).2 (.inl rfl)
    simp [printPair, hname, hvalue]
  have hread (qs : List (Str × Str)) (hqs : qs ⊆ pair :: pairs) :
      (qs.map printPair).mapM readPair = some qs := by
    induction qs with
    | nil => rfl
    | cons q qs ih =>
      rw [List.map_cons, List.mapM_cons, readPair_printPair (h q (hqs List.mem_cons_self)),
        ih fun r hr => hqs (List.mem_cons_of_mem _ hr)]
      rfl
  change (split ['&'] (join ['&'] ((pair :: pairs).map printPair))).mapM readPair = _
  rw [hsplit]
  exact hread _ (List.Subset.refl _)

/-- A UUID that the service made, and one byte of it. -/
def numberedUuid (n : ℕ) : Uuid :=
  ⟨fun i => ⟨if i.val = 15 then n % 256 else if i.val = 6 then 0x70
    else if i.val = 8 then 0x80 else 0, by grind⟩⟩

theorem numberedUuid_isUuidV7 (n : ℕ) :
    ((numberedUuid n).isRfc4122 && (numberedUuid n).version = 7) = true := by
  have height : ((numberedUuid n).bytes 8).val = 0x80 := rfl
  have hsix : ((numberedUuid n).bytes 6).val = 0x70 := rfl
  unfold Uuid.isRfc4122 Uuid.version
  rw [height, hsix]
  decide

def numberedReport (n : ℕ) : ListedReport where
  id := ⟨numberedUuid n, numberedUuid_isUuidV7 n⟩
  kind := "crash".toList
  clientVersion := "1.0".toList
  build := "main".toList
  state := .triage
  ready := true
  issueId := none
  createdAt := sampleMoment
  fields := []

def sampleListFilters : ReportFilters := ⟨"kind:crash".toList, none, none, none, none, none⟩

theorem sampleReadsLinks :
    ReadsLinks sampleLinkTexts ((List.range 51).map numberedReport) sampleListFilters := by
  refine ⟨?_, ?_, nofun, nofun, nofun, ?_⟩
  · intro report hreport
    obtain ⟨n, -, rfl⟩ := List.mem_map.mp hreport
    rfl
  · intro report hreport
    obtain ⟨n, -, rfl⟩ := List.mem_map.mp hreport
    change some (⟨textByte (numberedUuid n).text⟩ : Uuid) = some (numberedUuid n)
    rw [funext (textByte_text (numberedUuid n))]
  · intro report hreport
    obtain ⟨n, -, rfl⟩ := List.mem_map.mp hreport
    refine readPairs_printPairs fun q hq => ?_
    have hascii (s : Str) (hs : s.all (·.toNat < 128) = true) : ∀ c ∈ s, c.toNat < 128 :=
      forall_of_all hs
    rcases List.mem_cons.mp hq with rfl | hq
    · exact ⟨hascii "q".toList (by decide), hascii sampleListFilters.q (by decide)⟩
    rcases List.mem_cons.mp hq with rfl | hq
    · exact ⟨hascii "before".toList (by decide), hascii sampleMomentText (by decide)⟩
    rw [List.mem_singleton.mp hq]
    refine ⟨hascii "before_id".toList (by decide), fun c hc => ?_⟩
    rcases Uuid.mem_text hc with rfl | hc
    · decide
    · exact hascii Uuid.digits (by decide) c hc

/-- Two pages have fifty-one reports of one moment. -/
theorem pages_of_one_moment : ∃ pages,
    pagesFrom toAsciiLowercase (86400000000 * ·) sampleLinkTexts
      ((List.range 51).map numberedReport)
      2 sampleListFilters = .ok (some pages) ∧
    pages.flatten.length = 51 := by
  obtain ⟨pages, hpages, hperm, -⟩ := pages_are_all_reports toAsciiLowercase
    (86400000000 * ·) (show ReportSearch.parse sampleListFilters.q =
      .ok ⟨[], [⟨"kind".toList, "crash".toList⟩]⟩ by decide +kernel) rfl rfl
    (by
      rw [List.map_map]
      refine List.Nodup.map_on (fun n hn m hm h => ?_) List.nodup_range
      have hbyte : n % 256 = m % 256 :=
        congrArg (fun id : ServerUuid => (id.uuid.bytes 15).val) h
      rw [List.mem_range] at hn hm
      omega)
    sampleReadsLinks
  refine ⟨pages, hpages 2 (by decide +kernel), ?_⟩
  rw [hperm.length_eq]
  decide +kernel

end LadybirdReports
