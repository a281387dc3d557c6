import LadybirdReports.Domain.TitleLength
import LadybirdReports.Lib.StrChars

/-!
# What a title shows of a report

Every part of a title is made of characters that may be shown: no controls, and no backtick.

1. Source locations, expressions, functions and what is known about the client are only used when
   all their characters are on a list, and letters and digits are no controls.
2. Of an address, the query and the fragment are dropped first, and what else may not be shown is
   replaced.

So a title can be shown, whatever the report holds, and it does not depend on what follows the
address (`title_showable_and_query_free`).
-/

namespace LadybirdReports

open Rust

/-- A character that may stand in a title. -/
def isShowable (c : Char) : Bool := !isControl c && c ≠ '\x60'

section

variable {u : Unicode} {s shown reason location : Str} {maximumCharacters : ℕ} {c : Char}

/-! ## Plain characters -/

theorem isShowable_of_ascii (h : 0x20 ≤ c.toNat) (hbelow : c.toNat < 0x7F) (hc : c ≠ '\x60') :
    isShowable c = true := by
  unfold isShowable isControl
  simp only [Bool.and_eq_true, Bool.not_eq_true', Bool.or_eq_false_iff, decide_eq_false_iff_not,
    Bool.and_eq_false_iff, decide_eq_true_eq]
  exact ⟨⟨by omega, .inl (by omega)⟩, hc⟩

theorem isShowable_of_isAsciiAlphanumeric (h : isAsciiAlphanumeric c = true) :
    isShowable c = true := by
  simp only [isAsciiAlphanumeric, isAsciiDigit, isAsciiAlphabetic, Bool.or_eq_true,
    Bool.and_eq_true, decide_eq_true_eq, show '0'.toNat = 48 from rfl, show '9'.toNat = 57 from rfl,
    show 'a'.toNat = 97 from rfl, show 'z'.toNat = 122 from rfl, show 'A'.toNat = 65 from rfl,
    show 'Z'.toNat = 90 from rfl] at h
  refine isShowable_of_ascii (by omega) (by omega) ?_
  rintro rfl
  have hbacktick : '\x60'.toNat = 96 := rfl
  omega

theorem isShowable_of_isPlainName (h : isPlainName s = true) : s.all isShowable = true := by
  refine all_imp (fun c hc => ?_) h
  simp only [Bool.or_eq_true, decide_eq_true_eq] at hc
  rcases hc with ((hc | rfl) | rfl) | rfl
  · exact isShowable_of_isAsciiAlphanumeric hc
  all_goals decide

theorem isShowable_of_isExpressionChar (h : isExpressionChar c = true) : isShowable c = true := by
  unfold isExpressionChar at h
  rcases Bool.or_eq_true_iff.mp h with hc | hc
  · exact isShowable_of_isAsciiAlphanumeric hc
  · have hlist : " _.:,()[]<>=!&|+-*/%".toList.all isShowable = true := by decide
    exact List.all_eq_true.mp hlist c (List.contains_iff_mem.mp hc)

/-! ## Source locations and expressions -/

theorem showable_sourceLocation (h : sourceLocationFromFailure reason = some location) :
    location.all isShowable = true := by
  unfold sourceLocationFromFailure at h
  obtain ⟨place, -, h⟩ := Option.bind_eq_some_iff.mp h
  obtain ⟨parts, -, h⟩ := Option.bind_eq_some_iff.mp h
  dsimp only at h
  generalize withoutColumn parts.1 parts.2 = found at h
  obtain ⟨number, hnumber, h⟩ := Option.bind_eq_some_iff.mp h
  split at h
  · cases h
  obtain ⟨file, -, h⟩ := Option.bind_eq_some_iff.mp h
  split at h
  · cases h
  rename_i hplain
  simp only [Bool.or_eq_true, not_or, Bool.not_eq_true', Bool.not_eq_false] at hplain
  have hfile : file.all isShowable = true := isShowable_of_isPlainName hplain.1.1.1.2
  have hline : found.2.all isShowable = true := by
    refine List.all_eq_true.mpr fun c hc => ?_
    rcases mem_of_parseUnsigned hnumber c hc with hdigit | rfl
    · exact isShowable_of_isAsciiAlphanumeric (by rw [isAsciiAlphanumeric, hdigit]; rfl)
    · decide
  have hcolon : (file ++ [':'] ++ found.2).all isShowable = true :=
    all_append.mpr ⟨all_append.mpr ⟨hfile, by decide⟩, hline⟩
  split at h
  · rename_i directory hdirectory
    cases h
    obtain ⟨-, hname⟩ := Option.filter_eq_some_iff.mp hdirectory
    simp only [Bool.and_eq_true] at hname
    rw [List.append_assoc, List.append_assoc, List.append_assoc]
    rw [List.append_assoc] at hcolon
    exact all_append.mpr ⟨isShowable_of_isPlainName hname.1.2, all_append.mpr ⟨by decide, hcolon⟩⟩
  · cases h
    exact hcolon

theorem showable_failedExpression {room : ℕ}
    (h : failedExpression reason room = .ok (some shown)) : shown.all isShowable = true := by
  unfold failedExpression at h
  dsimp only at h
  split_ifs at h
  · cases h
  split at h
  · cases h
  split at h
  · cases h
  split_ifs at h with hrefused hshort
  · cases h
  all_goals
    simp only [Bool.or_eq_true, not_or, Bool.not_eq_true', Bool.not_eq_false] at hrefused
    have hexpression := all_imp (fun c hc => isShowable_of_isExpressionChar hc) hrefused.1.2
  · cases h
    exact hexpression
  · obtain ⟨short, hshort, h⟩ := map_eq_ok.mp h
    cases h
    unfold shortenedExpression at hshort
    dsimp only at hshort
    rw [truncate_trimEnd, ok_bind, pure_eq_ok] at hshort
    rw [← hshort]
    exact all_append.mpr
      ⟨all_of_subset (trimEnd_sublist _).subset (all_of_subset (List.take_subset _ _) hexpression),
        by decide⟩

/-! ## Pages and functions -/

theorem showable_pageUrl {url page : Str} (h : pageUrl url maximumCharacters = some page) :
    page.all isShowable = true := by
  unfold pageUrl at h
  dsimp only at h
  have hmapped : ((trim (splitHead (fun c => c == '?' || c == '#') url)).map fun c =>
      if c = '\x60' then '′' else if isControl c then ' ' else c).all isShowable = true := by
    refine List.all_eq_true.mpr fun c hc => ?_
    obtain ⟨d, -, rfl⟩ := List.mem_map.mp hc
    split_ifs with hbacktick hcontrol
    · decide
    · decide
    · simp [isShowable, hbacktick, hcontrol]
  split_ifs at h
  · cases h
    exact hmapped
  · cases h
    exact all_take_append hmapped (by decide)

/-- A character that a function is named with. -/
def isNameChar (u : Unicode) (c : Char) : Bool :=
  u.isAlphanumeric c || c = ':' || c = '_' || c = '~'

theorem nameSegments?_chars {candidate : Str} {segments : List Str}
    (h : nameSegments? u candidate = some segments) :
    ∀ segment ∈ segments, segment.all (isNameChar u) = true := by
  unfold nameSegments? at h
  dsimp only at h
  split_ifs at h with hname
  cases h
  simp only [Bool.or_eq_true, decide_eq_true_eq, not_or, Bool.not_eq_true', Bool.not_eq_false]
    at hname
  intro segment hsegment
  exact all_of_subset (split_subset (List.mem_filter.mp hsegment).1) hname.2

/-- The last segments of a name, joined. -/
theorem conciseFrom_eq_ok {segments : List Str} {start : ℕ}
    (h : conciseFrom segments maximumCharacters start = .ok shown) :
    ∃ k, shown = join "::".toList (segments.drop k) := by
  induction hn : segments.length - start using Nat.strong_induction_on generalizing start with
  | _ n ih =>
    rw [conciseFrom] at h
    obtain ⟨rest, hrest, h⟩ := bind_eq_ok.mp h
    dsimp only at h
    split_ifs at h with hlong
    · exact ih _ (by omega) h rfl
    · unfold tailFrom at hrest
      split_ifs at hrest
      cases hrest
      exact ⟨start, (pure_eq_ok.mp h).symm⟩

theorem conciseFunctionName_chars
    (h : conciseFunctionName u s maximumCharacters = .ok (some shown)) :
    shown.all (fun c => isNameChar u c || c = '…') = true := by
  unfold conciseFunctionName at h
  obtain ⟨candidate, -, h⟩ := bind_eq_ok.mp h
  split at h
  · cases h
  rename_i segments hsegments
  obtain ⟨concise, hconcise, h⟩ := bind_eq_ok.mp h
  cases h
  obtain ⟨k, rfl⟩ := conciseFrom_eq_ok hconcise
  have hjoin : (join "::".toList (segments.drop k)).all (isNameChar u) = true := by
    refine all_join (by simp [isNameChar]) fun segment hsegment => ?_
    exact nameSegments?_chars hsegments segment (List.mem_of_mem_drop hsegment)
  have hchars := all_imp (q := fun c => isNameChar u c || c = '…') (fun c hc => by simp [hc]) hjoin
  unfold shortened
  split
  · exact all_take_append hchars (by simp)
  · exact hchars

/-! ## Functions and what is known about the client -/

section

variable (hletters : ∀ c, u.isAlphanumeric c = true → isShowable c = true)

include hletters

theorem showable_conciseFunctionName
    (h : conciseFunctionName u s maximumCharacters = .ok (some shown)) :
    shown.all isShowable = true := by
  refine all_imp (fun c hc => ?_) (conciseFunctionName_chars h)
  unfold isNameChar at hc
  simp only [Bool.or_eq_true, decide_eq_true_eq] at hc
  rcases hc with (((hc | rfl) | rfl) | rfl) | rfl
  · exact hletters c hc
  all_goals decide

theorem showable_firstFunctionName {symbols : List Str}
    (h : firstFunctionName u maximumCharacters symbols = .ok (some shown)) :
    shown.all isShowable = true := by
  induction symbols with
  | nil => cases h
  | cons symbol symbols ih =>
    rw [firstFunctionName] at h
    obtain ⟨first, hfirst, h⟩ := bind_eq_ok.mp h
    cases first with
    | some name =>
      cases h
      exact showable_conciseFunctionName hletters hfirst
    | none => exact ih h

theorem showable_safeContext
    (h : safeContext u s maximumCharacters = some shown) : shown.all isShowable = true := by
  unfold safeContext at h
  dsimp only at h
  split_ifs at h with hrefused
  cases h
  simp only [Bool.or_eq_true, decide_eq_true_eq, not_or, Bool.not_eq_true',
    Bool.not_eq_false] at hrefused
  refine all_of_subset (List.take_subset _ _) (all_imp (fun c hc => ?_) hrefused.2)
  rcases Bool.or_eq_true_iff.mp hc with hc | hc
  · exact hletters c hc
  · have hlist : " ._-+()".toList.all isShowable = true := by decide
    exact List.all_eq_true.mp hlist c (List.contains_iff_mem.mp hc)

/-! ## Titles -/

theorem showable_contextTitle (input : ReportTitleInput) :
    (contextTitle u input).all isShowable = true := by
  have hintro : (contextIntro input.kind input.style).all isShowable = true := by
    cases input.kind <;> cases input.style <;> decide
  rw [contextTitle_eq]
  refine all_append.mpr ⟨hintro, all_join (by decide) fun part hpart => ?_⟩
  dsimp only at hpart
  split_ifs at hpart
  · rw [List.mem_singleton.mp hpart]
    cases hversion : safeContext u input.clientVersion 60 with
    | none => decide
    | some version => exact showable_safeContext hletters hversion
  · rcases List.mem_append.mp hpart with hpart | hpart
    · obtain ⟨value, -, hvalue⟩ := List.mem_filterMap.mp (List.mem_of_mem_take hpart)
      obtain ⟨text, -, htext⟩ := Option.bind_eq_some_iff.mp hvalue
      exact showable_safeContext hletters htext
    · obtain ⟨signal, -, hsignal⟩ := Option.bind_eq_some_iff.mp (Option.mem_toList.mp hpart)
      exact showable_safeContext hletters hsignal

theorem showable_title {input : ReportTitleInput} {title : Str}
    (h : generateReportTitle u input = .ok title) : title.all isShowable = true := by
  have hkind : (titleKind input.kind input.style ++ ": ".toList).all isShowable = true := by
    cases input.kind <;> cases input.style <;> decide
  unfold generateReportTitle at h
  dsimp only at h
  split at h
  · rename_i location hlocation
    unfold ReportTitleInput.location? at hlocation
    split_ifs at hlocation
    obtain ⟨reason, -, hsource⟩ := Option.bind_eq_some_iff.mp hlocation
    have htitle := all_append.mpr ⟨hkind, showable_sourceLocation hsource⟩
    obtain ⟨expression, hexpression, h⟩ := bind_eq_ok.mp h
    cases expression with
    | none =>
      cases h
      exact htitle
    | some expression =>
      cases h
      exact all_append.mpr
        ⟨all_append.mpr ⟨htitle, by decide⟩, showable_failedExpression hexpression⟩
  split at h
  · rename_i page hpage
    cases h
    unfold ReportTitleInput.page? at hpage
    split_ifs at hpage
    obtain ⟨url, -, hurl⟩ := Option.bind_eq_some_iff.mp hpage
    exact all_append.mpr ⟨hkind, showable_pageUrl hurl⟩
  split at h
  · cases h
    exact showable_contextTitle hletters input
  · obtain ⟨symbols, -, h⟩ := bind_eq_ok.mp h
    obtain ⟨name, hname, h⟩ := bind_eq_ok.mp h
    cases name with
    | none =>
      cases h
      exact showable_contextTitle hletters input
    | some name =>
      cases h
      exact all_append.mpr ⟨hkind, showable_firstFunctionName hletters hname⟩

end

/-! ## Queries and fragments -/

/-- An address up to its query or fragment. -/
def beforeQuery (url : Str) : Str := splitHead (fun c => c == '?' || c == '#') url

/-- The inputs differ in nothing but what follows the first `?` or `#` of the URL. -/
structure SameButQuery (a b : ReportTitleInput) : Prop where
  url : a.url.map beforeQuery = b.url.map beforeQuery
  others : { a with url := none } = { b with url := none }

theorem pageUrl_beforeQuery (url : Str) (maximumCharacters : ℕ) :
    pageUrl (beforeQuery url) maximumCharacters = pageUrl url maximumCharacters := by
  unfold pageUrl beforeQuery splitHead
  rw [List.takeWhile_idem]

theorem bind_pageUrl (url : Option Str) (maximumCharacters : ℕ) :
    url.bind (pageUrl · maximumCharacters) =
      (url.map beforeQuery).bind (pageUrl · maximumCharacters) := by
  cases url with
  | none => rfl
  | some url => exact (pageUrl_beforeQuery url maximumCharacters).symm

/-- A title looks at a URL only for the page. -/
theorem generateReportTitle_congr_url {input : ReportTitleInput} {url : Option Str}
    (h : ({ input with url := url } : ReportTitleInput).page? = input.page?) :
    generateReportTitle u { input with url := url } = generateReportTitle u input := by
  unfold generateReportTitle
  rw [h]
  rfl

theorem title_eq_of_sameButQuery {a b : ReportTitleInput} (h : SameButQuery a b) :
    generateReportTitle u a = generateReportTitle u b := by
  have ha : a = { b with url := a.url } := by
    have hothers := congrArg (fun input : ReportTitleInput => { input with url := a.url }) h.others
    exact hothers
  rw [ha]
  refine generateReportTitle_congr_url ?_
  unfold ReportTitleInput.page?
  dsimp only
  rw [bind_pageUrl a.url, bind_pageUrl b.url, h.url]

end

/-- A title shows no control and no backtick, and nothing of the query or fragment of a URL. -/
theorem title_showable_and_query_free {u : Unicode}
    (hletters : ∀ c, u.isAlphanumeric c = true → isControl c = false ∧ c ≠ '\x60') :
    (∀ input title, generateReportTitle u input = .ok title →
      ∀ c ∈ title, isControl c = false ∧ c ≠ '\x60') ∧
    ∀ a b, SameButQuery a b → generateReportTitle u a = generateReportTitle u b := by
  have hshowable (c : Char) : isShowable c = true ↔ isControl c = false ∧ c ≠ '\x60' := by
    simp [isShowable]
  refine ⟨fun input title h c hc => ?_, fun a b h => title_eq_of_sameButQuery h⟩
  refine (hshowable c).mp (List.all_eq_true.mp (showable_title (fun c hc => ?_) h) c hc)
  exact (hshowable c).mpr (hletters c hc)

theorem ascii_letters (c : Char) (h : Unicode.ascii.isAlphanumeric c = true) :
    isControl c = false ∧ c ≠ '\x60' := by
  have hshowable := isShowable_of_isAsciiAlphanumeric h
  simpa [isShowable] using hshowable

def samplePage (url : String) : ReportTitleInput where
  style := .report
  kind := .webCompat
  url := some url.toList
  clientVersion := ['\x60', '\x00']
  failureReason := none
  stackTrace := none
  process := none
  platform := none
  signal := none

theorem page_is_titled_without_query :
    (∀ c ∈ "Web compatibility: https://example.org/a ′".toList,
      isControl c = false ∧ c ≠ '\x60') ∧
    generateReportTitle Unicode.ascii (samplePage "https://example.org/?token=1") =
      generateReportTitle Unicode.ascii (samplePage "https://example.org/#top") :=
  ⟨(title_showable_and_query_free ascii_letters).1 (samplePage "https://example.org/a\u0007\x60?q")
      _ (by decide +kernel),
    (title_showable_and_query_free ascii_letters).2 _ _
      ⟨congrArg some (by decide +kernel), rfl⟩⟩

end LadybirdReports
