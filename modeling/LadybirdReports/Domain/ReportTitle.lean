import LadybirdReports.Domain.StackTrace

/-!
# Report titles

`generateReportTitle` names a report after where it failed, the page it is about, the function it
crashed in, or what is known about its client.

1. `conciseFunctionName` looks for the last white space before the first `::` and goes on one byte
   after the offset it found. It returns exactly when that white space is one byte long
   (`conciseFunctionName_safe_iff`), and then the name is `functionNameOf`.
2. The relevant rows of a stack are asked in order until one has a name, so a row matters only when
   no row before it has one (`firstFunctionName_safe_iff`).
3. The stack is asked only where no source location and no page names the report
   (`generateReportTitle_safe_iff`). All other slices are at boundaries.
-/

namespace LadybirdReports

open Rust

def maxTitleCharacters : ℕ := 120
def reportTitleStackCharacters : ℕ := 8192

/-- Where a title is shown. -/
inductive TitleStyle
  | report
  | issue
  deriving DecidableEq, Repr

structure ReportTitleInput where
  style : TitleStyle
  kind : ReportKind
  url : Option Str
  clientVersion : Str
  failureReason : Option Str
  stackTrace : Option Str
  process : Option Str
  platform : Option Str
  signal : Option Str
  deriving DecidableEq, Repr

/-! ## Function names -/

/-- The text inside AK's callback wrapper, which holds the useful name, or the whole symbol. -/
def callableInner (symbol : Str) : Str :=
  match splitOnce? "::CallableWrapper<".toList symbol with
  | some (_, inner) => inner
  | none => symbol

/-- The candidate without the words before the qualifier of its first scope operator. -/
def dropScopeWords (candidate : Str) : Checked Str :=
  match find? "::".toList candidate with
  | some firstScope => do
    let head ← sliceTo candidate firstScope
    sliceFrom candidate (((rfind? isWhitespace head).map (· + 1)).getD 0)
  | none => return candidate

/-- The segments of the name in a candidate, if it is one. -/
def nameSegments? (u : Unicode) (candidate : Str) : Option (List Str) :=
  let name := trim (splitHead (· == '(') (withoutTemplates candidate))
  if name = [] || contains name "://".toList ||
      !name.all fun c => u.isAlphanumeric c || c = ':' || c = '_' || c = '~' then none
  else
    let segments := (split "::".toList name).filter (· ≠ [])
    if segments = [] then none else some segments

/-- The segments from `start` on, or fewer of them where these are too long. -/
def conciseFrom (segments : List Str) (maximumCharacters start : ℕ) : Checked Str := do
  let concise := join "::".toList (← tailFrom segments start)
  if h : maximumCharacters < concise.length ∧ start + 1 < segments.length then
    conciseFrom segments maximumCharacters (start + 1)
  else return concise
termination_by segments.length - start

def shortened (maximumCharacters : ℕ) (concise : Str) : Str :=
  if maximumCharacters < concise.length then concise.take (maximumCharacters - 1) ++ ['…']
  else concise

def conciseFunctionName (u : Unicode) (symbol : Str) (maximumCharacters : ℕ) :
    Checked (Option Str) := do
  let candidate ← dropScopeWords (callableInner symbol)
  match nameSegments? u candidate with
  | none => return none
  | some segments =>
    let concise ← conciseFrom segments maximumCharacters (segments.length - 3)
    return some (shortened maximumCharacters concise)

/-! ### Which symbols are safe -/

/-- The last white space before the first scope operator. -/
def scopeSpace? (symbol : Str) : Option Char :=
  match splitOnce? "::".toList (callableInner symbol) with
  | some (head, _) => head.reverse.find? isWhitespace
  | none => none

/-- That white space is one byte long. -/
def PlainScope (symbol : Str) : Prop := ∀ c ∈ scopeSpace? symbol, c.utf8Size = 1

instance (symbol : Str) : Decidable (PlainScope symbol) :=
  match h : scopeSpace? symbol with
  | none => isTrue (by simp [PlainScope, h])
  | some c => decidable_of_iff (c.utf8Size = 1) (by simp [PlainScope, h])

/-- The symbol from the qualifier of its first scope operator on. -/
def qualified (symbol : Str) : Str :=
  match splitOnce? "::".toList (callableInner symbol) with
  | some (head, tail) => rsplitHead isWhitespace head ++ "::".toList ++ tail
  | none => callableInner symbol

/-- There is a name in the symbol. -/
def HasName (u : Unicode) (symbol : Str) : Prop := (nameSegments? u (qualified symbol)).isSome

instance (u : Unicode) (symbol : Str) : Decidable (HasName u symbol) := by
  unfold HasName; infer_instance

/-- Dropping the words before the qualifier panics exactly when they end in a white space of several
bytes. -/
theorem dropScopeWords_callableInner (symbol : Str) :
    (PlainScope symbol ∧ dropScopeWords (callableInner symbol) = .ok (qualified symbol)) ∨
      (¬ PlainScope symbol ∧ dropScopeWords (callableInner symbol) = .error .slice) := by
  unfold PlainScope scopeSpace? qualified dropScopeWords
  generalize callableInner symbol = candidate
  cases hf : find? "::".toList candidate with
  | none =>
    rw [find?_eq_none_iff.mp hf]
    exact .inl ⟨by simp, rfl⟩
  | some firstScope =>
    obtain ⟨head, tail, hs, hc, rfl⟩ := find?_eq_some hf
    rw [hs]
    have hhead : sliceTo candidate (byteLen head) = .ok head := by
      unfold sliceTo
      rw [hc, List.append_assoc, sliceTo?_append, checked_some]
    simp only [hhead, ok_bind]
    cases hr : rfind? isWhitespace head with
    | none =>
      have hno := rfind?_eq_none hr
      have hsp : head.reverse.find? isWhitespace = none := by simpa using hno
      refine .inl ⟨by rw [hsp]; simp, ?_⟩
      rw [rsplitHead_of_none hno, ← hc]
      show checked (sliceFrom? candidate 0) = .ok candidate
      rw [sliceFrom?_zero, checked_some]
    | some n =>
      obtain ⟨a, c, b, rfl, rfl, hsp, hb⟩ := rfind?_eq_some hr
      have hcand : candidate = a ++ c :: (b ++ "::".toList ++ tail) := by
        rw [hc]; simp only [List.append_assoc, List.cons_append]
      rw [find?_reverse_append hsp hb, rsplitHead_append hsp hb]
      show _ ∧ sliceFrom candidate (byteLen a + 1) = _ ∨
        _ ∧ sliceFrom candidate (byteLen a + 1) = _
      rw [hcand, sliceFrom_next]
      by_cases h1 : c.utf8Size = 1
      · exact .inl ⟨by simpa using h1, if_pos h1⟩
      · exact .inr ⟨by simpa using h1, if_neg h1⟩

theorem conciseFrom_safe (segments : List Str) (maximumCharacters : ℕ) :
    ∀ start ≤ segments.length, Safe (conciseFrom segments maximumCharacters start) := by
  intro start hs
  induction hn : segments.length - start generalizing start with
  | zero =>
    rw [conciseFrom, tailFrom_of_le hs, ok_bind, dif_neg (by omega)]
    exact safe_pure _
  | succ n ih =>
    rw [conciseFrom, tailFrom_of_le hs, ok_bind]
    dsimp only
    split_ifs with h
    · exact ih (start + 1) (by omega) (by omega)
    · exact safe_pure _

/-- A symbol with a plain scope is named by what follows its scope words. -/
theorem conciseFunctionName_of_plainScope (u : Unicode) {symbol : Str} (h : PlainScope symbol)
    (maximumCharacters : ℕ) :
    ∃ name, conciseFunctionName u symbol maximumCharacters = .ok name ∧
      (name.isSome ↔ HasName u symbol) := by
  have hd : dropScopeWords (callableInner symbol) = .ok (qualified symbol) := by
    rcases dropScopeWords_callableInner symbol with ⟨-, hd⟩ | ⟨hn, -⟩
    · exact hd
    · exact absurd h hn
  unfold conciseFunctionName HasName
  rw [hd, ok_bind]
  cases nameSegments? u (qualified symbol) with
  | none => exact ⟨none, rfl, by simp⟩
  | some segments =>
    obtain ⟨concise, hc⟩ := conciseFrom_safe segments maximumCharacters (segments.length - 3)
      (by omega)
    exact ⟨some (shortened maximumCharacters concise), by simp only [hc, ok_bind]; rfl, by simp⟩

/-- The function is named without a panic exactly when its scope is plain. -/
theorem conciseFunctionName_safe_iff (u : Unicode) (symbol : Str) (maximumCharacters : ℕ) :
    Safe (conciseFunctionName u symbol maximumCharacters) ↔ PlainScope symbol := by
  constructor
  · intro h
    by_contra hp
    rcases dropScopeWords_callableInner symbol with ⟨h1, -⟩ | ⟨-, he⟩
    · exact hp h1
    · unfold conciseFunctionName at h
      rw [he] at h
      exact not_safe_error _ h
  · intro h
    obtain ⟨name, hn, -⟩ := conciseFunctionName_of_plainScope u h maximumCharacters
    exact ⟨name, hn⟩

/-! ## The name of a stack -/

/-- The first name among symbols. -/
def firstFunctionName (u : Unicode) (maximumCharacters : ℕ) : List Str → Checked (Option Str)
  | [] => return none
  | symbol :: symbols => do
    match ← conciseFunctionName u symbol maximumCharacters with
    | some name => return some name
    | none => firstFunctionName u maximumCharacters symbols

/-- The symbols that are asked, up to the first with a name, have plain scopes. -/
def PlainUntilNamed (u : Unicode) (symbols : List Str) : Prop :=
  ∀ before symbol after, symbols = before ++ symbol :: after →
    (∀ other ∈ before, ¬ HasName u other) → PlainScope symbol

theorem plainUntilNamed_nil (u : Unicode) : PlainUntilNamed u [] := by
  intro before symbol after h
  simp at h

theorem plainUntilNamed_cons (u : Unicode) (symbol : Str) (symbols : List Str) :
    PlainUntilNamed u (symbol :: symbols) ↔
      PlainScope symbol ∧ (HasName u symbol ∨ PlainUntilNamed u symbols) := by
  constructor
  · intro h
    refine ⟨h [] symbol symbols rfl (by simp), ?_⟩
    by_cases hn : HasName u symbol
    · exact .inl hn
    · refine .inr fun before other after hs hb =>
        h (symbol :: before) other after (by rw [hs]; rfl) ?_
      intro x hx
      rcases List.mem_cons.mp hx with rfl | hx
      · exact hn
      · exact hb x hx
  · rintro ⟨hp, hrest⟩ before other after hs hb
    cases before with
    | nil => cases hs; exact hp
    | cons b before =>
      cases hs
      rcases hrest with hn | hrest
      · exact absurd hn (hb symbol (by simp))
      · exact hrest before other after rfl fun x hx => hb x (by simp [hx])

theorem firstFunctionName_safe_iff (u : Unicode) (maximumCharacters : ℕ) (symbols : List Str) :
    Safe (firstFunctionName u maximumCharacters symbols) ↔ PlainUntilNamed u symbols := by
  induction symbols with
  | nil => exact iff_of_true (safe_pure none) (plainUntilNamed_nil u)
  | cons symbol symbols ih =>
    rw [plainUntilNamed_cons, firstFunctionName]
    by_cases hp : PlainScope symbol
    · obtain ⟨name, hn, hname⟩ := conciseFunctionName_of_plainScope u hp maximumCharacters
      rw [hn, ok_bind, ← hname, and_iff_right hp]
      cases name with
      | none => simpa using ih
      | some name => exact iff_of_true (safe_pure _) (.inl rfl)
    · refine iff_of_false (fun h => hp ?_) (fun h => hp h.1)
      obtain ⟨name, hn, -⟩ := safe_bind_iff.mp h
      exact (conciseFunctionName_safe_iff u symbol maximumCharacters).mp ⟨name, hn⟩

/-! ## Source locations and failed expressions -/

/-- The characters of a file name that is shown. -/
def isPlainName (name : Str) : Bool :=
  name.all fun c => isAsciiAlphanumeric c || c = '.' || c = '_' || c = '-'

def sourceExtensions : List String := [".cpp", ".h", ".mm", ".rs", ".c"]

/-- The column of a Rust panic, as in `file.rs:12:5`, is dropped. -/
def withoutColumn (path line : Str) : Str × Str :=
  match rsplitOnce? [':'] path with
  | some (inner, lineBeforeColumn) =>
    if line ≠ [] ∧ line.all isAsciiDigit ∧ lineBeforeColumn ≠ [] ∧
        lineBeforeColumn.all isAsciiDigit then (inner, lineBeforeColumn)
    else (path, line)
  | none => (path, line)

def sourceLocationFromFailure (reason : Str) : Option Str := do
  let (_, location) ← rsplitOnce? " at ".toList reason
  let (path, line) ← rsplitOnce? [':'] location
  let (path, line) := withoutColumn path line
  if (← parseUnsigned 32 line) = 0 then none
  let segments := rsplit ['/'] path
  let file ← segments.head?
  if !sourceExtensions.any (fun extension => endsWith file extension.toList) || !isPlainName file ||
      startsWith path ['/'] || contains path "../".toList || contains path ['\\'] then none
  -- file names repeat across the repository, so the directory is named too
  let directory := (segments.tail.head?).filter fun name =>
    name ≠ [] && isPlainName name && byteLen name + byteLen file < 80
  match directory with
  | some directory => some (directory ++ ['/'] ++ file ++ [':'] ++ line)
  | none => some (file ++ [':'] ++ line)

/-- The characters of a plain expression. -/
def isExpressionChar (c : Char) : Bool :=
  isAsciiAlphanumeric c || " _.:,()[]<>=!&|+-*/%".toList.contains c

/-- An expression that is too long ends in an ellipsis, with no white space before it. -/
def shortenedExpression (maximumCharacters : ℕ) (expression : Str) : Checked Str := do
  let short := expression.take (maximumCharacters - 1)
  return (← truncate short (byteLen (trimEnd short))) ++ ['…']

/-- The condition of a failed verification, or the message of a Rust panic. -/
def failedExpression (reason : Str) (room : ℕ) : Checked (Option Str) :=
  let maximumCharacters := min room 60
  if maximumCharacters < 10 then return none
  else match rsplitOnce? " at ".toList reason with
    | none => return none
    | some (message, _) =>
      match ["Verification failed:", "Rust panic:"].findSome? fun start =>
          stripPrefix? message start.toList with
      | none => return none
      | some expression =>
        let expression := trim expression
        let expression := trim ((stripPrefix? expression
          "internal error: entered unreachable code:".toList).getD expression)
        if ["", "false", "true", "0", "1", "nullptr"].any (·.toList = expression) ||
            !expression.all isExpressionChar || contains expression "//".toList then return none
        else if expression.length ≤ maximumCharacters then return some expression
        else some <$> shortenedExpression maximumCharacters expression

/-- Cutting white space off the end stops at a character boundary. -/
theorem truncate_trimEnd (s : Str) : truncate s (byteLen (trimEnd s)) = .ok (trimEnd s) := by
  have hs : s = trimEnd s ++ (s.reverse.takeWhile isWhitespace).reverse := by
    unfold trimEnd
    rw [← List.reverse_append, List.takeWhile_append_dropWhile, List.reverse_reverse]
  conv_lhs => arg 1; rw [hs]
  exact truncate_append _ _

theorem shortenedExpression_safe (maximumCharacters : ℕ) (expression : Str) :
    Safe (shortenedExpression maximumCharacters expression) := by
  unfold shortenedExpression
  dsimp only
  rw [truncate_trimEnd, ok_bind]
  exact safe_pure _

theorem failedExpression_safe (reason : Str) (room : ℕ) : Safe (failedExpression reason room) := by
  unfold failedExpression
  dsimp only
  split_ifs
  · exact safe_pure none
  · split
    · exact safe_pure none
    · split
      · exact safe_pure none
      · split_ifs
        · exact safe_pure none
        · exact safe_pure _
        · exact (shortenedExpression_safe _ _).map _

/-! ## Titles -/

/-- The address of the page a report came from, without its query or fragment. -/
def pageUrl (url : Str) (maximumCharacters : ℕ) : Option Str :=
  let url := trim (splitHead (fun c => c == '?' || c == '#') url)
  if !(startsWith url "https://".toList || startsWith url "http://".toList) then none
  else
    let url := url.map fun c => if c = '\x60' then '′' else if isControl c then ' ' else c
    if url.length ≤ maximumCharacters then some url
    else some (url.take (maximumCharacters - 1) ++ ['…'])

def safeContext (u : Unicode) (value : Str) (maximumCharacters : ℕ) : Option Str :=
  let value := trim value
  if value = [] || !value.all fun c => u.isAlphanumeric c || " ._-+()".toList.contains c then none
  else some (value.take maximumCharacters)

/-- The name of a signal, without the number some clients put after it. -/
def signalName (u : Unicode) (signal : Str) : Option Str :=
  safeContext u (splitHead (fun c => c == '(' || c == ' ') (trim signal)) 40

/-- What a title calls the kind of a report. -/
def titleKind : ReportKind → TitleStyle → Str
  | .crash, _ => "Crash".toList
  | .webCompat, .report => "Web compatibility".toList
  | .webCompat, .issue => "Web compat".toList

/-- The source location a crash failed at. -/
def ReportTitleInput.location? (input : ReportTitleInput) : Option Str :=
  if input.kind = .crash then input.failureReason.bind sourceLocationFromFailure else none

/-- The page a web compatibility report is about. -/
def ReportTitleInput.page? (input : ReportTitleInput) : Option Str :=
  if input.kind = .webCompat then
    input.url.bind (pageUrl · (maxTitleCharacters - (titleKind input.kind input.style).length - 2))
  else none

/-- The symbols of the relevant frames at the start of a stack. -/
def relevantSymbols (u : Unicode) (stack : Str) : Checked (List Str) := do
  let parsed ← parseStackTrace u (stack.take reportTitleStackCharacters)
  return (parsed.rows.filter (·.relevant)).map (·.symbol)

/-- The title of a report that names nothing it crashed in. -/
def contextTitle (u : Unicode) (input : ReportTitleInput) : Str :=
  let kind := titleKind input.kind input.style
  let context := ([input.process, input.platform].filterMap (·.bind (safeContext u · 40))).take 2 ++
    (input.signal.bind (signalName u)).toList
  let context := if context = []
    then [(safeContext u input.clientVersion 60).getD "Unknown build".toList] else context
  match input.style with
  | .report => kind ++ " report · ".toList ++ join " · ".toList context
  | .issue => kind ++ ": ".toList ++ join " · ".toList context

def generateReportTitle (u : Unicode) (input : ReportTitleInput) : Checked Str :=
  let kind := titleKind input.kind input.style
  match input.location? with
  | some location => do
    let title := kind ++ ": ".toList ++ location
    let room := maxTitleCharacters - (title.length + byteLen " · ".toList)
    match ← failedExpression (input.failureReason.getD []) room with
    | some expression => return title ++ " · ".toList ++ expression
    | none => return title
  | none =>
    match input.page? with
    | some url => return kind ++ ": ".toList ++ url
    | none =>
      match input.stackTrace with
      | none => return contextTitle u input
      | some stack => do
        let symbols ← relevantSymbols u stack
        match ← firstFunctionName u (maxTitleCharacters - byteLen kind - 2) symbols with
        | some name => return kind ++ ": ".toList ++ name
        | none => return contextTitle u input

/-- Where the stack is asked for a name, the frames that are asked have plain scopes. -/
def TitlePlain (u : Unicode) (input : ReportTitleInput) : Prop :=
  input.location? = none → input.page? = none → ∀ stack ∈ input.stackTrace,
    ∀ symbols, relevantSymbols u stack = .ok symbols → PlainUntilNamed u symbols

theorem relevantSymbols_safe (u : Unicode) (stack : Str) : Safe (relevantSymbols u stack) :=
  (parseStackTrace_safe u _).bind fun _ => safe_pure _

/-- A title is generated without a panic exactly when the scopes it looks at are plain. -/
theorem generateReportTitle_safe_iff (u : Unicode) (input : ReportTitleInput) :
    Safe (generateReportTitle u input) ↔ TitlePlain u input := by
  unfold generateReportTitle TitlePlain
  cases input.location? with
  | some location =>
    refine iff_of_true ((failedExpression_safe _ _).bind fun expression => ?_) (by simp)
    split <;> exact safe_pure _
  | none =>
    cases input.page? with
    | some url => exact iff_of_true (safe_pure _) (by simp)
    | none =>
      cases input.stackTrace with
      | none => exact iff_of_true (safe_pure _) (by simp)
      | some stack =>
        obtain ⟨symbols, hs⟩ := relevantSymbols_safe u stack
        simp only [hs, ok_bind, Option.mem_def, Option.some.injEq, forall_eq', forall_const,
          Except.ok.injEq]
        rw [← firstFunctionName_safe_iff u
          (maxTitleCharacters - byteLen (titleKind input.kind input.style) - 2)]
        refine ⟨fun h => ?_, fun h => h.bind fun name => ?_⟩
        · obtain ⟨name, hn, -⟩ := safe_bind_iff.mp h
          exact ⟨name, hn⟩
        · split <;> exact safe_pure _

end LadybirdReports
