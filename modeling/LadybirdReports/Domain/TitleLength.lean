import LadybirdReports.Domain.ReportTitle

/-!
# How long a title is

A title is put together from parts of which only some are cut.

1. An expression is cut to what room the source location leaves, but the location is not cut at all:
   a file name may have any length, and so may a line number with leading zeros.
2. A page and a function are cut to what the kind of the report leaves.
3. Process, platform and signal are cut to forty characters each, which is short enough for two of
   them but not for all three.

So a title stays within its limit unless one of the two happens (`title_within_limit_iff`).
-/

namespace LadybirdReports

open Rust

section

variable {u : Unicode} {input : ReportTitleInput}

/-! ## Source locations -/

/-- The path and the line that a failure reason ends in, without a column. -/
def failurePlace? (reason : Str) : Option (Str × Str) := do
  let (_, location) ← rsplitOnce? " at ".toList reason
  let (path, line) ← rsplitOnce? [':'] location
  return withoutColumn path line

/-- What is shown of a path: the file, after its directory where both are short and plain. -/
def shownPath (path : Str) : Str :=
  match rsplit ['/'] path with
  | [] => []
  | file :: directories =>
    match directories.head?.filter fun name =>
      name ≠ [] && isPlainName name && byteLen name + byteLen file < 80 with
    | some directory => directory ++ ['/'] ++ file
    | none => file

/-- A location is what is shown of the path and the line. -/
theorem sourceLocationFromFailure_eq_some {reason location : Str}
    (h : sourceLocationFromFailure reason = some location) :
    ∃ path line, failurePlace? reason = some (path, line) ∧
      location = shownPath path ++ [':'] ++ line := by
  unfold sourceLocationFromFailure at h
  obtain ⟨⟨message, place⟩, hplace, h⟩ := Option.bind_eq_some_iff.mp h
  obtain ⟨⟨path, line⟩, hpath, h⟩ := Option.bind_eq_some_iff.mp h
  have hfound : failurePlace? reason = some (withoutColumn path line) := by
    unfold failurePlace?
    simp only [hplace, hpath, Option.bind_eq_bind, Option.bind_some]
    rfl
  dsimp only at h
  generalize withoutColumn path line = found at h hfound
  obtain ⟨path, line⟩ := found
  refine ⟨path, line, hfound, ?_⟩
  obtain ⟨number, -, h⟩ := Option.bind_eq_some_iff.mp h
  dsimp only at h
  split at h
  · cases h
  obtain ⟨file, hfile, h⟩ := Option.bind_eq_some_iff.mp h
  obtain ⟨directories, hsegments⟩ := List.head?_eq_some_iff.mp hfile
  split at h
  · cases h
  unfold shownPath
  rw [hsegments] at h ⊢
  dsimp only [List.tail_cons] at h ⊢
  cases hdirectory : directories.head?.filter fun name =>
      name ≠ [] && isPlainName name && byteLen name + byteLen file < 80 with
  | none =>
    simp only [hdirectory, Option.some.injEq] at h ⊢
    exact h.symm
  | some directory =>
    simp only [hdirectory, Option.some.injEq] at h ⊢
    exact h.symm

/-- If the reason names a source location, its path and line fit a title after `Crash: `. -/
def ShortPlace (reason : Str) : Prop :=
  (sourceLocationFromFailure reason).isSome = true → ∀ place, failurePlace? reason = some place →
    (shownPath place.1).length + place.2.length ≤ 112

theorem shortPlace_iff {reason location : Str}
    (h : sourceLocationFromFailure reason = some location) :
    ShortPlace reason ↔ location.length ≤ 113 := by
  obtain ⟨path, line, hplace, rfl⟩ := sourceLocationFromFailure_eq_some h
  unfold ShortPlace
  simp only [h, Option.isSome_some, forall_const, hplace, Option.some.injEq, forall_eq',
    List.length_append, List.length_singleton]
  omega

/-! ## Expressions -/

theorem length_trimEnd_le (s : Str) : (trimEnd s).length ≤ s.length := by
  unfold trimEnd
  rw [List.length_reverse]
  exact (List.dropWhile_sublist _).length_le.trans_eq List.length_reverse

theorem shortenedExpression_length {maximumCharacters : ℕ} {expression short : Str}
    (hmaximum : 0 < maximumCharacters)
    (h : shortenedExpression maximumCharacters expression = .ok short) :
    short.length ≤ maximumCharacters := by
  unfold shortenedExpression at h
  dsimp only at h
  rw [truncate_trimEnd, ok_bind, pure_eq_ok] at h
  have htrim := length_trimEnd_le (expression.take (maximumCharacters - 1))
  have htake := List.length_take_le (maximumCharacters - 1) expression
  rw [← h, List.length_append, List.length_singleton]
  omega

/-- An expression is only shown in room for ten characters, and takes no more than there is. -/
theorem failedExpression_length {reason expression : Str} {room : ℕ}
    (h : failedExpression reason room = .ok (some expression)) :
    10 ≤ room ∧ expression.length ≤ room := by
  unfold failedExpression at h
  dsimp only at h
  split_ifs at h with hroom
  · cases h
  have hmaximum : 10 ≤ room := by omega
  refine ⟨hmaximum, ?_⟩
  split at h
  · cases h
  split at h
  · cases h
  split_ifs at h with hplain hshort
  · cases h
  · cases h
    exact hshort.trans (min_le_left _ _)
  · cases hshortened : shortenedExpression (min room 60)
      (trim ((stripPrefix? (trim _) "internal error: entered unreachable code:".toList).getD
        (trim _))) with
    | error panic => rw [hshortened] at h; cases h
    | ok short =>
      rw [hshortened] at h
      cases h
      exact (shortenedExpression_length (by omega) hshortened).trans (min_le_left _ _)

/-- The title of a crash with a source location. -/
def locationTitle (location : Str) (expression : Option Str) : Str :=
  match expression with
  | some expression => "Crash".toList ++ ": ".toList ++ location ++ " · ".toList ++ expression
  | none => "Crash".toList ++ ": ".toList ++ location

/-- It is within the limit exactly if the location is short. -/
theorem locationTitle_within_iff {location reason : Str} {expression : Option Str}
    (hexpression : failedExpression reason (maxTitleCharacters -
      (("Crash".toList ++ ": ".toList ++ location).length + byteLen " · ".toList)) =
        .ok expression) :
    (locationTitle location expression).length ≤ maxTitleCharacters ↔ location.length ≤ 113 := by
  have hbefore : ("Crash".toList ++ ": ".toList ++ location).length = 7 + location.length := by
    simp only [List.length_append]
    rfl
  have hbytes : byteLen " · ".toList = 4 := by decide
  rw [hbefore, hbytes] at hexpression
  unfold locationTitle
  unfold maxTitleCharacters at hexpression ⊢
  cases expression with
  | none =>
    dsimp only
    omega
  | some expression =>
    obtain ⟨hroom, hlength⟩ := failedExpression_length hexpression
    have hdot : " · ".toList.length = 3 := rfl
    dsimp only
    rw [List.length_append, List.length_append, hbefore, hdot]
    omega

/-! ## Pages and functions -/

theorem pageUrl_length {url page : Str} {maximumCharacters : ℕ} (hmaximum : 0 < maximumCharacters)
    (h : pageUrl url maximumCharacters = some page) : page.length ≤ maximumCharacters := by
  unfold pageUrl at h
  dsimp only at h
  split_ifs at h with hweb hshort
  · cases h
    exact hshort
  · cases h
    rw [List.length_append, List.length_singleton]
    have htake := List.length_take_le (maximumCharacters - 1)
      ((trim (splitHead (fun c => c == '?' || c == '#') url)).map fun c =>
        if c = '\x60' then '′' else if isControl c then ' ' else c)
    omega

theorem shortened_length {maximumCharacters : ℕ} (hmaximum : 0 < maximumCharacters)
    (concise : Str) : (shortened maximumCharacters concise).length ≤ maximumCharacters := by
  unfold shortened
  split
  · have htake := List.length_take_le (maximumCharacters - 1) concise
    rw [List.length_append, List.length_singleton]
    omega
  · omega

theorem conciseFunctionName_length {symbol name : Str} {maximumCharacters : ℕ}
    (hmaximum : 0 < maximumCharacters)
    (h : conciseFunctionName u symbol maximumCharacters = .ok (some name)) :
    name.length ≤ maximumCharacters := by
  unfold conciseFunctionName at h
  obtain ⟨candidate, -, h⟩ := bind_eq_ok.mp h
  split at h
  · cases h
  · obtain ⟨concise, -, h⟩ := bind_eq_ok.mp h
    cases h
    exact shortened_length hmaximum concise

/-- The frames that are asked have no name, and scopes that can be read. -/
def Nameless (u : Unicode) (symbols : List Str) : Prop :=
  ∀ symbol ∈ symbols, PlainScope symbol ∧ ¬ HasName u symbol

theorem firstFunctionName_cases {maximumCharacters : ℕ} (hmaximum : 0 < maximumCharacters)
    {symbols : List Str} {name : Option Str}
    (h : firstFunctionName u maximumCharacters symbols = .ok name) :
    (∀ n ∈ name, n.length ≤ maximumCharacters) ∧ (name = none ↔ Nameless u symbols) := by
  induction symbols with
  | nil =>
    cases h
    exact ⟨fun n hn => (by cases hn), iff_of_true rfl fun _ hs => (by cases hs)⟩
  | cons symbol symbols ih =>
    rw [firstFunctionName] at h
    obtain ⟨first, hfirst, h⟩ := bind_eq_ok.mp h
    have hplain : PlainScope symbol :=
      (conciseFunctionName_safe_iff u symbol maximumCharacters).mp ⟨first, hfirst⟩
    obtain ⟨other, hother, hnamed⟩ :=
      conciseFunctionName_of_plainScope u hplain maximumCharacters
    rw [hfirst, Except.ok.injEq] at hother
    subst hother
    unfold Nameless
    rw [List.forall_mem_cons]
    cases first with
    | some n =>
      cases h
      refine ⟨fun m hm => ?_, iff_of_false (by simp) fun hnone => ?_⟩
      · cases hm
        exact conciseFunctionName_length hmaximum hfirst
      · exact hnone.1.2 (hnamed.mp rfl)
    | none =>
      have hunnamed : ¬ HasName u symbol := fun hc => by
        have hsome := hnamed.mpr hc
        cases hsome
      obtain ⟨hlength, hnone⟩ := ih h
      exact ⟨hlength, hnone.trans (and_iff_right ⟨hplain, hunnamed⟩).symm⟩

/-! ## What is known about the client -/

/-- The first characters of a value that is safe to show. -/
theorem safeContext_eq_some {value shown : Str} {maximumCharacters : ℕ}
    (h : safeContext u value maximumCharacters = some shown) :
    shown.length = min maximumCharacters (trim value).length := by
  unfold safeContext at h
  dsimp only at h
  split_ifs at h
  cases h
  exact List.length_take

theorem safeContext_length {value shown : Str} {maximumCharacters : ℕ}
    (h : safeContext u value maximumCharacters = some shown) :
    shown.length ≤ maximumCharacters := by
  rw [safeContext_eq_some h]
  exact min_le_left _ _

/-- What a title says before what is known about the client. -/
def contextIntro (kind : ReportKind) (style : TitleStyle) : Str :=
  match style with
  | .report => titleKind kind style ++ " report · ".toList
  | .issue => titleKind kind style ++ ": ".toList

theorem contextIntro_length_le (kind : ReportKind) (style : TitleStyle) :
    (contextIntro kind style).length ≤ 27 := by
  cases kind <;> cases style <;> decide

/-- What is left of a value once it is trimmed and cut. -/
def shownLength (value : Str) : ℕ := min 40 (trim value).length

/-- If process, platform and signal are all safe to show, they fit a title together. -/
def ShortContext (u : Unicode) (input : ReportTitleInput) : Prop :=
  ∀ process ∈ input.process, ∀ platform ∈ input.platform, ∀ signal ∈ input.signal,
    (safeContext u process 40).isSome = true → (safeContext u platform 40).isSome = true →
    (signalName u signal).isSome = true →
    (contextIntro input.kind input.style).length + shownLength process + shownLength platform +
      shownLength (splitHead (fun c => c == '(' || c == ' ') (trim signal)) ≤ 114

theorem join_length_le {separator : Str} {parts : List Str} {maximumCharacters : ℕ}
    (h : ∀ part ∈ parts, part.length ≤ maximumCharacters) :
    (join separator parts).length ≤ parts.length * (maximumCharacters + separator.length) := by
  induction parts with
  | nil => exact Nat.zero_le _
  | cons part parts ih =>
    have hpart := h part List.mem_cons_self
    have hrest := ih fun other hother => h other (List.mem_cons_of_mem _ hother)
    rw [List.length_cons, Nat.succ_mul]
    cases parts with
    | nil =>
      rw [show join separator [part] = part by simp [join]]
      omega
    | cons next rest =>
      have hjoin : join separator (part :: next :: rest) =
          part ++ (separator ++ join separator (next :: rest)) := by
        simp [join, List.intercalate]
      rw [hjoin, List.length_append, List.length_append]
      omega

theorem contextTitle_eq (u : Unicode) (input : ReportTitleInput) :
    contextTitle u input = contextIntro input.kind input.style ++ join " · ".toList
      (let context := ([input.process, input.platform].filterMap
          (·.bind (safeContext u · 40))).take 2 ++ (input.signal.bind (signalName u)).toList
        if context = [] then
          [(safeContext u input.clientVersion 60).getD "Unknown build".toList] else context) := by
  unfold contextTitle contextIntro
  cases input.style <;> rfl

/-- The client version alone, or two of the three, always fit. -/
theorem contextTitle_within_of_few {parts : List Str} {maximumCharacters : ℕ}
    (hparts : ∀ part ∈ parts, part.length ≤ maximumCharacters)
    (hfew : parts.length * (maximumCharacters + 3) ≤ 93) :
    (contextIntro input.kind input.style ++ join " · ".toList parts).length ≤
      maxTitleCharacters := by
  have hjoin : (join " · ".toList parts).length ≤
      parts.length * (maximumCharacters + " · ".toList.length) := join_length_le hparts
  have hintro := contextIntro_length_le input.kind input.style
  have hdot : " · ".toList.length = 3 := rfl
  unfold maxTitleCharacters
  rw [List.length_append]
  rw [hdot] at hjoin
  omega

/-- Two parts of forty characters fit, or none, for which the version stands in. -/
theorem contextTitle_within_of_two {context : List Str}
    (hcontext : ∀ part ∈ context, part.length ≤ 40)
    (htwo : context.length ≤ 2) :
    (contextIntro input.kind input.style ++ join " · ".toList (if context = [] then
      [(safeContext u input.clientVersion 60).getD "Unknown build".toList] else context)).length ≤
      maxTitleCharacters := by
  by_cases h : context = []
  · rw [if_pos h]
    refine contextTitle_within_of_few (fun part hpart => ?_) (show 1 * (60 + 3) ≤ 93 by omega)
    rw [List.mem_singleton.mp hpart]
    cases hversion : safeContext u input.clientVersion 60 with
    | none => decide
    | some version => exact safeContext_length hversion
  · rw [if_neg h]
    exact contextTitle_within_of_few hcontext (by omega)

theorem contextTitle_within_iff :
    (contextTitle u input).length ≤ maxTitleCharacters ↔ ShortContext u input := by
  have hshown : ∀ {value : Option Str} {part : Str},
      value.bind (safeContext u · 40) = some part → part.length ≤ 40 := by
    intro value part h
    obtain ⟨v, -, hv⟩ := Option.bind_eq_some_iff.mp h
    exact safeContext_length hv
  have hnone : ∀ {value : Option Str} {f : Str → Option Str}, value.bind f = none →
      ∀ v ∈ value, (f v).isSome = true → False := by
    intro value f h v hv hsome
    rw [Option.bind_eq_none_iff.mp h v hv] at hsome
    cases hsome
  have hparts : ∀ part ∈ ([input.process, input.platform].filterMap
      (·.bind (safeContext u · 40))).take 2 ++ (input.signal.bind (signalName u)).toList,
      part.length ≤ 40 := by
    intro part hpart
    rcases List.mem_append.mp hpart with hpart | hpart
    · obtain ⟨value, -, hvalue⟩ := List.mem_filterMap.mp (List.mem_of_mem_take hpart)
      exact hshown hvalue
    · obtain ⟨v, -, hv⟩ := Option.bind_eq_some_iff.mp (Option.mem_toList.mp hpart)
      exact safeContext_length hv
  rw [contextTitle_eq]
  cases hp : input.process.bind (safeContext u · 40) with
  | none =>
    refine iff_of_true (contextTitle_within_of_two hparts ?_)
      fun process hprocess platform _ signal _ hsafe _ _ => (hnone hp process hprocess hsafe).elim
    cases hq : input.platform.bind (safeContext u · 40) <;>
      cases hs : input.signal.bind (signalName u) <;> simp [hp, hq]
  | some process =>
    cases hq : input.platform.bind (safeContext u · 40) with
    | none =>
      refine iff_of_true (contextTitle_within_of_two hparts ?_)
        fun process _ platform hplatform signal _ _ hsafe _ =>
          (hnone hq platform hplatform hsafe).elim
      cases hs : input.signal.bind (signalName u) <;> simp [hp, hq]
    | some platform =>
      cases hs : input.signal.bind (signalName u) with
      | none =>
        rw [hs] at hparts
        refine iff_of_true (contextTitle_within_of_two hparts ?_)
          fun process _ platform _ signal hsignal _ _ hsafe =>
            (hnone hs signal hsignal hsafe).elim
        simp [hp, hq]
      | some signal =>
        have hthree : [input.process, input.platform].filterMap (·.bind (safeContext u · 40)) =
            [process, platform] := by simp [hp, hq]
        obtain ⟨v, hv, hp⟩ := Option.bind_eq_some_iff.mp hp
        obtain ⟨w, hw, hq⟩ := Option.bind_eq_some_iff.mp hq
        obtain ⟨x, hx, hs⟩ := Option.bind_eq_some_iff.mp hs
        have hlength : ShortContext u input ↔ (contextIntro input.kind input.style).length +
            process.length + platform.length + signal.length ≤ 114 := by
          unfold ShortContext shownLength
          rw [safeContext_eq_some hp, safeContext_eq_some hq,
            safeContext_eq_some (show safeContext u _ 40 = some signal from hs)]
          simp [hv, hw, hx, hp, hq, hs]
        have hjoin : join " · ".toList [process, platform, signal] =
            process ++ (" · ".toList ++ (platform ++ (" · ".toList ++ signal))) := by
          simp [join, List.intercalate]
        have hdot : " · ".toList.length = 3 := rfl
        rw [hlength, hthree]
        dsimp only [List.take, Option.toList_some, List.cons_append, List.nil_append]
        rw [if_neg (List.cons_ne_nil _ _), hjoin]
        simp only [List.length_append, hdot, maxTitleCharacters]
        omega

/-! ## Titles -/

/-- Nothing else names the report: no source location, no page, and no function of its stack. -/
def TitledByContext (u : Unicode) (input : ReportTitleInput) : Prop :=
  input.location? = none ∧ input.page? = none ∧
    ∀ stack ∈ input.stackTrace, ∀ symbols, relevantSymbols u stack = .ok symbols →
      Nameless u symbols

theorem page?_length {page : Str} (h : input.page? = some page) :
    (titleKind input.kind input.style).length + 2 + page.length ≤ maxTitleCharacters := by
  unfold ReportTitleInput.page? at h
  split_ifs at h with hkind
  obtain ⟨url, -, hpage⟩ := Option.bind_eq_some_iff.mp h
  have hroom : (titleKind input.kind input.style).length ≤ 17 := by
    rw [hkind]
    cases input.style <;> decide
  have hlength := pageUrl_length (by unfold maxTitleCharacters; omega) hpage
  unfold maxTitleCharacters at hlength ⊢
  omega

theorem titleKind_lengths (kind : ReportKind) (style : TitleStyle) :
    byteLen (titleKind kind style) = (titleKind kind style).length ∧
      (titleKind kind style).length ≤ 17 := by
  cases kind <;> cases style <;> decide

/-- A crash whose source location is known is titled by it, whatever else there is. -/
theorem locationTitle_within {location : Str} (hlocation : input.location? = some location) :
    (∀ title, generateReportTitle u input = .ok title → title.length ≤ maxTitleCharacters) ↔
      (input.kind = .crash → ∀ reason ∈ input.failureReason, ShortPlace reason) := by
  have hfound := hlocation
  unfold ReportTitleInput.location? at hfound
  split_ifs at hfound with hkind
  obtain ⟨reason, hreason, hsource⟩ := Option.bind_eq_some_iff.mp hfound
  have htitleKind : titleKind input.kind input.style = "Crash".toList := by rw [hkind]; rfl
  obtain ⟨expression, hexpression⟩ := failedExpression_safe reason (maxTitleCharacters -
    (("Crash".toList ++ ": ".toList ++ location).length + byteLen " · ".toList))
  have hgenerate : generateReportTitle u input = .ok (locationTitle location expression) := by
    unfold generateReportTitle
    rw [hlocation, htitleKind, hreason]
    dsimp only [Option.getD_some]
    rw [hexpression, ok_bind]
    cases expression <;> rfl
  have hwithin := locationTitle_within_iff hexpression
  rw [hgenerate]
  simp only [Except.ok.injEq, forall_eq', hkind, forall_const, hreason, Option.mem_def,
    Option.some.injEq]
  rw [hwithin, shortPlace_iff hsource]

/-- Without a location or a page, a name in the stack makes a title that fits, and what is known of
the client makes one where there is none. -/
theorem otherTitle_within (hlocation : input.location? = none) (hpage : input.page? = none) :
    (∀ title, generateReportTitle u input = .ok title → title.length ≤ maxTitleCharacters) ↔
      (TitledByContext u input → ShortContext u input) := by
  rw [← contextTitle_within_iff]
  unfold generateReportTitle TitledByContext
  rw [hlocation, hpage]
  simp only [true_and]
  cases input.stackTrace with
  | none =>
    constructor
    · intro h _
      exact h _ rfl
    · intro h title htitle
      cases htitle
      exact h fun stack hstack => (by cases hstack)
  | some stack =>
    obtain ⟨hbytes, hkind⟩ := titleKind_lengths input.kind input.style
    obtain ⟨symbols, hsymbols⟩ := relevantSymbols_safe u stack
    simp only [hsymbols, ok_bind, Option.mem_def, Option.some.injEq, forall_eq', Except.ok.injEq]
    have hmaximum : 0 < maxTitleCharacters - byteLen (titleKind input.kind input.style) - 2 := by
      unfold maxTitleCharacters
      omega
    cases hname : firstFunctionName u
        (maxTitleCharacters - byteLen (titleKind input.kind input.style) - 2) symbols with
    | error panic =>
      have hnamed : ¬ Nameless u symbols := fun h => by
        have hplain : PlainUntilNamed u symbols := fun before symbol after hs _ =>
          (h symbol (by rw [hs]; simp)).1
        obtain ⟨name, hok⟩ := (firstFunctionName_safe_iff u _ symbols).mpr hplain
        rw [hname] at hok
        cases hok
      exact iff_of_true (fun title htitle => (by cases htitle)) fun h => absurd h hnamed
    | ok name =>
      obtain ⟨hlength, hnone⟩ := firstFunctionName_cases hmaximum hname
      cases name with
      | none =>
        have hnameless := hnone.mp rfl
        simp only [ok_bind, hnameless, forall_const]
        exact ⟨fun h => h _ rfl, fun h title htitle => by cases htitle; exact h⟩
      | some name =>
        have hnamed : ¬ Nameless u symbols := fun h => by
          have hno := hnone.mpr h
          cases hno
        refine iff_of_true (fun title htitle => ?_) fun h => absurd h hnamed
        cases htitle
        have hshort := hlength name rfl
        have hcolon : ": ".toList.length = 2 := rfl
        rw [List.length_append, List.length_append, hcolon]
        unfold maxTitleCharacters at hshort ⊢
        omega

/-- A title stays within its limit exactly if the source location of a crash is short, and so is
what is known of the client where nothing else names the report. -/
theorem title_within_limit_iff (u : Unicode) (input : ReportTitleInput) :
    (∀ title, generateReportTitle u input = .ok title → title.length ≤ maxTitleCharacters) ↔
      (input.kind = .crash → ∀ reason ∈ input.failureReason, ShortPlace reason) ∧
        (TitledByContext u input → ShortContext u input) := by
  cases hlocation : input.location? with
  | some location =>
    have hcontext : ¬ TitledByContext u input := fun h => by
      rw [h.1] at hlocation
      cases hlocation
    rw [locationTitle_within hlocation]
    exact (and_iff_left fun h => absurd h hcontext).symm
  | none =>
    have hplace : input.kind = .crash → ∀ reason ∈ input.failureReason, ShortPlace reason := by
      intro hkind reason hreason hsome
      unfold ReportTitleInput.location? at hlocation
      rw [if_pos hkind, hreason, Option.bind_some] at hlocation
      rw [hlocation] at hsome
      cases hsome
    rw [and_iff_right hplace]
    cases hpage : input.page? with
    | some page =>
      have hcontext : ¬ TitledByContext u input := fun h => by
        rw [h.2.1] at hpage
        cases hpage
      refine iff_of_true (fun title htitle => ?_) fun h => absurd h hcontext
      unfold generateReportTitle at htitle
      rw [hlocation, hpage] at htitle
      cases htitle
      have hcolon : ": ".toList.length = 2 := rfl
      rw [List.length_append, List.length_append, hcolon]
      exact page?_length hpage
    | none => exact otherTitle_within hlocation hpage

end

/-- A crash in a file with a long name, of which the title keeps all. -/
def longLocationReport : ReportTitleInput where
  style := .report
  kind := .crash
  url := none
  clientVersion := "1.0".toList
  failureReason := some ("Verification failed: a <= b at Libraries/".toList ++
    List.replicate 120 'f' ++ ".cpp:12".toList)
  stackTrace := none
  process := none
  platform := none
  signal := none

theorem longLocationReport_too_long :
    ¬ ∀ (u : Unicode) (input : ReportTitleInput) (title : Str),
      generateReportTitle u input = .ok title → title.length ≤ maxTitleCharacters := by
  intro h
  have hlocation : longLocationReport.location? =
      some (List.replicate 120 'f' ++ ".cpp:12".toList) := by decide +kernel
  have hplace := (locationTitle_within hlocation).mp (h Unicode.ascii longLocationReport) rfl _ rfl
  rw [shortPlace_iff (show sourceLocationFromFailure _ =
    some (List.replicate 120 'f' ++ ".cpp:12".toList) by decide +kernel), List.length_append,
    List.length_replicate] at hplace
  exact absurd hplace (by decide)

/-- The other way: three long values of a client and nothing else to go by. -/
example : (contextTitle Unicode.ascii { longLocationReport with
    failureReason := none
    process := some (List.replicate 40 'p')
    platform := some (List.replicate 40 'l')
    signal := some (List.replicate 40 's') }).length = 141 := by decide +kernel

end LadybirdReports
