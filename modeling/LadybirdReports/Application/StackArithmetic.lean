import LadybirdReports.Application.StackPreview
import Mathlib.Data.List.Chain

/-!
# The arithmetic of a stack preview

The numbers of frames and the lengths in mangled symbols are chosen by an anonymous client, up to
the maximum of their types. `stackCalculations` lists every addition and subtraction that parsing a
stack, recovering its names and rendering its preview makes, with the exact result and the width of
the type it is to fit in.

1. A turn of `demangled` adds at most the bytes of the symbol to an index in it, except where a
   length was read: any number of 64 bits is added to the start of a name (`turn_fits_iff`).
2. A depth of template arguments is counted in 32 bits (`depth_fits_iff`).
3. A run of frames asks for the number after its last one, and that may be the last of all numbers
   (`previewCalculations_fit_iff`). Without such a run its last number is not less than its first,
   and all lengths and counts are small (`display_fits`).
4. So the results fit exactly if no length reaches too far, no nesting is too deep and no run goes
   on after the last number (`calculations_fit_iff`).
-/

namespace LadybirdReports

open Rust
open scoped List

/-! ## Calculations -/

/-- The exact result of an addition or subtraction, and the bits of its unsigned type. -/
structure Calculation where
  bits : ℕ
  result : ℤ
  deriving DecidableEq, Repr

/-- The result is a value of the type. -/
def Calculation.Fits (c : Calculation) : Prop := 0 ≤ c.result ∧ c.result < 2 ^ c.bits

instance (c : Calculation) : Decidable c.Fits := by
  unfold Calculation.Fits
  infer_instance

def AllFit (calculations : List Calculation) : Prop := ∀ c ∈ calculations, c.Fits

instance (calculations : List Calculation) : Decidable (AllFit calculations) := by
  unfold AllFit
  infer_instance

def Calculation.usize (result : ℕ) : Calculation := ⟨64, result⟩

def Calculation.u32 (result : ℕ) : Calculation := ⟨32, result⟩

/-! ### Demangling -/

/-- The end of the digits at `index`. -/
def numberEnd (symbol : Str) (index : ℕ) : ℕ := index + leadingDigits ((bytes symbol).drop index)

/-- Where the name begins whose length is read at `index`. -/
def nameStart (symbol : Str) (index : ℕ) : ℕ :=
  numberEnd symbol index + if (bytes symbol)[numberEnd symbol index]? = some 95 then 1 else 0

/-- The length that is read at `index`. -/
def nameLength (symbol : Str) (index : ℕ) : ℕ :=
  (parseUnsigned 64 ((slice? symbol index (numberEnd symbol index)).getD [])).getD 0

/-- The calculations of one turn of the loop of `demangled`, at `byte`. -/
def turnCalculations (symbol : Str) (index : ℕ) (byte : UInt8) : List Calculation :=
  -- the guard of the first arm looks at the next byte
  (if byte = 67 then [.usize (index + 1)] else []) ++
    if (byte = 67 ∧ (bytes symbol)[index + 1]? = some 115) ∨ byte = 66 then
      match (sliceFrom? symbol index).bind (find? ['_']) with
      | some stop => [.usize (stop + 1), .usize (index + (stop + 1))]
      | none => [.usize (index + (bytes symbol).length)]
    else if isAsciiDigitByte byte then
      [.usize (numberEnd symbol index), .usize (nameStart symbol index),
        .usize (nameStart symbol index + nameLength symbol index)]
    else [.usize (index + 1)]

/-- The indexes at which the loop of `demangled` takes a turn. -/
def turnsFrom (symbol : Str) (index : ℕ) : List ℕ :=
  if hi : index < (bytes symbol).length then
    match hs : demangleStep symbol index (bytes symbol)[index] with
    | .error _ => [index]
    | .ok (next, _) => index :: turnsFrom symbol next
  else []
termination_by (bytes symbol).length - index
decreasing_by
  have := demangleStep_lt (List.getElem?_eq_getElem hi) hs
  omega

def demangledCalculations (symbol : Str) : List Calculation :=
  if startsWith symbol "_R".toList then
    (turnsFrom symbol 2).flatMap fun index =>
      turnCalculations symbol index ((bytes symbol).getD index 0)
  else []

/-! ### Names -/

/-- The depth of template arguments, from a depth on. -/
def depthCalculations : ℕ → Str → List Calculation
  | _, [] => []
  | depth, c :: s =>
    if c = '<' then .u32 (depth + 1) :: depthCalculations ((depth + 1) % 2 ^ 32) s
    else if c = '>' ∧ 0 < depth then
      ⟨32, (depth : ℤ) - 1⟩ :: depthCalculations (depth - 1) s
    else depthCalculations depth s

/-- The text `functionName` leaves the template arguments out of. -/
def functionText? (symbol : Str) : Option Str :=
  let symbol := bareSymbol symbol
  if symbol = [] || startsWith symbol "at ".toList || symbol = "Unavailable".toList then none
  else (demangled symbol).toOption

def functionNameCalculations (symbol : Str) : List Calculation :=
  let bare := bareSymbol symbol
  if bare = [] || startsWith bare "at ".toList || bare = "Unavailable".toList then []
  else demangledCalculations bare ++ (functionText? symbol).toList.flatMap (depthCalculations 0)

/-- The white space before the first scope operator is left out too. -/
def scopeCalculations (candidate : Str) : List Calculation :=
  match (find? "::".toList candidate).bind (sliceTo? candidate) with
  | some head => ((rfind? isWhitespace head).map fun index => .usize (index + 1)).toList
  | none => []

/-- The loop of `conciseFunctionName` that leaves out segments, at `start`. -/
def segmentCalculations (segments : List Str) (maximumCharacters start : ℕ) : List Calculation :=
  if maximumCharacters < (join "::".toList (segments.drop start)).length then
    .usize (start + 1) ::
      if start + 1 < segments.length then
        .usize (start + 1) :: segmentCalculations segments maximumCharacters (start + 1)
      else []
  else []
termination_by segments.length - start

/-- Once the segments are known: which are left out, and the room for an ellipsis. -/
def shorteningCalculations (segments : List Str) (maximumCharacters : ℕ) : List Calculation :=
  segmentCalculations segments maximumCharacters (segments.length - 3) ++
    match conciseFrom segments maximumCharacters (segments.length - 3) with
    | .ok concise =>
      if maximumCharacters < concise.length then [⟨64, (maximumCharacters : ℤ) - 1⟩] else []
    | .error _ => []

def conciseCalculations (u : Unicode) (symbol : Str) (maximumCharacters : ℕ) : List Calculation :=
  scopeCalculations (callableInner symbol) ++
    match dropScopeWords (callableInner symbol) with
    | .ok candidate => depthCalculations 0 candidate ++
        (nameSegments? u candidate).toList.flatMap (shorteningCalculations · maximumCharacters)
    | .error _ => []

/-! ### Stacks -/

/-- A frame with a symbol is asked whether it is relevant. -/
def rowCalculations (row : StackTraceRow) : List Calculation :=
  if row.number.isSome ∧ row.unavailable = false ∧ isGenericFrame row.symbol = false then
    demangledCalculations (bareSymbol row.symbol)
  else []

/-- The function of a row is asked for. -/
def IsAsked (parsed : ParsedStackTrace) (row : StackTraceRow) : Prop :=
  row.relevant = true ∧ parsed.frameKeys.length < maxSignatureFrames

instance (parsed : ParsedStackTrace) (row : StackTraceRow) : Decidable (IsAsked parsed row) := by
  unfold IsAsked
  infer_instance

def pushCalculations (parsed : ParsedStackTrace) (row : StackTraceRow) : List Calculation :=
  (if row.number.isSome then [.usize (parsed.frameCount + 1)] else []) ++
    if IsAsked parsed row then functionNameCalculations row.symbol else []

/-- The loop over the rows of a stack. -/
def rowsCalculations (u : Unicode) : List StackTraceRow → ParsedStackTrace → List Calculation
  | [], _ => []
  | row :: rows, parsed =>
    rowCalculations row ++ pushCalculations parsed row ++
      match parsed.push u row with
      | .ok next => rowsCalculations u rows next
      | .error _ => []

def parseCalculations (u : Unicode) (stack : Str) : List Calculation :=
  rowsCalculations u ((stackLines stack).map frameRow) .empty

/-! ### Previews -/

/-- A run without a symbol is asked for the number after it. -/
def runCalculations (lines : List PreviewLine) : List Calculation :=
  match lines.getLast? with
  | some run => if run.symbol = none then [.u32 (run.last + 1)] else []
  | none => []

/-- The loop over the frames of a stack. -/
def previewCalculations (u : Unicode) (hasRelevantFrames : Bool) :
    List (ℕ × StackTraceRow) → List PreviewLine → List Calculation
  | [], _ => []
  | (number, frame) :: frames, lines =>
    if !isShown hasRelevantFrames frame then previewCalculations u hasRelevantFrames frames lines
    else if frame.unavailable then
      runCalculations lines ++ previewCalculations u hasRelevantFrames frames
        ((extendRun? lines number).getD (lines ++ [⟨number, number, none⟩]))
    else
      conciseCalculations u frame.symbol maxFunctionCharacters ++
        match previewSymbol u frame.symbol with
        | .ok symbol =>
          previewCalculations u hasRelevantFrames frames (lines ++ [⟨number, number, some symbol⟩])
        | .error _ => []

/-- The loop over the lines of a preview. -/
def displayCalculations (configuration : DiscordConfiguration) :
    List PreviewLine → Str → ℕ → ℕ → List Calculation
  | [], _, _, _ => []
  | line :: lines, description, displayedLines, displayedFrames =>
    let text := line.render
    if configuration.stackTraceLines ≤ displayedLines then []
    else
      [.usize (description.length + text.length),
        .usize (description.length + text.length + moreFrames.length)] ++
        if configuration.stackTraceCharacters <
            description.length + text.length + moreFrames.length then []
        else
          [.usize (displayedLines + 1), ⟨32, (line.last : ℤ) - line.first⟩,
            .usize line.frameCount, .usize (displayedFrames + line.frameCount)] ++
            displayCalculations configuration lines (description ++ text) (displayedLines + 1)
              (displayedFrames + line.frameCount)

/-- All calculations that `stackDescription` makes. -/
def stackCalculations (u : Unicode) (stack : Str) (configuration : DiscordConfiguration) :
    List Calculation :=
  parseCalculations u stack ++
    match parseStackTrace u stack with
    | .error _ => []
    | .ok parsed =>
      let frames := stackFrames parsed
      let hasRelevantFrames := frames.any (·.2.relevant)
      if frames = [] then []
      else previewCalculations u hasRelevantFrames frames [] ++
        match previewLines u hasRelevantFrames frames [] with
        | .ok lines => displayCalculations configuration lines descriptionHeading 0 0
        | .error _ => []

/-! ## When they fit -/

/-- Every length that is read from a mangled symbol can be added to the start of its name. -/
def LengthsFit (symbol : Str) : Prop :=
  startsWith symbol "_R".toList = true → ∀ index ∈ turnsFrom symbol 2,
    isAsciiDigitByte ((bytes symbol).getD index 0) = true →
      nameStart symbol index + nameLength symbol index < 2 ^ 64

/-- The greatest depth of template arguments, from a depth on. -/
def deepest : ℕ → Str → ℕ
  | depth, [] => depth
  | depth, c :: s =>
    if c = '<' then deepest (depth + 1) s
    else if c = '>' ∧ 0 < depth then max depth (deepest (depth - 1) s)
    else deepest depth s

/-- Template arguments nest less deeply than 32 bits count. -/
def IsShallow (text : Str) : Prop := deepest 0 text < 2 ^ 32

/-- The rows whose function is asked for, while names are wanted. -/
def askedRows (u : Unicode) : List StackTraceRow → ParsedStackTrace → List StackTraceRow
  | [], _ => []
  | row :: rows, parsed =>
    (if IsAsked parsed row then [row] else []) ++
      match parsed.push u row with
      | .ok next => askedRows u rows next
      | .error _ => []

/-- A frame that a preview names, or takes into a run. -/
def isNamable (frame : ℕ × StackTraceRow) : Bool :=
  frame.2.unavailable || decide (PlainScope frame.2.symbol)

/-- The frames of a preview, up to one that it cannot name. -/
def namedFrames (frames : List (ℕ × StackTraceRow)) : List (ℕ × StackTraceRow) :=
  (frames.filter (isShown (frames.any (·.2.relevant)) ·.2)).takeWhile isNamable

/-- A frame without a symbol has the last of all numbers, and another one comes next. -/
def GoesOnAfterLast (frame next : ℕ × StackTraceRow) : Prop :=
  frame.2.unavailable = true ∧ frame.1 + 1 = 2 ^ 32 ∧ next.2.unavailable = true

/-- The row has a symbol that is asked for its relevance. -/
structure HasSymbol (row : StackTraceRow) : Prop where
  numbered : row.number.isSome = true
  available : row.unavailable = false
  specific : isGenericFrame row.symbol = false

/-- The lengths, depths and numbers of a stack leave room for what is calculated with them. -/
structure LeavesRoom (u : Unicode) (stack : Str) : Prop where
  lengths : ∀ row ∈ (stackLines stack).map frameRow, HasSymbol row →
    LengthsFit (bareSymbol row.symbol)
  keys : ∀ row ∈ askedRows u ((stackLines stack).map frameRow) .empty,
    ∀ text ∈ functionText? row.symbol, IsShallow text
  names : ∀ frame ∈ namedFrames (numberedFrames stack), frame.2.unavailable = false →
    IsShallow (qualified frame.2.symbol)
  runs : (namedFrames (numberedFrames stack)).IsChain fun frame next => ¬ GoesOnAfterLast frame next

/-! ## Lists of calculations -/

section

variable {cs ds : List Calculation} {c : Calculation}

@[simp] theorem allFit_nil : AllFit [] := nofun

@[simp] theorem allFit_cons : AllFit (c :: cs) ↔ c.Fits ∧ AllFit cs := List.forall_mem_cons

@[simp] theorem allFit_append : AllFit (cs ++ ds) ↔ AllFit cs ∧ AllFit ds := List.forall_mem_append

theorem allFit_flatMap {α : Type} {l : List α} {f : α → List Calculation} :
    AllFit (l.flatMap f) ↔ ∀ a ∈ l, AllFit (f a) := by
  refine ⟨fun h a ha c hc => h c (List.mem_flatMap.mpr ⟨a, ha, hc⟩), fun h c hc => ?_⟩
  obtain ⟨a, ha, hc⟩ := List.mem_flatMap.mp hc
  exact h a ha c hc

@[simp] theorem usize_fits {n : ℕ} : (Calculation.usize n).Fits ↔ n < 2 ^ 64 := by
  unfold Calculation.usize Calculation.Fits
  dsimp only
  omega

@[simp] theorem u32_fits {n : ℕ} : (Calculation.u32 n).Fits ↔ n < 2 ^ 32 := by
  unfold Calculation.u32 Calculation.Fits
  dsimp only
  omega

theorem difference_fits {bits m n : ℕ} (hle : n ≤ m) (hlt : m < 2 ^ bits) :
    (⟨bits, (m : ℤ) - n⟩ : Calculation).Fits := by
  have hcast : (m : ℤ) < 2 ^ bits := by exact_mod_cast hlt
  unfold Calculation.Fits
  dsimp only
  omega

end

/-! ## Turns -/

section

variable {symbol : Str} {index : ℕ} {byte : UInt8}

theorem leadingDigits_le (l : List UInt8) : leadingDigits l ≤ l.length :=
  (List.takeWhile_sublist _).length_le

theorem numberEnd_le (hi : index < (bytes symbol).length) :
    numberEnd symbol index ≤ (bytes symbol).length := by
  have hle := leadingDigits_le ((bytes symbol).drop index)
  rw [List.length_drop] at hle
  unfold numberEnd
  omega

theorem nameStart_le (hi : index < (bytes symbol).length) :
    nameStart symbol index ≤ (bytes symbol).length := by
  have hle := numberEnd_le hi
  unfold nameStart
  split_ifs with hbyte
  · have hlt := (List.getElem?_eq_some_iff.mp hbyte).1
    omega
  · omega

theorem leave_le {stop : ℕ} (h : (sliceFrom? symbol index).bind (find? ['_']) = some stop) :
    index + (stop + 1) ≤ byteLen symbol := by
  obtain ⟨rest, hrest, hfind⟩ := Option.bind_eq_some_iff.mp h
  obtain ⟨before, rfl, rfl⟩ := sliceFrom?_eq_some hrest
  obtain ⟨a, b, -, rfl, rfl⟩ := find?_eq_some hfind
  have hone : byteLen ['_'] = 1 := rfl
  rw [byteLen_append, byteLen_append, byteLen_append, hone]
  omega

/-- Only a length that was read reaches out of a symbol. -/
theorem turn_fits_iff (hsize : byteLen symbol < 2 ^ 63) (hi : index < (bytes symbol).length) :
    AllFit (turnCalculations symbol index byte) ↔
      (isAsciiDigitByte byte = true →
        nameStart symbol index + nameLength symbol index < 2 ^ 64) := by
  have hlength := bytes_length symbol
  have hguard : AllFit (if byte = 67 then [.usize (index + 1)] else []) := by
    split_ifs
    · simp only [allFit_cons, usize_fits, allFit_nil, and_true]
      omega
    · exact allFit_nil
  unfold turnCalculations
  rw [allFit_append, and_iff_right hguard]
  by_cases hleave : (byte = 67 ∧ (bytes symbol)[index + 1]? = some 115) ∨ byte = 66
  · have hdigit : ¬ isAsciiDigitByte byte = true := by
      rcases hleave with ⟨rfl, -⟩ | rfl <;> decide
    rw [if_pos hleave]
    refine iff_of_true ?_ fun h => absurd h hdigit
    cases hstop : (sliceFrom? symbol index).bind (find? ['_']) with
    | none =>
      simp only [allFit_cons, usize_fits, allFit_nil, and_true]
      omega
    | some stop =>
      have hle := leave_le hstop
      simp only [allFit_cons, usize_fits, allFit_nil, and_true]
      omega
  · rw [if_neg hleave]
    have hend := numberEnd_le hi
    have hstart := nameStart_le hi
    by_cases hdigit : isAsciiDigitByte byte = true
    · rw [if_pos hdigit]
      simp only [allFit_cons, usize_fits, allFit_nil, and_true, hdigit, true_implies]
      omega
    · rw [if_neg hdigit]
      exact iff_of_true (allFit_cons.mpr ⟨usize_fits.mpr (by omega), allFit_nil⟩)
        fun h => absurd h hdigit

theorem lt_of_mem_turnsFrom {start : ℕ} (h : index ∈ turnsFrom symbol start) :
    index < (bytes symbol).length := by
  fun_induction turnsFrom symbol start with
  | case1 start hi p hs =>
    rw [List.mem_singleton.mp h]
    exact hi
  | case2 start hi next name hs ih =>
    rcases List.mem_cons.mp h with rfl | h
    · exact hi
    · exact ih h
  | case3 start hi => cases h

theorem demangled_fits_iff (hsize : byteLen symbol < 2 ^ 63) :
    AllFit (demangledCalculations symbol) ↔ LengthsFit symbol := by
  unfold demangledCalculations LengthsFit
  split_ifs with hmangled
  · rw [allFit_flatMap]
    refine ⟨fun h _ index hindex => ?_, fun h index hindex => ?_⟩
    · exact (turn_fits_iff hsize (lt_of_mem_turnsFrom hindex)).mp (h index hindex)
    · exact (turn_fits_iff hsize (lt_of_mem_turnsFrom hindex)).mpr (h hmangled index hindex)
  · exact iff_of_true allFit_nil fun h => absurd h hmangled

end

/-! ## Depths -/

section

variable {depth : ℕ} {s text : Str}

theorem le_deepest (depth : ℕ) (s : Str) : depth ≤ deepest depth s := by
  induction s generalizing depth with
  | nil => exact le_rfl
  | cons c s ih =>
    rw [deepest]
    split_ifs
    · exact (Nat.le_succ depth).trans (ih (depth + 1))
    · exact le_max_left _ _
    · exact ih depth

/-- A depth fits if none is too great. -/
theorem depth_fits_iff (hdepth : depth < 2 ^ 32) :
    AllFit (depthCalculations depth s) ↔ deepest depth s < 2 ^ 32 := by
  induction s generalizing depth with
  | nil => exact iff_of_true allFit_nil hdepth
  | cons c s ih =>
    rw [depthCalculations, deepest]
    split_ifs with hopen hclose
    · rw [allFit_cons, u32_fits]
      by_cases hnext : depth + 1 < 2 ^ 32
      · rw [and_iff_right hnext, Nat.mod_eq_of_lt hnext, ih hnext]
      · have hle := le_deepest (depth + 1) s
        exact iff_of_false (fun h => hnext h.1) (by omega)
    · have hfits : (⟨32, (depth : ℤ) - 1⟩ : Calculation).Fits :=
        difference_fits (n := 1) hclose.2 hdepth
      rw [allFit_cons, and_iff_right hfits, ih (by omega), max_lt_iff, and_iff_right hdepth]
    · exact ih hdepth

theorem shallow_iff : AllFit (depthCalculations 0 text) ↔ IsShallow text :=
  depth_fits_iff (Nat.two_pow_pos 32)

end

/-! ## Names -/

section

variable {u : Unicode} {symbol candidate : Str} {segments : List Str} {maximumCharacters : ℕ}

theorem unmarked_sublist (symbol : Str) :
    trim ((stripPrefix? (trim symbol) "(inlined) ".toList).getD symbol) <+ symbol := by
  refine (trim_sublist _).trans ?_
  cases hstrip : stripPrefix? (trim symbol) "(inlined) ".toList with
  | none => exact List.Sublist.refl _
  | some rest => exact (stripPrefix?_sublist hstrip).trans (trim_sublist _)

theorem bareSymbol_sublist (symbol : Str) : bareSymbol symbol <+ symbol := by
  unfold bareSymbol
  dsimp only
  refine (unmarked_sublist _).trans ?_
  split
  · rename_i head offset hsplit
    split_ifs
    · exact (rsplitOnce?_sublist hsplit).1
    · exact List.Sublist.refl _
  · exact List.Sublist.refl _

/-- A function is named with room if its symbol is demangled so and its arguments nest little. -/
theorem functionName_fits_iff (hfits : LengthsFit (bareSymbol symbol))
    (hsize : byteLen (bareSymbol symbol) < 2 ^ 63) :
    AllFit (functionNameCalculations symbol) ↔
      ∀ text ∈ functionText? symbol, IsShallow text := by
  unfold functionNameCalculations
  dsimp only
  split_ifs with hnone
  · refine iff_of_true allFit_nil fun text htext => ?_
    unfold functionText? at htext
    rw [if_pos hnone] at htext
    cases htext
  · rw [allFit_append, and_iff_right ((demangled_fits_iff hsize).mpr hfits), allFit_flatMap]
    simp only [Option.mem_toList, shallow_iff]
    exact Iff.rfl

theorem callableInner_sublist (symbol : Str) : callableInner symbol <+ symbol := by
  unfold callableInner
  split
  · rename_i before inner hsplit
    rw [splitOnce?_eq_some hsplit]
    exact List.sublist_append_right _ _
  · exact List.Sublist.refl _

theorem dropScopeWords_sublist {rest : Str} (h : dropScopeWords candidate = .ok rest) :
    rest <+ candidate := by
  unfold dropScopeWords at h
  split at h
  · obtain ⟨head, -, h⟩ := bind_eq_ok.mp h
    unfold sliceFrom at h
    cases hslice : sliceFrom? candidate (((rfind? isWhitespace head).map (· + 1)).getD 0) with
    | none =>
      rw [hslice] at h
      cases h
    | some tail =>
      rw [hslice] at h
      cases h
      exact sliceFrom?_sublist hslice
  · cases h
    exact List.Sublist.refl _

theorem withoutTemplatesAt_sublist (depth : ℕ) (s : Str) : withoutTemplatesAt depth s <+ s := by
  induction s generalizing depth with
  | nil => exact List.Sublist.refl _
  | cons c s ih =>
    rw [withoutTemplatesAt]
    split_ifs
    · exact (ih _).cons c
    · exact (ih _).cons c
    · exact (ih _).cons_cons c
    · exact (ih _).cons c

theorem length_splitWithin_le (pattern : Str) (fuel : ℕ) (s : Str) :
    (splitWithin pattern fuel s).length ≤ fuel + 1 := by
  induction fuel generalizing s with
  | zero => exact le_rfl
  | succ fuel ih =>
    rw [splitWithin]
    split
    · simp
    · rename_i a b hsplit
      have hle := ih b
      rw [List.length_cons]
      omega

theorem length_segments (h : nameSegments? u candidate = some segments) :
    0 < segments.length ∧ segments.length ≤ candidate.length + 1 := by
  unfold nameSegments? at h
  dsimp only at h
  split_ifs at h with hname hempty
  cases h
  refine ⟨List.length_pos_iff.mpr hempty, ?_⟩
  have hname : trim (splitHead (· == '(') (withoutTemplates candidate)) <+ candidate :=
    (trim_sublist _).trans ((List.takeWhile_sublist _).trans (withoutTemplatesAt_sublist 0 _))
  refine (List.length_filter_le _ _).trans ((length_splitWithin_le _ _ _).trans ?_)
  have hlength := hname.length_le
  omega

theorem segments_fit (start : ℕ) (hlength : segments.length < 2 ^ 64)
    (hstart : start < segments.length) :
    AllFit (segmentCalculations segments maximumCharacters start) := by
  induction hn : segments.length - start using Nat.strong_induction_on generalizing start with
  | _ n ih =>
    rw [segmentCalculations]
    split_ifs with hlong hmore
    · rw [allFit_cons, allFit_cons, usize_fits, and_self_left]
      exact ⟨by omega, ih (segments.length - (start + 1)) (by omega) (start + 1) hmore rfl⟩
    · rw [allFit_cons, usize_fits]
      exact ⟨by omega, allFit_nil⟩
    · exact allFit_nil

theorem shortening_fits (hmaximum : 0 < maximumCharacters) (hbound : maximumCharacters < 2 ^ 64)
    (hpos : 0 < segments.length) (hlength : segments.length < 2 ^ 64) :
    AllFit (shorteningCalculations segments maximumCharacters) := by
  unfold shorteningCalculations
  rw [allFit_append]
  refine ⟨segments_fit _ hlength (by omega), ?_⟩
  split
  · split_ifs
    · exact allFit_cons.mpr ⟨difference_fits (n := 1) hmaximum hbound, allFit_nil⟩
    · exact allFit_nil
  · exact allFit_nil

theorem scope_fits (hsize : byteLen candidate < 2 ^ 63) : AllFit (scopeCalculations candidate) := by
  unfold scopeCalculations
  split
  · rename_i head hhead
    obtain ⟨stop, -, hslice⟩ := Option.bind_eq_some_iff.mp hhead
    obtain ⟨rest, rfl, -⟩ := sliceTo?_eq_some hslice
    cases hspace : rfind? isWhitespace head with
    | none => exact allFit_nil
    | some index =>
      obtain ⟨a, c, b, rfl, rfl, -, -⟩ := rfind?_eq_some hspace
      refine allFit_cons.mpr ⟨usize_fits.mpr ?_, allFit_nil⟩
      simp only [byteLen_append] at hsize
      omega
  · exact allFit_nil

/-- A frame is named with room if what is named has template arguments that nest little. -/
theorem concise_fits_iff (hmaximum : 0 < maximumCharacters) (hbound : maximumCharacters < 2 ^ 64)
    (hsize : byteLen symbol < 2 ^ 63) :
    AllFit (conciseCalculations u symbol maximumCharacters) ↔
      (PlainScope symbol → IsShallow (qualified symbol)) := by
  have hinner := callableInner_sublist symbol
  unfold conciseCalculations
  rw [allFit_append, and_iff_right (scope_fits ((byteLen_le_of_sublist hinner).trans_lt hsize))]
  rcases dropScopeWords_callableInner symbol with ⟨hplain, hdrop⟩ | ⟨hplain, hdrop⟩
  · have hsegments : AllFit ((nameSegments? u (qualified symbol)).toList.flatMap
        (shorteningCalculations · maximumCharacters)) := by
      rw [allFit_flatMap]
      intro segments hmem
      obtain ⟨hpos, hlength⟩ := length_segments (Option.mem_toList.mp hmem)
      have hle := ((dropScopeWords_sublist hdrop).trans hinner).length_le
      have hbytes := length_le_byteLen symbol
      exact shortening_fits hmaximum hbound hpos (by omega)
    rw [hdrop]
    dsimp only
    rw [allFit_append, and_iff_left hsegments, shallow_iff]
    exact ⟨fun h _ => h, fun h => h hplain⟩
  · rw [hdrop]
    exact iff_of_true allFit_nil fun h => absurd h hplain

end

/-! ## Rows -/

section

variable {u : Unicode} {line stack : Str} {row : StackTraceRow} {rows : List StackTraceRow}
  {parsed : ParsedStackTrace}

theorem frameSymbol_relevant {number : ℕ} {address buildId rest : Str}
    (h : frameSymbol number address buildId rest = .ok (some row))
    (hrelevant : row.relevant = true) : HasSymbol row := by
  unfold frameSymbol at h
  split_ifs at h with hempty
  · cases h
    cases hrelevant
  · dsimp only at h
    split_ifs at h with hsymbol
    · cases h
    · obtain ⟨relevant, hask, h⟩ := bind_eq_ok.mp h
      cases h
      unfold isRelevant at hask
      split_ifs at hask with hgeneric
      · cases hask
        cases hrelevant
      · exact ⟨rfl, rfl, Bool.eq_false_iff.mpr hgeneric⟩

/-- Only what has a symbol is relevant. -/
theorem frameRow_relevant (h : (frameRow line).relevant = true) : HasSymbol (frameRow line) := by
  obtain ⟨row, hrow⟩ := parseFrame_safe line
  rw [frameRow_of_parseFrame hrow] at h ⊢
  cases row with
  | none => cases h
  | some row =>
    rw [Option.getD_some] at h ⊢
    unfold parseFrame at hrow
    split at hrow
    · cases hrow
    split_ifs at hrow
    · cases hrow
      cases h
    split at hrow
    · cases hrow
    split at hrow
    · cases hrow
    obtain ⟨isAddress, -, hrow⟩ := bind_eq_ok.mp hrow
    split_ifs at hrow
    · split at hrow
      · cases hrow
      · exact frameSymbol_relevant hrow h
    · cases hrow

theorem row_fits_iff (hsize : byteLen row.symbol < 2 ^ 63) :
    AllFit (rowCalculations row) ↔ (HasSymbol row → LengthsFit (bareSymbol row.symbol)) := by
  have hbare := (byteLen_le_of_sublist (bareSymbol_sublist row.symbol)).trans_lt hsize
  unfold rowCalculations
  split_ifs with hrow
  · rw [demangled_fits_iff hbare]
    exact ⟨fun h _ => h, fun h => h ⟨hrow.1, hrow.2.1, hrow.2.2⟩⟩
  · exact iff_of_true allFit_nil
      fun h => absurd ⟨h.numbered, h.available, h.specific⟩ hrow

theorem push_fits_iff (hcount : parsed.frameCount + 1 < 2 ^ 64)
    (hfits : row.relevant = true → LengthsFit (bareSymbol row.symbol))
    (hsize : byteLen row.symbol < 2 ^ 63) :
    AllFit (pushCalculations parsed row) ↔
      (IsAsked parsed row → ∀ text ∈ functionText? row.symbol, IsShallow text) := by
  have hbare := (byteLen_le_of_sublist (bareSymbol_sublist row.symbol)).trans_lt hsize
  have hnumber : AllFit (if row.number.isSome then [.usize (parsed.frameCount + 1)] else []) := by
    split_ifs
    · exact allFit_cons.mpr ⟨usize_fits.mpr hcount, allFit_nil⟩
    · exact allFit_nil
  unfold pushCalculations
  rw [allFit_append, and_iff_right hnumber]
  split_ifs with hasked
  · rw [functionName_fits_iff (hfits hasked.1) hbare]
    exact ⟨fun h _ => h, fun h => h hasked⟩
  · exact iff_of_true allFit_nil fun h => absurd h hasked

theorem rows_fit_iff (hrelevant : ∀ row ∈ rows, row.relevant = true → HasSymbol row)
    (hsize : ∀ row ∈ rows, byteLen row.symbol < 2 ^ 63)
    (hcount : parsed.frameCount + rows.length < 2 ^ 64) :
    AllFit (rowsCalculations u rows parsed) ↔
      (∀ row ∈ rows, HasSymbol row → LengthsFit (bareSymbol row.symbol)) ∧
        ∀ row ∈ askedRows u rows parsed, ∀ text ∈ functionText? row.symbol, IsShallow text := by
  induction rows generalizing parsed with
  | nil => exact iff_of_true allFit_nil ⟨nofun, nofun⟩
  | cons row rows ih =>
    obtain ⟨hrow, hrelevant⟩ := List.forall_mem_cons.mp hrelevant
    obtain ⟨hrowSize, hsize⟩ := List.forall_mem_cons.mp hsize
    obtain ⟨next, hnext⟩ := push_safe u parsed row
    have hnextCount : next.frameCount ≤ parsed.frameCount + 1 := by
      rw [(push_rows hnext).2]
      split_ifs <;> omega
    rw [List.length_cons] at hcount
    have hasked : (∀ r ∈ (if IsAsked parsed row then [row] else []),
        ∀ text ∈ functionText? r.symbol, IsShallow text) ↔
        (IsAsked parsed row → ∀ text ∈ functionText? row.symbol, IsShallow text) := by
      split_ifs with h
      · rw [List.forall_mem_singleton]
        exact ⟨fun hall _ => hall, fun hall => hall h⟩
      · exact iff_of_true nofun fun h' => absurd h' h
    rw [rowsCalculations, askedRows, hnext]
    dsimp only
    rw [allFit_append, allFit_append, row_fits_iff hrowSize,
      ih hrelevant hsize (by omega), List.forall_mem_cons, List.forall_mem_append, hasked]
    by_cases hlengths : HasSymbol row → LengthsFit (bareSymbol row.symbol)
    · rw [push_fits_iff (by omega) (fun h => hlengths (hrow h)) hrowSize, and_iff_right hlengths,
        and_iff_right hlengths, and_left_comm]
    · exact iff_of_false (fun h => hlengths h.1.1) fun h => hlengths h.1.1

theorem byteLen_symbol_le (hline : line ∈ stackLines stack) (hsize : byteLen stack < 2 ^ 63) :
    byteLen (frameRow line).symbol < 2 ^ 63 := by
  rcases symbol_frameRow line with hsymbol | hsymbol
  · rw [hsymbol]
    decide
  · have hsub := hsymbol.trans (lines_sublist (stackLines_subset stack hline))
    exact (byteLen_le_of_sublist hsub).trans_lt hsize

theorem parse_fits_iff (hsize : byteLen stack < 2 ^ 63) :
    AllFit (parseCalculations u stack) ↔
      (∀ row ∈ (stackLines stack).map frameRow, HasSymbol row →
        LengthsFit (bareSymbol row.symbol)) ∧
      ∀ row ∈ askedRows u ((stackLines stack).map frameRow) .empty,
        ∀ text ∈ functionText? row.symbol, IsShallow text := by
  have hle := length_stackLines_le stack
  have hmaximum : maxRenderedLines = 256 := rfl
  have hcount : ParsedStackTrace.empty.frameCount + ((stackLines stack).map frameRow).length <
      2 ^ 64 := by
    rw [List.length_map, show ParsedStackTrace.empty.frameCount = 0 from rfl]
    omega
  refine rows_fit_iff (fun row hrow => ?_) (fun row hrow => ?_) hcount
  · obtain ⟨line, -, rfl⟩ := List.mem_map.mp hrow
    exact frameRow_relevant
  · obtain ⟨line, hline, rfl⟩ := List.mem_map.mp hrow
    exact byteLen_symbol_le hline hsize

end

/-! ## Runs -/

section

variable {u : Unicode} {hasRelevantFrames : Bool} {frames : List (ℕ × StackTraceRow)}
  {lines : List PreviewLine} {frame next : ℕ × StackTraceRow} {number : ℕ} {row : StackTraceRow}
  {before : Option (ℕ × StackTraceRow)}

/-- The last line ends in the frame, as a run if it has no symbol. -/
def EndsIn (lines : List PreviewLine) (frame : ℕ × StackTraceRow) : Prop :=
  ∃ run, lines.getLast? = some run ∧ run.last = frame.1 ∧
    (run.symbol = none ↔ frame.2.unavailable = true)

/-- The lines are those of a preview whose last frame so far is this one. -/
def EndsBefore (lines : List PreviewLine) : Option (ℕ × StackTraceRow) → Prop
  | some frame => EndsIn lines frame ∧ frame.1 < 2 ^ 32
  | none => lines = []

theorem endsIn_push (symbol : Option Str) (h : symbol = none ↔ row.unavailable = true) :
    EndsIn (lines ++ [⟨number, number, symbol⟩]) (number, row) :=
  ⟨_, List.getLast?_concat, rfl, h⟩

theorem endsIn_extend (h : row.unavailable = true) :
    EndsIn ((extendRun? lines number).getD (lines ++ [⟨number, number, none⟩])) (number, row) := by
  unfold extendRun?
  cases lines.getLast? with
  | none => exact endsIn_push none (iff_of_true rfl h)
  | some run =>
    dsimp only
    split_ifs with hrun
    · exact ⟨_, List.getLast?_concat, rfl, iff_of_true hrun.1 h⟩
    · exact endsIn_push none (iff_of_true rfl h)

/-- The number after a run is asked for, and fits unless the run ends in the last of all. -/
theorem run_fits_iff (h : EndsBefore lines before) (hnext : next.2.unavailable = true) :
    AllFit (runCalculations lines) ↔ ∀ frame ∈ before, ¬ GoesOnAfterLast frame next := by
  cases before with
  | none =>
    rw [show lines = [] from h]
    exact iff_of_true allFit_nil nofun
  | some frame =>
    obtain ⟨⟨run, hrun, hlast, hsymbol⟩, hlt⟩ := h
    have hsome : (∀ f ∈ some frame, ¬ GoesOnAfterLast f next) ↔ ¬ GoesOnAfterLast frame next :=
      ⟨fun hall => hall frame rfl, fun hnot f hf => Option.mem_some.mp hf ▸ hnot⟩
    unfold runCalculations
    rw [hrun, hsome]
    dsimp only
    split_ifs with hnone
    · rw [allFit_cons, u32_fits, and_iff_left allFit_nil, hlast]
      refine ⟨fun hfits hgoes => absurd hgoes.2.1 hfits.ne, fun hnot => ?_⟩
      by_contra hover
      exact hnot ⟨hsymbol.mp hnone, by omega, hnext⟩
    · exact iff_of_true allFit_nil fun hgoes => hnone (hsymbol.mpr hgoes.1)

theorem isChain_toList_cons {α : Type} {R : α → α → Prop} {o : Option α} {a : α} {l : List α} :
    (o.toList ++ a :: l).IsChain R ↔ (∀ b ∈ o, R b a) ∧ (a :: l).IsChain R := by
  cases o with
  | none => exact ⟨fun h => ⟨nofun, h⟩, fun h => h.2⟩
  | some b =>
    refine List.isChain_cons_cons.trans (and_congr_left fun _ => ?_)
    exact ⟨fun h c hc => Option.mem_some.mp hc ▸ h, fun h => h b rfl⟩

theorem previewCalculations_fit_iff (hnumbers : ∀ frame ∈ frames, frame.1 < 2 ^ 32)
    (hsize : ∀ frame ∈ frames, byteLen frame.2.symbol < 2 ^ 63) (h : EndsBefore lines before) :
    AllFit (previewCalculations u hasRelevantFrames frames lines) ↔
      (∀ frame ∈ (frames.filter (isShown hasRelevantFrames ·.2)).takeWhile isNamable,
        frame.2.unavailable = false → IsShallow (qualified frame.2.symbol)) ∧
      (before.toList ++ (frames.filter (isShown hasRelevantFrames ·.2)).takeWhile isNamable).IsChain
        fun frame next => ¬ GoesOnAfterLast frame next := by
  induction frames generalizing lines before with
  | nil =>
    refine iff_of_true allFit_nil ⟨nofun, ?_⟩
    cases before with
    | none => exact .nil
    | some frame => exact .singleton frame
  | cons frame frames ih =>
    obtain ⟨number, row⟩ := frame
    obtain ⟨hnumber, hnumbers⟩ := List.forall_mem_cons.mp hnumbers
    obtain ⟨hrow, hsize⟩ := List.forall_mem_cons.mp hsize
    rw [previewCalculations]
    cases hshown : isShown hasRelevantFrames row with
    | false =>
      rw [Bool.not_false, if_pos rfl,
        List.filter_cons_of_neg (by rw [hshown]; exact Bool.false_ne_true)]
      exact ih hnumbers hsize h
    | true =>
      rw [Bool.not_true, if_neg Bool.false_ne_true, List.filter_cons_of_pos (by exact hshown)]
      cases havailable : row.unavailable with
      | true =>
        have hnamable : isNamable (number, row) = true := by
          unfold isNamable
          rw [havailable, Bool.true_or]
        have hnext : EndsBefore ((extendRun? lines number).getD
            (lines ++ [⟨number, number, none⟩])) (some (number, row)) :=
          ⟨endsIn_extend havailable, hnumber⟩
        have hchain := ih hnumbers hsize hnext
        have hrun : AllFit (runCalculations lines) ↔
            ∀ frame ∈ before, ¬ GoesOnAfterLast frame (number, row) := run_fits_iff h havailable
        rw [if_pos rfl, allFit_append, hrun, hchain,
          List.takeWhile_cons_of_pos hnamable, List.forall_mem_cons, isChain_toList_cons,
          and_iff_right (fun hfalse => absurd (havailable.symm.trans hfalse) (by decide)),
          and_left_comm]
        rfl
      | false =>
        rw [if_neg Bool.false_ne_true, allFit_append,
          concise_fits_iff (by decide) (by decide) hrow]
        by_cases hplain : PlainScope row.symbol
        · have hnamable : isNamable (number, row) = true := by
            unfold isNamable
            rw [decide_eq_true hplain, Bool.or_true]
          obtain ⟨symbol, hsymbol⟩ := (previewSymbol_safe_iff u row.symbol).mpr hplain
          have hnext : EndsBefore (lines ++ [⟨number, number, some symbol⟩]) (some (number, row)) :=
            ⟨endsIn_push (some symbol) (iff_of_false nofun (by
              rw [havailable]; exact Bool.false_ne_true)), hnumber⟩
          have hchain := ih hnumbers hsize hnext
          have hnot : ∀ frame ∈ before, ¬ GoesOnAfterLast frame (number, row) :=
            fun _ _ hgoes => absurd (havailable.symm.trans hgoes.2.2) (by decide)
          rw [hsymbol, List.takeWhile_cons_of_pos hnamable, List.forall_mem_cons,
            isChain_toList_cons, and_iff_right hnot]
          dsimp only
          rw [hchain, and_assoc, havailable]
          exact and_congr_left fun _ => ⟨fun hall _ => hall hplain, fun hall _ => hall rfl⟩
        · have hnamable : ¬ isNamable (number, row) = true := by
            unfold isNamable
            rw [havailable, decide_eq_false hplain]
            exact Bool.false_ne_true
          have herror : ¬ Safe (previewSymbol u row.symbol) :=
            mt (previewSymbol_safe_iff u row.symbol).mp hplain
          rw [List.takeWhile_cons_of_neg hnamable, List.append_nil]
          refine iff_of_true ⟨fun hplain' => absurd hplain' hplain, ?_⟩ ⟨nofun, ?_⟩
          · cases hsymbol : previewSymbol u row.symbol with
            | error p => exact allFit_nil
            | ok symbol => exact absurd ⟨symbol, hsymbol⟩ herror
          · cases before with
            | none => exact .nil
            | some frame => exact .singleton frame

end

/-! ## Lines -/

section

variable {u : Unicode} {configuration : DiscordConfiguration} {lines : List PreviewLine}
  {line : PreviewLine} {run : List (ℕ × StackTraceRow)} {description : Str}
  {displayedLines displayedFrames : ℕ}

/-- A run that never goes on after the last number ends at no smaller number than it begins. -/
theorem first_le_last (h : Shows u line run)
    (hchain : run.IsChain fun frame next => ¬ GoesOnAfterLast frame next) :
    line.first ≤ line.last := by
  by_contra hlt
  have hlast := h.last
  have hfirst := h.first_lt
  have hnumbers := h.numbers
  obtain ⟨i, hi⟩ : ∃ i, line.first + i + 1 = 2 ^ 32 := ⟨2 ^ 32 - 1 - line.first, by omega⟩
  have hlength : i + 1 < run.length := by omega
  have hsymbol : line.symbol = none := by
    cases hsymbol : line.symbol with
    | none => rfl
    | some symbol =>
      obtain ⟨frame, hrun, -⟩ := h.named symbol hsymbol
      rw [hrun, List.length_singleton] at hlength
      omega
  have hnumber : run[i].1 = line.first + i := by
    have hget := congrArg (·[i]?) hnumbers
    simp only [List.getElem?_map, List.getElem?_range (show i < run.length by omega),
      List.getElem?_eq_getElem (show i < run.length by omega), Option.map_some,
      Option.some_inj] at hget
    rw [hget]
    omega
  refine (List.isChain_iff_getElem.mp hchain) i hlength ⟨?_, ?_, ?_⟩
  · exact h.unavailable hsymbol _ (List.getElem_mem _)
  · omega
  · exact h.unavailable hsymbol _ (List.getElem_mem _)

/-- Lines that are short, of few frames, are put together with room. -/
theorem display_fits (hlines : ∀ line ∈ lines, line.first ≤ line.last ∧ line.last < 2 ^ 32 ∧
      line.render.length ≤ 125)
    (hdescription : description.length + 125 * lines.length + moreFrames.length < 2 ^ 64)
    (hcount : displayedLines + lines.length < 2 ^ 64)
    (hframes : displayedFrames + 2 ^ 32 * lines.length < 2 ^ 64) :
    AllFit (displayCalculations configuration lines description displayedLines
      displayedFrames) := by
  induction lines generalizing description displayedLines displayedFrames with
  | nil => exact allFit_nil
  | cons line lines ih =>
    obtain ⟨⟨hle, hlast, hrender⟩, hlines⟩ := List.forall_mem_cons.mp hlines
    rw [List.length_cons] at hdescription hcount hframes
    have hlength : line.frameCount ≤ 2 ^ 32 := by
      unfold PreviewLine.frameCount
      omega
    rw [displayCalculations]
    split_ifs with hfull hlong
    · exact allFit_nil
    · simp only [List.append_nil, allFit_cons, usize_fits, allFit_nil, and_true]
      omega
    · have hdifference : (⟨32, (line.last : ℤ) - line.first⟩ : Calculation).Fits :=
        difference_fits hle hlast
      have hdescription : (description ++ line.render).length + 125 * lines.length +
          moreFrames.length < 2 ^ 64 := by
        rw [List.length_append]
        omega
      have hrest : AllFit (displayCalculations configuration lines (description ++ line.render)
          (displayedLines + 1) (displayedFrames + line.frameCount)) :=
        ih hlines hdescription (by omega) (by omega)
      simp only [allFit_append, allFit_cons, usize_fits, allFit_nil, and_true]
      exact ⟨⟨by omega, by omega⟩, ⟨by omega, hdifference, by omega, by omega⟩, hrest⟩

end

/-! ## Stacks -/

section

variable {u : Unicode} {stack : Str} {configuration : DiscordConfiguration}
  {frames : List (ℕ × StackTraceRow)} {lines : List PreviewLine}

theorem exists_run {shown : List PreviewLine} {runs : List (List (ℕ × StackTraceRow))}
    {line : PreviewLine} (h : List.Forall₂ (Shows u) shown runs) (hline : line ∈ shown) :
    ∃ run ∈ runs, Shows u line run := by
  induction h with
  | nil => cases hline
  | cons hshow _ ih =>
    rcases List.mem_cons.mp hline with rfl | hline
    · exact ⟨_, List.mem_cons_self, hshow⟩
    · obtain ⟨run, hrun, hshow⟩ := ih hline
      exact ⟨run, List.mem_cons_of_mem _ hrun, hshow⟩

/-- Every line shows a frame. -/
theorem length_le_flatten {shown : List PreviewLine} {runs : List (List (ℕ × StackTraceRow))}
    (h : List.Forall₂ (Shows u) shown runs) : shown.length ≤ runs.flatten.length := by
  induction h with
  | nil => exact Nat.zero_le _
  | cons hshow _ ih =>
    have hpos := List.length_pos_of_ne_nil hshow.ne_nil
    rw [List.flatten_cons, List.length_append, List.length_cons]
    omega

/-- The lines of a preview are put together with room, unless a run goes on after the last
number. -/
theorem preview_lines_fit (hnumbers : ∀ frame ∈ frames, frame.1 < 2 ^ 32)
    (hlength : frames.length ≤ 256)
    (hlines : previewLines u (frames.any (·.2.relevant)) frames [] = .ok lines)
    (hchain : (namedFrames frames).IsChain fun frame next => ¬ GoesOnAfterLast frame next) :
    AllFit (displayCalculations configuration lines descriptionHeading 0 0) := by
  obtain ⟨runs, hshows, hruns⟩ := previewLines_shows hnumbers .nil hlines
  rw [List.flatten_nil, List.nil_append] at hruns
  have hplain : PlainFrames (frames.any (·.2.relevant)) frames :=
    (previewLines_safe_iff u _ frames []).mp ⟨lines, hlines⟩
  have hnamed : namedFrames frames = runs.flatten := by
    rw [hruns]
    refine List.takeWhile_eq_self_iff.mpr fun frame hframe => ?_
    obtain ⟨hmem, hshown⟩ := List.mem_filter.mp hframe
    unfold isNamable
    cases havailable : frame.2.unavailable with
    | true => rfl
    | false => exact decide_eq_true (hplain frame hmem hshown havailable)
  rw [hnamed] at hchain
  have hcount : lines.length ≤ 256 := by
    have hflat := length_le_flatten hshows
    have hle := List.length_filter_le (fun frame : ℕ × StackTraceRow =>
      isShown (frames.any (·.2.relevant)) frame.2) frames
    rw [hruns] at hflat
    omega
  refine display_fits (fun line hline => ?_) ?_ (by omega) (by omega)
  · obtain ⟨run, hrun, hshow⟩ := exists_run hshows hline
    have hconsecutive := List.IsChain.infix hchain (List.infix_of_mem_flatten hrun)
    refine ⟨first_le_last hshow hconsecutive, ?_, render_length hshow⟩
    rw [hshow.last]
    exact Nat.mod_lt _ (Nat.two_pow_pos 32)
  · have hheading : descriptionHeading.length = 16 := rfl
    have hmore : moreFrames.length = 33 := rfl
    omega

end

/-- Every addition and subtraction that is made for a preview stays in its type, exactly if the
lengths, depths and numbers of the stack leave room for it. -/
theorem calculations_fit_iff (u : Unicode) {stack : Str} (hsize : byteLen stack < 2 ^ 63)
    (configuration : DiscordConfiguration) :
    AllFit (stackCalculations u stack configuration) ↔ LeavesRoom u stack := by
  obtain ⟨parsed, hparsed⟩ := parseStackTrace_safe u stack
  have hframeSize : ∀ frame ∈ numberedFrames stack, byteLen frame.2.symbol < 2 ^ 63 := by
    intro frame hframe
    obtain ⟨row, hrow, hsome⟩ := List.mem_filterMap.mp hframe
    obtain ⟨line, hline, rfl⟩ := List.mem_map.mp hrow
    obtain ⟨number, -, rfl⟩ := Option.map_eq_some_iff.mp hsome
    exact byteLen_symbol_le hline hsize
  have hstart : EndsBefore [] none := rfl
  have hroom : LeavesRoom u stack ↔
      ((∀ row ∈ (stackLines stack).map frameRow, HasSymbol row →
          LengthsFit (bareSymbol row.symbol)) ∧
        ∀ row ∈ askedRows u ((stackLines stack).map frameRow) .empty,
          ∀ text ∈ functionText? row.symbol, IsShallow text) ∧
      (∀ frame ∈ namedFrames (numberedFrames stack), frame.2.unavailable = false →
        IsShallow (qualified frame.2.symbol)) ∧
      (namedFrames (numberedFrames stack)).IsChain fun frame next => ¬ GoesOnAfterLast frame next :=
    ⟨fun h => ⟨⟨h.lengths, h.keys⟩, h.names, h.runs⟩, fun h => ⟨h.1.1, h.1.2, h.2.1, h.2.2⟩⟩
  unfold stackCalculations
  rw [allFit_append, parse_fits_iff hsize, hparsed, hroom]
  refine and_congr_right fun _ => ?_
  dsimp only
  rw [stackFrames_eq hparsed]
  split_ifs with hempty
  · rw [hempty]
    exact iff_of_true allFit_nil ⟨nofun, .nil⟩
  · rw [allFit_append, previewCalculations_fit_iff numberedFrames_lt hframeSize hstart]
    refine and_iff_left_of_imp fun h => ?_
    cases hlines : previewLines u ((numberedFrames stack).any (·.2.relevant))
        (numberedFrames stack) [] with
    | error p => exact allFit_nil
    | ok lines =>
      exact preview_lines_fit numberedFrames_lt (length_numberedFrames_le stack) hlines h.2

/-! ## Numbers that are too great -/

/-- A frame without a symbol that has the last of all numbers, and another one. -/
def lastFrames : Str := "#4294967295 unavailable\n#0 unavailable".toList

/-- The number after 4294967295 is asked for. -/
theorem number_after_last_overflows :
    ¬ AllFit (stackCalculations Unicode.ascii lastFrames ⟨20, 3000⟩) := by
  decide +kernel

/-- A mangled symbol, template arguments and a run. -/
def roomyFrames : Str :=
  "#0 0x1 _RNvCs1_3std5abort\n#1 0x2 a::b<c>::d(int)\n#2 unavailable\n#3 unavailable".toList

theorem roomyFrames_leave_room : LeavesRoom Unicode.ascii roomyFrames :=
  (calculations_fit_iff Unicode.ascii (by decide +kernel) ⟨20, 3000⟩).mp (by decide +kernel)

end LadybirdReports
