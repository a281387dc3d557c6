import LadybirdReports.Application.ReportMessage
import LadybirdReports.Domain.StackRows
import LadybirdReports.Domain.TitleCharacters
import LadybirdReports.Ingestion.Limits
import LadybirdReports.Lib.StrRender
import Mathlib.Data.List.Forall2

/-!
# What a stack preview shows

1. The frames that may be shown fall into runs, one for each line (`previewLines_shows`): a frame
   with a symbol, or frames without one that are numbered on.
2. A preview shows the first lines, as many as both limits allow (`displayLines_eq`), so that the
   frames it shows are the first ones of those. It says so when it left one out.
3. With the limits of a valid configuration the first line fits (`render_length`), so that the text
   itself is shown only of a stack without frames.

Such an excerpt keeps its limit, but for one case: when lines are left out after exactly as many
characters as there may be, the ellipsis is one too many (`preview_keeps_limits_iff`).
-/

namespace LadybirdReports

open Rust

/-- The limits that a configuration sets to a preview. -/
def previewLimits (discord : Ingestion.DiscordConfiguration) : DiscordConfiguration :=
  ⟨discord.stackTraceLines, discord.stackTraceCharacters⟩

/-- The frames of a stack, by their rows. -/
def numberedFrames (stack : Str) : List (ℕ × StackTraceRow) :=
  ((stackLines stack).map frameRow).filterMap fun row => row.number.map (·, row)

/-! ## What a preview may be -/

/-- The line shows these frames. -/
structure Shows (u : Unicode) (line : PreviewLine) (run : List (ℕ × StackTraceRow)) : Prop where
  ne_nil : run ≠ []
  /-- They are numbered on from the first, as far as numbers go. -/
  numbers : run.map Prod.fst = (List.range run.length).map fun i => (line.first + i) % 2 ^ 32
  first_lt : line.first < 2 ^ 32
  last : line.last = (line.first + (run.length - 1)) % 2 ^ 32
  unavailable : line.symbol = none → ∀ frame ∈ run, frame.2.unavailable = true
  named : ∀ symbol ∈ line.symbol, ∃ frame, run = [frame] ∧ frame.2.unavailable = false ∧
    previewSymbol u frame.2.symbol = .ok symbol

/-- The text of a preview with frames, and the note that there are more. -/
def framesText (shown : List PreviewLine) (more : Bool) : Str :=
  let description := descriptionHeading ++ shown.flatMap PreviewLine.render
  if more then description ++ moreFrames else description.dropLast

def rawText (excerpt : Str) : Str :=
  descriptionHeading ++ "\x60\x60\x60text\n".toList ++ excerpt ++ "\n\x60\x60\x60".toList

/-- Lines of frames within both limits, and the note exactly if a frame is left out or the stack has
more lines than are read. -/
def FramesPreview (u : Unicode) (stack : Str) (configuration : DiscordConfiguration)
    (description : Str) : Prop :=
  ∃ shown runs more, description = framesText shown more ∧
    shown.length ≤ configuration.stackTraceLines ∧
    description.length ≤ configuration.stackTraceCharacters ∧
    List.Forall₂ (Shows u) shown runs ∧ List.Sublist runs.flatten (numberedFrames stack) ∧
    (more = true ↔
      runs.flatten ≠ numberedFrames stack ∨ maxRenderedLines < (lines stack).length)

/-- The text that an excerpt may show of a stack. -/
def wholeText (stack : Str) : Str := withoutBackticks (join ['\n'] (lines stack))

/-- The excerpt is all of the text, or a part of it with an ellipsis at the end. -/
def IsExcerpt (whole excerpt : Str) : Prop :=
  excerpt = whole ∨ ∃ kept, kept <+: whole ∧ kept ≠ whole ∧ excerpt = kept ++ ['…']

/-- An excerpt within both limits, with an ellipsis exactly if text is left out. -/
def RawPreview (stack : Str) (configuration : DiscordConfiguration) (description : Str) : Prop :=
  ∃ excerpt, description = rawText excerpt ∧
    excerpt.count '\n' < configuration.stackTraceLines ∧
    excerpt.length ≤ configuration.stackTraceCharacters ∧ IsExcerpt (wholeText stack) excerpt

structure KeepsLimits (u : Unicode) (stack : Str) (configuration : DiscordConfiguration)
    (description : Str) : Prop where
  frames : numberedFrames stack ≠ [] → FramesPreview u stack configuration description
  raw : numberedFrames stack = [] → RawPreview stack configuration description

/-- No line is a frame, and the lines that are left out follow on as many characters as there may
be, the last of them no ellipsis. -/
structure EllipsisTooMany (stack : Str) (configuration : DiscordConfiguration) : Prop where
  no_frames : numberedFrames stack = []
  more_lines : configuration.stackTraceLines < (lines stack).length
  full : (join ['\n'] ((lines stack).take configuration.stackTraceLines)).length =
    configuration.stackTraceCharacters
  no_ellipsis :
    (join ['\n'] ((lines stack).take configuration.stackTraceLines)).getLast? ≠ some '…'

/-! ## Runs of frames -/

section

variable {u : Unicode} {shown shown' : List PreviewLine} {runs : List (List (ℕ × StackTraceRow))}
  {frames : List (ℕ × StackTraceRow)} {number : ℕ} {row : StackTraceRow} {symbol : Str}
  {line : PreviewLine} {run : List (ℕ × StackTraceRow)}

theorem shows_unavailable (hnumber : number < 2 ^ 32) (hrow : row.unavailable = true) :
    Shows u ⟨number, number, none⟩ [(number, row)] where
  ne_nil := List.cons_ne_nil _ _
  numbers := by simpa using (Nat.mod_eq_of_lt hnumber).symm
  first_lt := hnumber
  last := (Nat.mod_eq_of_lt hnumber).symm
  unavailable := by simpa using hrow
  named := by simp

theorem shows_named (hnumber : number < 2 ^ 32) (hrow : row.unavailable = false)
    (hsymbol : previewSymbol u row.symbol = .ok symbol) :
    Shows u ⟨number, number, some symbol⟩ [(number, row)] where
  ne_nil := List.cons_ne_nil _ _
  numbers := by simpa using (Nat.mod_eq_of_lt hnumber).symm
  first_lt := hnumber
  last := (Nat.mod_eq_of_lt hnumber).symm
  unavailable := by simp
  named := by
    intro name hname
    cases hname
    exact ⟨(number, row), rfl, hrow, hsymbol⟩

/-- A run goes on with the next number. -/
theorem Shows.extend (h : Shows u line run) (hline : line.symbol = none)
    (hnext : (line.last + 1) % 2 ^ 32 = number) (hrow : row.unavailable = true) :
    Shows u { line with last := number } (run ++ [(number, row)]) := by
  have hpos : 0 < run.length := List.length_pos_of_ne_nil h.ne_nil
  have hlast := h.last
  have hnumber : number = (line.first + run.length) % 2 ^ 32 := by omega
  constructor
  · simp
  · rw [List.map_append, h.numbers, List.length_append, List.length_singleton, List.range_succ,
      List.map_append, hnumber]
    rfl
  · exact h.first_lt
  · rw [List.length_append, List.length_singleton, Nat.add_sub_cancel]
    exact hnumber
  · intro _ frame hframe
    rcases List.mem_append.mp hframe with hframe | hframe
    · exact h.unavailable hline frame hframe
    · rw [List.mem_singleton.mp hframe]
      exact hrow
  · intro symbol hsymbol
    dsimp only at hsymbol
    rw [hline] at hsymbol
    cases hsymbol

/-- A frame without a symbol goes on with a run, or begins one. -/
theorem shows_unavailable_step (h : List.Forall₂ (Shows u) shown runs) (hnumber : number < 2 ^ 32)
    (hrow : row.unavailable = true) : ∃ runs',
      List.Forall₂ (Shows u) ((extendRun? shown number).getD (shown ++ [⟨number, number, none⟩]))
        runs' ∧ runs'.flatten = runs.flatten ++ [(number, row)] := by
  have hnew : ∃ runs', List.Forall₂ (Shows u) (shown ++ [⟨number, number, none⟩]) runs' ∧
      runs'.flatten = runs.flatten ++ [(number, row)] :=
    ⟨runs ++ [[(number, row)]], List.rel_append h (.cons (shows_unavailable hnumber hrow) .nil),
      by simp⟩
  unfold extendRun?
  cases hlast : shown.getLast? with
  | none => exact hnew
  | some line =>
    dsimp only
    split_ifs with hnext
    swap
    · exact hnew
    obtain ⟨before, rfl⟩ := List.getLast?_eq_some_iff.mp hlast
    have hreverse := List.forall₂_reverse_iff.mpr h
    rw [List.reverse_append, List.reverse_singleton, List.singleton_append] at hreverse
    obtain ⟨run, rest, hrun, hrest, hruns⟩ := List.forall₂_cons_left_iff.mp hreverse
    obtain rfl : runs = rest.reverse ++ [run] := by simpa using congrArg List.reverse hruns
    have hbefore := List.forall₂_reverse_iff.mpr hrest
    rw [List.reverse_reverse] at hbefore
    rw [List.dropLast_concat, Option.getD_some]
    refine ⟨rest.reverse ++ [run ++ [(number, row)]],
      List.rel_append hbefore (.cons (hrun.extend hnext.1 hnext.2 hrow) .nil), by simp⟩

/-- The lines show the frames that may be shown, in their order. -/
theorem previewLines_shows {hasRelevantFrames : Bool} (hframes : ∀ frame ∈ frames, frame.1 < 2 ^ 32)
    (h : List.Forall₂ (Shows u) shown runs)
    (hlines : previewLines u hasRelevantFrames frames shown = .ok shown') : ∃ runs',
      List.Forall₂ (Shows u) shown' runs' ∧
        runs'.flatten = runs.flatten ++ frames.filter (isShown hasRelevantFrames ·.2) := by
  induction frames generalizing shown runs with
  | nil =>
    cases hlines
    exact ⟨runs, h, by simp⟩
  | cons frame frames ih =>
    obtain ⟨number, row⟩ := frame
    obtain ⟨hnumber, hframes⟩ := List.forall_mem_cons.mp hframes
    have hfilter (hshown : isShown hasRelevantFrames row = true) :
        ((number, row) :: frames).filter (isShown hasRelevantFrames ·.2) =
          (number, row) :: frames.filter (isShown hasRelevantFrames ·.2) :=
      List.filter_cons_of_pos hshown
    rw [previewLines] at hlines
    split_ifs at hlines with hshown hrow
    · obtain ⟨runs', h', hflatten⟩ := ih hframes h hlines
      refine ⟨runs', h', ?_⟩
      rw [hflatten, List.filter_cons_of_neg (by simpa using hshown)]
    · have hshown : isShown hasRelevantFrames row = true := by simpa using hshown
      obtain ⟨runs₁, h₁, hflatten₁⟩ := shows_unavailable_step h hnumber hrow
      obtain ⟨runs', h', hflatten⟩ := ih hframes h₁ hlines
      refine ⟨runs', h', ?_⟩
      rw [hflatten, hflatten₁, hfilter hshown, List.append_assoc,
        List.singleton_append]
    · have hshown : isShown hasRelevantFrames row = true := by simpa using hshown
      obtain ⟨symbol, hsymbol, hlines⟩ := bind_eq_ok.mp hlines
      have hone := shows_named (u := u) hnumber (Bool.eq_false_iff.mpr hrow) hsymbol
      obtain ⟨runs', h', hflatten⟩ := ih hframes (List.rel_append h (.cons hone .nil)) hlines
      refine ⟨runs', h', ?_⟩
      rw [hflatten, hfilter hshown]
      simp

/-- A line counts the frames that it shows. -/
theorem Shows.frameCount_eq (h : Shows u line run) (hlength : run.length ≤ 2 ^ 32) :
    line.frameCount = run.length := by
  have hpos : 0 < run.length := List.length_pos_of_ne_nil h.ne_nil
  have hlast := h.last
  have hfirst := h.first_lt
  unfold PreviewLine.frameCount
  omega

end

/-! ## Lines that fit -/

section

variable {u : Unicode} {configuration : DiscordConfiguration} {value : Str} {n : ℕ}

/-- The lines that are shown are the first ones, within both limits. -/
theorem displayLines_eq {shown : List PreviewLine} {runs : List (List (ℕ × StackTraceRow))}
    (h : List.Forall₂ (fun line run => line.frameCount = List.length run) shown runs)
    (description : Str) {displayedLines : ℕ} (displayedFrames : ℕ)
    (hlines : displayedLines ≤ configuration.stackTraceLines) : ∃ k ≤ shown.length,
      displayLines configuration shown description displayedLines displayedFrames =
        (description ++ (shown.take k).flatMap PreviewLine.render, displayedLines + k,
          displayedFrames + (runs.take k).flatten.length) ∧
      displayedLines + k ≤ configuration.stackTraceLines ∧
      (0 < k → (description ++ (shown.take k).flatMap PreviewLine.render).length +
        moreFrames.length ≤ configuration.stackTraceCharacters) ∧
      (k = 0 → ∀ line ∈ shown.head?, configuration.stackTraceLines ≤ displayedLines ∨
        configuration.stackTraceCharacters <
          description.length + line.render.length + moreFrames.length) := by
  induction h generalizing description displayedLines displayedFrames with
  | nil => exact ⟨0, le_rfl, by simp [displayLines], hlines, fun h => by omega, by simp⟩
  | @cons line run shown runs hcount _ ih =>
    rw [displayLines]
    split_ifs with hstop
    · refine ⟨0, Nat.zero_le _, by simp, hlines, fun h => by omega, fun _ line' hline' => ?_⟩
      cases hline'
      exact hstop
    · rw [not_or] at hstop
      obtain ⟨k, hk, heq, hle, hfits, -⟩ := @ih (description ++ line.render)
        (displayedLines + 1) (displayedFrames + line.frameCount) (by omega)
      refine ⟨k + 1, by rw [List.length_cons]; omega, ?_, by omega, fun _ => ?_, by omega⟩
      · rw [heq]
        simp only [List.take_succ_cons, List.flatMap_cons, List.append_assoc, List.flatten_cons,
          List.length_append, hcount]
        refine Prod.ext rfl (Prod.ext ?_ ?_)
        · dsimp only
          omega
        · dsimp only
          omega
      · rw [List.take_succ_cons, List.flatMap_cons, ← List.append_assoc]
        by_cases hk0 : k = 0
        · rw [hk0, List.take_zero, List.flatMap_nil, List.append_nil, List.length_append]
          omega
        · exact hfits (by omega)

theorem truncateText_length (hn : 0 < n) : (truncateText value n).length ≤ n := by
  unfold truncateText
  split_ifs with hshort
  · exact hshort
  · have htake := List.length_take_le (n - 1) value
    rw [List.length_append, List.length_singleton]
    omega

theorem previewSymbol_length {symbol name : Str} (h : previewSymbol u symbol = .ok name) :
    name.length ≤ maxFunctionCharacters := by
  unfold previewSymbol at h
  obtain ⟨concise, hconcise, h⟩ := bind_eq_ok.mp h
  cases h
  cases concise with
  | some concise => exact conciseFunctionName_length (by decide) hconcise
  | none => exact truncateText_length (by decide)

/-- A line is short. -/
theorem render_length {line : PreviewLine} {run : List (ℕ × StackTraceRow)}
    (h : Shows u line run) : line.render.length ≤ 125 := by
  have hnumber (n : ℕ) (hn : n < 2 ^ 32) : (Nat.repr n).toList.length ≤ 10 :=
    (length_digits_le_iff (by omega)).mpr (by omega)
  have hfirst := hnumber line.first h.first_lt
  have hlast := hnumber line.last (h.last ▸ Nat.mod_lt _ (by omega))
  have hsymbol : (line.symbol.getD "Unavailable".toList).length ≤ 96 := by
    cases hname : line.symbol with
    | none => decide
    | some symbol =>
      obtain ⟨frame, -, -, hpreview⟩ := h.named symbol hname
      exact previewSymbol_length hpreview
  have hopen : "\x60".toList.length = 1 := rfl
  have hbetween : "\x60 \x60".toList.length = 3 := rfl
  have hclose : "\x60\n".toList.length = 2 := rfl
  unfold PreviewLine.render
  dsimp only
  split_ifs
  · simp only [List.length_append, List.length_cons, List.length_nil]
    omega
  · simp only [List.length_append, List.length_cons, List.length_nil]
    omega

end

/-! ## Previews with frames -/

section

variable {u : Unicode} {stack description : Str} {parsed : ParsedStackTrace}
  {configuration : DiscordConfiguration}

theorem stackFrames_eq (h : parseStackTrace u stack = .ok parsed) :
    stackFrames parsed = numberedFrames stack := by
  unfold stackFrames numberedFrames
  rw [(rows_of_parseStackTrace h).1]

theorem frameCount_eq (h : parseStackTrace u stack = .ok parsed) :
    parsed.frameCount = (numberedFrames stack).length := by
  rw [(rows_of_parseStackTrace h).2.1, ← stackFrames_eq h]
  unfold stackFrames
  induction parsed.rows with
  | nil => rfl
  | cons row rows ih =>
    cases hnumber : row.number with
    | none =>
      rw [List.countP_cons_of_neg (by simp [hnumber]), ih,
        List.filterMap_cons_none (by simp [hnumber])]
    | some number =>
      rw [List.countP_cons_of_pos (by simp [hnumber]), ih,
        List.filterMap_cons_some (b := (number, row)) (by simp [hnumber]), List.length_cons]

theorem numberedFrames_lt : ∀ frame ∈ numberedFrames stack, frame.1 < 2 ^ 32 := by
  intro frame hframe
  obtain ⟨row, hrow, hsome⟩ := List.mem_filterMap.mp hframe
  obtain ⟨line, -, rfl⟩ := List.mem_map.mp hrow
  obtain ⟨number, hnumber, hpair⟩ := Option.map_eq_some_iff.mp hsome
  rw [← hpair]
  exact number_frameRow_lt hnumber

theorem length_numberedFrames_le (stack : Str) : (numberedFrames stack).length ≤ 256 := by
  refine (List.length_filterMap_le _ _).trans ?_
  rw [List.length_map]
  exact length_stackLines_le stack

theorem exists_shown {frames : List (ℕ × StackTraceRow)} (hne : frames ≠ []) :
    frames.filter (isShown (frames.any (·.2.relevant)) ·.2) ≠ [] := by
  intro hnone
  rw [List.filter_eq_nil_iff] at hnone
  cases hany : frames.any (·.2.relevant) with
  | true =>
    obtain ⟨frame, hframe, hrelevant⟩ := List.any_eq_true.mp hany
    refine hnone frame hframe ?_
    simp [isShown, hrelevant]
  | false =>
    obtain ⟨frame, rest, rfl⟩ := List.exists_cons_of_ne_nil hne
    refine hnone frame List.mem_cons_self ?_
    rw [hany]
    rfl

/-- Frames are shown as such, unless the limits leave no room for a line. -/
theorem stackDescription_cases (h : stackDescription u stack configuration = .ok description) :
    FramesPreview u stack configuration description ∨
      description = rawStackDescription stack configuration ∧
        (numberedFrames stack ≠ [] → 1 ≤ configuration.stackTraceLines →
          configuration.stackTraceCharacters < 256) := by
  unfold stackDescription at h
  obtain ⟨parsed, hparsed, h⟩ := bind_eq_ok.mp h
  rw [stackFrames_eq hparsed] at h
  by_cases hne : numberedFrames stack = []
  · rw [if_pos hne] at h
    cases h
    exact .inr ⟨rfl, fun h => absurd hne h⟩
  rw [if_neg hne] at h
  obtain ⟨shown, hshown, h⟩ := bind_eq_ok.mp h
  obtain ⟨runs, hshows, hruns⟩ := previewLines_shows numberedFrames_lt .nil hshown
  rw [List.flatten_nil, List.nil_append] at hruns
  have hsub : List.Sublist runs.flatten (numberedFrames stack) := by
    rw [hruns]
    exact List.filter_sublist
  have hcounts : List.Forall₂ (fun line run => line.frameCount = List.length run) shown runs := by
    refine (List.forall₂_iff_get.mpr ?_)
    obtain ⟨hlength, hget⟩ := List.forall₂_iff_get.mp hshows
    refine ⟨hlength, fun i hi hi' => (hget i hi hi').frameCount_eq ?_⟩
    have hrun : List.Sublist (runs.get ⟨i, hi'⟩) runs.flatten :=
      List.sublist_flatten_of_mem (List.get_mem runs _)
    have hshort := length_numberedFrames_le stack
    exact (hrun.length_le.trans hsub.length_le).trans (by omega)
  obtain ⟨k, hk, hdisplay, hfitsLines, hfits, hfirst⟩ :=
    displayLines_eq hcounts descriptionHeading 0 (Nat.zero_le configuration.stackTraceLines)
  simp only [hdisplay, Nat.zero_add] at h
  by_cases hk0 : k = 0
  · rw [if_pos hk0] at h
    cases h
    refine .inr ⟨rfl, fun _ hlines => ?_⟩
    cases hshows with
    | nil => exact absurd hruns.symm (exists_shown hne)
    | @cons line run shown runs hline _ =>
      have hshort := render_length hline
      have hheading : descriptionHeading.length = 16 := rfl
      have hnote : moreFrames.length = 33 := rfl
      rcases hfirst hk0 line rfl with hfull | hfull <;> omega
  have hpos : 0 < k := Nat.pos_of_ne_zero hk0
  rw [if_neg hpos.ne', frameCount_eq hparsed] at h
  have hsubTake : List.Sublist (runs.take k).flatten (numberedFrames stack) := by
    have hparts : runs.flatten = (runs.take k).flatten ++ (runs.drop k).flatten := by
      rw [← List.flatten_append, List.take_append_drop]
    rw [hparts] at hsub
    exact (List.sublist_append_left _ _).trans hsub
  have hfits := hfits hpos
  have hmore : ((runs.take k).flatten.length < (numberedFrames stack).length ∨
      parsed.truncated = true) ↔ (runs.take k).flatten ≠ numberedFrames stack ∨
        maxRenderedLines < (lines stack).length := by
    rw [(rows_of_parseStackTrace hparsed).2.2]
    refine or_congr_left ⟨fun hlt heq => ?_, fun hneq => ?_⟩
    · rw [heq] at hlt
      exact lt_irrefl _ hlt
    · exact lt_of_le_of_ne hsubTake.length_le fun heq => hneq (hsubTake.eq_of_length heq)
  have hfacts (more : Bool) (hdescription : description = framesText (shown.take k) more)
      (hiff : more = true ↔ (runs.take k).flatten.length < (numberedFrames stack).length ∨
        parsed.truncated = true) : FramesPreview u stack configuration description := by
    refine ⟨shown.take k, runs.take k, more, hdescription, ?_, ?_, List.forall₂_take k hshows,
      hsubTake, hiff.trans hmore⟩
    · rw [List.length_take]
      omega
    · rw [hdescription]
      unfold framesText
      cases more with
      | true =>
        rw [if_pos rfl, List.length_append]
        exact hfits
      | false =>
        rw [if_neg Bool.false_ne_true, List.length_dropLast]
        omega
  left
  split_ifs at h with hleft
  · cases h
    exact hfacts true rfl (iff_of_true rfl hleft)
  · cases h
    exact hfacts false rfl (iff_of_false Bool.false_ne_true hleft)

/-- With limits that are valid, frames are shown as such. -/
theorem framesPreview_of_frames (hlines : 1 ≤ configuration.stackTraceLines)
    (hcharacters : 256 ≤ configuration.stackTraceCharacters) (hne : numberedFrames stack ≠ [])
    (h : stackDescription u stack configuration = .ok description) :
    FramesPreview u stack configuration description := by
  refine (stackDescription_cases h).resolve_right fun hraw => ?_
  have hnarrow := hraw.2 hne hlines
  omega

end

/-! ## Excerpts -/

section

variable {u : Unicode} {stack whole excerpt description : Str} {parts : List Str}
  {configuration : DiscordConfiguration}

/-- The lines that an excerpt is taken from. -/
def selectedText (stack : Str) (configuration : DiscordConfiguration) : Str :=
  withoutBackticks (join ['\n'] ((lines stack).take configuration.stackTraceLines))

def rawExcerpt (stack : Str) (configuration : DiscordConfiguration) : Str :=
  let selected := selectedText stack configuration
  let excerpt := truncateText selected configuration.stackTraceCharacters
  if (((lines stack).take configuration.stackTraceLines).length < (lines stack).length ||
      configuration.stackTraceCharacters < selected.length) && !endsWith excerpt ['…'] then
    excerpt ++ ['…']
  else excerpt

theorem rawStackDescription_eq (stack : Str) (configuration : DiscordConfiguration) :
    rawStackDescription stack configuration = rawText (rawExcerpt stack configuration) := rfl

theorem rawText_injective {a b : Str} (h : rawText a = rawText b) : a = b :=
  List.append_cancel_left (List.append_cancel_right h)

theorem join_append {separator : Str} {parts more : List Str} (hparts : parts ≠ [])
    (hmore : more ≠ []) : join separator (parts ++ more) =
      join separator parts ++ separator ++ join separator more := by
  induction parts with
  | nil => exact absurd rfl hparts
  | cons part parts ih =>
    cases parts with
    | nil =>
      obtain ⟨next, rest, rfl⟩ := List.exists_cons_of_ne_nil hmore
      rw [List.singleton_append, join_cons_cons, show join separator [part] = part by simp [join]]
    | cons next parts =>
      rw [List.cons_append, List.cons_append, join_cons_cons, join_cons_cons,
        ← List.cons_append, ih (List.cons_ne_nil _ _)]
      simp only [List.append_assoc]

theorem length_withoutBackticks (s : Str) : (withoutBackticks s).length = s.length :=
  List.length_map ..

theorem withoutBackticks_append (s t : Str) :
    withoutBackticks (s ++ t) = withoutBackticks s ++ withoutBackticks t := List.map_append ..

theorem backtick_not_mem (s : Str) : '\x60' ∉ withoutBackticks s := by
  intro hmem
  obtain ⟨c, -, hc⟩ := List.mem_map.mp hmem
  split_ifs at hc with hbacktick
  · exact absurd hc (by decide)
  · exact hbacktick hc

theorem mem_withoutBackticks {c : Char} {s : Str} (h : c ∈ withoutBackticks s) :
    c ∈ s ∨ c = '′' := by
  obtain ⟨d, hd, hc⟩ := List.mem_map.mp h
  split_ifs at hc
  · exact .inr hc.symm
  · exact .inl (hc ▸ hd)

theorem count_withoutBackticks (s : Str) :
    (withoutBackticks s).count '\n' = s.count '\n' := by
  induction s with
  | nil => rfl
  | cons c s ih =>
    have hcons : withoutBackticks (c :: s) =
        (if c = '\x60' then '′' else c) :: withoutBackticks s := rfl
    rw [hcons, List.count_cons, List.count_cons, ih]
    by_cases hbacktick : c = '\x60'
    · subst hbacktick
      rfl
    · rw [if_neg hbacktick]

/-- Joined lines have a line feed less than there are lines. -/
theorem count_join (h : ∀ part ∈ parts, '\n' ∉ part) :
    (join ['\n'] parts).count '\n' = parts.length - 1 := by
  induction parts with
  | nil => rfl
  | cons part parts ih =>
    obtain ⟨hpart, hparts⟩ := List.forall_mem_cons.mp h
    have hzero : part.count '\n' = 0 := List.count_eq_zero.mpr hpart
    cases parts with
    | nil => simp [join, hzero]
    | cons next parts =>
      rw [join_cons_cons, List.count_append, List.count_append, ih hparts, hzero]
      simp
      omega

/-- The lines of the selection are the first of the text. -/
theorem selectedText_prefix (stack : Str) (hlines : 1 ≤ configuration.stackTraceLines) :
    ((lines stack).length ≤ configuration.stackTraceLines ∧
      selectedText stack configuration = wholeText stack) ∨
    (configuration.stackTraceLines < (lines stack).length ∧
      selectedText stack configuration <+: wholeText stack ∧
      selectedText stack configuration ≠ wholeText stack) := by
  unfold selectedText wholeText
  rcases Nat.lt_or_ge configuration.stackTraceLines (lines stack).length with hmore | hall
  · have hsplit := List.take_append_drop configuration.stackTraceLines (lines stack)
    have htake : (lines stack).take configuration.stackTraceLines ≠ [] := by
      intro hnil
      have hlength := congrArg List.length hnil
      rw [List.length_take, List.length_nil] at hlength
      omega
    have hdrop : (lines stack).drop configuration.stackTraceLines ≠ [] := by
      intro hnil
      have hlength := congrArg List.length hnil
      rw [List.length_drop, List.length_nil] at hlength
      omega
    have hwhole : withoutBackticks (join ['\n'] (lines stack)) =
        withoutBackticks (join ['\n'] ((lines stack).take configuration.stackTraceLines)) ++
          '\n' :: withoutBackticks
            (join ['\n'] ((lines stack).drop configuration.stackTraceLines)) := by
      conv_lhs => rw [← hsplit, join_append htake hdrop]
      rw [withoutBackticks_append, withoutBackticks_append, List.append_assoc]
      rfl
    refine .inr ⟨hmore, ?_, ?_⟩
    · rw [hwhole]
      exact List.prefix_append _ _
    · intro heq
      have hlength := congrArg List.length (heq.trans hwhole)
      rw [List.length_append, List.length_cons] at hlength
      omega
  · exact .inl ⟨hall, by rw [List.take_of_length_le hall]⟩

theorem endsWith_singleton_iff {s : Str} {c : Char} :
    endsWith s [c] = true ↔ s.getLast? = some c := by
  unfold endsWith
  rw [List.isSuffixOf_iff_suffix, List.getLast?_eq_some_iff]
  exact ⟨fun ⟨t, h⟩ => ⟨t, h.symm⟩, fun ⟨t, h⟩ => ⟨t, h.symm⟩⟩

/-- An excerpt is the selection, or is cut in it, or goes on after it. -/
theorem rawExcerpt_cases (stack : Str) (configuration : DiscordConfiguration) :
    (configuration.stackTraceCharacters < (selectedText stack configuration).length ∧
      rawExcerpt stack configuration = (selectedText stack configuration).take
        (configuration.stackTraceCharacters - 1) ++ ['…']) ∨
    ((selectedText stack configuration).length ≤ configuration.stackTraceCharacters ∧
      ((lines stack).length ≤ configuration.stackTraceLines ∨
        (selectedText stack configuration).getLast? = some '…') ∧
      rawExcerpt stack configuration = selectedText stack configuration) ∨
    ((selectedText stack configuration).length ≤ configuration.stackTraceCharacters ∧
      configuration.stackTraceLines < (lines stack).length ∧
      (selectedText stack configuration).getLast? ≠ some '…' ∧
      rawExcerpt stack configuration = selectedText stack configuration ++ ['…']) := by
  have hcut : ((lines stack).take configuration.stackTraceLines).length < (lines stack).length ↔
      configuration.stackTraceLines < (lines stack).length := by
    rw [List.length_take]
    omega
  unfold rawExcerpt
  dsimp only
  generalize selectedText stack configuration = selected
  by_cases hshort : selected.length ≤ configuration.stackTraceCharacters
  · have htext : truncateText selected configuration.stackTraceCharacters = selected := by
      unfold truncateText
      rw [if_pos hshort]
    rw [htext]
    by_cases hadd : configuration.stackTraceLines < (lines stack).length ∧
        selected.getLast? ≠ some '…'
    · refine .inr (.inr ⟨hshort, hadd.1, hadd.2, if_pos ?_⟩)
      have hends : endsWith selected ['…'] = false := by
        rw [← Bool.not_eq_true, endsWith_singleton_iff]
        exact hadd.2
      rw [hends, decide_eq_true (hcut.mpr hadd.1)]
      rfl
    · refine .inr (.inl ⟨hshort, ?_, if_neg fun h => hadd ?_⟩)
      · rw [not_and_or, not_lt, not_not] at hadd
        exact hadd
      · simp only [Bool.and_eq_true, Bool.or_eq_true, decide_eq_true_eq, Bool.not_eq_true'] at h
        refine ⟨hcut.mp (h.1.resolve_right (by omega)), fun hlast => ?_⟩
        rw [endsWith_singleton_iff.mpr hlast] at h
        exact absurd h.2 (by decide)
  · have htext : truncateText selected configuration.stackTraceCharacters =
        selected.take (configuration.stackTraceCharacters - 1) ++ ['…'] := by
      unfold truncateText
      rw [if_neg hshort]
    rw [htext]
    refine .inl ⟨by omega, if_neg fun h => ?_⟩
    have hends : endsWith (selected.take (configuration.stackTraceCharacters - 1) ++ ['…']) ['…'] =
        true := endsWith_singleton_iff.mpr (by simp)
    rw [hends, Bool.not_true, Bool.and_false] at h
    cases h

theorem count_selectedText (stack : Str) (hlines : 1 ≤ configuration.stackTraceLines) :
    (selectedText stack configuration).count '\n' < configuration.stackTraceLines := by
  unfold selectedText
  rw [count_withoutBackticks, count_join fun part hpart hmem =>
    (mem_of_mem_lines (List.mem_of_mem_take hpart) hmem).2 rfl, List.length_take]
  omega

/-- An excerpt has no more line feeds than the selection. -/
theorem count_rawExcerpt (hlines : 1 ≤ configuration.stackTraceLines) :
    (rawExcerpt stack configuration).count '\n' < configuration.stackTraceLines := by
  have hselected := count_selectedText stack hlines
  have hellipsis : (['…'] : Str).count '\n' = 0 := rfl
  rcases rawExcerpt_cases stack configuration with ⟨-, h⟩ | ⟨-, -, h⟩ | ⟨-, -, -, h⟩
  · have htake := (List.take_sublist (configuration.stackTraceCharacters - 1)
      (selectedText stack configuration)).count_le '\n'
    rw [h, List.count_append, hellipsis]
    omega
  · rwa [h]
  · rw [h, List.count_append, hellipsis]
    exact hselected

/-- The ellipsis says exactly whether text is left out. -/
theorem isExcerpt_rawExcerpt (hlines : 1 ≤ configuration.stackTraceLines)
    (hcharacters : 1 ≤ configuration.stackTraceCharacters) :
    IsExcerpt (wholeText stack) (rawExcerpt stack configuration) := by
  have hselected : selectedText stack configuration <+: wholeText stack := by
    rcases selectedText_prefix stack hlines with ⟨-, h⟩ | ⟨-, h, -⟩
    · exact h ▸ List.prefix_refl _
    · exact h
  rcases rawExcerpt_cases stack configuration with ⟨hlong, h⟩ | ⟨-, hall, h⟩ | ⟨-, hmore, -, h⟩
  · refine .inr ⟨_, (List.take_prefix _ _).trans hselected, fun heq => ?_, h⟩
    have hlength := congrArg List.length heq
    have hle := hselected.length_le
    rw [List.length_take] at hlength
    omega
  · rcases hall with hall | hlast
    · rcases selectedText_prefix stack hlines with ⟨-, hsame⟩ | ⟨hmore, -⟩
      · exact .inl (h.trans hsame)
      · omega
    · obtain ⟨kept, hkept⟩ := List.getLast?_eq_some_iff.mp hlast
      refine .inr ⟨kept, ?_, fun heq => ?_, h.trans hkept⟩
      · rw [hkept] at hselected
        exact (List.prefix_append _ _).trans hselected
      · have hle := hselected.length_le
        rw [hkept, ← heq, List.length_append, List.length_singleton] at hle
        omega
  · rcases selectedText_prefix stack hlines with ⟨hall, -⟩ | ⟨-, -, hne⟩
    · omega
    · exact .inr ⟨_, hselected, hne, h⟩

theorem getLast?_withoutBackticks (s : Str) :
    (withoutBackticks s).getLast? = some '…' ↔ s.getLast? = some '…' := by
  have hmap : (withoutBackticks s).getLast? =
      s.getLast?.map fun c => if c = '\x60' then '′' else c := List.getLast?_map ..
  rw [hmap]
  cases s.getLast? with
  | none => simp
  | some c =>
    rw [Option.map_some, Option.some.injEq, Option.some.injEq]
    split_ifs with hbacktick
    · subst hbacktick
      decide
    · exact Iff.rfl

/-- An excerpt is too long in one case only. -/
theorem length_rawExcerpt_iff (hcharacters : 1 ≤ configuration.stackTraceCharacters)
    (hnone : numberedFrames stack = []) :
    (rawExcerpt stack configuration).length ≤ configuration.stackTraceCharacters ↔
      ¬ EllipsisTooMany stack configuration := by
  have hfull : EllipsisTooMany stack configuration ↔
      configuration.stackTraceLines < (lines stack).length ∧
      (selectedText stack configuration).length = configuration.stackTraceCharacters ∧
      (selectedText stack configuration).getLast? ≠ some '…' := by
    unfold selectedText
    rw [length_withoutBackticks, ne_eq, getLast?_withoutBackticks]
    exact ⟨fun h => ⟨h.more_lines, h.full, h.no_ellipsis⟩, fun h => ⟨hnone, h.1, h.2.1, h.2.2⟩⟩
  rw [hfull]
  rcases rawExcerpt_cases stack configuration with
    ⟨hlong, h⟩ | ⟨hshort, hall, h⟩ | ⟨hshort, hmore, hlast, h⟩
  · rw [h, List.length_append, List.length_take, List.length_singleton]
    exact iff_of_true (by omega) fun h => by omega
  · rw [h]
    refine iff_of_true hshort fun hbad => ?_
    rcases hall with hall | hlast
    · omega
    · exact hbad.2.2 hlast
  · rw [h, List.length_append, List.length_singleton]
    constructor
    · rintro hle ⟨-, hlength, -⟩
      omega
    · intro hbad
      by_contra hle
      exact hbad ⟨hmore, by omega, hlast⟩

end

/-! ## Limits -/

section

variable {parseUrl : Str → Option Ingestion.UrlParts} {discord : Ingestion.DiscordConfiguration}

theorem previewLimits_of_validate (h : discord.validate parseUrl = .ok ()) :
    (1 ≤ discord.stackTraceLines ∧ discord.stackTraceLines ≤ 100) ∧
      256 ≤ discord.stackTraceCharacters ∧ discord.stackTraceCharacters ≤ 3_500 := by
  unfold Ingestion.DiscordConfiguration.validate at h
  obtain ⟨_, hlimits, -⟩ := bind_eq_ok.mp h
  have hvalid := ensure_eq_ok.mp hlimits
  unfold Ingestion.outside at hvalid
  simp only [Bool.not_eq_true', Bool.or_eq_false_iff, decide_eq_false_iff_not, Bool.not_eq_false',
    Bool.and_eq_true, decide_eq_true_eq] at hvalid
  omega

/-- Without frames the text itself is shown. -/
theorem stackDescription_raw {stack : Str} {configuration : DiscordConfiguration} (u : Unicode)
    (hnone : numberedFrames stack = []) : stackDescription u stack configuration =
      .ok (rawText (rawExcerpt stack configuration)) := by
  obtain ⟨parsed, hparsed⟩ := parseStackTrace_safe u stack
  unfold stackDescription
  rw [hparsed, ok_bind, stackFrames_eq hparsed]
  exact if_pos hnone

/-- A preview keeps the limits of a valid configuration, and says what it left out, unless the
ellipsis of an excerpt is one character too many. -/
theorem preview_keeps_limits_iff (hvalid : discord.validate parseUrl = .ok ()) (u : Unicode)
    (stack : Str) :
    (∀ description, stackDescription u stack (previewLimits discord) = .ok description →
      KeepsLimits u stack (previewLimits discord) description) ↔
    ¬ EllipsisTooMany stack (previewLimits discord) := by
  obtain ⟨⟨hlines, -⟩, hcharacters, -⟩ := previewLimits_of_validate hvalid
  have hpositive : 1 ≤ (previewLimits discord).stackTraceCharacters := by
    change 1 ≤ discord.stackTraceCharacters
    omega
  by_cases hnone : numberedFrames stack = []
  · rw [← length_rawExcerpt_iff hpositive hnone, stackDescription_raw u hnone]
    constructor
    · intro h
      obtain ⟨excerpt, hexcerpt, -, hlength, -⟩ := (h _ rfl).raw hnone
      rwa [rawText_injective hexcerpt]
    · rintro hlength _ ⟨rfl⟩
      exact ⟨fun hne => absurd hnone hne, fun _ => ⟨_, rfl, count_rawExcerpt hlines, hlength,
        isExcerpt_rawExcerpt hlines hpositive⟩⟩
  · refine iff_of_true (fun description h => ⟨fun _ => ?_, fun hnil => absurd hnil hnone⟩)
      fun h => hnone h.no_frames
    exact framesPreview_of_frames hlines hcharacters hnone h

end

/-! ## A line as long as an excerpt may be -/

def narrowDiscord : Ingestion.DiscordConfiguration :=
  { Ingestion.DiscordConfiguration.default with
    stackTraceLines := 1
    stackTraceCharacters := 256 }

/-- A line of 256 characters, and another. -/
def longLine : Str := List.replicate 256 'a' ++ "\nb".toList

theorem long_line_breaks_limit : narrowDiscord.validate (fun _ => none) = .ok () ∧
    ¬ ∀ description,
      stackDescription Unicode.ascii longLine (previewLimits narrowDiscord) = .ok description →
      KeepsLimits Unicode.ascii longLine (previewLimits narrowDiscord) description := by
  refine ⟨rfl, fun h => ?_⟩
  have hnone : numberedFrames longLine = [] := by decide +kernel
  obtain ⟨excerpt, hexcerpt, -, hlength, -⟩ := (h _ (stackDescription_raw _ hnone)).raw hnone
  rw [← rawText_injective hexcerpt] at hlength
  exact absurd hlength (by decide +kernel)

theorem short_preview_keeps_limits :
    KeepsLimits Unicode.ascii "#0 0x1 f".toList (previewLimits .default)
      "**Stack trace**\n\x60#0\x60 \x60f\x60".toList :=
  (@preview_keeps_limits_iff (fun _ => none) _ rfl Unicode.ascii "#0 0x1 f".toList).mpr
    (fun h => absurd h.no_frames (by decide +kernel)) _ (by decide +kernel)

end LadybirdReports
