import LadybirdReports.Domain.ReportTitle

/-!
# The stack preview of a Discord notification

`stackDescription` shows the first frames of a stack, a run of consecutive frames without a symbol
as one line. It names every frame it may show before it knows how many fit, so it returns exactly
when all of them have plain scopes (`stackDescription_safe_iff`).
-/

namespace LadybirdReports

open Rust

def maxFunctionCharacters : ℕ := 96
def moreFrames : Str := "*More frames in the full report.*".toList
def descriptionHeading : Str := "**Stack trace**\n".toList

/-- The limits of a preview. -/
structure DiscordConfiguration where
  stackTraceLines : ℕ
  stackTraceCharacters : ℕ
  deriving DecidableEq, Repr

/-- One line of the preview: a frame, or a run of frames the client sent no symbol for. -/
structure PreviewLine where
  first : ℕ
  last : ℕ
  symbol : Option Str
  deriving DecidableEq, Repr

def PreviewLine.frameCount (line : PreviewLine) : ℕ :=
  (line.last + 2 ^ 32 - line.first) % 2 ^ 32 + 1

def PreviewLine.render (line : PreviewLine) : Str :=
  let number (n : ℕ) : Str := ['#'] ++ (Nat.repr n).toList
  let frames := if line.first = line.last then number line.first
    else number line.first ++ ['–'] ++ number line.last
  "\x60".toList ++ frames ++ "\x60 \x60".toList ++ line.symbol.getD "Unavailable".toList ++
    "\x60\n".toList

/-- A text that is too long ends in an ellipsis. -/
def truncateText (value : Str) (maximumCharacters : ℕ) : Str :=
  if value.length ≤ maximumCharacters then value
  else value.take (maximumCharacters - 1) ++ ['…']

/-- A code block cannot hold a backtick. -/
def withoutBackticks (s : Str) : Str := replaceChar s '\x60' '′'

def rawStackDescription (stack : Str) (configuration : DiscordConfiguration) : Str :=
  let selectedLines := (lines stack).take configuration.stackTraceLines
  let selected := withoutBackticks (join ['\n'] selectedLines)
  let wasTruncated := selectedLines.length < (lines stack).length ||
    configuration.stackTraceCharacters < selected.length
  let excerpt := truncateText selected configuration.stackTraceCharacters
  let excerpt := if wasTruncated && !endsWith excerpt ['…'] then excerpt ++ ['…'] else excerpt
  descriptionHeading ++ "\x60\x60\x60text\n".toList ++ excerpt ++ "\n\x60\x60\x60".toList

/-! ## Lines -/

/-- The frame is among those a preview may show. -/
def isShown (hasRelevantFrames : Bool) (frame : StackTraceRow) : Bool :=
  !hasRelevantFrames || frame.top || frame.relevant

/-- The lines with the run at their end going on to `number`, if there is one just before it. -/
def extendRun? (lines : List PreviewLine) (number : ℕ) : Option (List PreviewLine) :=
  match lines.getLast? with
  | some run =>
    if run.symbol = none ∧ (run.last + 1) % 2 ^ 32 = number
    then some (lines.dropLast ++ [{ run with last := number }]) else none
  | none => none

/-- What a preview calls the function of a frame. -/
def previewSymbol (u : Unicode) (symbol : Str) : Checked Str := do
  let name ← conciseFunctionName u symbol maxFunctionCharacters
  return name.getD (truncateText (withoutBackticks symbol) maxFunctionCharacters)

/-- The loop over the frames of a stack. -/
def previewLines (u : Unicode) (hasRelevantFrames : Bool) :
    List (ℕ × StackTraceRow) → List PreviewLine → Checked (List PreviewLine)
  | [], lines => return lines
  | (number, frame) :: frames, lines =>
    if !isShown hasRelevantFrames frame then previewLines u hasRelevantFrames frames lines
    else if frame.unavailable then
      previewLines u hasRelevantFrames frames
        ((extendRun? lines number).getD (lines ++ [⟨number, number, none⟩]))
    else do
      let symbol ← previewSymbol u frame.symbol
      previewLines u hasRelevantFrames frames (lines ++ [⟨number, number, some symbol⟩])

/-- The lines that fit, after a description so far: the whole text, and how many lines and frames
were added. -/
def displayLines (configuration : DiscordConfiguration) :
    List PreviewLine → Str → ℕ → ℕ → Str × ℕ × ℕ
  | [], description, displayedLines, displayedFrames =>
    (description, displayedLines, displayedFrames)
  | line :: lines, description, displayedLines, displayedFrames =>
    let text := line.render
    if configuration.stackTraceLines ≤ displayedLines ∨ configuration.stackTraceCharacters <
        description.length + text.length + moreFrames.length then
      (description, displayedLines, displayedFrames)
    else displayLines configuration lines (description ++ text) (displayedLines + 1)
      (displayedFrames + line.frameCount)

/-- The numbered rows of a stack. -/
def stackFrames (parsed : ParsedStackTrace) : List (ℕ × StackTraceRow) :=
  parsed.rows.filterMap fun row => row.number.map (·, row)

def stackDescription (u : Unicode) (stack : Str) (configuration : DiscordConfiguration) :
    Checked Str := do
  let parsed ← parseStackTrace u stack
  let frames := stackFrames parsed
  if frames = [] then return rawStackDescription stack configuration
  else do
    let lines ← previewLines u (frames.any (·.2.relevant)) frames []
    let (description, displayedLines, displayedFrames) :=
      displayLines configuration lines descriptionHeading 0 0
    if displayedLines = 0 then return rawStackDescription stack configuration
    else if displayedFrames < parsed.frameCount ∨ parsed.truncated then
      return description ++ moreFrames
    else return description.dropLast

/-! ## Which stacks are described without a panic -/

/-- Every frame with a symbol that a preview may show has a plain scope. -/
def PlainFrames (hasRelevantFrames : Bool) (frames : List (ℕ × StackTraceRow)) : Prop :=
  ∀ frame ∈ frames, isShown hasRelevantFrames frame.2 → frame.2.unavailable = false →
    PlainScope frame.2.symbol

/-- The frames of a stack that a preview may show have plain scopes. -/
def DescriptionPlain (u : Unicode) (stack : Str) : Prop :=
  ∀ parsed, parseStackTrace u stack = .ok parsed →
    PlainFrames ((stackFrames parsed).any (·.2.relevant)) (stackFrames parsed)

theorem previewSymbol_safe_iff (u : Unicode) (symbol : Str) :
    Safe (previewSymbol u symbol) ↔ PlainScope symbol := by
  rw [← conciseFunctionName_safe_iff u symbol maxFunctionCharacters]
  refine ⟨fun h => ?_, fun h => h.bind fun _ => safe_pure _⟩
  obtain ⟨name, hn, -⟩ := safe_bind_iff.mp h
  exact ⟨name, hn⟩

theorem previewLines_safe_iff (u : Unicode) (hasRelevantFrames : Bool)
    (frames : List (ℕ × StackTraceRow)) (lines : List PreviewLine) :
    Safe (previewLines u hasRelevantFrames frames lines) ↔
      PlainFrames hasRelevantFrames frames := by
  induction frames generalizing lines with
  | nil => exact iff_of_true (safe_pure lines) (by simp [PlainFrames])
  | cons head frames ih =>
    obtain ⟨number, frame⟩ := head
    have hcons : PlainFrames hasRelevantFrames ((number, frame) :: frames) ↔
        (isShown hasRelevantFrames frame → frame.unavailable = false → PlainScope frame.symbol) ∧
          PlainFrames hasRelevantFrames frames := List.forall_mem_cons
    rw [hcons, previewLines]
    split_ifs with h1 h2
    · rw [ih, and_iff_right fun h => by simp [h] at h1]
    · rw [ih, and_iff_right fun _ h => by simp [h] at h2]
    · have hshown : isShown hasRelevantFrames frame = true := by simpa using h1
      have hav : frame.unavailable = false := by simpa using h2
      rw [← previewSymbol_safe_iff u, safe_bind_iff]
      constructor
      · rintro ⟨symbol, hs, hrest⟩
        exact ⟨fun _ _ => ⟨symbol, hs⟩, (ih _).mp hrest⟩
      · rintro ⟨hs, hrest⟩
        obtain ⟨symbol, hs⟩ := hs hshown hav
        exact ⟨symbol, hs, (ih _).mpr hrest⟩

/-- A stack is described without a panic exactly when the scopes it names are plain. -/
theorem stackDescription_safe_iff (u : Unicode) (stack : Str)
    (configuration : DiscordConfiguration) :
    Safe (stackDescription u stack configuration) ↔ DescriptionPlain u stack := by
  obtain ⟨parsed, hp⟩ := parseStackTrace_safe u stack
  unfold stackDescription DescriptionPlain
  simp only [hp, ok_bind, Except.ok.injEq, forall_eq']
  split_ifs with h
  · rw [h]
    exact iff_of_true (safe_pure _) (by simp [PlainFrames])
  · rw [← previewLines_safe_iff u _ _ []]
    refine ⟨fun hs => ?_, fun hs => hs.bind fun lines => ?_⟩
    · obtain ⟨lines, hl, -⟩ := safe_bind_iff.mp hs
      exact ⟨lines, hl⟩
    · split_ifs <;> exact safe_pure _

/-! ## All readers of a stack -/

/-- Stacks are parsed and fingerprinted whatever they hold; they are titled and described exactly
when the scopes that are looked at are plain. -/
theorem stack_readers_safe_iff (u : Unicode) (sha256 : List UInt8 → Str) :
    (∀ input, Safe (generateReportTitle u input) ↔ TitlePlain u input) ∧
    (∀ text, Safe (parseStackTrace u text)) ∧
    (∀ kind process signal failureReason text, Safe do
      return stackFingerprint u sha256 kind process signal failureReason
        (← parseStackTrace u text)) ∧
    (∀ stack configuration,
      Safe (stackDescription u stack configuration) ↔ DescriptionPlain u stack) :=
  ⟨generateReportTitle_safe_iff u, parseStackTrace_safe u,
    fun _ _ _ _ text => (parseStackTrace_safe u text).bind fun _ => safe_pure _,
    stackDescription_safe_iff u⟩

/-- An ideographic space before the qualifier of a function. -/
def wideSpaceStack : Str := "#0 0x1 a\u3000b::c".toList

theorem wide_space_panics :
    ¬ Safe (generateReportTitle Unicode.ascii
      { style := .report, kind := .crash, url := none, clientVersion := "1.0".toList,
        failureReason := none, stackTrace := some wideSpaceStack, process := none,
        platform := none, signal := none }) ∧
    ¬ Safe (stackDescription Unicode.ascii wideSpaceStack ⟨5, 300⟩) := by
  constructor
  · rw [show generateReportTitle Unicode.ascii _ = .error .slice by decide +kernel]
    exact not_safe_error _
  · rw [show stackDescription Unicode.ascii wideSpaceStack ⟨5, 300⟩ = .error .slice by
      decide +kernel]
    exact not_safe_error _

end LadybirdReports
