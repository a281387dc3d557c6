import LadybirdReports.Application.StackPreview

/-!
# The quoting of a message

What an anonymous client wrote stands between backticks in a message, and cannot end its quotes.

1. The name in a line of frames is made of the characters that functions are named with, or is the
   symbol with its backticks replaced; a symbol is part of a line, so it has no line feed
   (`previewSymbol_plain`).
2. The backticks of an excerpt are replaced before it is cut, and the cut adds none
   (`backtick_not_mem_rawExcerpt`).
3. Of an address the backticks and the controls are replaced, and then it is cut
   (`pageUrlText_plain`).
-/

namespace LadybirdReports

open Rust

/-- A line of frames: two texts in backticks. -/
structure IsQuotedLine (text : Str) : Prop where
  delimited : ∃ numbers name, text =
    "\x60".toList ++ numbers ++ "\x60 \x60".toList ++ name ++ "\x60\n".toList
  backticks : text.count '\x60' = 4
  feeds : text.count '\n' = 1

/-- The text is one code span. -/
def IsCodeSpan (value : Str) : Prop :=
  ∃ text, value = "\x60".toList ++ text ++ "\x60".toList ∧
    ∀ c ∈ text, c ≠ '\x60' ∧ isControl c = false

section

variable {u : Unicode} {s stack symbol name description : Str} {n : ℕ} {c : Char}
  {configuration : DiscordConfiguration}

theorem mem_truncateText (h : c ∈ truncateText s n) : c ∈ s ∨ c = '…' := by
  unfold truncateText at h
  split_ifs at h
  · exact .inl h
  · rcases List.mem_append.mp h with h | h
    · exact .inl (List.mem_of_mem_take h)
    · exact .inr (List.mem_singleton.mp h)

/-! ## Lines of frames -/

variable (hletters : ∀ c, u.isAlphanumeric c = true → c ≠ '\x60' ∧ c ≠ '\n')

include hletters in
theorem previewSymbol_plain (hsymbol : '\n' ∉ symbol) (h : previewSymbol u symbol = .ok name) :
    ∀ c ∈ name, c ≠ '\x60' ∧ c ≠ '\n' := by
  intro c hc
  unfold previewSymbol at h
  obtain ⟨concise, hconcise, h⟩ := bind_eq_ok.mp h
  cases h
  cases concise with
  | some concise =>
    have hchar := List.all_eq_true.mp (conciseFunctionName_chars hconcise) c hc
    unfold isNameChar at hchar
    simp only [Bool.or_eq_true, decide_eq_true_eq] at hchar
    rcases hchar with (((hchar | rfl) | rfl) | rfl) | rfl
    · exact hletters c hchar
    all_goals decide
  | none =>
    rcases mem_truncateText hc with hc | rfl
    · constructor
      · rintro rfl
        exact backtick_not_mem symbol hc
      · rintro rfl
        rcases mem_withoutBackticks hc with hc | hc
        · exact hsymbol hc
        · exact absurd hc (by decide)
    · decide

theorem digits_plain (h : c ∈ (Nat.repr n).toList) : c ≠ '\x60' ∧ c ≠ '\n' := by
  have hdigit : isAsciiDigit c = true := isAsciiDigit_of_mem_digits h
  constructor
  · rintro rfl
    exact absurd hdigit (by decide)
  · rintro rfl
    exact absurd hdigit (by decide)

/-- A line is quoted when its name is plain. -/
theorem isQuotedLine_render {line : PreviewLine}
    (h : ∀ symbol ∈ line.symbol, ∀ c ∈ symbol, c ≠ '\x60' ∧ c ≠ '\n') :
    IsQuotedLine line.render := by
  have hname : ∀ c ∈ line.symbol.getD "Unavailable".toList, c ≠ '\x60' ∧ c ≠ '\n' := by
    cases hsymbol : line.symbol with
    | none => exact forall_of_all (by decide)
    | some symbol => exact h symbol hsymbol
  have hzero (text : Str) (htext : ∀ c ∈ text, c ≠ '\x60' ∧ c ≠ '\n') :
      text.count '\x60' = 0 ∧ text.count '\n' = 0 :=
    ⟨List.count_eq_zero.mpr fun hmem => (htext _ hmem).1 rfl,
      List.count_eq_zero.mpr fun hmem => (htext _ hmem).2 rfl⟩
  obtain ⟨numbers, hrender, hnumbers⟩ : ∃ numbers, line.render =
      "\x60".toList ++ numbers ++ "\x60 \x60".toList ++ line.symbol.getD "Unavailable".toList ++
        "\x60\n".toList ∧ ∀ c ∈ numbers, c ≠ '\x60' ∧ c ≠ '\n' := by
    refine ⟨_, rfl, fun c hc => ?_⟩
    have hsign : ('#' ≠ '\x60' ∧ '#' ≠ '\n') ∧ '–' ≠ '\x60' ∧ '–' ≠ '\n' := by decide
    split_ifs at hc
    · rcases List.mem_append.mp hc with hc | hc
      · rw [List.mem_singleton.mp hc]
        exact hsign.1
      · exact digits_plain hc
    · rcases List.mem_append.mp hc with hc | hc
      · rcases List.mem_append.mp hc with hc | hc
        · rcases List.mem_append.mp hc with hc | hc
          · rw [List.mem_singleton.mp hc]
            exact hsign.1
          · exact digits_plain hc
        · rw [List.mem_singleton.mp hc]
          exact hsign.2
      · rcases List.mem_append.mp hc with hc | hc
        · rw [List.mem_singleton.mp hc]
          exact hsign.1
        · exact digits_plain hc
  obtain ⟨hbackticks, hfeeds⟩ := hzero _ hname
  obtain ⟨hbackticks', hfeeds'⟩ := hzero _ hnumbers
  constructor
  · exact ⟨_, _, hrender⟩
  · rw [hrender]
    simp only [List.count_append, hbackticks, hbackticks']
    decide
  · rw [hrender]
    simp only [List.count_append, hfeeds, hfeeds']
    decide

/-- The symbol of a frame is part of a line. -/
theorem symbol_no_feed {frame : ℕ × StackTraceRow} (h : frame ∈ numberedFrames stack) :
    '\n' ∉ frame.2.symbol := by
  obtain ⟨row, hrow, hsome⟩ := List.mem_filterMap.mp h
  obtain ⟨line, hline, rfl⟩ := List.mem_map.mp hrow
  obtain ⟨number, -, rfl⟩ := Option.map_eq_some_iff.mp hsome
  intro hmem
  rcases symbol_frameRow line with hsymbol | hsymbol
  · rw [hsymbol] at hmem
    exact absurd hmem (by decide)
  · exact (mem_of_mem_lines (stackLines_subset stack hline) (hsymbol.subset hmem)).2 rfl

include hletters in
theorem quoted_of_framesPreview (h : FramesPreview u stack configuration description) :
    ∃ shown more, description = framesText shown more ∧
      ∀ line ∈ shown, IsQuotedLine line.render := by
  obtain ⟨shown, runs, more, hdescription, -, -, hshows, hsub, -⟩ := h
  refine ⟨shown, more, hdescription, fun line hline => isQuotedLine_render fun symbol hsymbol => ?_⟩
  obtain ⟨i, hi, rfl⟩ := List.mem_iff_getElem.mp hline
  obtain ⟨hlength, hget⟩ := List.forall₂_iff_get.mp hshows
  obtain ⟨frame, hrun, -, hname⟩ := (hget i hi (hlength ▸ hi)).named symbol hsymbol
  have hframe : frame ∈ numberedFrames stack := by
    refine hsub.subset (List.mem_flatten.mpr ⟨_, List.get_mem runs ⟨i, hlength ▸ hi⟩, ?_⟩)
    rw [hrun]
    exact List.mem_singleton_self frame
  exact previewSymbol_plain hletters (symbol_no_feed hframe) hname

/-! ## Excerpts and addresses -/

theorem backtick_not_mem_rawExcerpt (stack : Str) (configuration : DiscordConfiguration) :
    '\x60' ∉ rawExcerpt stack configuration := by
  have hselected : '\x60' ∉ selectedText stack configuration := backtick_not_mem _
  rcases rawExcerpt_cases stack configuration with ⟨-, h⟩ | ⟨-, -, h⟩ | ⟨-, -, -, h⟩
  · rw [h, List.mem_append, not_or]
    exact ⟨fun hmem => hselected (List.mem_of_mem_take hmem), by decide⟩
  · rw [h]
    exact hselected
  · rw [h, List.mem_append, not_or]
    exact ⟨hselected, by decide⟩

theorem pageUrlText_plain {url : Str} (h : c ∈ pageUrlText url) :
    c ≠ '\x60' ∧ isControl c = false := by
  obtain ⟨d, -, rfl⟩ := List.mem_map.mp h
  split_ifs with hbacktick hcontrol
  · decide
  · decide
  · exact ⟨hbacktick, Bool.eq_false_iff.mpr hcontrol⟩

theorem isCodeSpan_pageUrlField {fields : DiagnosticFields} {field : DiscordEmbedField}
    (h : pageUrlField fields = some field) : IsCodeSpan field.value := by
  unfold pageUrlField at h
  obtain ⟨url, -, h⟩ := Option.bind_eq_some_iff.mp h
  split_ifs at h
  cases h
  refine ⟨_, rfl, fun c hc => ?_⟩
  rcases mem_truncateText hc with hc | rfl
  · exact pageUrlText_plain hc
  · decide

end

/-- Whatever a client sends of a stack or a page stays inside its quotes. -/
theorem message_keeps_quotes {u : Unicode}
    (hletters : ∀ c, u.isAlphanumeric c = true → c ≠ '\x60' ∧ c ≠ '\n') :
    (∀ stack configuration description, stackDescription u stack configuration = .ok description →
      (∃ shown more, description = framesText shown more ∧
        ∀ line ∈ shown, IsQuotedLine line.render) ∨
      ∃ excerpt, description = rawText excerpt ∧ '\x60' ∉ excerpt) ∧
    ∀ fields field, pageUrlField fields = some field → IsCodeSpan field.value := by
  refine ⟨fun stack configuration description h => ?_, fun fields field => isCodeSpan_pageUrlField⟩
  rcases stackDescription_cases h with hframes | ⟨hraw, -⟩
  · exact .inl (quoted_of_framesPreview hletters hframes)
  · exact .inr ⟨_, hraw, backtick_not_mem_rawExcerpt stack configuration⟩

/-- The fields of a report with nothing but a page. -/
def pageFields (url : String) : DiagnosticFields := fun key =>
  if key = "url".toList then some (.string url.toList) else none

theorem sample_stays_quoted :
    ((∃ shown more, "**Stack trace**\n\x60#0\x60 \x60f\x60".toList = framesText shown more ∧
        ∀ line ∈ shown, IsQuotedLine line.render) ∨
      ∃ excerpt, "**Stack trace**\n\x60#0\x60 \x60f\x60".toList = rawText excerpt ∧
        '\x60' ∉ excerpt) ∧
    IsCodeSpan "\x60https://example.org/′ \x60".toList :=
  have hletters (c : Char) (h : Unicode.ascii.isAlphanumeric c = true) :
      c ≠ '\x60' ∧ c ≠ '\n' := by
    constructor <;>
    · rintro rfl
      exact absurd h (by decide)
  ⟨(message_keeps_quotes hletters).1 "#0 0x1 f".toList ⟨20, 3000⟩ _ (by decide +kernel),
    (message_keeps_quotes hletters).2 (pageFields "https://example.org/\x60\u0007?token")
      ⟨"Page URL".toList, _, false⟩ (by decide +kernel)⟩

end LadybirdReports
