import LadybirdReports.Domain.StackTrace
import LadybirdReports.Lib.StrChars

/-!
# The rows of a stack

A stack is read line by line, and each line becomes a row by itself (`frameRow`): the frame it
writes, or else its text. Only the first lines are read, and the first of them is left out if it is
the header. What is known of all lines is added up row by row (`parseStackTrace_eq`), so that the
rows, their number and the mark of a stack that is cut can be read off the text
(`rows_of_parseStackTrace`).
-/

namespace LadybirdReports

open Rust
open scoped List

variable {u : Unicode} {parsed next : ParsedStackTrace} {rows : List StackTraceRow} {text : Str}

/-- The row of a line. -/
def frameRow (line : Str) : StackTraceRow :=
  match parseFrame line with
  | .ok (some row) => row
  | _ => unparsedRow line

theorem frameRow_of_parseFrame {line : Str} {row : Option StackTraceRow}
    (h : parseFrame line = .ok row) : frameRow line = row.getD (unparsedRow line) := by
  unfold frameRow
  rw [h]
  cases row <;> rfl

/-- The lines that become rows. -/
def stackLines (text : Str) : List Str :=
  match (lines text).take maxRenderedLines with
  | [] => []
  | line :: rest => if trim line = nativeStackHeader then rest else line :: rest

/-- The rows join what was read before, one by one. -/
def pushAll (u : Unicode) (rows : List StackTraceRow) (parsed : ParsedStackTrace) :
    Checked ParsedStackTrace := rows.foldlM (ParsedStackTrace.push u) parsed

theorem pushAll_nil : pushAll u [] parsed = .ok parsed := rfl

theorem pushAll_cons (row : StackTraceRow) :
    pushAll u (row :: rows) parsed = parsed.push u row >>= pushAll u rows := rfl

/-- The stack is marked if it has more lines than are read. -/
def ParsedStackTrace.mark (lineCount : ℕ) (parsed : ParsedStackTrace) : ParsedStackTrace :=
  { parsed with truncated := decide (maxRenderedLines < lineCount) }

theorem push_truncated {row : StackTraceRow} (h : parsed.push u row = .ok next) :
    next.truncated = parsed.truncated := by
  unfold ParsedStackTrace.push at h
  obtain ⟨name, -, h⟩ := bind_eq_ok.mp h
  cases h
  rfl

theorem push_rows {row : StackTraceRow} (h : parsed.push u row = .ok next) :
    next.rows = parsed.rows ++ [row] ∧
      next.frameCount = parsed.frameCount + if row.number.isSome then 1 else 0 := by
  unfold ParsedStackTrace.push at h
  obtain ⟨name, -, h⟩ := bind_eq_ok.mp h
  cases h
  exact ⟨rfl, rfl⟩

/-- Reading stops before the line at `maxRenderedLines`. -/
theorem parseLines_of_pos {index : ℕ} {ls : List Str} (hpos : 0 < index)
    (hle : index ≤ maxRenderedLines) (htruncated : parsed.truncated = false) :
    parseLines u index ls parsed = ParsedStackTrace.mark (index + ls.length) <$>
      pushAll u ((ls.take (maxRenderedLines - index)).map frameRow) parsed := by
  induction ls generalizing index parsed with
  | nil =>
    have hmark : ParsedStackTrace.mark index parsed = parsed := by
      unfold ParsedStackTrace.mark
      rw [decide_eq_false (by omega), ← htruncated]
    rw [parseLines, List.take_nil, List.map_nil, pushAll_nil]
    exact congrArg Except.ok hmark.symm
  | cons line ls ih =>
    rw [parseLines]
    by_cases hstop : maxRenderedLines ≤ index
    · rw [if_pos hstop, Nat.sub_eq_zero_of_le hstop, List.take_zero, List.map_nil, pushAll_nil]
      have hmark : ParsedStackTrace.mark (index + (line :: ls).length) parsed =
          { parsed with truncated := true } := by
        unfold ParsedStackTrace.mark
        rw [decide_eq_true (by rw [List.length_cons]; omega)]
      exact congrArg Except.ok hmark.symm
    · obtain ⟨room, hroom⟩ : ∃ room, maxRenderedLines - index = room + 1 :=
        ⟨maxRenderedLines - index - 1, by omega⟩
      obtain ⟨row, hrow⟩ := parseFrame_safe line
      obtain ⟨pushed, hpushed⟩ := push_safe u parsed (frameRow line)
      rw [if_neg hstop, if_neg (by omega), hrow, ok_bind, ← frameRow_of_parseFrame hrow, hpushed,
        ok_bind, ih (by omega) (by omega) ((push_truncated hpushed).trans htruncated), hroom,
        List.take_succ_cons, List.map_cons, pushAll_cons, hpushed, ok_bind,
        show maxRenderedLines - (index + 1) = room by omega,
        show index + 1 + ls.length = index + (line :: ls).length by
          rw [List.length_cons]; omega]

/-- A stack is read row by row. -/
theorem parseStackTrace_eq (u : Unicode) (text : Str) :
    parseStackTrace u text = ParsedStackTrace.mark (lines text).length <$>
      pushAll u ((stackLines text).map frameRow) .empty := by
  unfold parseStackTrace stackLines
  cases hlines : lines text with
  | nil => rfl
  | cons line ls =>
    have htake : (line :: ls).take maxRenderedLines = line :: ls.take (maxRenderedLines - 1) := rfl
    rw [parseLines, if_neg (by decide), htake]
    dsimp only
    by_cases hheader : trim line = nativeStackHeader
    · rw [if_pos ⟨rfl, hheader⟩, if_pos hheader, parseLines_of_pos (by decide) (by decide) rfl,
        Nat.zero_add, Nat.add_comm 1, List.length_cons]
    · obtain ⟨row, hrow⟩ := parseFrame_safe line
      obtain ⟨pushed, hpushed⟩ := push_safe u .empty (frameRow line)
      rw [if_neg (fun h => hheader h.2), if_neg hheader, hrow, ok_bind,
        ← frameRow_of_parseFrame hrow, hpushed, ok_bind,
        parseLines_of_pos (by decide) (by decide) (push_truncated hpushed), Nat.zero_add,
        Nat.add_comm 1, List.length_cons, List.map_cons, pushAll_cons, hpushed, ok_bind]

theorem pushAll_rows (h : pushAll u rows parsed = .ok next) :
    next.rows = parsed.rows ++ rows ∧
      next.frameCount = parsed.frameCount + rows.countP (·.number.isSome) := by
  induction rows generalizing parsed with
  | nil =>
    cases h
    simp
  | cons row rows ih =>
    obtain ⟨pushed, hpushed, h⟩ := bind_eq_ok.mp h
    obtain ⟨hrows, hcount⟩ := ih h
    obtain ⟨hone, hcountOne⟩ := push_rows hpushed
    rw [hrows, hcount, hone, hcountOne, List.append_assoc, List.singleton_append, List.countP_cons]
    exact ⟨rfl, by omega⟩

/-- The rows of a stack are those of its lines, and it is marked when there are too many. -/
theorem rows_of_parseStackTrace (h : parseStackTrace u text = .ok parsed) :
    parsed.rows = (stackLines text).map frameRow ∧
      parsed.frameCount = parsed.rows.countP (·.number.isSome) ∧
      (parsed.truncated = true ↔ maxRenderedLines < (lines text).length) := by
  rw [parseStackTrace_eq] at h
  obtain ⟨pushed, hpushed, rfl⟩ := map_eq_ok.mp h
  obtain ⟨hrows, hcount⟩ := pushAll_rows hpushed
  unfold ParsedStackTrace.mark
  dsimp only
  rw [hrows, hcount]
  simp [ParsedStackTrace.empty]

theorem length_stackLines_le (text : Str) : (stackLines text).length ≤ maxRenderedLines := by
  have htake := List.length_take_le maxRenderedLines (lines text)
  unfold stackLines
  split
  · exact Nat.zero_le _
  · rename_i line rest heq
    rw [heq, List.length_cons] at htake
    split_ifs
    · omega
    · rw [List.length_cons]
      exact htake

/-! ## What a frame takes from its line -/

section

variable {line rest address buildId : Str} {number : ℕ} {row : StackTraceRow}

theorem parseUnsigned_lt {bits : ℕ} (h : parseUnsigned bits text = some number) :
    number < 2 ^ bits := by
  unfold parseUnsigned at h
  dsimp only at h
  split_ifs at h with hempty hlt
  cases h
  exact hlt

theorem sliceFrom?_sublist {s t : Str} {n : ℕ} (h : sliceFrom? s n = some t) : t <+ s := by
  obtain ⟨a, rfl, -⟩ := sliceFrom?_eq_some h
  exact List.sublist_append_right a t

theorem frameNumber?_eq_some (h : frameNumber? line = some (number, rest)) :
    number < 2 ^ 32 ∧ rest <+ line := by
  unfold frameNumber? at h
  obtain ⟨tail, htail, h⟩ := Option.bind_eq_some_iff.mp h
  obtain ⟨digits, -, h⟩ := Option.bind_eq_some_iff.mp h
  obtain ⟨n, hn, h⟩ := Option.bind_eq_some_iff.mp h
  obtain ⟨after, hafter, h⟩ := Option.bind_eq_some_iff.mp h
  cases h
  refine ⟨parseUnsigned_lt hn, ?_⟩
  have htext := (stripPrefix?_sublist htail).trans (trimStart_sublist _)
  exact (trimStart_sublist _).trans ((sliceFrom?_sublist hafter).trans htext)

theorem frameBuildId?_sublist {after : Str} (h : frameBuildId? rest = some (buildId, after)) :
    after <+ rest := by
  unfold frameBuildId? at h
  obtain ⟨first, -, h⟩ := Option.bind_eq_some_iff.mp h
  split_ifs at h
  · obtain ⟨tail, htail, h⟩ := Option.bind_eq_some_iff.mp h
    cases h
    exact (trimStart_sublist _).trans (sliceFrom?_sublist htail)
  · cases h
    exact List.Sublist.refl _

theorem frameSymbol_eq_some (h : frameSymbol number address buildId rest = .ok (some row)) :
    row.number = some number ∧ (row.symbol = "Unavailable".toList ∨ row.symbol <+ rest) := by
  unfold frameSymbol at h
  split_ifs at h with hempty
  · cases h
    exact ⟨rfl, .inl rfl⟩
  · dsimp only at h
    split_ifs at h with hsymbol
    · cases h
    · obtain ⟨relevant, -, h⟩ := bind_eq_ok.mp h
      cases h
      refine ⟨rfl, .inr ?_⟩
      dsimp only
      split
      · rename_i symbol module hsplit
        exact (trim_sublist _).trans (rsplitOnce?_sublist hsplit).1
      · exact trim_sublist _

/-- A frame has a number that fits, and a symbol out of its line if it has one. -/
theorem parseFrame_eq_some (h : parseFrame line = .ok (some row)) :
    ∃ n, row.number = some n ∧ n < 2 ^ 32 ∧
      (row.symbol = "Unavailable".toList ∨ row.symbol <+ line) := by
  unfold parseFrame at h
  split at h
  · cases h
  rename_i number rest hnumber
  obtain ⟨hlt, hrest⟩ := frameNumber?_eq_some hnumber
  refine ⟨number, ?_⟩
  split_ifs at h
  · cases h
    exact ⟨rfl, hlt, .inl rfl⟩
  split at h
  · cases h
  rename_i buildId after hbuildId
  split at h
  · cases h
  obtain ⟨ok, -, h⟩ := bind_eq_ok.mp h
  split_ifs at h
  · split at h
    · cases h
    · rename_i tail htail
      obtain ⟨hrow, hsymbol⟩ := frameSymbol_eq_some h
      refine ⟨hrow, hlt, hsymbol.imp_right fun hsub => ?_⟩
      have hafter := (frameBuildId?_sublist hbuildId).trans hrest
      have htext := (sliceFrom?_sublist htail).trans hafter
      exact hsub.trans ((trimStart_sublist _).trans htext)
  · cases h

theorem number_frameRow_lt (h : (frameRow line).number = some number) : number < 2 ^ 32 := by
  obtain ⟨row, hrow⟩ := parseFrame_safe line
  rw [frameRow_of_parseFrame hrow] at h
  cases row with
  | none => cases h
  | some row =>
    obtain ⟨n, hn, hlt, -⟩ := parseFrame_eq_some hrow
    obtain rfl : n = number := Option.some.inj (hn.symm.trans h)
    exact hlt

/-- The symbol of a row has characters of the line only, or is none that was written. -/
theorem symbol_frameRow (line : Str) :
    (frameRow line).symbol = "Unavailable".toList ∨ (frameRow line).symbol <+ line := by
  obtain ⟨row, hrow⟩ := parseFrame_safe line
  rw [frameRow_of_parseFrame hrow]
  cases row with
  | none => exact .inr (List.nil_sublist line)
  | some row =>
    obtain ⟨n, -, -, hsymbol⟩ := parseFrame_eq_some hrow
    exact hsymbol

theorem stackLines_subset (text : Str) : stackLines text ⊆ lines text := by
  unfold stackLines
  split
  · exact List.nil_subset _
  · rename_i first rest heq
    have htake : first :: rest ⊆ lines text := heq ▸ List.take_subset _ _
    split_ifs
    · exact List.Subset.trans (List.subset_cons_self first rest) htake
    · exact htake

end

end LadybirdReports
