import LadybirdReports.Domain.ReportSignature
import LadybirdReports.Domain.ReportTitle
import Mathlib.Data.List.Induction
import Mathlib.Data.List.Sort

/-!
# The title in the lists and on the page

A report is titled twice. For the lists and for Discord, `report_title_fields` selects the rows that
a title may need, in any order, and cuts the text of each. For its own page, `title_in_style` reads
all rows, in the order of the page, and takes only strings.

1. What the lists read of a key is the text of its one row, cut, in whatever order the rows come
   (`reportTitleFields_column`). Which stack trace they read depends on the order, unless one is
   `stack` (`reportTitleFields_stackTrace`).
2. Two inputs have one title if they differ only in what the title does not show (`SameTitle`,
   `generateReportTitle_congr`): a failure reason without a source location, the end of a page that
   is shortened, what comes after the start of a stack.
3. So the two titles of a report are the same if what is cut off says nothing (`TitledAlike`,
   `listedTitle_eq_titleForReport`). It can say something: a process with a character after the cut
   that no title shows is in the title of the lists only (`cut_process_is_listed`).
-/

namespace LadybirdReports

open Rust

def platformKey : Str := "platform".toList
def architectureKey : Str := "architecture".toList
def urlKey : Str := "url".toList

/-- A value of this kind is stored as this JSON. -/
def FieldKind.stores : FieldKind → JsonValue → Bool
  | .number, .number _ | .boolean, .boolean _ => true
  | .number, _ | .boolean, _ => false
  | _, .string _ => true
  | _, _ => false

theorem stores_stored (definitions : FieldDefinitions) (field : DiagnosticField) :
    (field.stored definitions).kind.stores (field.stored definitions).value = true := by
  unfold DiagnosticField.stored
  cases field.value <;> rfl

/-- A report and its rows, as far as a title reads them. Its id and a key find at most one row. -/
structure StoredReport where
  kind : ReportKind
  clientVersion : Str
  fields : List StoredField
  keys : (fields.map (·.key)).Nodup
  typed : ∀ row ∈ fields, row.kind.stores row.value = true

/-! ## The lists -/

/-- What `report_title_fields` reads of a report. -/
structure TitleFields where
  failureReason : Option Str
  stackTrace : Option Str
  process : Option Str
  platform : Option Str
  architecture : Option Str
  signal : Option Str
  url : Option Str
  deriving DecidableEq, Repr

def TitleFields.default : TitleFields := ⟨none, none, none, none, none, none, none⟩

/-- What `TitleFields::title` makes a title of. -/
def TitleFields.input (fields : TitleFields) (kind : ReportKind) (clientVersion : Str) :
    ReportTitleInput where
  style := .report
  kind := kind
  url := fields.url
  clientVersion := clientVersion
  failureReason := fields.failureReason
  stackTrace := fields.stackTrace
  process := fields.process
  platform := fields.platform
  signal := fields.signal

def TitleFields.title (u : Unicode) (fields : TitleFields) (kind : ReportKind)
    (clientVersion : Str) : Checked Str :=
  generateReportTitle u (fields.input kind clientVersion)

/-- The rows that `report_title_fields` selects. -/
def StoredField.isTitleField (definitions : FieldDefinitions) (row : StoredField) : Bool :=
  [platformKey, architectureKey, processKey, signalKey, urlKey, stackKey,
      failureReasonKey].contains row.key ||
    row.kind = .stackTrace || (definitions row.key).any (·.kind = .stackTrace)

section

variable (numberText : JsonNumber → Str) (definitions : FieldDefinitions)

/-- `text_value`. -/
def StoredField.titleText (row : StoredField) : Str :=
  if row.key = failureReasonKey then (row.value.text numberText).take 4096
  else if row.isTrace definitions then (row.value.text numberText).take reportTitleStackCharacters
  else (row.value.text numberText).take 128

/-- One round of the loop over the rows. -/
def TitleFields.add (fields : TitleFields) (row : StoredField) : TitleFields :=
  let text := some (row.titleText numberText definitions)
  if row.key = failureReasonKey then { fields with failureReason := text }
  else if row.key = platformKey then { fields with platform := text }
  else if row.key = architectureKey then { fields with architecture := text }
  else if row.key = processKey then { fields with process := text }
  else if row.key = signalKey then { fields with signal := text }
  else if row.key = urlKey then { fields with url := text }
  else if row.isTrace definitions && (fields.stackTrace.isNone || row.key = stackKey) then
    { fields with stackTrace := text }
  else fields

/-- `report_title_fields` for one report, whose rows come in this order. -/
def reportTitleFields (rows : List StoredField) : TitleFields :=
  (rows.filter (·.isTitleField definitions)).foldl (TitleFields.add numberText definitions)
    .default

/-- The title that `populate_report_titles` and `generated_report_title` make of these rows. -/
def listedTitle (u : Unicode) (report : StoredReport) (rows : List StoredField) : Checked Str :=
  (reportTitleFields numberText definitions rows).title u report.kind report.clientVersion

end

/-! ## The page -/

/-- `ORDER BY field_definitions.position NULLS LAST, report_fields.key`, where `collate` orders keys
and a definition only counts if it accepts the row. -/
def pageBefore (collate : Str → Str → Bool) (definitions : FieldDefinitions) (a b : StoredField) :
    Bool :=
  let position (row : StoredField) : Option ℤ :=
    ((definitions row.key).filter (·.kind.accepts row.kind)).map (·.position)
  match position a, position b with
  | some m, some n => m < n || (m = n && collate a.key b.key)
  | some _, none => true
  | none, some _ => false
  | none, none => collate a.key b.key

/-- `report_fields`. -/
def reportFields (collate : Str → Str → Bool) (definitions : FieldDefinitions)
    (rows : List StoredField) : List StoredField :=
  rows.insertionSort fun a b => pageBefore collate definitions a b

/-- The stack trace of a report: `stack` before all others, and of these the first. -/
def stackTraceForReport (definitions : FieldDefinitions) (fields : List StoredField) : Option Str :=
  (Rows.first? (fun a b => a.1.key = stackKey || b.1.key ≠ stackKey)
    ((fields.filter (·.isStackTrace definitions)).filterMap fun field =>
      field.value.asStr.map fun text => (field, text))).map Prod.snd

/-- What `title_in_style` makes a title of, where `collate` orders keys. -/
def StoredReport.input (collate : Str → Str → Bool) (definitions : FieldDefinitions)
    (report : StoredReport) (style : TitleStyle) : ReportTitleInput :=
  let fields := reportFields collate definitions report.fields
  { style := style
    kind := report.kind
    url := fieldString fields urlKey
    clientVersion := report.clientVersion
    failureReason := fieldString fields failureReasonKey
    stackTrace := stackTraceForReport definitions fields
    process := fieldString fields processKey
    platform := fieldString fields platformKey
    signal := fieldString fields signalKey }

def titleInStyle (u : Unicode) (collate : Str → Str → Bool) (definitions : FieldDefinitions)
    (report : StoredReport) (style : TitleStyle) : Checked Str :=
  generateReportTitle u (report.input collate definitions style)

/-- The title above the page of a report. -/
def titleForReport (u : Unicode) (collate : Str → Str → Bool) (definitions : FieldDefinitions)
    (report : StoredReport) : Checked Str :=
  titleInStyle u collate definitions report .report

/-! ## What is read of a key -/

section

variable {numberText : JsonNumber → Str} {definitions : FieldDefinitions} {rows : List StoredField}

theorem fieldOf_perm {rows' : List StoredField} (hkeys : (rows.map (·.key)).Nodup)
    (hperm : rows'.Perm rows) (key : Str) : fieldOf rows' key = fieldOf rows key := by
  have hkeys' : (rows'.map (·.key)).Nodup := (hperm.map _).nodup_iff.mpr hkeys
  refine Option.ext fun row => ?_
  unfold fieldOf
  rw [Rows.find?_key_eq_some_iff hkeys', Rows.find?_key_eq_some_iff hkeys, hperm.mem_iff]

/-- The columns that a title reads, and the key that sets each of them. -/
def titleColumns : List ((TitleFields → Option Str) × Str) :=
  [(TitleFields.failureReason, failureReasonKey), (TitleFields.process, processKey),
    (TitleFields.platform, platformKey), (TitleFields.signal, signalKey), (TitleFields.url, urlKey)]

variable {column : (TitleFields → Option Str) × Str}

theorem column_add (hcolumn : column ∈ titleColumns) (fields : TitleFields) (row : StoredField) :
    column.1 (fields.add numberText definitions row) =
      if row.key = column.2 then some (row.titleText numberText definitions)
      else column.1 fields := by
  simp only [titleColumns, List.mem_cons, List.not_mem_nil, or_false] at hcolumn
  unfold TitleFields.add
  by_cases hkey : row.key = column.2
  · rw [if_pos hkey, hkey]
    rcases hcolumn with rfl | rfl | rfl | rfl | rfl <;> rfl
  · rw [if_neg hkey]
    rcases hcolumn with rfl | rfl | rfl | rfl | rfl <;> split_ifs <;> first | rfl | contradiction

/-- A column holds the text of the row with its key. -/
theorem foldl_add_column (hcolumn : column ∈ titleColumns) (hkeys : (rows.map (·.key)).Nodup)
    (fields : TitleFields) :
    column.1 (rows.foldl (TitleFields.add numberText definitions) fields) =
      ((fieldOf rows column.2).map (·.titleText numberText definitions)).or (column.1 fields) := by
  induction rows generalizing fields with
  | nil => rfl
  | cons row rows ih =>
    rw [List.map_cons, List.nodup_cons] at hkeys
    rw [List.foldl_cons, ih hkeys.2, column_add hcolumn]
    unfold fieldOf
    by_cases hkey : row.key = column.2
    · have hnone : rows.find? (·.key = column.2) = none := by
        refine List.find?_eq_none.mpr fun other hother => ?_
        have hne : other.key ≠ column.2 := fun h =>
          hkeys.1 (List.mem_map.mpr ⟨other, hother, h.trans hkey.symm⟩)
        simpa using hne
      rw [hnone, if_pos hkey, List.find?_cons_of_pos (by simpa using hkey)]
      rfl
    · rw [if_neg hkey, List.find?_cons_of_neg (by simpa using hkey)]

/-- What the lists read of a key. -/
def listedText (numberText : JsonNumber → Str) (definitions : FieldDefinitions)
    (rows : List StoredField) (key : Str) : Option Str :=
  (fieldOf rows key).map (·.titleText numberText definitions)

/-- In whatever order the rows come, a column holds what is read of its key. -/
theorem reportTitleFields_column {rows' : List StoredField} (hcolumn : column ∈ titleColumns)
    (hkeys : (rows.map (·.key)).Nodup) (hperm : rows'.Perm rows) :
    column.1 (reportTitleFields numberText definitions rows') =
      listedText numberText definitions rows column.2 := by
  have hkeys' : (rows'.map (·.key)).Nodup := (hperm.map _).nodup_iff.mpr hkeys
  have hselected : ∀ row : StoredField, row.key = column.2 →
      row.isTitleField definitions = true := by
    intro row hkey
    unfold StoredField.isTitleField
    simp only [titleColumns, List.mem_cons, List.not_mem_nil, or_false] at hcolumn
    rcases hcolumn with rfl | rfl | rfl | rfl | rfl <;> simp [hkey]
  have hdefault : column.1 .default = none := by
    simp only [titleColumns, List.mem_cons, List.not_mem_nil, or_false] at hcolumn
    rcases hcolumn with rfl | rfl | rfl | rfl | rfl <;> rfl
  have hfilter : fieldOf (rows'.filter (·.isTitleField definitions)) column.2 =
      fieldOf rows' column.2 := by
    unfold fieldOf
    rw [List.find?_filter]
    congr 1
    funext row
    by_cases hkey : row.key = column.2
    · simp [hkey, hselected row hkey]
    · simp [hkey]
  unfold reportTitleFields listedText
  rw [foldl_add_column hcolumn (hkeys'.sublist (List.filter_sublist.map _)), hdefault, hfilter,
    fieldOf_perm hkeys hperm, Option.or_none]

end

/-! ## Which stack trace is read -/

/-- What is taken of these rows: the text of one that may be, and of `stack` if that may be. -/
def TakesStack (may : StoredField → Bool) (text : StoredField → Str) (rows : List StoredField)
    (taken : Option Str) : Prop :=
  (taken = none ∧ ∀ row ∈ rows, ¬ may row = true) ∨
    ∃ row ∈ rows, may row = true ∧ taken = some (text row) ∧
      ((∃ stack ∈ rows, may stack = true ∧ stack.key = stackKey) → row.key = stackKey)

/-- The rows whose text the lists take for a stack trace: those that set no other column. -/
def StoredField.isListedTrace (definitions : FieldDefinitions) (row : StoredField) : Bool :=
  row.isTrace definitions && !([failureReasonKey, platformKey, architectureKey, processKey,
    signalKey, urlKey].contains row.key)

section

variable {numberText : JsonNumber → Str} {definitions : FieldDefinitions}
  {rows rows' : List StoredField} {may : StoredField → Bool} {text : StoredField → Str}
  {taken : Option Str}

theorem TakesStack.congr_of_mem (h : TakesStack may text rows' taken)
    (hmem : ∀ row, may row = true → (row ∈ rows' ↔ row ∈ rows)) :
    TakesStack may text rows taken := by
  rcases h with ⟨hnone, hmay⟩ | ⟨row, hrow, hmay, htaken, hstack⟩
  · exact .inl ⟨hnone, fun row hrow h => hmay row ((hmem row h).mpr hrow) h⟩
  · refine .inr ⟨row, (hmem row hmay).mp hrow, hmay, htaken, fun ⟨s, hs, hmays, hkey⟩ => ?_⟩
    exact hstack ⟨s, (hmem s hmays).mpr hs, hmays, hkey⟩

theorem add_stackTrace (fields : TitleFields) (row : StoredField) :
    (fields.add numberText definitions row).stackTrace =
      if row.isListedTrace definitions && (fields.stackTrace.isNone || row.key = stackKey) then
        some (row.titleText numberText definitions)
      else fields.stackTrace := by
  unfold TitleFields.add StoredField.isListedTrace
  by_cases hnamed : row.key ∈
    [failureReasonKey, platformKey, architectureKey, processKey, signalKey, urlKey]
  · rw [List.contains_iff_mem.mpr hnamed]
    simp only [List.mem_cons, List.not_mem_nil, or_false] at hnamed
    rcases hnamed with h | h | h | h | h | h <;> rw [h] <;> simp <;> rfl
  · simp only [List.mem_cons, List.not_mem_nil, or_false, not_or] at hnamed
    simp [hnamed]
    split_ifs <;> rfl

theorem foldl_add_stackTrace : TakesStack (·.isListedTrace definitions)
    (·.titleText numberText definitions) rows
    (rows.foldl (TitleFields.add numberText definitions) .default).stackTrace := by
  induction rows using List.reverseRec with
  | nil => exact .inl ⟨rfl, fun _ h => (by cases h)⟩
  | append_singleton rows row ih =>
    rw [List.foldl_append, List.foldl_cons, List.foldl_nil, add_stackTrace]
    generalize rows.foldl (TitleFields.add numberText definitions) .default = fields at ih ⊢
    have hlast : row ∈ rows ++ [row] := List.mem_append_right _ List.mem_cons_self
    by_cases hmay : row.isListedTrace definitions = true
    · rw [hmay, Bool.true_and]
      rcases ih with ⟨hnone, hall⟩ | ⟨first, hfirst, hmayFirst, htaken, hstack⟩
      · refine .inr ⟨row, hlast, hmay, by rw [hnone]; rfl, fun ⟨s, hs, hmays, hkey⟩ => ?_⟩
        rcases List.mem_append.mp hs with hs | hs
        · exact absurd hmays (hall s hs)
        · exact List.mem_singleton.mp hs ▸ hkey
      · by_cases hkey : row.key = stackKey
        · exact .inr ⟨row, hlast, hmay, by simp [hkey], fun _ => hkey⟩
        · refine .inr ⟨first, List.mem_append_left _ hfirst, hmayFirst, by simp [hkey, htaken],
            fun ⟨s, hs, hmays, hkeys⟩ => ?_⟩
          rcases List.mem_append.mp hs with hs | hs
          · exact hstack ⟨s, hs, hmays, hkeys⟩
          · exact absurd (List.mem_singleton.mp hs ▸ hkeys) hkey
    · rw [Bool.not_eq_true] at hmay
      rw [hmay, Bool.false_and, if_neg Bool.false_ne_true]
      refine ih.congr_of_mem fun s hmays => ?_
      rw [List.mem_append, List.mem_singleton]
      refine ⟨.inl, fun hs => hs.resolve_right fun h => ?_⟩
      exact absurd hmays (by rw [h, hmay]; decide)

theorem isTitleField_of_isTrace {row : StoredField} (h : row.isTrace definitions = true) :
    row.isTitleField definitions = true := by
  unfold StoredField.isTrace at h
  unfold StoredField.isTitleField
  simp only [Bool.or_eq_true, Bool.and_eq_true, decide_eq_true_eq] at h ⊢
  rcases h with h | ⟨-, h | h⟩
  · exact .inl (.inr h)
  · exact .inl (.inl (by rw [h]; decide))
  · exact .inr h

/-- What the lists take for the stack trace, in whatever order the rows come. -/
theorem reportTitleFields_stackTrace (hperm : rows'.Perm rows) :
    TakesStack (·.isListedTrace definitions) (·.titleText numberText definitions) rows
      (reportTitleFields numberText definitions rows').stackTrace := by
  refine foldl_add_stackTrace.congr_of_mem fun row hmay => ?_
  rw [List.mem_filter, hperm.mem_iff, and_iff_left_iff_imp]
  exact fun _ => isTitleField_of_isTrace (Bool.and_eq_true_iff.mp hmay).1

theorem isTrace_string {row : StoredField} (htrace : row.isTrace definitions = true)
    (htyped : row.kind.stores row.value = true) : ∃ text, row.value = .string text := by
  unfold StoredField.isTrace at htrace
  cases hkind : row.kind <;> rw [hkind] at htrace htyped <;> cases hvalue : row.value <;>
    rw [hvalue] at htyped <;> first | exact ⟨_, rfl⟩ | simp [FieldKind.stores] at htyped htrace

/-- What the page takes for the stack trace, in whatever order it has the rows. -/
theorem stackTraceForReport_takes (htyped : ∀ row ∈ rows, row.kind.stores row.value = true)
    (hperm : rows'.Perm rows) :
    TakesStack (·.isTrace definitions) (fun row => row.value.asStr.getD []) rows
      (stackTraceForReport definitions rows') := by
  have hmem : ∀ row text, (row, text) ∈ (rows'.filter (·.isStackTrace definitions)).filterMap
      (fun field => field.value.asStr.map fun text => (field, text)) ↔
      row ∈ rows ∧ row.isTrace definitions = true ∧ row.value.asStr = some text := by
    intro row text
    simp only [List.mem_filterMap, List.mem_filter, hperm.mem_iff, isStackTrace_eq_isTrace,
      Option.map_eq_some_iff, Prod.mk.injEq]
    constructor
    · rintro ⟨field, ⟨hfield, htrace⟩, _, htext, rfl, rfl⟩
      exact ⟨hfield, htrace, htext⟩
    · rintro ⟨hrow, htrace, htext⟩
      exact ⟨row, ⟨hrow, htrace⟩, text, htext, rfl, rfl⟩
  have htext : ∀ row ∈ rows, row.isTrace definitions = true →
      ∃ text, row.value.asStr = some text := by
    intro row hrow htrace
    obtain ⟨text, hvalue⟩ := isTrace_string htrace (htyped row hrow)
    exact ⟨text, by rw [hvalue]; rfl⟩
  unfold stackTraceForReport
  generalize (rows'.filter (·.isStackTrace definitions)).filterMap
    (fun field => field.value.asStr.map fun text => (field, text)) = traces at hmem
  cases hfirst : Rows.first? (fun a b => a.1.key = stackKey || b.1.key ≠ stackKey) traces with
  | none =>
    rw [Rows.first?_eq_none_iff] at hfirst
    rotate_left
    · intro a b
      by_cases hb : b.1.key = stackKey <;> simp [hb]
    · intro a b c hab hbc
      simp only [Bool.or_eq_true, decide_eq_true_eq] at hab hbc ⊢
      tauto
    refine .inl ⟨rfl, fun row hrow htrace => ?_⟩
    obtain ⟨text, h⟩ := htext row hrow htrace
    have := (hmem row text).mpr ⟨hrow, htrace, h⟩
    rw [hfirst] at this
    cases this
  | some first =>
    obtain ⟨hfirst, hbefore⟩ := Rows.first?_eq_some hfirst
    obtain ⟨hrow, htrace, htext'⟩ := (hmem first.1 first.2).mp hfirst
    refine .inr ⟨first.1, hrow, htrace, by simp [htext'], fun ⟨s, hs, htraces, hkey⟩ => ?_⟩
    obtain ⟨text, h⟩ := htext s hs htraces
    have := hbefore _ ((hmem s text).mpr ⟨hs, htraces, h⟩)
    simpa [hkey] using this

end

/-! ## What a title shows of its input -/

/-- The function that names the report. -/
def ReportTitleInput.function? (u : Unicode) (input : ReportTitleInput) : Checked (Option Str) :=
  match input.stackTrace with
  | none => return none
  | some stack => do
    firstFunctionName u (maxTitleCharacters - byteLen (titleKind input.kind input.style) - 2)
      (← relevantSymbols u stack)

/-- A text that a title may show. -/
def isContext (u : Unicode) (value : Str) : Bool :=
  trim value ≠ [] && (trim value).all fun c => u.isAlphanumeric c || " ._-+()".toList.contains c

/-- A title shows the same of these texts: nothing of either, or the same forty characters. -/
def SameContext (u : Unicode) (a b : Option Str) : Prop :=
  match a.filter (isContext u), b.filter (isContext u) with
  | none, none => True
  | some a, some b => (trim a).take 40 = (trim b).take 40
  | _, _ => False

/-- The name of a signal, without the number after it. -/
def signalHead (signal : Str) : Str := splitHead (fun c => c == '(' || c == ' ') (trim signal)

/-- The address in a text, without its query or fragment. -/
def address (url : Str) : Str := trim (splitHead (fun c => c == '?' || c == '#') url)

def isWebAddress (url : Str) : Bool :=
  startsWith (address url) "https://".toList || startsWith (address url) "http://".toList

/-- A title shows the same page for these texts: none for either, or the same address, or the same
start of addresses that are both too long. -/
def SamePage (room : ℕ) (a b : Option Str) : Prop :=
  match a.filter isWebAddress, b.filter isWebAddress with
  | none, none => True
  | some a, some b => address a = address b ∨ (room < (address a).length ∧
      room < (address b).length ∧ (address a).take (room - 1) = (address b).take (room - 1))
  | _, _ => False

/-- Neither text names a source location, unless both are the same. -/
def SameFailure (a b : Option Str) : Prop :=
  a = b ∨ (a.bind sourceLocationFromFailure = none ∧ b.bind sourceLocationFromFailure = none)

/-- What a title shows of two inputs is the same, part by part: a part only counts where no part
before it names the report. -/
structure SameTitle (u : Unicode) (a b : ReportTitleInput) : Prop where
  style : a.style = b.style
  kind : a.kind = b.kind
  clientVersion : a.clientVersion = b.clientVersion
  failure : b.kind = .crash → SameFailure a.failureReason b.failureReason
  page : b.kind = .webCompat →
    SamePage (maxTitleCharacters - (titleKind b.kind b.style).length - 2) a.url b.url
  stack : b.location? = none → b.page? = none →
    a.stackTrace.map (·.take reportTitleStackCharacters) =
      b.stackTrace.map (·.take reportTitleStackCharacters)
  context : b.location? = none → b.page? = none → b.function? u = .ok none →
    SameContext u a.process b.process ∧ SameContext u a.platform b.platform ∧
      SameContext u (a.signal.map signalHead) (b.signal.map signalHead)

section

variable {u : Unicode} {a b : ReportTitleInput}

theorem safeContext_eq (value : Option Str) (maximumCharacters : ℕ) :
    value.bind (safeContext u · maximumCharacters) =
      (value.filter (isContext u)).map fun value => (trim value).take maximumCharacters := by
  cases value with
  | none => rfl
  | some value =>
    rw [Option.bind_some, Option.filter_some]
    unfold safeContext isContext
    dsimp only
    generalize ((trim value).all fun c => u.isAlphanumeric c || " ._-+()".toList.contains c) = plain
    by_cases hnil : trim value = []
    · simp [hnil]
    · cases plain <;> simp [hnil]

theorem SameContext.bind_eq {a b : Option Str} (h : SameContext u a b) :
    a.bind (safeContext u · 40) = b.bind (safeContext u · 40) := by
  rw [safeContext_eq, safeContext_eq]
  unfold SameContext at h
  generalize a.filter (isContext u) = a at h ⊢
  generalize b.filter (isContext u) = b at h ⊢
  cases a with
  | none =>
    cases b with
    | none => rfl
    | some b => exact h.elim
  | some a =>
    cases b with
    | none => exact h.elim
    | some b => exact congrArg some h

theorem pageUrl_eq (url : Option Str) (maximumCharacters : ℕ) :
    url.bind (pageUrl · maximumCharacters) = (url.filter isWebAddress).map fun url =>
      let shown := (address url).map fun c =>
        if c = '\x60' then '′' else if isControl c then ' ' else c
      if shown.length ≤ maximumCharacters then shown
      else shown.take (maximumCharacters - 1) ++ ['…'] := by
  cases url with
  | none => rfl
  | some url =>
    rw [Option.bind_some, Option.filter_some]
    unfold pageUrl isWebAddress address
    dsimp only
    split_ifs <;> simp_all

theorem SamePage.bind_eq {room : ℕ} {a b : Option Str} (h : SamePage room a b) :
    a.bind (pageUrl · room) = b.bind (pageUrl · room) := by
  rw [pageUrl_eq, pageUrl_eq]
  unfold SamePage at h
  generalize a.filter isWebAddress = a at h ⊢
  generalize b.filter isWebAddress = b at h ⊢
  cases a with
  | none =>
    cases b with
    | none => rfl
    | some b => exact h.elim
  | some a =>
    cases b with
    | none => exact h.elim
    | some b =>
      rw [Option.map_some, Option.map_some, Option.some.injEq]
      dsimp only at h ⊢
      rcases h with h | ⟨ha, hb, hstart⟩
      · rw [h]
      · rw [List.length_map, List.length_map, if_neg (by omega), if_neg (by omega),
          ← List.map_take, ← List.map_take, hstart]

theorem relevantSymbols_congr {a b : Str}
    (h : a.take reportTitleStackCharacters = b.take reportTitleStackCharacters) :
    relevantSymbols u a = relevantSymbols u b := by
  unfold relevantSymbols
  rw [h]

theorem function?_congr (hstyle : a.style = b.style) (hkind : a.kind = b.kind)
    (hstack : a.stackTrace.map (·.take reportTitleStackCharacters) =
      b.stackTrace.map (·.take reportTitleStackCharacters)) : a.function? u = b.function? u := by
  unfold ReportTitleInput.function?
  rw [hstyle, hkind]
  generalize a.stackTrace = s at hstack ⊢
  generalize b.stackTrace = t at hstack ⊢
  cases s with
  | none =>
    cases t with
    | none => rfl
    | some t => cases hstack
  | some s =>
    cases t with
    | none => cases hstack
    | some t =>
      dsimp only
      rw [relevantSymbols_congr (Option.some.inj hstack)]

/-- A title is the source location, the page, the function or the context, whichever is first. -/
theorem generateReportTitle_eq (u : Unicode) (input : ReportTitleInput)
    (hlocation : input.location? = none) : generateReportTitle u input =
      match input.page? with
      | some url => return titleKind input.kind input.style ++ ": ".toList ++ url
      | none => do
        match ← input.function? u with
        | some name => return titleKind input.kind input.style ++ ": ".toList ++ name
        | none => return contextTitle u input := by
  unfold generateReportTitle ReportTitleInput.function?
  rw [hlocation]
  dsimp only
  cases input.page? with
  | some url => rfl
  | none =>
    cases input.stackTrace with
    | none => rfl
    | some stack =>
      exact (bind_assoc _ _ _).symm

theorem contextTitle_congr (hstyle : a.style = b.style) (hkind : a.kind = b.kind)
    (hversion : a.clientVersion = b.clientVersion) (hprocess : SameContext u a.process b.process)
    (hplatform : SameContext u a.platform b.platform)
    (hsignal : SameContext u (a.signal.map signalHead) (b.signal.map signalHead)) :
    contextTitle u a = contextTitle u b := by
  have hname : a.signal.bind (signalName u) = b.signal.bind (signalName u) := by
    have h := hsignal.bind_eq
    rwa [Option.bind_map, Option.bind_map] at h
  have hcontexts : [a.process, a.platform].filterMap (·.bind (safeContext u · 40)) =
      [b.process, b.platform].filterMap (·.bind (safeContext u · 40)) := by
    simp only [List.filterMap_cons, hprocess.bind_eq, hplatform.bind_eq]
  unfold contextTitle
  rw [hcontexts, hname, hversion, hkind, hstyle]

theorem SameTitle.location?_eq (h : SameTitle u a b) :
    a.location? = b.location? ∧ (b.location? ≠ none → a.failureReason = b.failureReason) := by
  unfold ReportTitleInput.location?
  rw [h.kind]
  by_cases hcrash : b.kind = .crash
  · rw [if_pos hcrash, if_pos hcrash]
    rcases h.failure hcrash with heq | ⟨ha, hb⟩
    · exact ⟨by rw [heq], fun _ => heq⟩
    · exact ⟨ha.trans hb.symm, fun hne => absurd hb hne⟩
  · rw [if_neg hcrash, if_neg hcrash]
    exact ⟨rfl, fun hne => absurd rfl hne⟩

theorem SameTitle.page?_eq (h : SameTitle u a b) : a.page? = b.page? := by
  unfold ReportTitleInput.page?
  rw [h.kind, h.style]
  by_cases hpage : b.kind = .webCompat
  · rw [if_pos hpage, if_pos hpage]
    exact (h.page hpage).bind_eq
  · rw [if_neg hpage, if_neg hpage]

/-- Two inputs of which a title shows the same have the same title. -/
theorem generateReportTitle_congr (h : SameTitle u a b) :
    generateReportTitle u a = generateReportTitle u b := by
  obtain ⟨hlocation, hfailure⟩ := h.location?_eq
  cases hb : b.location? with
  | some location =>
    unfold generateReportTitle
    rw [hlocation, hb, hfailure (by rw [hb]; exact Option.some_ne_none _), h.style, h.kind]
  | none =>
    rw [generateReportTitle_eq u a (hlocation.trans hb), generateReportTitle_eq u b hb,
      h.page?_eq, h.style, h.kind]
    cases hpage : b.page? with
    | some url => rfl
    | none =>
      dsimp only
      have hfunction := function?_congr (u := u) h.style h.kind (h.stack hb hpage)
      rw [hfunction]
      cases hname : b.function? u with
      | error e => rfl
      | ok name =>
        cases name with
        | some name => rfl
        | none =>
          obtain ⟨hprocess, hplatform, hsignal⟩ := h.context hb hpage hname
          rw [contextTitle_congr h.style h.kind h.clientVersion hprocess hplatform hsignal]

end

/-! ## When the two titles are the same -/

/-- The lists and the page take stack traces with the same start: there is a `stack`, or all start
alike and one of them sets no other column. -/
def StacksAlike (definitions : FieldDefinitions) (rows : List StoredField) : Prop :=
  (∃ row ∈ rows, row.isTrace definitions = true ∧ row.key = stackKey) ∨
    ((∀ row ∈ rows, ∀ other ∈ rows, row.isTrace definitions = true →
      other.isTrace definitions = true →
      row.value.asStr.map (·.take reportTitleStackCharacters) =
        other.value.asStr.map (·.take reportTitleStackCharacters)) ∧
      ∀ row ∈ rows, row.isTrace definitions = true →
        ∃ other ∈ rows, other.isListedTrace definitions = true)

/-- What the lists do not read of a report would not show in its title: of each part that may name
it, where no part before it does. -/
structure StoredReport.TitledAlike (u : Unicode) (numberText : JsonNumber → Str)
    (collate : Str → Str → Bool) (definitions : FieldDefinitions) (report : StoredReport) :
    Prop where
  failure : report.kind = .crash →
    SameFailure (listedText numberText definitions report.fields failureReasonKey)
      (fieldString report.fields failureReasonKey)
  page : report.kind = .webCompat →
    SamePage 101 (listedText numberText definitions report.fields urlKey)
      (fieldString report.fields urlKey)
  stack : (report.input collate definitions .report).location? = none →
    (report.input collate definitions .report).page? = none →
    StacksAlike definitions report.fields
  context : (report.input collate definitions .report).location? = none →
    (report.input collate definitions .report).page? = none →
    (report.input collate definitions .report).function? u = .ok none →
    SameContext u (listedText numberText definitions report.fields processKey)
        (fieldString report.fields processKey) ∧
      SameContext u (listedText numberText definitions report.fields platformKey)
        (fieldString report.fields platformKey) ∧
      SameContext u ((listedText numberText definitions report.fields signalKey).map signalHead)
        ((fieldString report.fields signalKey).map signalHead)

section

variable {u : Unicode} {numberText : JsonNumber → Str} {collate : Str → Str → Bool}
  {definitions : FieldDefinitions} {report : StoredReport} {rows : List StoredField}

theorem reportFields_perm : (reportFields collate definitions rows).Perm rows :=
  List.perm_insertionSort _ _

theorem fieldString_reportFields (key : Str) :
    fieldString (reportFields collate definitions report.fields) key =
      fieldString report.fields key := by
  unfold fieldString
  rw [fieldOf_perm report.keys reportFields_perm]

theorem titleText_of_isListedTrace {row : StoredField} {text : Str}
    (h : row.isListedTrace definitions = true) (hvalue : row.value = .string text) :
    row.titleText numberText definitions = text.take reportTitleStackCharacters := by
  unfold StoredField.isListedTrace at h
  obtain ⟨htrace, hkey⟩ := Bool.and_eq_true_iff.mp h
  have hne : row.key ≠ failureReasonKey := fun heq => by simp [heq] at hkey
  unfold StoredField.titleText
  rw [if_neg hne, if_pos htrace, hvalue]
  rfl

/-- If the stacks are alike, what is taken for the stack trace starts alike. -/
theorem StacksAlike.take_eq (h : StacksAlike definitions report.fields) {listed full : Option Str}
    (hlisted : TakesStack (·.isListedTrace definitions) (·.titleText numberText definitions)
      report.fields listed)
    (hfull : TakesStack (·.isTrace definitions) (fun row => row.value.asStr.getD [])
      report.fields full) :
    listed.map (·.take reportTitleStackCharacters) =
      full.map (·.take reportTitleStackCharacters) := by
  have htrace : ∀ row : StoredField, row.isListedTrace definitions = true →
      row.isTrace definitions = true := fun row hrow => (Bool.and_eq_true_iff.mp hrow).1
  have hstack : ∀ row : StoredField, row.isTrace definitions = true → row.key = stackKey →
      row.isListedTrace definitions = true := by
    intro row hrow hkey
    unfold StoredField.isListedTrace
    rw [hrow, hkey]
    rfl
  have hstart : ∀ row ∈ report.fields, ∀ other ∈ report.fields,
      row.isListedTrace definitions = true → other.isTrace definitions = true →
      row.value.asStr.map (·.take reportTitleStackCharacters) =
        other.value.asStr.map (·.take reportTitleStackCharacters) →
      (row.titleText numberText definitions).take reportTitleStackCharacters =
        (other.value.asStr.getD []).take reportTitleStackCharacters := by
    intro row hrow other hother hmay hmay' hsame
    obtain ⟨text, hvalue⟩ := isTrace_string (htrace row hmay) (report.typed row hrow)
    obtain ⟨text', hvalue'⟩ := isTrace_string hmay' (report.typed other hother)
    rw [hvalue, hvalue'] at hsame
    rw [titleText_of_isListedTrace hmay hvalue, hvalue', List.take_take, min_self]
    exact Option.some.inj hsame
  rcases h with ⟨s, hs, hmays, hkey⟩ | ⟨halike, hone⟩
  · rcases hlisted with ⟨-, hnone⟩ | ⟨row, hrow, hmay, rfl, hfirst⟩
    · exact absurd (hstack s hmays hkey) (hnone s hs)
    rcases hfull with ⟨-, hnone⟩ | ⟨other, hother, hmay', rfl, hfirst'⟩
    · exact absurd hmays (hnone s hs)
    have hsame : row = other := Rows.eq_of_key report.keys hrow hother
      ((hfirst ⟨s, hs, hstack s hmays hkey, hkey⟩).trans (hfirst' ⟨s, hs, hmays, hkey⟩).symm)
    exact congrArg some (hstart row hrow other hother hmay hmay' (by rw [hsame]))
  · rcases hfull with ⟨rfl, hnone⟩ | ⟨other, hother, hmay', rfl, -⟩
    · rcases hlisted with ⟨rfl, -⟩ | ⟨row, hrow, hmay, -⟩
      · rfl
      · exact absurd (htrace row hmay) (hnone row hrow)
    · obtain ⟨s, hs, hmays⟩ := hone other hother hmay'
      rcases hlisted with ⟨-, hnone⟩ | ⟨row, hrow, hmay, rfl, -⟩
      · exact absurd hmays (hnone s hs)
      · exact congrArg some (hstart row hrow other hother hmay hmay'
          (halike row hrow other hother (htrace row hmay) hmay'))

/-- Of a report that is titled alike the lists read, from rows in any order, what the page shows. -/
theorem StoredReport.TitledAlike.sameTitle
    (h : report.TitledAlike u numberText collate definitions) (hperm : rows.Perm report.fields) :
    SameTitle u ((reportTitleFields numberText definitions rows).input report.kind
      report.clientVersion) (report.input collate definitions .report) := by
  have hcolumn : ∀ column ∈ titleColumns,
      column.1 (reportTitleFields numberText definitions rows) =
        listedText numberText definitions report.fields column.2 :=
    fun column hcolumn => reportTitleFields_column hcolumn report.keys hperm
  simp only [titleColumns, List.forall_mem_cons] at hcolumn
  obtain ⟨hfailure, hprocess, hplatform, hsignal, hurl, -⟩ := hcolumn
  refine ⟨rfl, rfl, rfl, fun hkind => ?_, fun hkind => ?_, fun hlocation hpage => ?_,
    fun hlocation hpage hfunction => ?_⟩
  · change SameFailure (reportTitleFields numberText definitions rows).failureReason
      (fieldString _ failureReasonKey)
    rw [hfailure, fieldString_reportFields]
    exact h.failure hkind
  · change SamePage _ (reportTitleFields numberText definitions rows).url (fieldString _ urlKey)
    rw [hurl, fieldString_reportFields, show (report.input collate definitions .report).kind =
      .webCompat from hkind]
    exact h.page hkind
  · exact (h.stack hlocation hpage).take_eq (reportTitleFields_stackTrace hperm)
      (stackTraceForReport_takes report.typed reportFields_perm)
  · change SameContext u (reportTitleFields numberText definitions rows).process
        (fieldString _ processKey) ∧
      SameContext u (reportTitleFields numberText definitions rows).platform
        (fieldString _ platformKey) ∧
      SameContext u ((reportTitleFields numberText definitions rows).signal.map signalHead)
        ((fieldString _ signalKey).map signalHead)
    rw [hprocess, hplatform, hsignal, fieldString_reportFields, fieldString_reportFields,
      fieldString_reportFields]
    exact h.context hlocation hpage hfunction

/-- A report that is titled alike has one title in the lists, in Discord and on its page. -/
theorem listedTitle_eq_titleForReport (h : report.TitledAlike u numberText collate definitions)
    (hperm : rows.Perm report.fields) :
    listedTitle numberText definitions u report rows =
      titleForReport u collate definitions report :=
  generateReportTitle_congr (h.sameTitle hperm)

/-! ## Short reports -/

/-- Texts that fit, and at most one stack trace, which sets no other column. -/
structure StoredReport.Short (definitions : FieldDefinitions) (report : StoredReport) : Prop where
  texts : ∀ row ∈ report.fields, row.key ∈ titleColumns.map Prod.snd →
    ∃ text, row.value = .string text ∧ text.length ≤ 128
  one : ∀ row ∈ report.fields, ∀ other ∈ report.fields, row.isTrace definitions = true →
    other.isTrace definitions = true → row = other
  listed : ∀ row ∈ report.fields, row.isTrace definitions = true →
    row.isListedTrace definitions = true

theorem StoredReport.Short.listedText_eq (h : report.Short definitions) {key : Str}
    (hkey : key ∈ titleColumns.map Prod.snd) :
    listedText numberText definitions report.fields key = fieldString report.fields key := by
  unfold listedText fieldString
  cases hrow : fieldOf report.fields key with
  | none => rfl
  | some row =>
    obtain ⟨hmem, rfl⟩ := (Rows.find?_key_eq_some_iff report.keys).mp hrow
    obtain ⟨text, hvalue, hlength⟩ := h.texts row hmem hkey
    have hcut : row.titleText numberText definitions = text := by
      unfold StoredField.titleText reportTitleStackCharacters
      rw [hvalue, show (JsonValue.string text).text numberText = text from rfl]
      split_ifs <;> exact List.take_of_length_le (by omega)
    rw [Option.map_some, Option.bind_some, hcut, hvalue]
    rfl

theorem sameContext_refl (text : Option Str) : SameContext u text text := by
  unfold SameContext
  cases text.filter (isContext u) with
  | none => trivial
  | some text => rfl

theorem samePage_refl (room : ℕ) (text : Option Str) : SamePage room text text := by
  unfold SamePage
  cases text.filter isWebAddress with
  | none => trivial
  | some text => exact .inl rfl

/-- A short report is titled alike. -/
theorem StoredReport.Short.titledAlike (h : report.Short definitions) :
    report.TitledAlike u numberText collate definitions where
  failure _ := .inl (h.listedText_eq (by decide))
  page _ := by
    rw [h.listedText_eq (by decide)]
    exact samePage_refl _ _
  stack _ _ := .inr ⟨fun row hrow other hother htrace htrace' => by
    rw [h.one row hrow other hother htrace htrace'], fun row hrow htrace =>
      ⟨row, hrow, h.listed row hrow htrace⟩⟩
  context _ _ _ := by
    rw [h.listedText_eq (by decide), h.listedText_eq (by decide), h.listedText_eq (by decide)]
    exact ⟨sameContext_refl _, sameContext_refl _, sameContext_refl _⟩

end

/-- What a crash was sent with: a process whose name is cut, and the stacks of two threads, of which
that of `stack` names no function. -/
def longFields : List DiagnosticField :=
  [⟨"network".toList, .stackTrace "#0 poll".toList⟩, ⟨stackKey, .multiline "no symbols".toList⟩,
    ⟨processKey, .text (List.replicate 200 'a')⟩]

def longReport : StoredReport where
  kind := .crash
  clientVersion := "1".toList
  fields := longFields.map (·.stored fun _ => none)
  keys := by decide
  typed := by
    intro row hrow
    obtain ⟨field, -, rfl⟩ := List.mem_map.mp hrow
    exact stores_stored _ field

/-- The rows come in another order, and the title names the process. -/
theorem long_report_is_titled_alike :
    listedTitle (fun _ => []) (fun _ => none) .ascii longReport longReport.fields.reverse =
      titleForReport .ascii (fun _ _ => true) (fun _ => none) longReport := by
  refine listedTitle_eq_titleForReport ⟨fun _ => .inl rfl, fun h => (by cases h),
    fun _ _ => .inl ?_, fun _ _ _ => ⟨?_, ?_, ?_⟩⟩ (List.reverse_perm _)
  · exact ⟨_, List.mem_cons_of_mem _ List.mem_cons_self, rfl, rfl⟩
  · have hlisted : (listedText (fun _ => []) (fun _ => none) longReport.fields processKey).filter
        (isContext .ascii) = some (List.replicate 128 'a') := by rfl
    have hfull : (fieldString longReport.fields processKey).filter (isContext .ascii) =
        some (List.replicate 200 'a') := by rfl
    unfold SameContext
    rw [hlisted, hfull]
    rfl
  · trivial
  · trivial

/-- A crash of a process with this name, with nothing else about it. -/
def sampleReport (process : Str) : StoredReport where
  kind := .crash
  clientVersion := "1".toList
  fields := [⟨processKey, .text, .string process, false⟩]
  keys := List.nodup_singleton _
  typed := by
    intro row hrow
    rw [List.mem_singleton.mp hrow]
    rfl

/-- A process whose name goes on after the cut with a character that no title shows. -/
def cutProcess : Str := List.replicate 128 'a' ++ ['!']

/-- The lists name the process, but the page its version. -/
theorem cut_process_is_listed : ¬ ∀ rows, rows.Perm (sampleReport cutProcess).fields →
    listedTitle (fun _ => []) (fun _ => none) .ascii (sampleReport cutProcess) rows =
      titleForReport .ascii (fun _ _ => true) (fun _ => none) (sampleReport cutProcess) := by
  intro h
  have hlisted : listedTitle (fun _ => []) (fun _ => none) .ascii (sampleReport cutProcess)
      (sampleReport cutProcess).fields =
      .ok ("Crash report · ".toList ++ List.replicate 40 'a') := by rfl
  have hpage : titleForReport .ascii (fun _ _ => true) (fun _ => none) (sampleReport cutProcess) =
      .ok "Crash report · 1".toList := by rfl
  have hsame := h _ (.refl _)
  rw [hlisted, hpage] at hsame
  cases hsame

end LadybirdReports
