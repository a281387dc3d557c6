import LadybirdReports.Domain.Field
import LadybirdReports.Domain.StackTrace

/-!
# The signature of a report, three times

The signature of a report is computed by `accept_report` from the fields of the manifest, by the
indexer from the rows of the report, and by the page of the report from the same rows as JSON. All
three sign the same stack trace, with the process, the signal and the failure reason of the report,
but each has its own idea of which values of these three count:

1. `textOf` takes only fields of kind `text`,
2. `#>> '{}'` takes every value as text, and
3. `as_str` takes every string.
-/

namespace LadybirdReports

open Rust

def processKey : Str := "process".toList
def signalKey : Str := "signal".toList
def failureReasonKey : Str := "failure_reason".toList

/-- What goes into a fingerprint next to the stack. -/
structure SignatureTexts where
  process : Option Str
  signal : Option Str
  failureReason : Option Str
  deriving DecidableEq, Repr

def SignatureTexts.fingerprint (u : Unicode) (sha256 : List UInt8 → Str) (kind : ReportKind)
    (texts : SignatureTexts) (parsed : ParsedStackTrace) : Option Str :=
  stackFingerprint u sha256 kind texts.process texts.signal texts.failureReason parsed

/-- The signature of a report whose stack is this text. -/
def signatureOf (u : Unicode) (sha256 : List UInt8 → Str) (kind : ReportKind)
    (texts : SignatureTexts) (stack : Str) : Checked (Option Str) := do
  let parsed ← parseStackTrace u stack
  return texts.fingerprint u sha256 kind parsed

/-! ## When the report is accepted -/

/-- `text_of`. -/
def textOf (fields : List DiagnosticField) (key : Str) : Option Str :=
  fields.findSome? fun field =>
    match field.value with
    | .text text => if field.key = key then some text else none
    | _ => none

def acceptedTexts (fields : List DiagnosticField) : SignatureTexts :=
  ⟨textOf fields processKey, textOf fields signalKey, textOf fields failureReasonKey⟩

/-- The row that `accept_report` stores, or none where there is no stack trace. -/
def acceptedSignature (u : Unicode) (sha256 : List UInt8 → Str) (kind : ReportKind)
    (fields : List DiagnosticField) (definitions : FieldDefinitions) :
    Checked (Option (Option Str)) :=
  match submittedStackTrace fields definitions with
  | some stack => return some (← signatureOf u sha256 kind (acceptedTexts fields) stack)
  | none => return none

/-! ## When it is indexed -/

/-- `value #>> '{}'`, where `numberText` prints numbers. -/
def JsonValue.text (numberText : JsonNumber → Str) : JsonValue → Str
  | .string text => text
  | .number value => numberText value
  | .boolean true => "true".toList
  | .boolean false => "false".toList

/-- The rows of `report_stack_traces` before the first is chosen. -/
def StoredField.isTrace (definitions : FieldDefinitions) (row : StoredField) : Bool :=
  row.kind = .stackTrace ||
    (row.kind = .multiline &&
      (row.key = stackKey || (definitions row.key).any (·.kind = .stackTrace)))

/-- `report_stack_traces`, for one report. -/
def reportStackTrace (definitions : FieldDefinitions) (rows : List StoredField) :
    Option StoredField :=
  Rows.first? (fun a b => stackBefore a.key b.key) (rows.filter (·.isTrace definitions))

def fieldOf (rows : List StoredField) (key : Str) : Option StoredField :=
  rows.find? (·.key = key)

def indexedTexts (numberText : JsonNumber → Str) (rows : List StoredField) : SignatureTexts :=
  let text (key : Str) : Option Str := (fieldOf rows key).map (·.value.text numberText)
  ⟨text processKey, text signalKey, text failureReasonKey⟩

/-- The signature that `stack_traces_to_index` and `store_stack_signatures` compute. -/
def indexedSignature (u : Unicode) (sha256 : List UInt8 → Str) (numberText : JsonNumber → Str)
    (kind : ReportKind) (rows : List StoredField) (definitions : FieldDefinitions) :
    Checked (Option (Option Str)) :=
  match reportStackTrace definitions rows with
  | some row =>
    return some (← signatureOf u sha256 kind (indexedTexts numberText rows)
      (row.value.text numberText))
  | none => return none

/-! ## When it is shown -/

def JsonValue.asStr : JsonValue → Option Str
  | .string text => some text
  | _ => none

/-- `field_string`. -/
def fieldString (rows : List StoredField) (key : Str) : Option Str :=
  (fieldOf rows key).bind (·.value.asStr)

def shownTexts (rows : List StoredField) : SignatureTexts :=
  ⟨fieldString rows processKey, fieldString rows signalKey, fieldString rows failureReasonKey⟩

/-- The kind a field is defined with now, if its value may have it. -/
def StoredField.currentKind (definitions : FieldDefinitions) (row : StoredField) :
    Option FieldKind :=
  ((definitions row.key).map (·.kind)).filter (·.accepts row.kind)

def StoredField.isStackTrace (definitions : FieldDefinitions) (row : StoredField) : Bool :=
  row.kind = .stackTrace || row.currentKind definitions = some .stackTrace ||
    (row.key = stackKey && row.kind = .multiline)

/-- The overview shows the platform, the architecture and the page instead. -/
def isInOverview (rows : List StoredField) (key : Str) : Bool :=
  key = "platform".toList || key = "architecture".toList ||
    (key = "url".toList && (fieldString rows "url".toList).any fun url => trim url ≠ [])

/-- A field on the page, with the signature that stands beside it. `jsonText` prints JSON. -/
def shownField (u : Unicode) (sha256 : List UInt8 → Str) (jsonText : JsonValue → Str)
    (kind : ReportKind) (definitions : FieldDefinitions) (rows : List StoredField)
    (row : StoredField) : Checked (Str × Option Str) :=
  if row.isStackTrace definitions then
    return (row.key, ← signatureOf u sha256 kind (shownTexts rows)
      (row.value.asStr.getD (jsonText row.value)))
  else return (row.key, none)

def shownFields (u : Unicode) (sha256 : List UInt8 → Str) (jsonText : JsonValue → Str)
    (kind : ReportKind) (rows : List StoredField) (definitions : FieldDefinitions) :
    Checked (List (Str × Option Str)) :=
  (rows.filter fun row => !isInOverview rows row.key).mapM
    (shownField u sha256 jsonText kind definitions rows)

/-- The signature that the page shows beside the stack trace of the report. -/
def shownSignature (u : Unicode) (sha256 : List UInt8 → Str) (jsonText : JsonValue → Str)
    (kind : ReportKind) (rows : List StoredField) (definitions : FieldDefinitions) :
    Checked (Option Str) := do
  let shown ← shownFields u sha256 jsonText kind rows definitions
  return (reportStackTrace definitions rows).bind fun row =>
    (shown.find? (·.1 = row.key)).bind Prod.snd

/-! ## One stack trace -/

section

variable {definitions : FieldDefinitions} {fields : List DiagnosticField}
  {numberText : JsonNumber → Str}

/-- The field whose stack trace signs the report. -/
def signingField (fields : List DiagnosticField) (definitions : FieldDefinitions) :
    Option DiagnosticField :=
  Rows.first? (fun a b => stackBefore a.key b.key)
    (fields.filter fun field => (field.stackTrace? definitions).isSome)

theorem stackTrace?_eq_some {field : DiagnosticField} {key text : Str}
    (h : field.stackTrace? definitions = some (key, text)) :
    key = field.key ∧ field.value.jsonValue = .string text := by
  unfold DiagnosticField.stackTrace? at h
  split at h
  · rename_i hvalue
    cases h
    exact ⟨rfl, by rw [hvalue]; rfl⟩
  · rename_i hvalue
    split_ifs at h
    cases h
    exact ⟨rfl, by rw [hvalue]; rfl⟩
  · cases h

theorem isTrace_stored (field : DiagnosticField) :
    (field.stored definitions).isTrace definitions =
      (field.stackTrace? definitions).isSome := by
  unfold StoredField.isTrace DiagnosticField.stored DiagnosticField.stackTrace?
  cases hvalue : field.value <;> simp [FieldValue.kind]
  split <;> simp_all

/-- The page takes the same fields for stack traces as the view. -/
theorem isStackTrace_eq_isTrace (row : StoredField) :
    row.isStackTrace definitions = row.isTrace definitions := by
  unfold StoredField.isStackTrace StoredField.currentKind StoredField.isTrace
  cases definitions row.key with
  | none => cases row.kind <;> simp
  | some definition =>
    cases hkind : definition.kind <;> cases row.kind <;> simp [hkind, FieldKind.accepts]

theorem stackTraces_eq : fields.filterMap (·.stackTrace? definitions) =
    (fields.filter fun field => (field.stackTrace? definitions).isSome).map fun field =>
      (field.key, field.value.jsonValue.asStr.getD []) := by
  induction fields with
  | nil => rfl
  | cons field fields ih =>
    rw [List.filterMap_cons, List.filter_cons]
    cases h : field.stackTrace? definitions with
    | none => simpa using ih
    | some trace =>
      obtain ⟨hkey, htext⟩ := stackTrace?_eq_some (h : _ = some (trace.1, trace.2))
      simp [htext, JsonValue.asStr, ← hkey, ih]

/-- What is signed when the report is accepted. -/
theorem submittedStackTrace_eq : submittedStackTrace fields definitions =
    (signingField fields definitions).map fun field => field.value.jsonValue.asStr.getD [] := by
  unfold submittedStackTrace
  rw [stackTraces_eq, Rows.first?_map, Option.map_map]
  rfl

/-- The same field is signed when the rows are indexed. -/
theorem reportStackTrace_eq :
    reportStackTrace definitions (fields.map (·.stored definitions)) =
      (signingField fields definitions).map (·.stored definitions) := by
  unfold reportStackTrace
  rw [List.filter_map, Rows.first?_map]
  congr 2
  exact List.filter_congr fun field _ => isTrace_stored field

theorem signingField_eq_some {field : DiagnosticField}
    (h : signingField fields definitions = some field) :
    field ∈ fields ∧ (field.stackTrace? definitions).isSome = true ∧
      ∃ text, field.value.jsonValue = .string text := by
  obtain ⟨hmem, -⟩ := Rows.first?_eq_some h
  obtain ⟨hmem, htrace⟩ := List.mem_filter.mp hmem
  obtain ⟨trace, h⟩ := Option.isSome_iff_exists.mp htrace
  exact ⟨hmem, htrace, trace.2, (stackTrace?_eq_some h).2⟩

/-! ## The fields next to it -/

/-- The text of a value of kind `text`. -/
def FieldValue.plain? : FieldValue → Option Str
  | .text value => some value
  | _ => none

theorem textOf_eq (key : Str) :
    textOf fields key = fields.findSome? fun field =>
      if field.key = key then field.value.plain? else none := by
  unfold textOf
  congr 1
  funext field
  cases field.value <;> simp [FieldValue.plain?]

variable (definitions) in
/-- What is found under a key, in the manifest and in the rows. -/
theorem field_cases (hnodup : (fields.map (·.key)).Nodup) (key : Str) :
    ((∀ field ∈ fields, field.key ≠ key) ∧ textOf fields key = none ∧
      fieldOf (fields.map (·.stored definitions)) key = none) ∨
    ∃ field ∈ fields, field.key = key ∧ textOf fields key = field.value.plain? ∧
      fieldOf (fields.map (·.stored definitions)) key = some (field.stored definitions) := by
  by_cases h : ∃ field ∈ fields, field.key = key
  swap
  · have hne : ∀ field ∈ fields, field.key ≠ key := fun field hf hk => h ⟨field, hf, hk⟩
    refine .inl ⟨hne, ?_, ?_⟩
    · rw [textOf_eq, List.findSome?_eq_none_iff]
      exact fun field hf => if_neg (hne field hf)
    · unfold fieldOf
      rw [List.find?_eq_none]
      rintro row hrow
      obtain ⟨field, hf, rfl⟩ := List.mem_map.mp hrow
      simp [DiagnosticField.stored, hne field hf]
  · obtain ⟨field, hf, rfl⟩ := h
    refine .inr ⟨field, hf, rfl, ?_, ?_⟩
    · rw [textOf_eq]
      induction fields with
      | nil => cases hf
      | cons first fields ih =>
        rw [List.map_cons, List.nodup_cons] at hnodup
        rw [List.findSome?_cons]
        rcases List.mem_cons.mp hf with rfl | hf
        · rw [if_pos rfl]
          cases hplain : field.value.plain? with
          | some text => rfl
          | none =>
            refine List.findSome?_eq_none_iff.mpr fun other hother => if_neg fun hkey => ?_
            exact hnodup.1 (hkey ▸ List.mem_map_of_mem hother)
        · have hkey : first.key ≠ field.key := fun hkey =>
            hnodup.1 (hkey ▸ List.mem_map_of_mem hf)
          rw [if_neg hkey]
          exact ih hnodup.2 hf
    · have hkeys : ((fields.map (·.stored definitions)).map (·.key)).Nodup := by
        rwa [List.map_map]
      exact Rows.find?_key hkeys (List.mem_map_of_mem hf)

/-! ## What the page shows -/

variable {u : Unicode} {sha256 : List UInt8 → Str} {jsonText : JsonValue → Str} {kind : ReportKind}

theorem signatureOf_eq (texts : SignatureTexts) {stack : Str} {parsed : ParsedStackTrace}
    (h : parseStackTrace u stack = .ok parsed) :
    signatureOf u sha256 kind texts stack = .ok (texts.fingerprint u sha256 kind parsed) := by
  unfold signatureOf
  rw [h]
  rfl

variable (u sha256 jsonText kind definitions) in
theorem exists_shownField (rows : List StoredField) (row : StoredField) :
    ∃ signature, shownField u sha256 jsonText kind definitions rows row =
      .ok (row.key, signature) := by
  unfold shownField
  split_ifs
  · obtain ⟨parsed, hparsed⟩ := parseStackTrace_safe u (row.value.asStr.getD (jsonText row.value))
    rw [signatureOf_eq _ hparsed]
    exact ⟨_, rfl⟩
  · exact ⟨none, rfl⟩

/-- The page shows the signature of its stack trace, unless the trace is not shown. -/
theorem shownSignature_eq {rows : List StoredField} {row : StoredField} {stack : Str}
    {parsed : ParsedStackTrace} (hnodup : (rows.map (·.key)).Nodup)
    (hrow : reportStackTrace definitions rows = some row) (hstack : row.value = .string stack)
    (hparsed : parseStackTrace u stack = .ok parsed) :
    shownSignature u sha256 jsonText kind rows definitions =
      .ok (if isInOverview rows row.key then none
        else (shownTexts rows).fingerprint u sha256 kind parsed) := by
  choose signature hsignature using
    exists_shownField definitions u sha256 jsonText kind rows
  obtain ⟨hmem, htrace⟩ := List.mem_filter.mp (Rows.first?_eq_some hrow).1
  unfold shownSignature shownFields
  rw [mapM_eq_ok fun r _ => hsignature r, hrow]
  refine congrArg Except.ok ?_
  rw [Option.bind_some, List.find?_map]
  cases hover : isInOverview rows row.key with
  | true =>
    have hnone : (rows.filter fun r => !isInOverview rows r.key).find?
        ((fun shown => decide (shown.1 = row.key)) ∘ fun r => (r.key, signature r)) = none := by
      refine List.find?_eq_none.mpr fun r hr => ?_
      have hshown := (List.mem_filter.mp hr).2
      simp only [Function.comp_apply, decide_eq_true_eq]
      intro hkey
      rw [hkey, hover] at hshown
      cases hshown
    rw [hnone]
    rfl
  | false =>
    have hr : row ∈ rows.filter fun r => !isInOverview rows r.key :=
      List.mem_filter.mpr ⟨hmem, by rw [hover]; rfl⟩
    have hfind : (rows.filter fun r => !isInOverview rows r.key).find?
        ((fun shown => decide (shown.1 = row.key)) ∘ fun r => (r.key, signature r)) = some row :=
      Rows.find?_key (hnodup.sublist (List.filter_sublist.map _)) hr
    rw [hfind]
    have hrowSignature := hsignature row
    unfold shownField at hrowSignature
    rw [isStackTrace_eq_isTrace, if_pos htrace, hstack, JsonValue.asStr, Option.getD_some,
      signatureOf_eq _ hparsed] at hrowSignature
    exact (congrArg Prod.snd (Except.ok.inj hrowSignature)).symm

end

end LadybirdReports
