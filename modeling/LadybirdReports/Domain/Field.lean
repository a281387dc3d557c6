import LadybirdReports.Lib.Rows
import LadybirdReports.Lib.StrSearch
import Mathlib.Data.List.Lex
import Mathlib.Data.Nat.Basic

/-!
# Diagnostic fields

What a manifest says of a report, field by field, and what the `report_fields` table keeps of it.
Older clients send stack traces as multiline text, and of the stack traces a report has `stack`
comes first, then the first by key, in the order of its bytes (`stackBefore`).
-/

namespace LadybirdReports

open Rust

/-- `serde_json::Number`: an integer, or a double by its bits. -/
inductive JsonNumber
  | integer (value : ℤ)
  | double (bits : ℕ)
  deriving DecidableEq, Repr

/-- The values that a field has in JSON. -/
inductive JsonValue
  | string (text : Str)
  | number (number : JsonNumber)
  | boolean (value : Bool)
  deriving DecidableEq, Repr

inductive FieldKind
  | text
  | multiline
  | stackTrace
  | url
  | commitId
  | number
  | boolean
  | attachment
  deriving DecidableEq, Repr

def FieldKind.asStr : FieldKind → String
  | .text => "text"
  | .multiline => "multiline"
  | .stackTrace => "stack_trace"
  | .url => "url"
  | .commitId => "commit_id"
  | .number => "number"
  | .boolean => "boolean"
  | .attachment => "attachment"

inductive FieldValue
  | text (value : Str)
  | multiline (value : Str)
  | stackTrace (value : Str)
  | url (value : Str)
  | commitId (value : Str)
  | number (value : JsonNumber)
  | boolean (value : Bool)
  | attachment (reference : Str)
  deriving DecidableEq, Repr

def FieldValue.kind : FieldValue → FieldKind
  | .text _ => .text
  | .multiline _ => .multiline
  | .stackTrace _ => .stackTrace
  | .url _ => .url
  | .commitId _ => .commitId
  | .number _ => .number
  | .boolean _ => .boolean
  | .attachment _ => .attachment

def FieldValue.jsonValue : FieldValue → JsonValue
  | .text value | .multiline value | .stackTrace value | .url value | .commitId value =>
    .string value
  | .number value => .number value
  | .boolean value => .boolean value
  | .attachment reference => .string reference

structure DiagnosticField where
  key : Str
  value : FieldValue
  deriving DecidableEq, Repr

structure FieldDefinition where
  key : Str
  label : Str
  kind : FieldKind
  position : ℤ
  deriving DecidableEq, Repr

/-- `HashMap<String, FieldDefinition>`, or the rows of `field_definitions` by their key. -/
abbrev FieldDefinitions := Str → Option FieldDefinition

/-- A row of `report_fields`, less its report. -/
structure StoredField where
  key : Str
  kind : FieldKind
  value : JsonValue
  recognized : Bool
  deriving DecidableEq, Repr

/-- The row that `accept_report` stores for a field. -/
def DiagnosticField.stored (definitions : FieldDefinitions) (field : DiagnosticField) :
    StoredField :=
  ⟨field.key, field.value.kind, field.value.jsonValue, (definitions field.key).isSome⟩

/-! ## What is accepted -/

/-- Whether a field defined with this kind may be submitted as a value of `submitted`. -/
def FieldKind.accepts (kind submitted : FieldKind) : Bool :=
  kind = submitted || (kind = .stackTrace && submitted = .multiline) ||
    ((kind = .url || kind = .commitId) && submitted = .text)

def isValidFieldKey (key : Str) : Bool :=
  key ≠ [] && byteLen key ≤ 64 && key.all fun c => isAsciiAlphanumeric c || "._-".toList.contains c

/-- The limits on the fields of a manifest. -/
structure FieldLimits where
  maximumFields : ℕ
  shortTextBytes : ℕ
  multilineTextBytes : ℕ
  deriving DecidableEq, Repr

/-- What a value may be, by itself. -/
def FieldValue.validate (references : List Str) (limits : FieldLimits) :
    FieldValue → Except String Unit
  | .text value | .url value | .commitId value =>
    ensure (byteLen value ≤ limits.shortTextBytes) "Text field is too large"
  | .multiline value | .stackTrace value =>
    ensure (byteLen value ≤ limits.multilineTextBytes) "Multiline field is too large"
  | .attachment reference =>
    ensure (references.contains reference) "Diagnostic field references an unknown attachment"
  | .number _ | .boolean _ => .ok ()

/-- The loop of `validate_fields`, after the keys it has seen. -/
def validateFieldsFrom (references : List Str) (definitions : FieldDefinitions)
    (limits : FieldLimits) : List Str → List DiagnosticField → Except String Unit
  | _, [] => .ok ()
  | keys, field :: fields => do
    ensure (isValidFieldKey field.key) "Invalid diagnostic field key"
    ensure (!keys.contains field.key) "Duplicate diagnostic field"
    ensure ((definitions field.key).all fun definition => definition.kind.accepts field.value.kind)
      "Recognized diagnostic field has the wrong type"
    field.value.validate references limits
    validateFieldsFrom references definitions limits (field.key :: keys) fields

def validateFields (fields : List DiagnosticField) (references : List Str)
    (definitions : FieldDefinitions) (limits : FieldLimits) : Except String Unit := do
  ensure (fields.length ≤ limits.maximumFields) "Too many diagnostic fields"
  validateFieldsFrom references definitions limits [] fields

theorem nodup_of_validateFieldsFrom {references : List Str} {definitions : FieldDefinitions}
    {limits : FieldLimits} {keys : List Str} {fields : List DiagnosticField}
    (h : validateFieldsFrom references definitions limits keys fields = .ok ()) :
    (fields.map (·.key)).Nodup ∧ ∀ field ∈ fields, field.key ∉ keys := by
  induction fields generalizing keys with
  | nil => exact ⟨List.nodup_nil, fun _ hmem => (by cases hmem)⟩
  | cons field fields ih =>
    rw [validateFieldsFrom] at h
    obtain ⟨_, -, h⟩ := bind_eq_ok.mp h
    obtain ⟨_, hnew, h⟩ := bind_eq_ok.mp h
    obtain ⟨_, -, h⟩ := bind_eq_ok.mp h
    obtain ⟨_, -, h⟩ := bind_eq_ok.mp h
    obtain ⟨hnodup, hkeys⟩ := ih h
    have hfield : field.key ∉ keys := by simpa using ensure_eq_ok.mp hnew
    refine ⟨List.nodup_cons.mpr ⟨fun hmem => ?_, hnodup⟩, fun other hother => ?_⟩
    · obtain ⟨other, hother, hkey⟩ := List.mem_map.mp hmem
      exact hkeys other hother (hkey ▸ List.mem_cons_self)
    · rcases List.mem_cons.mp hother with rfl | hother
      · exact hfield
      · exact fun hmem => hkeys other hother (List.mem_cons_of_mem _ hmem)

/-- No two fields that are accepted have one key. -/
theorem nodup_of_validateFields {fields : List DiagnosticField} {references : List Str}
    {definitions : FieldDefinitions} {limits : FieldLimits}
    (h : validateFields fields references definitions limits = .ok ()) :
    (fields.map (·.key)).Nodup := by
  obtain ⟨_, -, h⟩ := bind_eq_ok.mp h
  exact (nodup_of_validateFieldsFrom h).1

/-- What is checked of a field by itself. -/
theorem checked_of_validateFieldsFrom {references : List Str} {definitions : FieldDefinitions}
    {limits : FieldLimits} {keys : List Str} {fields : List DiagnosticField}
    (h : validateFieldsFrom references definitions limits keys fields = .ok ()) :
    ∀ field ∈ fields, isValidFieldKey field.key = true ∧
      field.value.validate references limits = .ok () := by
  induction fields generalizing keys with
  | nil => exact List.forall_mem_nil _
  | cons field fields ih =>
    rw [validateFieldsFrom] at h
    obtain ⟨_, hkey, h⟩ := bind_eq_ok.mp h
    obtain ⟨_, -, h⟩ := bind_eq_ok.mp h
    obtain ⟨_, -, h⟩ := bind_eq_ok.mp h
    obtain ⟨_, hvalue, h⟩ := bind_eq_ok.mp h
    exact List.forall_mem_cons.mpr ⟨⟨ensure_eq_ok.mp hkey, hvalue⟩, ih h⟩

/-- The fields that are accepted are few, and each passes its checks. -/
theorem checked_of_validateFields {fields : List DiagnosticField} {references : List Str}
    {definitions : FieldDefinitions} {limits : FieldLimits}
    (h : validateFields fields references definitions limits = .ok ()) :
    fields.length ≤ limits.maximumFields ∧ ∀ field ∈ fields, isValidFieldKey field.key = true ∧
      field.value.validate references limits = .ok () := by
  obtain ⟨_, hlength, h⟩ := bind_eq_ok.mp h
  exact ⟨of_decide_eq_true (ensure_eq_ok.mp hlength), checked_of_validateFieldsFrom h⟩

/-! ## The stack trace that signs a report -/

def stackKey : Str := "stack".toList

/-- The bytes of a key, which order keys. -/
def keyBytes (key : Str) : List ℕ := (bytes key).map (·.toNat)

/-- Of two fields with a stack trace, the one that comes first. -/
def stackBefore (a b : Str) : Bool :=
  a = stackKey || (b ≠ stackKey && keyBytes a ≤ keyBytes b)

/-- The key and the text of a field that is a stack trace. -/
def DiagnosticField.stackTrace? (definitions : FieldDefinitions) (field : DiagnosticField) :
    Option (Str × Str) :=
  match field.value with
  | .stackTrace text => some (field.key, text)
  | .multiline text =>
    if field.key = stackKey || (definitions field.key).any (·.kind = .stackTrace) then
      some (field.key, text)
    else none
  | _ => none

/-- `submitted_stack_trace`: `min_by_key` keeps the first of equals. -/
def submittedStackTrace (fields : List DiagnosticField) (definitions : FieldDefinitions) :
    Option Str :=
  (Rows.first? (fun a b => stackBefore a.1 b.1)
    (fields.filterMap (·.stackTrace? definitions))).map Prod.snd

end LadybirdReports
