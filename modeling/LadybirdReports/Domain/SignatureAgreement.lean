import LadybirdReports.Domain.ReportSignature

/-!
# When the three signatures agree

A fingerprint is a hash of its components, each ended by a zero byte, so that it shows which of them
are empty (`parts_eq_of_hashed_eq`). What was read when the report was accepted the indexer reads as
well (`under_indexedTexts`), and what it reads besides shows in the hash unless it says nothing. So
the signatures agree exactly where the values that are signed come as text (`signatures_agree_iff`).
-/

namespace LadybirdReports

open Rust

/-! ## What is hashed -/

namespace SignatureTexts

variable (u : Unicode) (kind : ReportKind) (texts : SignatureTexts) (parsed : ParsedStackTrace)

def processOf (process : Option Str) : Str := toAsciiLowercase (trim (process.getD []))

def signalOf (signal : Option Str) : Str :=
  toAsciiUppercase (splitHead (fun c => c == '(' || c == ' ') (signal.getD []))

def failureOf (failureReason : Option Str) : Option Str := failureReason.bind (failureKey u)

def processPart : Str := processOf texts.process

def signalPart : Str := signalOf texts.signal

def failurePart : Option Str := failureOf u texts.failureReason

/-- There is nothing to tell the crash by. -/
def Insufficient : Prop :=
  texts.failurePart u = none ∧ parsed.frameKeys = [] ∧ parsed.addressKeys = []

def frames : List Str :=
  if (texts.failurePart u).isSome || parsed.frameKeys ≠ [] then parsed.frameKeys
  else parsed.addressKeys

/-- The bytes that are hashed. -/
def hashed : List UInt8 :=
  ([kind.asStr.toList, texts.processPart, texts.signalPart, (texts.failurePart u).getD []] ++
    (texts.frames u parsed).take signatureFrames).flatMap fun component => bytes component ++ [0]

variable {u kind texts parsed}

theorem insufficient_iff :
    (texts.frames u parsed = [] ∧ texts.failurePart u = none) ↔ texts.Insufficient u parsed := by
  unfold Insufficient frames
  cases texts.failurePart u with
  | some failure => simp
  | none => by_cases hkeys : parsed.frameKeys = [] <;> simp [hkeys]

/-- A fingerprint is a hash of these bytes, or none. -/
theorem fingerprint_eq (sha256 : List UInt8 → Str) [Decidable (texts.Insufficient u parsed)] :
    texts.fingerprint u sha256 kind parsed =
      if texts.Insufficient u parsed then none else some (sha256 (texts.hashed u kind parsed)) := by
  unfold fingerprint stackFingerprint
  refine ite_congr (propext insufficient_iff) (fun _ => rfl) fun _ => rfl

end SignatureTexts

theorem zero_not_mem_bytes {s : Str} (h : '\x00' ∉ s) : (0 : UInt8) ∉ bytes s := by
  intro hmem
  obtain ⟨c, hc, hzero⟩ := List.mem_flatMap.mp hmem
  obtain ⟨-, hnat⟩ := ascii_of_mem_utf8EncodeChar hzero (by decide)
  have hchar : c = '\x00' := Char.toNat_inj.mp hnat
  exact h (hchar ▸ hc)

theorem bytes_ne_nil {s : Str} (h : s ≠ []) : bytes s ≠ [] := by
  intro hbytes
  have hlen := bytes_length s
  rw [hbytes] at hlen
  cases s with
  | nil => exact h rfl
  | cons c s =>
    have := utf8Size_pos c
    rw [byteLen_cons] at hlen
    simp only [List.length_nil] at hlen
    omega

/-- Of what is ended by a zero byte, it shows whether it is empty. -/
theorem terminated_inj {a b : Str} {x y : List UInt8} (hab : a = [] ∨ a = b) (hb : '\x00' ∉ b)
    (h : bytes a ++ 0 :: x = bytes b ++ 0 :: y) : a = b ∧ x = y := by
  rcases hab with rfl | rfl
  · by_cases hempty : b = []
    · subst hempty
      exact ⟨rfl, (List.cons.inj h).2⟩
    · obtain ⟨first, rest, hbytes⟩ := List.exists_cons_of_ne_nil (bytes_ne_nil hempty)
      rw [hbytes] at h
      have hfirst : (0 : UInt8) = first := (List.cons.inj h).1
      refine absurd ?_ (zero_not_mem_bytes hb)
      rw [hbytes, hfirst]
      exact List.mem_cons_self
  · exact ⟨rfl, (List.cons.inj (List.append_cancel_left h)).2⟩

namespace SignatureTexts

variable {u : Unicode} {kind : ReportKind} {parsed : ParsedStackTrace} {a b : SignatureTexts}

/-- What `a` says `b` says as well, but `a` may say nothing. -/
structure Under (u : Unicode) (a b : SignatureTexts) : Prop where
  process : a.processPart = [] ∨ a.processPart = b.processPart
  signal : a.signalPart = [] ∨ a.signalPart = b.signalPart
  failure : a.failurePart u = none ∨ a.failurePart u = b.failurePart u

/-- No part has the character that ends a component. -/
structure Storable (u : Unicode) (texts : SignatureTexts) : Prop where
  process : '\x00' ∉ texts.processPart
  signal : '\x00' ∉ texts.signalPart
  failure : ∀ failure ∈ texts.failurePart u, '\x00' ∉ failure

theorem failurePart_ne_nil (h : a.failurePart u = some []) : False := by
  obtain ⟨reason, -, h⟩ := Option.bind_eq_some_iff.mp h
  unfold failureKey at h
  dsimp only at h
  split_ifs at h
  have := congrArg List.length (Option.some.inj h)
  simp at this

/-- The parts can be read off what is hashed. -/
theorem parts_eq_of_hashed_eq (hunder : Under u a b) (hb : b.Storable u)
    (h : a.hashed u kind parsed = b.hashed u kind parsed) :
    a.processPart = b.processPart ∧ a.signalPart = b.signalPart ∧
      a.failurePart u = b.failurePart u := by
  unfold hashed at h
  simp only [List.cons_append, List.nil_append, List.flatMap_cons, List.append_assoc] at h
  have h := (List.cons.inj (List.append_cancel_left h)).2
  obtain ⟨hprocess, h⟩ := terminated_inj hunder.process hb.process h
  obtain ⟨hsignal, h⟩ := terminated_inj hunder.signal hb.signal h
  refine ⟨hprocess, hsignal, ?_⟩
  rcases hunder.failure with hnone | heq
  swap
  · exact heq
  rw [hnone] at h ⊢
  cases hfailure : b.failurePart u with
  | none => rfl
  | some failure =>
    rw [hfailure] at h
    obtain ⟨hempty, -⟩ := terminated_inj (.inl rfl) (hb.failure failure hfailure) h
    exact (failurePart_ne_nil (hfailure.trans (congrArg some hempty.symm))).elim

theorem hashed_eq (hprocess : a.processPart = b.processPart) (hsignal : a.signalPart = b.signalPart)
    (hfailure : a.failurePart u = b.failurePart u) :
    a.hashed u kind parsed = b.hashed u kind parsed := by
  unfold hashed frames
  rw [hprocess, hsignal, hfailure]

/-- The bytes as characters, which tell them apart. -/
theorem exists_injective_hash : ∃ sha256 : List UInt8 → Str, Function.Injective sha256 := by
  refine ⟨List.map fun b => Char.ofNat b.toNat, List.map_injective_iff.mpr fun b c h => ?_⟩
  have hnat : ∀ b : UInt8, (Char.ofNat b.toNat).toNat = b.toNat := fun b => by
    have hvalid : b.toNat.isValidChar := .inl (by have := b.toNat_lt; omega)
    unfold Char.ofNat
    rw [dif_pos hvalid]
    rfl
  have h := congrArg Char.toNat h
  rw [hnat, hnat] at h
  exact UInt8.toNat_inj.mp h

/-- Signatures are equal where their parts are; some do not matter without frames and reason. -/
theorem fingerprint_congr (kind : ReportKind) (hfailure : a.failurePart u = b.failurePart u)
    (hparts : a.Insufficient u parsed ∨
      a.processPart = b.processPart ∧ a.signalPart = b.signalPart) (sha256 : List UInt8 → Str) :
    a.fingerprint u sha256 kind parsed = b.fingerprint u sha256 kind parsed := by
  classical
  have hinsufficient : a.Insufficient u parsed ↔ b.Insufficient u parsed := by
    unfold Insufficient
    rw [hfailure]
  rw [fingerprint_eq, fingerprint_eq]
  by_cases ha : a.Insufficient u parsed
  · rw [if_pos ha, if_pos (hinsufficient.mp ha)]
  · obtain ⟨hprocess, hsignal⟩ := hparts.resolve_left ha
    rw [if_neg ha, if_neg fun hb => ha (hinsufficient.mpr hb), hashed_eq hprocess hsignal hfailure]

/-- When one signature is the other, whatever the hash is. -/
theorem fingerprint_eq_iff (kind : ReportKind) (parsed : ParsedStackTrace) (hunder : Under u a b)
    (hb : b.Storable u) :
    (∀ sha256, a.fingerprint u sha256 kind parsed = b.fingerprint u sha256 kind parsed) ↔
    a.failurePart u = b.failurePart u ∧
      (a.Insufficient u parsed ∨
        a.processPart = b.processPart ∧ a.signalPart = b.signalPart) := by
  classical
  refine ⟨fun h => ?_, fun h => fingerprint_congr kind h.1 h.2⟩
  simp only [fingerprint_eq] at h
  obtain ⟨sha256, hinjective⟩ := exists_injective_hash
  have h := h sha256
  by_cases ha : a.Insufficient u parsed <;> by_cases hb' : b.Insufficient u parsed
  · exact ⟨ha.1.trans hb'.1.symm, .inl ha⟩
  · rw [if_pos ha, if_neg hb'] at h
    cases h
  · rw [if_neg ha, if_pos hb'] at h
    cases h
  · rw [if_neg ha, if_neg hb'] at h
    obtain ⟨hprocess, hsignal, hfailure⟩ :=
      parts_eq_of_hashed_eq hunder hb (hinjective (Option.some.inj h))
    exact ⟨hfailure, .inr ⟨hprocess, hsignal⟩⟩

/-- The signature of a report with nothing to tell it by. -/
theorem fingerprint_eq_none_iff {sha256 : List UInt8 → Str} :
    a.fingerprint u sha256 kind parsed = none ↔ a.Insufficient u parsed := by
  classical
  rw [fingerprint_eq]
  by_cases ha : a.Insufficient u parsed
  · simp [ha]
  · simp [ha]

end SignatureTexts

/-! ## Texts without the character that ends a component -/

/-- PostgreSQL prints numbers with digits, a sign and a point, and booleans as words. -/
def isPrinted (c : Char) : Bool := isAsciiAlphanumeric c || c = '-' || c = '.'

theorem isPrinted_facts {c : Char} (h : isPrinted c = true) :
    isWhitespace c = false ∧ (c == '(' || c == ' ') = false ∧ c ≠ '\x00' := by
  unfold isPrinted isAsciiAlphanumeric isAsciiDigit isAsciiAlphabetic at h
  simp only [Bool.or_eq_true, Bool.and_eq_true, decide_eq_true_eq] at h
  have hnat : c.toNat = 45 ∨ c.toNat = 46 ∨ (48 ≤ c.toNat ∧ c.toNat ≤ 57) ∨
      (65 ≤ c.toNat ∧ c.toNat ≤ 90) ∨ (97 ≤ c.toNat ∧ c.toNat ≤ 122) := by
    rcases h with ((h | h | h) | rfl) | rfl
    · exact .inr (.inr (.inl h))
    · exact .inr (.inr (.inr (.inr h)))
    · exact .inr (.inr (.inr (.inl h)))
    · exact .inl rfl
    · exact .inr (.inl rfl)
  have hne : ∀ d : Char, d.toNat < 45 → c ≠ d := fun d hd heq => by subst heq; omega
  refine ⟨?_, ?_, hne _ (by decide)⟩
  · unfold isWhitespace
    simp only [Bool.or_eq_false_iff, Bool.and_eq_false_iff, decide_eq_false_iff_not,
      beq_eq_false_iff_ne]
    omega
  · simp [hne '(' (by decide), hne ' ' (by decide)]

theorem toLower_ne_zero {c : Char} (h : c ≠ '\x00') : c.toLower ≠ '\x00' := by
  unfold Char.toLower
  split
  · rename_i hcase
    intro heq
    have hval := congrArg (fun d : Char => d.val.toNat) heq
    have hfirst : 65 ≤ c.val.toNat := hcase.1
    have hlast : c.val.toNat ≤ 90 := hcase.2
    have hoffset : ('a'.val - 'A'.val).toNat = 32 := rfl
    have hzero : '\x00'.val.toNat = 0 := rfl
    simp only [UInt32.toNat_add] at hval
    omega
  · exact h

theorem toUpper_ne_zero {c : Char} (h : c ≠ '\x00') : c.toUpper ≠ '\x00' := by
  unfold Char.toUpper
  split
  · rename_i hcase
    intro heq
    have hval := congrArg (fun d : Char => d.val.toNat) heq
    have hfirst : 97 ≤ c.val.toNat := hcase.1
    have hlast : c.val.toNat ≤ 122 := hcase.2
    have hoffset : ('A'.val - 'a'.val).toNat = 4294967264 := rfl
    have hzero : '\x00'.val.toNat = 0 := rfl
    simp only [UInt32.toNat_add] at hval
    omega
  · exact h

theorem zero_not_mem_blankDigits {s : Str} (h : '\x00' ∉ s) (hash : Bool) :
    '\x00' ∉ blankDigits hash s := by
  induction s generalizing hash with
  | nil => exact h
  | cons c s ih =>
    rw [List.mem_cons, not_or] at h
    unfold blankDigits
    by_cases hdigit : isAsciiDigit c = true
    · rw [if_pos hdigit, List.mem_append, not_or]
      refine ⟨?_, ih h.2 true⟩
      cases hash <;> decide
    · rw [if_neg hdigit, List.mem_cons, not_or]
      exact ⟨h.1, ih h.2 _⟩

/-- The failure reason says something unless it is blank. -/
theorem failureKey_eq_none_iff {u : Unicode} {reason : Str} :
    failureKey u reason = none ↔ trim reason = [] := by
  unfold failureKey
  dsimp only
  constructor
  · intro h
    split_ifs at h with hmessage
    split at hmessage
    · rename_i message location hsplit
      split_ifs at hmessage
      · obtain rfl : message = [] := hmessage
        have htrim := rsplitOnce?_eq_some hsplit
        have hspace := isWhitespace_head_trim (c := ' ') htrim
        exact absurd hspace (by decide)
      · exact hmessage
    · exact hmessage
  · intro h
    rw [h]
    rfl

theorem zero_not_mem_failureKey {u : Unicode} {reason key : Str}
    (hlower : ∀ s, '\x00' ∉ s → '\x00' ∉ u.toLowercase s) (hreason : '\x00' ∉ reason)
    (h : failureKey u reason = some key) : '\x00' ∉ key := by
  have htrim : '\x00' ∉ trim reason := fun hmem => hreason (trim_subset reason hmem)
  unfold failureKey at h
  dsimp only at h
  split_ifs at h
  cases h
  have hparts : ∀ a b : Str, trim reason = a ++ " at ".toList ++ b → '\x00' ∉ a ∧ '\x00' ∉ b := by
    rintro a b hab
    rw [hab] at htrim
    exact ⟨fun hmem => htrim (by simp [hmem]), fun hmem => htrim (by simp [hmem])⟩
  simp only [List.mem_append, not_or]
  split
  · rename_i message location hsplit
    obtain ⟨hmessage, hlocation⟩ := hparts _ _ (rsplitOnce?_eq_some hsplit)
    split_ifs
    · refine ⟨⟨zero_not_mem_blankDigits (hlower _ hmessage) _, by decide⟩, fun hmem => hlocation ?_⟩
      exact (List.takeWhile_sublist _).subset hmem
    · exact ⟨⟨zero_not_mem_blankDigits (hlower _ htrim) _, by decide⟩, by simp [splitHead]⟩
  · exact ⟨⟨zero_not_mem_blankDigits (hlower _ htrim) _, by decide⟩, by simp [splitHead]⟩

/-! ## Which values count -/

/-- `jsonb` has no strings with the character U+0000. -/
def JsonValue.isStorable : JsonValue → Bool
  | .string text => !text.contains '\x00'
  | _ => true

/-- How PostgreSQL prints numbers. -/
structure PrintsNumbers (numberText : JsonNumber → Str) : Prop where
  ne_nil : ∀ number, numberText number ≠ []
  printed : ∀ number, ∀ c ∈ numberText number, isPrinted c = true

/-- The field is absent, a text, or a string that says nothing. -/
def TextOrSilent (fields : List DiagnosticField) (key : Str) (silent : Str → Prop) : Prop :=
  ∀ field ∈ fields, field.key = key →
    field.value.kind = .text ∨ ∃ text, field.value.jsonValue = .string text ∧ silent text

theorem TextOrSilent.mono {fields : List DiagnosticField} {key : Str} {silent silent' : Str → Prop}
    (h : TextOrSilent fields key silent) (hsilent : ∀ text, silent text → silent' text) :
    TextOrSilent fields key silent' := fun field hf hkey =>
  (h field hf hkey).imp_right fun ⟨text, hjson, htext⟩ => ⟨text, hjson, hsilent text htext⟩

theorem plain?_eq_some {value : FieldValue} {text : Str} (h : value.plain? = some text) :
    value.kind = .text ∧ value.jsonValue = .string text := by
  cases value <;> simp_all [FieldValue.plain?, FieldValue.kind, FieldValue.jsonValue]

theorem plain?_of_kind {value : FieldValue} (h : value.kind = .text) :
    ∃ text, value.plain? = some text := by
  cases value <;> simp_all [FieldValue.plain?, FieldValue.kind]

section

variable {β : Type} {part : Option Str → β} {key : Str} {fields : List DiagnosticField}
  {definitions : FieldDefinitions} {numberText : JsonNumber → Str}

variable (definitions) in
/-- What the three readings of a field are. -/
theorem readings (hnodup : (fields.map (·.key)).Nodup) (key : Str) :
    ((∀ field ∈ fields, field.key ≠ key) ∧ textOf fields key = none ∧
      fieldOf (fields.map (·.stored definitions)) key = none) ∨
    ∃ field ∈ fields, field.key = key ∧
      fieldOf (fields.map (·.stored definitions)) key = some (field.stored definitions) ∧
      (field.value.kind = .text ∧ (∃ text, textOf fields key = some text ∧
          field.value.jsonValue = .string text) ∨
        field.value.kind ≠ .text ∧ textOf fields key = none) := by
  rcases field_cases definitions hnodup key with h | ⟨field, hf, hkey, htext, hrow⟩
  · exact .inl h
  · refine .inr ⟨field, hf, hkey, hrow, ?_⟩
    rw [htext]
    by_cases hkind : field.value.kind = .text
    · obtain ⟨text, hplain⟩ := plain?_of_kind hkind
      exact .inl ⟨hkind, text, hplain, (plain?_eq_some hplain).2⟩
    · refine .inr ⟨hkind, Option.eq_none_iff_forall_ne_some.mpr fun text hplain => hkind ?_⟩
      exact (plain?_eq_some hplain).1

/-- A value that is no string is printed as something. -/
theorem part_text_ne {value : JsonValue} (hprints : PrintsNumbers numberText)
    (hpart : ∀ text, text ≠ [] → (∀ c ∈ text, isPrinted c = true) → part (some text) ≠ part none)
    (hstring : value.asStr = none) : part (some (value.text numberText)) ≠ part none := by
  cases value with
  | string text => cases hstring
  | number number => exact hpart _ (hprints.ne_nil number) (hprints.printed number)
  | boolean value =>
    cases value with
    | true =>
      exact hpart "true".toList (by decide)
        (List.all_eq_true.mp (by decide : "true".toList.all isPrinted = true))
    | false =>
      exact hpart "false".toList (by decide)
        (List.all_eq_true.mp (by decide : "false".toList.all isPrinted = true))

variable (part key definitions) in
/-- The indexer reads the field as it was read when the report was accepted. -/
theorem indexed_part_iff (hnodup : (fields.map (·.key)).Nodup) (hprints : PrintsNumbers numberText)
    (hpart : ∀ text, text ≠ [] → (∀ c ∈ text, isPrinted c = true) →
      part (some text) ≠ part none) :
    part (textOf fields key) = part ((fieldOf (fields.map (·.stored definitions)) key).map
        (·.value.text numberText)) ↔
      TextOrSilent fields key fun text => part (some text) = part none := by
  rcases readings definitions hnodup key with
    ⟨hne, htext, hrow⟩ | ⟨field, hf, rfl, hrow, hkind⟩
  · rw [htext, hrow]
    exact ⟨fun _ field hf hkey => absurd hkey (hne field hf), fun _ => rfl⟩
  have hone : ∀ other ∈ fields, other.key = field.key → other = field := fun other ho hkey =>
    Rows.eq_of_key hnodup ho hf hkey
  rcases hkind with ⟨hkind, text, htext, hjson⟩ | ⟨hkind, htext⟩
  · rw [htext, hrow]
    simp only [Option.map_some, DiagnosticField.stored, hjson, JsonValue.text, true_iff]
    exact fun other ho hkey => .inl (hone other ho hkey ▸ hkind)
  · rw [htext, hrow, Option.map_some]
    constructor
    · intro heq other ho hkey
      obtain rfl := hone other ho hkey
      refine .inr ?_
      cases hjson : other.value.jsonValue with
      | string text =>
        refine ⟨text, rfl, ?_⟩
        rw [heq, DiagnosticField.stored, hjson]
        rfl
      | _ =>
        refine absurd heq.symm (part_text_ne hprints hpart ?_)
        rw [DiagnosticField.stored, hjson]
        rfl
    · intro h
      obtain ⟨text, hjson, hsilent⟩ := (h field hf rfl).resolve_left hkind
      rw [DiagnosticField.stored, hjson]
      exact hsilent.symm

variable (part key definitions) in
/-- The indexer reads what was read when the report was accepted, where something was. -/
theorem indexed_part_under (hnodup : (fields.map (·.key)).Nodup) :
    part (textOf fields key) = part none ∨
      part (textOf fields key) = part ((fieldOf (fields.map (·.stored definitions)) key).map
        (·.value.text numberText)) := by
  rcases readings definitions hnodup key with
    ⟨-, htext, -⟩ | ⟨field, -, -, hrow, ⟨-, text, htext, hjson⟩ | ⟨-, htext⟩⟩
  · exact .inl (by rw [htext])
  · refine .inr ?_
    rw [htext, hrow, Option.map_some, DiagnosticField.stored, hjson]
    rfl
  · exact .inl (by rw [htext])

variable (part key definitions) in
/-- The page reads what was read when the report was accepted, where no other string says
something. -/
theorem shown_part_eq (hnodup : (fields.map (·.key)).Nodup)
    (h : TextOrSilent fields key fun text => part (some text) = part none) :
    part (textOf fields key) =
      part (fieldString (fields.map (·.stored definitions)) key) := by
  unfold fieldString
  rcases readings definitions hnodup key with
    ⟨-, htext, hrow⟩ | ⟨field, hf, hkey, hrow, ⟨-, text, htext, hjson⟩ | ⟨hkind, htext⟩⟩
  · rw [htext, hrow]
    rfl
  · rw [htext, hrow, Option.bind_some, DiagnosticField.stored, hjson]
    rfl
  · obtain ⟨text, hjson, hsilent⟩ := (h field hf hkey).resolve_left hkind
    rw [htext, hrow, Option.bind_some, DiagnosticField.stored, hjson]
    exact hsilent.symm

end

/-! ## When the three are equal -/

def Blank (text : Str) : Prop := trim text = []

/-- Nothing stands before the first bracket or space. -/
def NoSignal (text : Str) : Prop := splitHead (fun c => c == '(' || c == ' ') text = []

/-- The process, the signal and the failure reason come as text if they say anything, and the stack
trace is shown; the first two and where the trace is do not matter where it has no frames and there
is no reason. -/
def SignedAlike (u : Unicode) (fields : List DiagnosticField) (definitions : FieldDefinitions) :
    Prop :=
  ∀ field, signingField fields definitions = some field →
    ∀ stack parsed, field.value.jsonValue = .string stack → parseStackTrace u stack = .ok parsed →
      TextOrSilent fields failureReasonKey Blank ∧
      ((∀ reason, textOf fields failureReasonKey = some reason → Blank reason) ∧
          parsed.frameKeys = [] ∧ parsed.addressKeys = [] ∨
        TextOrSilent fields processKey Blank ∧ TextOrSilent fields signalKey NoSignal ∧
          isInOverview (fields.map (·.stored definitions)) field.key = false)

section

variable {u : Unicode} {fields : List DiagnosticField} {definitions : FieldDefinitions}
  {numberText : JsonNumber → Str}

theorem not_blank_of_printed {text : Str} (hne : text ≠ [])
    (hprinted : ∀ c ∈ text, isPrinted c = true) : ¬Blank text := by
  intro hblank
  obtain ⟨c, rest, rfl⟩ := List.exists_cons_of_ne_nil hne
  have hspace := trim_eq_nil_iff.mp hblank c List.mem_cons_self
  rw [(isPrinted_facts (hprinted c List.mem_cons_self)).1] at hspace
  cases hspace

theorem not_noSignal_of_printed {text : Str} (hne : text ≠ [])
    (hprinted : ∀ c ∈ text, isPrinted c = true) : ¬NoSignal text := by
  intro hsilent
  obtain ⟨c, rest, rfl⟩ := List.exists_cons_of_ne_nil hne
  have hfirst := (isPrinted_facts (hprinted c List.mem_cons_self)).2.1
  unfold NoSignal splitHead at hsilent
  rw [List.takeWhile_cons_of_pos (by dsimp only; rw [hfirst]; rfl)] at hsilent
  cases hsilent

/-- What is signed when the report is indexed has no character that ends a component. -/
theorem storable_indexedTexts (hlower : ∀ s, '\x00' ∉ s → '\x00' ∉ u.toLowercase s)
    (hprints : PrintsNumbers numberText) {rows : List StoredField}
    (hstorable : ∀ row ∈ rows, row.value.isStorable = true) :
    (indexedTexts numberText rows).Storable u := by
  have htext : ∀ key, '\x00' ∉ ((fieldOf rows key).map (·.value.text numberText)).getD [] := by
    intro key
    cases hrow : fieldOf rows key with
    | none => exact List.not_mem_nil
    | some row =>
      have hrow := hstorable row (List.mem_of_find?_eq_some hrow)
      change '\x00' ∉ row.value.text numberText
      cases hvalue : row.value with
      | string text => simpa [hvalue, JsonValue.isStorable, JsonValue.text] using hrow
      | number number =>
        exact fun hmem => (isPrinted_facts (hprints.printed number _ hmem)).2.2 rfl
      | boolean value => cases value <;> simp [JsonValue.text]
  refine ⟨?_, ?_, fun failure hfailure => ?_⟩
  · intro hmem
    obtain ⟨c, hc, hzero⟩ := List.mem_map.mp hmem
    have hne : c ≠ '\x00' := fun heq => htext processKey (trim_subset _ (heq ▸ hc))
    exact toLower_ne_zero hne hzero
  · intro hmem
    obtain ⟨c, hc, hzero⟩ := List.mem_map.mp hmem
    have hne : c ≠ '\x00' := fun heq =>
      htext signalKey ((List.takeWhile_sublist _).subset (heq ▸ hc))
    exact toUpper_ne_zero hne hzero
  · obtain ⟨reason, hreason, hkey⟩ := Option.bind_eq_some_iff.mp hfailure
    refine zero_not_mem_failureKey hlower ?_ hkey
    have := htext failureReasonKey
    rwa [show (fieldOf rows failureReasonKey).map _ = some reason from hreason] at this

theorem processOf_silent (text : Str) :
    SignatureTexts.processOf (some text) = SignatureTexts.processOf none ↔ Blank text :=
  (List.map_eq_nil_iff : toAsciiLowercase (trim text) = [] ↔ trim text = [])

theorem signalOf_silent (text : Str) :
    SignatureTexts.signalOf (some text) = SignatureTexts.signalOf none ↔ NoSignal text :=
  (List.map_eq_nil_iff : toAsciiUppercase (splitHead _ text) = [] ↔ splitHead _ text = [])

theorem failureOf_silent (text : Str) :
    SignatureTexts.failureOf u (some text) = SignatureTexts.failureOf u none ↔ Blank text :=
  failureKey_eq_none_iff

open SignatureTexts in
/-- Which parts the indexer signs as they were signed when the report was accepted. -/
theorem indexed_parts_iff (definitions : FieldDefinitions) (hnodup : (fields.map (·.key)).Nodup)
    (hprints : PrintsNumbers numberText) :
    let accepted := acceptedTexts fields
    let indexed := indexedTexts numberText (fields.map (·.stored definitions))
    (accepted.processPart = indexed.processPart ↔ TextOrSilent fields processKey Blank) ∧
      (accepted.signalPart = indexed.signalPart ↔ TextOrSilent fields signalKey NoSignal) ∧
      (accepted.failurePart u = indexed.failurePart u ↔
        TextOrSilent fields failureReasonKey Blank) := by
  refine ⟨?_, ?_, ?_⟩
  · have h := indexed_part_iff processOf processKey definitions hnodup hprints
      fun text hne hprinted heq =>
        not_blank_of_printed hne hprinted ((processOf_silent text).mp heq)
    simp only [processOf_silent] at h
    exact h
  · have h := indexed_part_iff signalOf signalKey definitions hnodup hprints
      fun text hne hprinted heq =>
        not_noSignal_of_printed hne hprinted ((signalOf_silent text).mp heq)
    simp only [signalOf_silent] at h
    exact h
  · have h := indexed_part_iff (failureOf u) failureReasonKey definitions hnodup hprints
      fun text hne hprinted heq =>
        not_blank_of_printed hne hprinted ((failureOf_silent text).mp heq)
    simp only [failureOf_silent] at h
    exact h

theorem under_indexedTexts (definitions : FieldDefinitions)
    (hnodup : (fields.map (·.key)).Nodup) :
    (acceptedTexts fields).Under u
      (indexedTexts numberText (fields.map (·.stored definitions))) :=
  ⟨indexed_part_under SignatureTexts.processOf processKey definitions hnodup,
    indexed_part_under SignatureTexts.signalOf signalKey definitions hnodup,
    indexed_part_under (SignatureTexts.failureOf u) failureReasonKey definitions hnodup⟩

open SignatureTexts in
/-- Where a part comes as text, the page signs it as well. -/
theorem shown_parts (definitions : FieldDefinitions) (hnodup : (fields.map (·.key)).Nodup) :
    let accepted := acceptedTexts fields
    let shown := shownTexts (fields.map (·.stored definitions))
    (TextOrSilent fields processKey Blank → accepted.processPart = shown.processPart) ∧
      (TextOrSilent fields signalKey NoSignal → accepted.signalPart = shown.signalPart) ∧
      (TextOrSilent fields failureReasonKey Blank →
        accepted.failurePart u = shown.failurePart u) := by
  refine ⟨fun h => ?_, fun h => ?_, fun h => ?_⟩
  · exact shown_part_eq processOf processKey definitions hnodup
      (h.mono fun text => (processOf_silent text).mpr)
  · exact shown_part_eq signalOf signalKey definitions hnodup
      (h.mono fun text => (signalOf_silent text).mpr)
  · exact shown_part_eq (failureOf u) failureReasonKey definitions hnodup
      (h.mono fun text => (failureOf_silent text).mpr)

variable {kind : ReportKind} {jsonText : JsonValue → Str} {references : List Str}
  {limits : FieldLimits}

theorem insufficient_iff_blank {parsed : ParsedStackTrace} :
    (acceptedTexts fields).Insufficient u parsed ↔
      (∀ reason, textOf fields failureReasonKey = some reason → Blank reason) ∧
        parsed.frameKeys = [] ∧ parsed.addressKeys = [] := by
  unfold SignatureTexts.Insufficient
  refine and_congr_left fun _ => ?_
  change (textOf fields failureReasonKey).bind (failureKey u) = none ↔ _
  rw [Option.bind_eq_none_iff]
  simp only [failureKey_eq_none_iff, Blank]

/-- When the signatures of one stack trace are equal. -/
theorem fingerprints_agree_iff (kind : ReportKind) {definitions : FieldDefinitions}
    (parsed : ParsedStackTrace) (hidden : Bool)
    (hlower : ∀ s, '\x00' ∉ s → '\x00' ∉ u.toLowercase s) (hprints : PrintsNumbers numberText)
    (hnodup : (fields.map (·.key)).Nodup)
    (hstorable : ∀ row ∈ fields.map (·.stored definitions), row.value.isStorable = true) :
    (∀ sha256,
      (acceptedTexts fields).fingerprint u sha256 kind parsed =
        (indexedTexts numberText (fields.map (·.stored definitions))).fingerprint u sha256 kind
          parsed ∧
      (if hidden then none else
        (shownTexts (fields.map (·.stored definitions))).fingerprint u sha256 kind parsed) =
        (acceptedTexts fields).fingerprint u sha256 kind parsed) ↔
    TextOrSilent fields failureReasonKey Blank ∧
      ((∀ reason, textOf fields failureReasonKey = some reason → Blank reason) ∧
          parsed.frameKeys = [] ∧ parsed.addressKeys = [] ∨
        TextOrSilent fields processKey Blank ∧ TextOrSilent fields signalKey NoSignal ∧
          hidden = false) := by
  obtain ⟨hprocess, hsignal, hfailure⟩ :=
    indexed_parts_iff (u := u) definitions hnodup hprints
  obtain ⟨hprocess', hsignal', hfailure'⟩ := shown_parts (u := u) definitions hnodup
  have hindexed := SignatureTexts.fingerprint_eq_iff kind parsed
    (under_indexedTexts (u := u) definitions hnodup)
    (storable_indexedTexts hlower hprints hstorable)
  rw [hprocess, hsignal, hfailure] at hindexed
  rw [← insufficient_iff_blank]
  constructor
  · intro h
    obtain ⟨hreason, hparts⟩ := hindexed.mp fun sha256 => (h sha256).1
    refine ⟨hreason, ?_⟩
    by_cases hinsufficient : (acceptedTexts fields).Insufficient u parsed
    · exact .inl hinsufficient
    · obtain ⟨hp, hs⟩ := hparts.resolve_left hinsufficient
      refine .inr ⟨hp, hs, ?_⟩
      cases hidden with
      | false => rfl
      | true =>
        have hnone := (h fun _ => []).2
        exact absurd (SignatureTexts.fingerprint_eq_none_iff.mp hnone.symm) hinsufficient
  · rintro ⟨hreason, hparts⟩ sha256
    refine ⟨hindexed.mpr ⟨hreason, hparts.imp_right fun h => ⟨h.1, h.2.1⟩⟩ sha256, ?_⟩
    have hshown := SignatureTexts.fingerprint_congr kind (hfailure' hreason)
      (hparts.imp_right fun h => ⟨hprocess' h.1, hsignal' h.2.1⟩) sha256
    rcases hparts with hinsufficient | ⟨-, -, rfl⟩
    · rw [← hshown, SignatureTexts.fingerprint_eq_none_iff.mpr hinsufficient, ite_self]
    · exact hshown.symm

/-- The three signatures of an accepted report are equal, whatever the hash, exactly when what is
signed next to the stack comes as text and the stack trace is shown. -/
theorem signatures_agree_iff (hlower : ∀ s, '\x00' ∉ s → '\x00' ∉ u.toLowercase s)
    (hprints : PrintsNumbers numberText)
    (hvalid : validateFields fields references definitions limits = .ok ())
    (hstorable : ∀ field ∈ fields, field.value.jsonValue.isStorable = true) :
    (∀ sha256, ∃ signature,
      acceptedSignature u sha256 kind fields definitions = .ok signature ∧
      indexedSignature u sha256 numberText kind (fields.map (·.stored definitions)) definitions =
        .ok signature ∧
      shownSignature u sha256 jsonText kind (fields.map (·.stored definitions)) definitions =
        .ok signature.join) ↔
    SignedAlike u fields definitions := by
  have hnodup := nodup_of_validateFields hvalid
  have hkeys : ((fields.map (·.stored definitions)).map (·.key)).Nodup := by rwa [List.map_map]
  have hrows : ∀ row ∈ fields.map (·.stored definitions), row.value.isStorable = true := by
    intro row hrow
    obtain ⟨field, hf, rfl⟩ := List.mem_map.mp hrow
    exact hstorable field hf
  unfold acceptedSignature indexedSignature SignedAlike
  rw [submittedStackTrace_eq, reportStackTrace_eq]
  cases hsigning : signingField fields definitions with
  | none =>
    refine ⟨fun _ field h => (by cases h), fun _ sha256 => ⟨none, rfl, rfl, ?_⟩⟩
    choose signature hsignature using
      exists_shownField definitions u sha256 jsonText kind (fields.map (·.stored definitions))
    unfold shownSignature shownFields
    rw [mapM_eq_ok fun r _ => hsignature r, reportStackTrace_eq, hsigning]
    rfl
  | some field =>
    obtain ⟨hf, -, stack, hstack⟩ := signingField_eq_some hsigning
    obtain ⟨parsed, hparsed⟩ := parseStackTrace_safe u stack
    have htrace : reportStackTrace definitions (fields.map (·.stored definitions)) =
        some (field.stored definitions) := by rw [reportStackTrace_eq, hsigning]; rfl
    have hagree := fingerprints_agree_iff kind parsed
      (isInOverview (fields.map (·.stored definitions)) field.key) hlower hprints hnodup hrows
    refine Iff.trans (forall_congr' fun sha256 => ?_) (hagree.trans ?_)
    · rw [shownSignature_eq hkeys htrace hstack hparsed]
      simp only [Option.map_some, hstack, JsonValue.asStr, Option.getD_some,
        signatureOf_eq _ hparsed, DiagnosticField.stored, JsonValue.text, ok_bind]
      constructor
      · rintro ⟨signature, haccepted, hindexed, hshown⟩
        obtain rfl := pure_eq_ok.mp haccepted
        exact ⟨(Option.some.inj (pure_eq_ok.mp hindexed)).symm, Except.ok.inj hshown⟩
      · rintro ⟨hindexed, hshown⟩
        exact ⟨_, rfl, congrArg (fun s => Except.ok (some s)) hindexed.symm,
          congrArg Except.ok hshown⟩
    · constructor
      · rintro h field' heq stack' parsed' hstack' hparsed'
        cases heq
        cases hstack.symm.trans hstack'
        cases hparsed.symm.trans hparsed'
        exact h
      · exact fun h => h field rfl stack parsed hstack hparsed

end

/-- A crash with a stack of one frame, a failure reason and a signal. -/
def sampleFields (signal : FieldValue) : List DiagnosticField :=
  [⟨stackKey, .stackTrace "#0 0x1 in f (a.cpp:1)".toList⟩, ⟨signalKey, signal⟩,
    ⟨failureReasonKey, .text "out of memory".toList⟩]

/-- The signal is defined as a number. -/
def signalIsNumber : FieldDefinitions := fun key =>
  if key = signalKey then some ⟨signalKey, "Signal".toList, .number, 0⟩ else none

def sampleNumberText (number : JsonNumber) : Str :=
  if number = .integer 11 then "11".toList else "0".toList

theorem sampleNumberText_prints : PrintsNumbers sampleNumberText where
  ne_nil number := by unfold sampleNumberText; split <;> decide
  printed number := by
    unfold sampleNumberText
    split
    · exact List.all_eq_true.mp (by decide : "11".toList.all isPrinted = true)
    · exact List.all_eq_true.mp (by decide : "0".toList.all isPrinted = true)

theorem ascii_lower_ne_zero (s : Str) (h : '\x00' ∉ s) : '\x00' ∉ Unicode.ascii.toLowercase s :=
  fun hmem =>
    let ⟨_, hc, hzero⟩ := List.mem_map.mp hmem
    toLower_ne_zero (fun heq => h (heq ▸ hc)) hzero

/-- A signal that comes as text is signed alike. -/
theorem text_signal_is_signed_alike :
    validateFields (sampleFields (.text "SIGSEGV".toList)) [] (fun _ => none) ⟨256, 4096, 65536⟩ =
      .ok () ∧
    ∀ sha256, ∃ signature,
      acceptedSignature .ascii sha256 .crash (sampleFields (.text "SIGSEGV".toList))
          (fun _ => none) = .ok signature ∧
        indexedSignature .ascii sha256 sampleNumberText .crash
          ((sampleFields (.text "SIGSEGV".toList)).map (·.stored fun _ => none)) (fun _ => none) =
          .ok signature ∧
        shownSignature .ascii sha256 (fun _ => []) .crash
          ((sampleFields (.text "SIGSEGV".toList)).map (·.stored fun _ => none)) (fun _ => none) =
          .ok signature.join := by
  have hvalid : validateFields (sampleFields (.text "SIGSEGV".toList)) [] (fun _ => none)
      ⟨256, 4096, 65536⟩ = .ok () := by decide +kernel
  have hkinds : ∀ field ∈ sampleFields (.text "SIGSEGV".toList),
      field.key = stackKey ∨ field.value.kind = .text := by decide
  have htext : ∀ key silent, key ≠ stackKey →
      TextOrSilent (sampleFields (.text "SIGSEGV".toList)) key silent :=
    fun key silent hne field hf hkey =>
      .inl ((hkinds field hf).resolve_left fun h => hne (hkey.symm.trans h))
  refine ⟨hvalid, (signatures_agree_iff ascii_lower_ne_zero sampleNumberText_prints hvalid
    (by decide)).mpr fun field hfield _ _ _ _ => ⟨htext _ _ (by decide), .inr ?_⟩⟩
  refine ⟨htext _ _ (by decide), htext _ _ (by decide), ?_⟩
  have hshown : ∀ field ∈ sampleFields (.text "SIGSEGV".toList),
      isInOverview ((sampleFields (.text "SIGSEGV".toList)).map (·.stored fun _ => none))
        field.key = false := by decide
  exact hshown field (signingField_eq_some hfield).1

/-- A signal that comes as a number is signed only once the report is indexed. -/
theorem number_signal_is_signed_later :
    validateFields (sampleFields (.number (.integer 11))) [] signalIsNumber ⟨256, 4096, 65536⟩ =
      .ok () ∧
    acceptedSignature .ascii (List.map fun b => Char.ofNat b.toNat) .crash
        (sampleFields (.number (.integer 11))) signalIsNumber ≠
      indexedSignature .ascii (List.map fun b => Char.ofNat b.toNat) sampleNumberText .crash
        ((sampleFields (.number (.integer 11))).map (·.stored signalIsNumber)) signalIsNumber := by
  decide +kernel

end LadybirdReports
