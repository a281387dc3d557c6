import LadybirdReports.Domain.ClientStack
import LadybirdReports.Domain.SignatureSeparation
import LadybirdReports.Lib.DigitRuns

/-!
# A crash on two machines

The same crash is written differently by two builds: build IDs, addresses, offsets into functions
and the paths of modules change, and so do the numbers in a failure reason.

1. A frame is told by its symbol without the offset (`bareSymbol_offset`), and so are its relevance
   and its name.
2. A failure key blanks the numbers of the message and leaves out what follows the file
   (`failureKey_eq_of_sameReason`).

The two reports have one fingerprint if they have a failure key, or a name in a frame that is
neither plumbing nor an entry point (`fingerprint_invariant`). Without either the addresses tell
crashes apart, also when plumbing is named (`plumbing_tells_nothing`).
-/

namespace LadybirdReports

open Rust

/-! ## Failure reasons -/

/-- The source file of a failure reason, if it names one. -/
def sourceFile (reason : Str) : Str :=
  match rsplitOnce? " at ".toList (trim reason) with
  | some (_, location) => if contains location [':'] then splitHead (· == ':') location else []
  | none => []

/-- The reasons differ in numbers only, and not in those of the file. -/
structure SameReason (a b : Str) : Prop where
  digits : SameButDigits a b
  file : sourceFile a = sourceFile b

/-- A digit has no case, and letters do not look past it. -/
structure LowersAroundDigits (u : Unicode) : Prop where
  nil : u.toLowercase [] = []
  digit : ∀ a c b, isAsciiDigit c = true →
    u.toLowercase (a ++ c :: b) = u.toLowercase a ++ c :: u.toLowercase b

section

variable {u : Unicode} {a b d s t : Str} {hash : Bool}

/-- What blanking has written before the rest of a text. -/
def hashAfter (hash : Bool) : Str → Bool
  | [] => hash
  | c :: s => hashAfter (isAsciiDigit c || c = '#') s

theorem blankDigits_append (s t : Str) :
    blankDigits hash (s ++ t) = blankDigits hash s ++ blankDigits (hashAfter hash s) t := by
  induction s generalizing hash with
  | nil => rfl
  | cons c s ih =>
    rw [List.cons_append, blankDigits, blankDigits, hashAfter]
    by_cases hc : isAsciiDigit c = true
    · rw [if_pos hc, if_pos hc, ih, List.append_assoc, hc, Bool.true_or]
    · rw [if_neg hc, if_neg hc, ih, Bool.eq_false_iff.mpr hc, Bool.false_or, List.cons_append]

/-- A run of digits is one sign. -/
theorem blankDigits_digits (hd : d ≠ []) (hdigits : ∀ c ∈ d, isAsciiDigit c = true) :
    blankDigits hash (d ++ s) = (if hash then [] else ['#']) ++ blankDigits true s := by
  induction d generalizing hash with
  | nil => exact absurd rfl hd
  | cons c d ih =>
    obtain ⟨hc, hdigits⟩ := List.forall_mem_cons.mp hdigits
    rw [List.cons_append, blankDigits, if_pos hc]
    by_cases hnil : d = []
    · rw [hnil, List.nil_append]
    · rw [ih hnil hdigits, if_pos rfl, List.nil_append]

theorem LowersAroundDigits.digits (h : LowersAroundDigits u)
    (hdigits : ∀ c ∈ d, isAsciiDigit c = true) (hd : d ≠ []) :
    u.toLowercase (a ++ d ++ b) = u.toLowercase a ++ d ++ u.toLowercase b := by
  induction d generalizing a with
  | nil => exact absurd rfl hd
  | cons c d ih =>
    obtain ⟨hc, hdigits⟩ := List.forall_mem_cons.mp hdigits
    rw [List.append_assoc, List.cons_append, h.digit a c (d ++ b) hc]
    by_cases hnil : d = []
    · rw [hnil]
      simp
    · have hrest := ih (a := []) hdigits hnil
      rw [List.nil_append, h.nil, List.nil_append] at hrest
      rw [hrest]
      simp

/-- Messages that differ in numbers only are normalised to one. -/
theorem blankDigits_toLowercase (h : LowersAroundDigits u) (hsame : SameButDigits s t)
    (hash : Bool) (start : Str) : blankDigits hash (u.toLowercase (start ++ s)) =
      blankDigits hash (u.toLowercase (start ++ t)) := by
  induction hsame generalizing start hash with
  | nil => rfl
  | char c _ ih =>
    have ih := ih hash (start ++ [c])
    simpa using ih
  | @run d e s t hd he hdigits hedigits _ ih =>
    have ih := ih true []
    rw [List.nil_append, List.nil_append] at ih
    rw [← List.append_assoc, ← List.append_assoc, h.digits hdigits hd, h.digits hedigits he,
      List.append_assoc, List.append_assoc, blankDigits_append (u.toLowercase start),
      blankDigits_append (u.toLowercase start), blankDigits_digits hd hdigits,
      blankDigits_digits he hedigits, ih]

/-- The message of a reason that was trimmed, and what follows the file's name. -/
theorem failureKey_eq_of_sameReason (h : LowersAroundDigits u) (hsame : SameReason a b) :
    failureKey u a = failureKey u b := by
  have hkey {s t : Str} (hst : SameButDigits s t) (x : Str) :
      (if s = [] then none else some (blankDigits false (u.toLowercase s) ++ ['@'] ++ x)) =
        if t = [] then none else some (blankDigits false (u.toLowercase t) ++ ['@'] ++ x) := by
    have hblank := blankDigits_toLowercase h hst false []
    rw [List.nil_append, List.nil_append] at hblank
    rw [hblank]
    exact if_congr hst.eq_nil_iff rfl rfl
  have hfile := hsame.file
  unfold sourceFile at hfile
  unfold failureKey
  dsimp only
  have hnot : ∀ c ∈ " at ".toList, isAsciiDigit c = false :=
    forall_of_all (by decide)
  rcases hsame.digits.trim.rsplitOnce?_cases (by decide) hnot with
    ⟨hs, ht⟩ | ⟨x, y, x', y', hs, ht, hx, hy⟩
  · rw [hs, ht]
    exact hkey hsame.digits.trim _
  · rw [hs, ht] at hfile ⊢
    dsimp only at hfile ⊢
    have hcolon : contains y [':'] = contains y' [':'] := by
      have hmem (s : Str) : contains s [':'] = true ↔ ':' ∈ s := by
        rw [contains_iff]
        constructor
        · rintro ⟨p, q, rfl⟩
          simp
        · intro hmem
          obtain ⟨p, q, rfl⟩ := List.append_of_mem hmem
          exact ⟨p, q, by simp⟩
      rw [Bool.eq_iff_iff, hmem, hmem]
      exact hy.mem_iff (by decide)
    by_cases hlocation : contains y' [':'] = true
    · simp only [hcolon, hlocation, if_true] at hfile ⊢
      rw [hfile]
      exact hkey hx _
    · simp only [hcolon, hlocation, Bool.false_eq_true, if_false]
      exact hkey hsame.digits.trim _

end

/-! ## Frames -/

/-- The symbols are the same but for the value of the offset. -/
def SameSymbol (a b : Str) : Prop :=
  a = b ∨ ∃ name offset offset', a = name ++ " + ".toList ++ offset ∧
    b = name ++ " + ".toList ++ offset' ∧ isOffset offset = true ∧ isOffset offset' = true

def ClientFrame.symbol? (frame : ClientFrame) : Option ClientSymbol :=
  frame.address.bind ClientAddress.symbol

/-- The frames have the same symbol, or none has one. -/
def SameFrame (f g : ClientFrame) : Prop :=
  Option.Rel (fun s t : ClientSymbol => SameSymbol s.symbol t.symbol) f.symbol? g.symbol?

section

variable {u : Unicode} {a b offset : Str} {f g : ClientFrame} {row row' : StackTraceRow}
  {rows rows' : List StackTraceRow} {parsed parsed' next next' : ParsedStackTrace}

theorem blank_not_mem_offset (h : isOffset offset = true) : ' ' ∉ offset := by
  intro hmem
  unfold isOffset at h
  rcases Bool.or_eq_true_iff.mp h with h | h
  · exact absurd (List.all_eq_true.mp h ' ' hmem) (by decide)
  · obtain ⟨hex, hstrip, hhex⟩ := (Option.any_eq_true _ _).mp h
    unfold stripPrefix? at hstrip
    split_ifs at hstrip with hstarts
    obtain ⟨rest, rfl⟩ := startsWith_iff.mp hstarts
    rw [List.drop_left] at hstrip
    cases hstrip
    rcases List.mem_append.mp hmem with hmem | hmem
    · exact absurd hmem (by decide)
    · exact absurd (List.all_eq_true.mp hhex ' ' hmem) (by decide)

/-- The offset is cut off. -/
theorem bareSymbol_offset (name : Str) (h : isOffset offset = true) :
    bareSymbol (name ++ " + ".toList ++ offset) =
      trim ((stripPrefix? (trim name) "(inlined) ".toList).getD name) := by
  unfold bareSymbol
  rw [rsplitOnce?_append (p := ' ') (by decide) (blank_not_mem_offset h)]
  dsimp only
  rw [if_pos h]

theorem bareSymbol_eq_of_sameSymbol (h : SameSymbol a b) : bareSymbol a = bareSymbol b := by
  rcases h with rfl | ⟨name, offset, offset', rfl, rfl, hoffset, hoffset'⟩
  · rfl
  · rw [bareSymbol_offset name hoffset, bareSymbol_offset name hoffset']

theorem functionName_congr (h : bareSymbol a = bareSymbol b) :
    functionName u a = functionName u b := by
  unfold functionName
  rw [h]

theorem isRelevantSymbol_congr (h : bareSymbol a = bareSymbol b) :
    isRelevantSymbol a = isRelevantSymbol b := by
  unfold isRelevantSymbol isRelevant isGenericFrame isRuntimeFrame
  rw [h]

/-- The rows say the same of their function. -/
structure SameRow (u : Unicode) (row row' : StackTraceRow) : Prop where
  relevant : row.relevant = row'.relevant
  name : row.relevant = true → functionName u row.symbol = functionName u row'.symbol

theorem relevant_of_none (h : f.symbol? = none) : f.row.relevant = false := by
  unfold ClientFrame.symbol? at h
  unfold ClientFrame.row
  split
  · rfl
  · rename_i a ha
    rw [ha, Option.bind_some] at h
    rw [h]
    rfl

theorem row_of_some {s : ClientSymbol} (h : f.symbol? = some s) :
    f.row.relevant = isRelevantSymbol s.symbol ∧ f.row.symbol = s.symbol := by
  obtain ⟨a, ha, hs⟩ := Option.bind_eq_some_iff.mp h
  unfold ClientFrame.row
  rw [ha]
  dsimp only
  rw [hs]
  exact ⟨rfl, rfl⟩

theorem sameRow_of_sameFrame (h : SameFrame f g) : SameRow u f.row g.row := by
  unfold SameFrame at h
  cases hf : f.symbol? with
  | none =>
    rw [hf] at h
    have hg : g.symbol? = none := by
      cases hg : g.symbol? with
      | none => rfl
      | some t =>
        rw [hg] at h
        cases h
    constructor
    · rw [relevant_of_none hf, relevant_of_none hg]
    · rw [relevant_of_none hf]
      simp
  | some s =>
    cases hg : g.symbol? with
    | none =>
      rw [hf, hg] at h
      cases h
    | some t =>
      rw [hf, hg] at h
      cases h with
      | some h =>
        have hbare := bareSymbol_eq_of_sameSymbol h
        obtain ⟨hrelevant, hsymbol⟩ := row_of_some hf
        obtain ⟨hrelevant', hsymbol'⟩ := row_of_some hg
        constructor
        · rw [hrelevant, hrelevant', isRelevantSymbol_congr hbare]
        · rw [hsymbol, hsymbol']
          exact fun _ => functionName_congr hbare

theorem push_frameKeys_eq (hkeys : parsed.frameKeys = parsed'.frameKeys) (hrow : SameRow u row row')
    (h : parsed.push u row = .ok next) (h' : parsed'.push u row' = .ok next') :
    next.frameKeys = next'.frameKeys := by
  have hname : rowKey u parsed row = rowKey u parsed' row' := by
    unfold rowKey
    rw [hkeys, hrow.relevant]
    split_ifs with hroom
    · exact hrow.name (hrow.relevant.trans hroom.1)
    · rfl
  unfold ParsedStackTrace.push at h h'
  obtain ⟨name, hn, h⟩ := bind_eq_ok.mp h
  obtain ⟨name', hn', h'⟩ := bind_eq_ok.mp h'
  cases h
  cases h'
  rw [hname, hn'] at hn
  cases hn
  dsimp only
  rw [hkeys]

theorem pushAll_frameKeys_eq (hrows : List.Forall₂ (SameRow u) rows rows')
    (hkeys : parsed.frameKeys = parsed'.frameKeys) (h : pushAll u rows parsed = .ok next)
    (h' : pushAll u rows' parsed' = .ok next') : next.frameKeys = next'.frameKeys := by
  induction hrows generalizing parsed parsed' with
  | nil =>
    cases h
    cases h'
    exact hkeys
  | cons hrow _ ih =>
    obtain ⟨pushed, hpushed, h⟩ := bind_eq_ok.mp h
    obtain ⟨pushed', hpushed', h'⟩ := bind_eq_ok.mp h'
    exact ih (push_frameKeys_eq hkeys hrow hpushed hpushed') h h'

/-- The frames of both stacks have the same names. -/
theorem frameKeys_eq_of_sameFrames {header : Bool} {fs gs : List ClientFrame}
    (hframes : List.Forall₂ SameFrame fs gs)
    (h : parseStackTrace u (clientText header fs) = .ok parsed)
    (h' : parseStackTrace u (clientText header gs) = .ok parsed') :
    parsed.frameKeys = parsed'.frameKeys := by
  rw [parseStackTrace_eq, stackLines_clientText] at h h'
  obtain ⟨pushed, hpushed, rfl⟩ := map_eq_ok.mp h
  obtain ⟨pushed', hpushed', rfl⟩ := map_eq_ok.mp h'
  suffices hsame : pushed.frameKeys = pushed'.frameKeys from hsame
  refine pushAll_frameKeys_eq (u := u) ?_ rfl hpushed hpushed'
  rw [List.map_map, List.map_map, show frameRow ∘ ClientFrame.line = ClientFrame.row from
    funext frameRow_line]
  refine List.forall₂_map_left_iff.mpr (List.forall₂_map_right_iff.mpr ?_)
  exact (List.forall₂_take _ hframes).imp fun f g hsame => sameRow_of_sameFrame hsame

/-- A frame that is neither plumbing nor an entry point has a function name. -/
def NamesFunction (u : Unicode) (parsed : ParsedStackTrace) : Prop :=
  ∃ row ∈ parsed.rows, row.relevant = true ∧ ∃ name, functionName u row.symbol = .ok (some name)

theorem push_frameKeys_ne_nil (hkeys : parsed.frameKeys ≠ [])
    (h : parsed.push u row = .ok next) : next.frameKeys ≠ [] := by
  unfold ParsedStackTrace.push at h
  obtain ⟨name, -, h⟩ := bind_eq_ok.mp h
  cases h
  simp [hkeys]

theorem push_named {name : Str} (hrelevant : row.relevant = true)
    (hname : functionName u row.symbol = .ok (some name)) (h : parsed.push u row = .ok next) :
    next.frameKeys ≠ [] := by
  by_cases hkeys : parsed.frameKeys = []
  swap
  · exact push_frameKeys_ne_nil hkeys h
  have hkey : rowKey u parsed row = .ok (some name) := by
    unfold rowKey
    rw [if_pos ⟨hrelevant, by rw [hkeys]; decide⟩, hname]
  unfold ParsedStackTrace.push at h
  rw [hkey, ok_bind] at h
  cases h
  simp

theorem pushAll_named (hnamed : parsed.frameKeys ≠ [] ∨ ∃ row ∈ rows, row.relevant = true ∧
      ∃ name, functionName u row.symbol = .ok (some name))
    (h : pushAll u rows parsed = .ok next) : next.frameKeys ≠ [] := by
  induction rows generalizing parsed with
  | nil =>
    cases h
    exact hnamed.resolve_right fun ⟨row, hrow, _⟩ => by cases hrow
  | cons row rows ih =>
    obtain ⟨pushed, hpushed, h⟩ := bind_eq_ok.mp h
    refine ih ?_ h
    rcases hnamed with hkeys | ⟨named, hmem, hrelevant, name, hname⟩
    · exact .inl (push_frameKeys_ne_nil hkeys hpushed)
    · rcases List.mem_cons.mp hmem with rfl | hmem
      · exact .inl (push_named hrelevant hname hpushed)
      · exact .inr ⟨named, hmem, hrelevant, name, hname⟩

theorem frameKeys_of_namesFunction {text : Str} (hnamed : NamesFunction u parsed)
    (h : parseStackTrace u text = .ok parsed) : parsed.frameKeys ≠ [] := by
  have hrows := (rows_of_parseStackTrace h).1
  rw [parseStackTrace_eq] at h
  obtain ⟨pushed, hpushed, rfl⟩ := map_eq_ok.mp h
  obtain ⟨row, hmem, hrelevant, hname⟩ := hnamed
  rw [hrows] at hmem
  have hkeys : pushed.frameKeys ≠ [] := pushAll_named (.inr ⟨row, hmem, hrelevant, hname⟩) hpushed
  exact hkeys

end

/-! ## Two reports of one crash -/

/-- Reports of one crash, written on two machines. -/
structure SameCrash (a b : CrashReport) : Prop where
  kind : a.kind = b.kind
  process : a.texts.processPart = b.texts.processPart
  signal : a.texts.signalPart = b.texts.signalPart
  reason : Option.Rel SameReason a.texts.failureReason b.texts.failureReason
  stack : ∃ header fs gs, a.stack = clientText header fs ∧ b.stack = clientText header gs ∧
    List.Forall₂ SameFrame fs gs

/-- Both have one fingerprint if a frame that counts has a name, or there is a failure key. -/
theorem fingerprint_invariant {u : Unicode} (hlower : LowersAroundDigits u)
    (sha256 : List UInt8 → Str) {a b : CrashReport} {pa pb : ParsedStackTrace}
    (h : SameCrash a b) (hpa : parseStackTrace u a.stack = .ok pa)
    (hpb : parseStackTrace u b.stack = .ok pb)
    (hnamed : NamesFunction u pa ∨ (a.texts.failureReason.bind (failureKey u)).isSome = true) :
    a.fingerprint u pa sha256 = b.fingerprint u pb sha256 := by
  obtain ⟨header, fs, gs, hfs, hgs, hframes⟩ := h.stack
  have hkeys : pa.frameKeys = pb.frameKeys :=
    frameKeys_eq_of_sameFrames hframes (hfs ▸ hpa) (hgs ▸ hpb)
  have hkey : a.texts.failurePart u = b.texts.failurePart u := by
    have hreason := h.reason
    unfold SignatureTexts.failurePart SignatureTexts.failureOf
    generalize a.texts.failureReason = reason, b.texts.failureReason = reason' at hreason ⊢
    cases hreason with
    | none => rfl
    | some hreason => exact failureKey_eq_of_sameReason hlower hreason
  have hfailure : (a.failure u).map keyOf = (b.failure u).map keyOf := by
    rw [← CrashReport.failurePart_eq, ← CrashReport.failurePart_eq, hkey]
  have hna : a.IsNamed u pa := by
    rcases hnamed with hnamed | hnamed
    · exact .inr (frameKeys_of_namesFunction hnamed hpa)
    · refine .inl ?_
      have hpart : (a.texts.failurePart u).isSome = true := hnamed
      rwa [CrashReport.failurePart_eq, Option.isSome_map] at hpart
  have hnb : b.IsNamed u pb := by
    refine hna.imp (fun hsome => ?_) fun hne => hkeys ▸ hne
    rw [← Option.isSome_map (f := keyOf), ← hfailure, Option.isSome_map]
    exact hsome
  rw [CrashReport.fingerprint_of_isNamed hna, CrashReport.fingerprint_of_isNamed hnb,
    CrashReport.hashed_of_isNamed hna, CrashReport.hashed_of_isNamed hnb, h.kind, h.process,
    h.signal, hfailure, hkeys]

/-! ## A crash that is taken for two -/

def plumbingSymbol : ClientSymbol where
  symbol := "abort".toList
  module := none
  ne_nil := by decide
  trimmed := by decide +kernel
  no_feed := by decide
  no_at := by decide +kernel
  module_trimmed := by simp
  module_no_feed := by simp
  module_no_at := by simp
  module_head := by simp

/-- A frame of plumbing, and one without a symbol in some build. -/
def plumbingFrames (digit : Char) (h : isAsciiHexdigit digit = true) : List ClientFrame :=
  [.top ⟨none, ['1'], some plumbingSymbol, fun _ hid => absurd hid (Option.not_mem_none _),
      forall_of_all (by decide)⟩,
    ⟨1, some ⟨some (List.replicate 16 digit), ['2'], none,
      fun _ hid => Option.mem_some.mp hid ▸
        ⟨List.length_replicate.ge, fun _ hc => List.eq_of_mem_replicate hc ▸ h⟩,
      forall_of_all (by decide)⟩, by decide⟩]

def stackReport (frames : List ClientFrame) (reason : Option Str) : CrashReport where
  kind := .crash
  texts := ⟨none, none, reason⟩
  stack := clientText false frames

def plumbingParsed (digit : Char) (h : isAsciiHexdigit digit = true) : ParsedStackTrace where
  rows := (plumbingFrames digit h).map ClientFrame.row
  frameCount := 2
  frameKeys := []
  addressKeys := [List.replicate 16 digit ++ ":0x2".toList]
  truncated := false

/-- The bytes as characters. -/
def plainHash (bytes : List UInt8) : Str := bytes.map fun byte => Char.ofNat byte.toNat

/-- With a name in plumbing only, the addresses of other frames tell crashes apart. -/
theorem plumbing_tells_nothing :
    ¬ ∀ (sha256 : List UInt8 → Str) (a b : CrashReport) (pa pb : ParsedStackTrace),
      SameCrash a b → parseStackTrace Unicode.ascii a.stack = .ok pa →
      parseStackTrace Unicode.ascii b.stack = .ok pb →
      ((∃ row ∈ pa.rows, ∃ name, functionName Unicode.ascii row.symbol = .ok (some name)) ∨
        (a.texts.failureReason.bind (failureKey Unicode.ascii)).isSome = true) →
      a.fingerprint Unicode.ascii pa sha256 = b.fingerprint Unicode.ascii pb sha256 := by
  intro h
  have hsame : SameCrash (stackReport (plumbingFrames 'a' (by decide)) none)
      (stackReport (plumbingFrames 'b' (by decide)) none) :=
    ⟨rfl, rfl, rfl, .none, false, _, _, rfl, rfl,
      .cons (.some (.inl rfl)) (.cons .none .nil)⟩
  have hfingerprint := h plainHash _ _ (plumbingParsed 'a' (by decide))
    (plumbingParsed 'b' (by decide)) hsame (by decide +kernel) (by decide +kernel)
    (.inl ⟨_, List.mem_cons_self, "abort".toList, by decide +kernel⟩)
  exact absurd hfingerprint (by decide +kernel)

/-- The function of `sampleSymbol` in another build. -/
def movedSymbol : ClientSymbol where
  symbol := "Vector<T>::at(unsigned) + 32".toList
  module := none
  ne_nil := by decide
  trimmed := by decide +kernel
  no_feed := by decide
  no_at := by decide +kernel
  module_trimmed := by simp
  module_no_feed := by simp
  module_no_at := by simp
  module_head := by simp

def movedFrames : List ClientFrame :=
  [.top ⟨none, "2a".toList, some movedSymbol, fun _ hid => absurd hid (Option.not_mem_none _),
      forall_of_all (by decide)⟩,
    ⟨1, some ⟨none, [], none, fun _ hid => absurd hid (Option.not_mem_none _),
      fun _ hc => absurd hc List.not_mem_nil⟩, by decide⟩]

theorem ascii_lowersAroundDigits : LowersAroundDigits Unicode.ascii where
  nil := rfl
  digit a c b hc := by
    have hlower : c.toLower = c := by
      unfold isAsciiDigit at hc
      simp only [Bool.and_eq_true, decide_eq_true_eq, show '9'.toNat = 57 from rfl] at hc
      unfold Char.toLower
      refine dif_neg fun hupper => ?_
      have hfirst : 65 ≤ c.toNat := hupper.1
      omega
    change (a ++ c :: b).map Char.toLower = _
    rw [List.map_append, List.map_cons, hlower]
    rfl

theorem moved_crash_has_same_fingerprint :
    ∃ pa pb, (stackReport sampleFrames (some "index 7 at a.rs:1".toList)).fingerprint
        Unicode.ascii pa plainHash =
      (stackReport movedFrames (some "index 12 at a.rs:30".toList)).fingerprint
        Unicode.ascii pb plainHash := by
  obtain ⟨pa, hpa⟩ := parseStackTrace_safe Unicode.ascii (clientText false sampleFrames)
  obtain ⟨pb, hpb⟩ := parseStackTrace_safe Unicode.ascii (clientText false movedFrames)
  refine ⟨pa, pb, fingerprint_invariant ascii_lowersAroundDigits plainHash
    ⟨rfl, rfl, rfl, .some ⟨?_, by decide +kernel⟩, false, _, _, rfl, rfl, ?_⟩ hpa hpb
    (.inr (by decide +kernel))⟩
  · have hline : SameButDigits "1".toList "30".toList :=
      .run (d := "1".toList) (e := "30".toList) (by decide) (by decide) (forall_of_all (by decide))
        (forall_of_all (by decide)) .nil
    have hrest := (SameButDigits.refl " at a.rs:".toList).append hline
    have hindex : SameButDigits "7".toList "12".toList :=
      .run (d := "7".toList) (e := "12".toList) (by decide) (by decide) (forall_of_all (by decide))
        (forall_of_all (by decide)) .nil
    exact (SameButDigits.refl "index ".toList).append (hindex.append hrest)
  · refine .cons (.some (.inr ⟨"Vector<T>::at(unsigned)".toList, "0x10".toList, "32".toList,
      rfl, rfl, by decide +kernel, by decide +kernel⟩)) (.cons .none .nil)

end LadybirdReports
