import LadybirdReports.Domain.SignatureAgreement
import LadybirdReports.Lib.StrChars

/-!
# When two crashes share a fingerprint

What is hashed is a list of components, each ended by a zero byte. A report holds no such byte, so
the list can be read off the bytes (`components_inj`).

One component is put together itself: the failure key is the message, an `@` and the file. Message
and file may have an `@` too, so that two reasons can have one key: `a@b at c:1` and `a at b@c:1`.
Fingerprints tell crashes apart exactly when this does not happen (`fingerprints_separate_iff`).
-/

namespace LadybirdReports

open Rust

/-! ## Lists of components -/

theorem bytes_injective {s t : Str} (h : bytes s = bytes t) : s = t := by
  have hencoded : s.utf8Encode = t.utf8Encode := by
    unfold List.utf8Encode
    exact congrArg List.toByteArray h
  have hdecoded := congrArg ByteArray.utf8Decode? hencoded
  rw [List.utf8Decode?_utf8Encode, List.utf8Decode?_utf8Encode] at hdecoded
  simpa using hdecoded

/-- Two texts before a byte that neither has. -/
theorem append_zero_inj {xs ys s t : List UInt8} (hx : 0 ∉ xs) (hy : 0 ∉ ys)
    (h : xs ++ 0 :: s = ys ++ 0 :: t) : xs = ys ∧ s = t := by
  induction xs generalizing ys with
  | nil =>
    cases ys with
    | nil => exact ⟨rfl, (List.cons.inj h).2⟩
    | cons y ys =>
      have hfirst : 0 = y := (List.cons.inj h).1
      exact absurd (hfirst ▸ List.mem_cons_self) hy
  | cons x xs ih =>
    cases ys with
    | nil =>
      have hfirst : x = 0 := (List.cons.inj h).1
      exact absurd (hfirst ▸ List.mem_cons_self) hx
    | cons y ys =>
      obtain ⟨hfirst, hrest⟩ := List.cons.inj h
      obtain ⟨hsame, htail⟩ := ih (fun hmem => hx (List.mem_cons_of_mem _ hmem))
        (fun hmem => hy (List.mem_cons_of_mem _ hmem)) hrest
      exact ⟨by rw [hfirst, hsame], htail⟩

/-- The components can be read off what is hashed, and so can their number. -/
theorem components_inj {as bs : List Str} (ha : ∀ a ∈ as, '\x00' ∉ a) (hb : ∀ b ∈ bs, '\x00' ∉ b)
    (h : as.flatMap (fun component => bytes component ++ [0]) =
      bs.flatMap fun component => bytes component ++ [0]) : as = bs := by
  induction as generalizing bs with
  | nil =>
    cases bs with
    | nil => rfl
    | cons b bs => simp at h
  | cons a as ih =>
    cases bs with
    | nil => simp at h
    | cons b bs =>
      simp only [List.flatMap_cons, List.append_assoc, List.cons_append, List.nil_append] at h
      obtain ⟨haz, has⟩ := List.forall_mem_cons.mp ha
      obtain ⟨hbz, hbs⟩ := List.forall_mem_cons.mp hb
      obtain ⟨hbytes, hrest⟩ :=
        append_zero_inj (zero_not_mem_bytes haz) (zero_not_mem_bytes hbz) h
      rw [bytes_injective hbytes, ih has hbs hrest]

/-! ## Failure reasons -/

/-- The message of a failure reason, normalised, and its source file. -/
def failureParts? (u : Unicode) (reason : Str) : Option (Str × Str) :=
  let reason := trim reason
  let (message, location) := match rsplitOnce? " at ".toList reason with
    | some (message, location) =>
      if contains location [':'] then (message, location) else (reason, [])
    | none => (reason, [])
  if message = [] then none
  else some (blankDigits false (u.toLowercase message), splitHead (· == ':') location)

/-- How a failure key is put together. -/
def keyOf (parts : Str × Str) : Str := parts.1 ++ ['@'] ++ parts.2

theorem failureKey_eq (u : Unicode) (reason : Str) :
    failureKey u reason = (failureParts? u reason).map keyOf := by
  unfold failureKey failureParts?
  dsimp only
  cases rsplitOnce? " at ".toList (trim reason) with
  | none =>
    dsimp only
    split_ifs <;> rfl
  | some split =>
    dsimp only
    split_ifs <;> rfl

/-- The second message goes on with an `@` and the start of the first file. -/
def GoesOn (a b : Str × Str) : Prop := ∃ x, b.1 = a.1 ++ ['@'] ++ x ∧ a.2 = x ++ ['@'] ++ b.2

/-- Both failures have one key, cut at another `@`. -/
def CutElsewhere (a b : Option (Str × Str)) : Prop :=
  ∃ p ∈ a, ∃ q ∈ b, GoesOn p q ∨ GoesOn q p

theorem keyOf_eq_of_goesOn {p q : Str × Str} (h : GoesOn p q) : keyOf p = keyOf q ∧ p ≠ q := by
  obtain ⟨x, hmessage, hfile⟩ := h
  unfold keyOf
  constructor
  · rw [hmessage, hfile]
    simp
  · rintro rfl
    have hlength := congrArg List.length hmessage
    simp at hlength

/-- Equal keys come from equal parts, or from a cut elsewhere. -/
theorem keyOf_eq_iff {p q : Str × Str} : keyOf p = keyOf q ↔ p = q ∨ GoesOn p q ∨ GoesOn q p := by
  constructor
  swap
  · rintro (rfl | h | h)
    · rfl
    · exact (keyOf_eq_of_goesOn h).1
    · exact (keyOf_eq_of_goesOn h).1.symm
  intro h
  unfold keyOf at h
  simp only [List.append_assoc] at h
  rcases List.append_eq_append_iff.mp h with ⟨x, hmessage, hrest⟩ | ⟨x, hmessage, hrest⟩
  · cases x with
    | nil =>
      have hfile := (List.cons.inj hrest).2
      exact .inl (Prod.ext (by simpa using hmessage.symm) hfile)
    | cons c x =>
      obtain ⟨rfl, hfile⟩ := List.cons.inj hrest
      exact .inr (.inl ⟨x, by simpa using hmessage, by simpa using hfile⟩)
  · cases x with
    | nil =>
      have hfile := (List.cons.inj hrest).2
      exact .inl (Prod.ext (by simpa using hmessage) hfile.symm)
    | cons c x =>
      obtain ⟨rfl, hfile⟩ := List.cons.inj hrest
      exact .inr (.inr ⟨x, by simpa using hmessage, by simpa using hfile⟩)

theorem key_getD_eq_iff {a b : Option (Str × Str)} :
    (a.map keyOf).getD [] = (b.map keyOf).getD [] ↔ a = b ∨ CutElsewhere a b := by
  have hne (p : Str × Str) : keyOf p ≠ [] := by simp [keyOf]
  unfold CutElsewhere
  cases a with
  | none =>
    cases b with
    | none => simp
    | some q => simp [(hne q).symm]
  | some p =>
    cases b with
    | none => simp [hne p]
    | some q => simp [keyOf_eq_iff]

/-! ## What a crash is told by -/

/-- What the fingerprint of a report is made of. -/
structure CrashReport where
  kind : ReportKind
  texts : SignatureTexts
  stack : Str

/-- What tells a crash from another. -/
structure CrashIdentity where
  kind : ReportKind
  process : Str
  signal : Str
  failure : Option (Str × Str)
  frames : List Str
  deriving DecidableEq

namespace CrashReport

variable (u : Unicode) (report : CrashReport) (parsed : ParsedStackTrace)

def failure : Option (Str × Str) := report.texts.failureReason.bind (failureParts? u)

def identity : CrashIdentity where
  kind := report.kind
  process := report.texts.processPart
  signal := report.texts.signalPart
  failure := report.failure u
  frames := parsed.frameKeys.take signatureFrames

def fingerprint (sha256 : List UInt8 → Str) : Option Str :=
  report.texts.fingerprint u sha256 report.kind parsed

/-- There is a failure key or a named frame. -/
def IsNamed : Prop := (report.failure u).isSome = true ∨ parsed.frameKeys ≠ []

/-- No text has the character that ends a component. -/
structure NulFree : Prop where
  process : ∀ text ∈ report.texts.process, '\x00' ∉ text
  signal : ∀ text ∈ report.texts.signal, '\x00' ∉ text
  failureReason : ∀ text ∈ report.texts.failureReason, '\x00' ∉ text
  stack : '\x00' ∉ report.stack

variable {u report parsed}

theorem failurePart_eq : report.texts.failurePart u = (report.failure u).map keyOf := by
  unfold failure SignatureTexts.failurePart SignatureTexts.failureOf
  cases report.texts.failureReason with
  | none => rfl
  | some reason => exact failureKey_eq u reason

/-- What is hashed of a report that is named. -/
theorem hashed_of_isNamed (h : report.IsNamed u parsed) :
    report.texts.hashed u report.kind parsed =
      ([report.kind.asStr.toList, report.texts.processPart, report.texts.signalPart,
        ((report.failure u).map keyOf).getD []] ++
        parsed.frameKeys.take signatureFrames).flatMap fun component => bytes component ++ [0] := by
  have hframes : report.texts.frames u parsed = parsed.frameKeys := by
    unfold SignatureTexts.frames
    rw [failurePart_eq]
    refine if_pos ?_
    rcases h with h | h
    · simp [h]
    · simp [h]
  unfold SignatureTexts.hashed
  rw [hframes, failurePart_eq]

theorem fingerprint_of_isNamed {sha256 : List UInt8 → Str} (h : report.IsNamed u parsed) :
    report.fingerprint u parsed sha256 =
      some (sha256 (report.texts.hashed u report.kind parsed)) := by
  classical
  have hsufficient : ¬ report.texts.Insufficient u parsed := by
    rintro ⟨hnone, hkeys, -⟩
    rw [failurePart_eq, Option.map_eq_none_iff] at hnone
    rcases h with h | h
    · simp [hnone] at h
    · exact h hkeys
  exact (SignatureTexts.fingerprint_eq sha256).trans (if_neg hsufficient)

end CrashReport

/-! ## Components without a zero byte -/

section

variable {u : Unicode} {symbol name stack : Str} {parsed : ParsedStackTrace}

/-- The characters of a function's name are letters, digits and four others. -/
theorem functionName_zero (hletters : u.isAlphanumeric '\x00' = false)
    (h : functionName u symbol = .ok (some name)) : '\x00' ∉ name := by
  intro hmem
  unfold functionName at h
  dsimp only at h
  split_ifs at h
  · cases h
  obtain ⟨symbol, -, h⟩ := bind_eq_ok.mp h
  split_ifs at h
  · cases h
  split at h
  swap
  · cases h
  rename_i segment hsegment
  have h := pure_eq_ok.mp h
  split_ifs at h with hvalid
  cases h
  simp only [Bool.and_eq_true] at hvalid
  have hzero := List.all_eq_true.mp hvalid.1 _ hmem
  simp [hletters] at hzero

theorem push_frameKeys (hletters : u.isAlphanumeric '\x00' = false) {row : StackTraceRow}
    {next : ParsedStackTrace} (hkeys : ∀ key ∈ parsed.frameKeys, '\x00' ∉ key)
    (h : parsed.push u row = .ok next) : ∀ key ∈ next.frameKeys, '\x00' ∉ key := by
  unfold ParsedStackTrace.push at h
  obtain ⟨name, hname, h⟩ := bind_eq_ok.mp h
  cases h
  refine List.forall_mem_append.mpr ⟨hkeys, fun key hkey => ?_⟩
  have hsome := Option.mem_toList.mp hkey
  unfold rowKey at hname
  split_ifs at hname
  · rw [hsome] at hname
    exact functionName_zero hletters hname
  · cases hname
    cases hsome

theorem parseLines_frameKeys (hletters : u.isAlphanumeric '\x00' = false) {lines : List Str}
    {index : ℕ} {next : ParsedStackTrace} (hkeys : ∀ key ∈ parsed.frameKeys, '\x00' ∉ key)
    (h : parseLines u index lines parsed = .ok next) : ∀ key ∈ next.frameKeys, '\x00' ∉ key := by
  induction lines generalizing index parsed with
  | nil =>
    cases h
    exact hkeys
  | cons line lines ih =>
    unfold parseLines at h
    split_ifs at h
    · cases h
      exact hkeys
    · exact ih hkeys h
    · obtain ⟨row, -, h⟩ := bind_eq_ok.mp h
      obtain ⟨pushed, hpushed, h⟩ := bind_eq_ok.mp h
      exact ih (push_frameKeys hletters hkeys hpushed) h

end

namespace CrashReport

section

variable {u : Unicode} {sha256 : List UInt8 → Str} {a b : CrashReport} {pa pb : ParsedStackTrace}
  (hsha256 : Function.Injective sha256)
  (hlower : ∀ s, '\x00' ∉ s → '\x00' ∉ u.toLowercase s)
  (hletters : u.isAlphanumeric '\x00' = false)

include hlower hletters in
theorem components_nulFree {report : CrashReport} {parsed : ParsedStackTrace} (h : report.NulFree)
    (hparsed : parseStackTrace u report.stack = .ok parsed) :
    ∀ component ∈ [report.kind.asStr.toList, report.texts.processPart, report.texts.signalPart,
      ((report.failure u).map keyOf).getD []] ++ parsed.frameKeys.take signatureFrames,
      '\x00' ∉ component := by
  have hgetD (text : Option Str) (htext : ∀ t ∈ text, '\x00' ∉ t) : '\x00' ∉ text.getD [] := by
    cases text with
    | none => simp
    | some text => exact htext text rfl
  intro component hmem
  simp only [List.mem_append, List.mem_cons, List.not_mem_nil, or_false] at hmem
  rcases hmem with (rfl | rfl | rfl | rfl) | hmem
  · cases report.kind <;> decide
  · intro hzero
    obtain ⟨c, hc, hlowered⟩ := List.mem_map.mp hzero
    refine toLower_ne_zero (c := c) ?_ hlowered
    rintro rfl
    exact hgetD _ h.process (trim_subset _ hc)
  · intro hzero
    obtain ⟨c, hc, hraised⟩ := List.mem_map.mp hzero
    refine toUpper_ne_zero (c := c) ?_ hraised
    rintro rfl
    exact hgetD _ h.signal (splitHead_subset _ _ hc)
  · rw [← failurePart_eq]
    refine hgetD _ fun key hkey => ?_
    obtain ⟨reason, hreason, hkey⟩ := Option.bind_eq_some_iff.mp hkey
    exact zero_not_mem_failureKey hlower (h.failureReason reason hreason) hkey
  · exact parseLines_frameKeys hletters (by simp [ParsedStackTrace.empty]) hparsed component
      (List.mem_of_mem_take hmem)

include hsha256 hlower hletters in
/-- Fingerprints are equal where all components are. -/
theorem fingerprint_eq_iff (ha : a.NulFree) (hb : b.NulFree)
    (hpa : parseStackTrace u a.stack = .ok pa) (hpb : parseStackTrace u b.stack = .ok pb)
    (hna : a.IsNamed u pa) (hnb : b.IsNamed u pb) :
    a.fingerprint u pa sha256 = b.fingerprint u pb sha256 ↔
      a.kind = b.kind ∧ a.texts.processPart = b.texts.processPart ∧
        a.texts.signalPart = b.texts.signalPart ∧
        (a.failure u = b.failure u ∨ CutElsewhere (a.failure u) (b.failure u)) ∧
        pa.frameKeys.take signatureFrames = pb.frameKeys.take signatureFrames := by
  have hkind : a.kind.asStr.toList = b.kind.asStr.toList ↔ a.kind = b.kind := by
    cases a.kind <;> cases b.kind <;> decide
  rw [fingerprint_of_isNamed hna, fingerprint_of_isNamed hnb, Option.some.injEq, hsha256.eq_iff,
    hashed_of_isNamed hna, hashed_of_isNamed hnb, ← key_getD_eq_iff, ← hkind]
  constructor
  · intro h
    have hcomponents := components_inj (components_nulFree hlower hletters ha hpa)
      (components_nulFree hlower hletters hb hpb) h
    simpa using hcomponents
  · rintro ⟨h1, h2, h3, h4, h5⟩
    rw [h1, h2, h3, h4, h5]

end

end CrashReport

/-- Where all else is equal, the failures are not one key cut at different places. -/
def NotCutElsewhere (u : Unicode) (a b : CrashReport) (pa pb : ParsedStackTrace) : Prop :=
  { a.identity u pa with failure := none } = { b.identity u pb with failure := none } →
    ¬ CutElsewhere (a.failure u) (b.failure u)

/-- Fingerprints tell two crashes apart unless their failure keys are one text, cut elsewhere. -/
theorem fingerprints_separate_iff {u : Unicode} {sha256 : List UInt8 → Str} {a b : CrashReport}
    {pa pb : ParsedStackTrace} (hsha256 : Function.Injective sha256)
    (hlower : ∀ s, '\x00' ∉ s → '\x00' ∉ u.toLowercase s)
    (hletters : u.isAlphanumeric '\x00' = false) (ha : a.NulFree) (hb : b.NulFree)
    (hpa : parseStackTrace u a.stack = .ok pa) (hpb : parseStackTrace u b.stack = .ok pb)
    (hna : a.IsNamed u pa) (hnb : b.IsNamed u pb) :
    (a.fingerprint u pa sha256 = b.fingerprint u pb sha256 ↔ a.identity u pa = b.identity u pb) ↔
      NotCutElsewhere u a b pa pb := by
  rw [CrashReport.fingerprint_eq_iff hsha256 hlower hletters ha hb hpa hpb hna hnb]
  unfold NotCutElsewhere CrashReport.identity
  simp only [CrashIdentity.mk.injEq, true_and]
  have hdiffer (hcut : CutElsewhere (a.failure u) (b.failure u)) : a.failure u ≠ b.failure u := by
    obtain ⟨p, hp, q, hq, hgoes⟩ := hcut
    rw [Option.mem_def.mp hp, Option.mem_def.mp hq]
    rintro heq
    cases heq
    rcases hgoes with hgoes | hgoes <;> exact (keyOf_eq_of_goesOn hgoes).2 rfl
  tauto

/-! ## A crash that is taken for another -/

/-- A crash without a stack that a failure reason tells. -/
def sampleCrash (reason : String) : CrashReport where
  kind := .crash
  texts := ⟨none, none, some reason.toList⟩
  stack := []

/-- The failure key of either is `a@b@c`. -/
theorem cut_elsewhere_is_taken_for_another :
    ¬ ∀ sha256 : List UInt8 → Str, Function.Injective sha256 →
      ((sampleCrash "a@b at c:1").fingerprint Unicode.ascii .empty sha256 =
          (sampleCrash "a at b@c:1").fingerprint Unicode.ascii .empty sha256 ↔
        (sampleCrash "a@b at c:1").identity Unicode.ascii .empty =
          (sampleCrash "a at b@c:1").identity Unicode.ascii .empty) := by
  intro h
  obtain ⟨sha256, hsha256⟩ := SignatureTexts.exists_injective_hash
  refine absurd ((h sha256 hsha256).mp ?_) (by decide +kernel)
  rw [CrashReport.fingerprint_of_isNamed (.inl (by decide +kernel)),
    CrashReport.fingerprint_of_isNamed (.inl (by decide +kernel))]
  exact congrArg (fun hashed => some (sha256 hashed)) (by decide +kernel)

/-! ## Crashes that are told by all their parts -/

/-- A crash by a signal, with a stack of two functions. -/
def tracedCrash (process reason : String) : CrashReport where
  kind := .crash
  texts := ⟨some process.toList, some "SIGSEGV (11)".toList, some reason.toList⟩
  stack := "#0 0x1 in open (a.cpp:1)\n#1 0x2 in main".toList

def tracedStack : ParsedStackTrace where
  rows :=
    [⟨some 0, true, "in open (a.cpp:1)".toList, [], "0x1".toList, [], [], true, false⟩,
      ⟨some 1, false, "in main".toList, [], "0x2".toList, [], [], true, false⟩]
  frameCount := 2
  frameKeys := ["open".toList, "main".toList]
  addressKeys := []
  truncated := false

theorem tracedCrash_parsed (process reason : String) :
    parseStackTrace Unicode.ascii (tracedCrash process reason).stack = .ok tracedStack := by
  rfl

theorem tracedCrash_nulFree {process reason : String} (hprocess : '\x00' ∉ process.toList)
    (hreason : '\x00' ∉ reason.toList) : (tracedCrash process reason).NulFree where
  process := by simpa [tracedCrash] using hprocess
  signal := by simp [tracedCrash]
  failureReason := by simpa [tracedCrash] using hreason
  stack := by simp [tracedCrash]

theorem zero_not_mem_ascii_toLowercase {s : Str} (hs : '\x00' ∉ s) :
    '\x00' ∉ Unicode.ascii.toLowercase s := by
  intro hmem
  obtain ⟨c, hc, hlowered⟩ := List.mem_map.mp hmem
  refine toLower_ne_zero (c := c) ?_ hlowered
  rintro rfl
  exact hs hc

/-- The line of a failure does not matter, but the process does. -/
theorem lines_are_taken_together :
    ∃ sha256 : List UInt8 → Str, Function.Injective sha256 ∧
      (tracedCrash "WebContent" "index 7 at a.rs:1").fingerprint Unicode.ascii tracedStack sha256 =
        (tracedCrash "WebContent" "index 12 at a.rs:30").fingerprint Unicode.ascii tracedStack
          sha256 ∧
      (tracedCrash "WebContent" "index 7 at a.rs:1").fingerprint Unicode.ascii tracedStack sha256 ≠
        (tracedCrash "WebWorker" "index 7 at a.rs:1").fingerprint Unicode.ascii tracedStack
          sha256 := by
  obtain ⟨sha256, hsha256⟩ := SignatureTexts.exists_injective_hash
  have hlower : ∀ s, '\x00' ∉ s → '\x00' ∉ Unicode.ascii.toLowercase s :=
    fun _ => zero_not_mem_ascii_toLowercase
  have hnamed (process reason : String) :
      (tracedCrash process reason).IsNamed Unicode.ascii tracedStack :=
    .inr (List.cons_ne_nil _ _)
  have hfailure : (tracedCrash "WebContent" "index 7 at a.rs:1").failure Unicode.ascii =
      (tracedCrash "WebContent" "index 12 at a.rs:30").failure Unicode.ascii := by decide +kernel
  refine ⟨sha256, hsha256, (fingerprints_separate_iff hsha256 hlower (by decide)
    (tracedCrash_nulFree (by decide) (by decide)) (tracedCrash_nulFree (by decide) (by decide))
    (tracedCrash_parsed _ _) (tracedCrash_parsed _ _) (hnamed _ _) (hnamed _ _)).mpr ?_ |>.mpr
    (by decide +kernel), fun hsame => ?_⟩
  · rintro - ⟨p, hp, q, hq, hgoes⟩
    obtain rfl : p = q := Option.some.inj (hp.symm.trans (hfailure.trans hq))
    rcases hgoes with hgoes | hgoes <;> exact (keyOf_eq_of_goesOn hgoes).2 rfl
  · have hother : NotCutElsewhere Unicode.ascii (tracedCrash "WebContent" "index 7 at a.rs:1")
        (tracedCrash "WebWorker" "index 7 at a.rs:1") tracedStack tracedStack :=
      fun h => absurd h (by decide +kernel)
    have hidentity := ((fingerprints_separate_iff hsha256 hlower (by decide)
      (tracedCrash_nulFree (by decide) (by decide)) (tracedCrash_nulFree (by decide) (by decide))
      (tracedCrash_parsed _ _) (tracedCrash_parsed _ _) (hnamed _ _) (hnamed _ _)).mpr hother).mp
      hsame
    exact absurd hidentity (by decide +kernel)

end LadybirdReports
