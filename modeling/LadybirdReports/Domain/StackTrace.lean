import LadybirdReports.Lib.StrSearch
import LadybirdReports.Domain.States

/-!
# Stack traces

`parseStackTrace` turns the text of a stack into rows, and `stackFingerprint` names the crash it
belongs to. The text comes from an anonymous client.

1. `demangled` reads a symbol byte by byte and slices it at computed offsets. It slices only where a
   byte is ASCII, and such a byte begins a character (`demangleStep_safe`); its loop moves on at
   every turn (`demangleStep_lt`), so it ends.
2. The other slices of `parseFrame` ask with `get`, or follow a prefix that was tested
   (`isAddress_safe`), so a frame, and with it a whole stack, is always read
   (`parseStackTrace_safe`).

A test that every byte of a text is an ASCII digit is the test of its characters. Machine integers
wrap, as they do in the release profile.
-/

namespace LadybirdReports

open Rust

def maxRenderedLines : ℕ := 256
def maxSignatureFrames : ℕ := 24
def signatureFrames : ℕ := 5
def signatureAddresses : ℕ := 3
def nativeStackHeader : Str := "Native stack (binary build ID, object address):".toList

/-- One line of a stack: a frame, or text that is none. -/
structure StackTraceRow where
  number : Option ℕ
  top : Bool
  symbol : Str
  module : Str
  address : Str
  buildId : Str
  raw : Str
  relevant : Bool
  /-- The frame has no symbol. -/
  unavailable : Bool
  deriving DecidableEq, Repr

/-- A presentation of a submitted stack. -/
structure ParsedStackTrace where
  rows : List StackTraceRow
  frameCount : ℕ
  /-- The names of the functions in the stack, without the plumbing that ends a crash. -/
  frameKeys : List Str
  /-- Build ID and address of frames that have no symbol. -/
  addressKeys : List Str
  truncated : Bool
  deriving DecidableEq, Repr

def ParsedStackTrace.empty : ParsedStackTrace := ⟨[], 0, [], [], false⟩

/-! ## Symbols -/

/-- The offset of a symbol that a build adds: a decimal number, or one in hexadecimal. -/
def isOffset (offset : Str) : Bool :=
  offset.all isAsciiDigit ||
    ((stripPrefix? offset "0x".toList).any fun hex => hex.all isAsciiHexdigit)

/-- A symbol without the offset into the function and the marker of an inlined call. -/
def bareSymbol (symbol : Str) : Str :=
  let symbol := match rsplitOnce? " + ".toList symbol with
    | some (head, offset) => if isOffset offset then head else symbol
    | none => symbol
  trim ((stripPrefix? (trim symbol) "(inlined) ".toList).getD symbol)

def isAsciiDigitByte (byte : UInt8) : Bool := 48 ≤ byte.toNat && byte.toNat ≤ 57

/-- The number of leading bytes that are ASCII digits. -/
def leadingDigits (bytes : List UInt8) : ℕ := (bytes.takeWhile isAsciiDigitByte).length

/-- The name of `length` bytes at `start`, if there is one, and where reading goes on. -/
def nameAt (symbol : Str) (start length : ℕ) : ℕ × Option Str :=
  match slice? symbol start ((start + length) % 2 ^ 64) with
  | some name => if 0 < length then ((start + length) % 2 ^ 64, some name) else (start, none)
  | none => (start, none)

/-- One turn of the loop over a mangled symbol, at `byte`: the next index, and a name if one was
read there. -/
def demangleStep (symbol : Str) (index : ℕ) (byte : UInt8) : Checked (ℕ × Option Str) :=
  if (byte = 67 ∧ (bytes symbol)[index + 1]? = some 115) ∨ byte = 66 then do
    -- a crate's disambiguator `Cs`, or a back reference `B`
    let rest ← sliceFrom symbol index
    match find? ['_'] rest with
    | some stop => return (index + (stop + 1), none)
    | none => return (index + (bytes symbol).length, none)
  else if isAsciiDigitByte byte then do
    let digits := leadingDigits (← tailFrom (bytes symbol) index)
    let length := (parseUnsigned 64 (← slice symbol index (index + digits))).getD 0
    -- a `_` separates the length from a name that starts with `_`
    let start := index + digits + if (bytes symbol)[index + digits]? = some 95 then 1 else 0
    return nameAt symbol start length
  else return (index + 1, none)

theorem leadingDigits_pos {l : List UInt8} {i : ℕ} {b : UInt8} (h : l[i]? = some b)
    (hb : isAsciiDigitByte b) : 0 < leadingDigits (l.drop i) := by
  obtain ⟨hi, rfl⟩ := List.getElem?_eq_some_iff.mp h
  unfold leadingDigits
  rw [List.drop_eq_getElem_cons hi, List.takeWhile_cons_of_pos hb, List.length_cons]
  omega

theorem slice?_le {s t : Str} {start stop : ℕ} (h : slice? s start stop = some t) :
    start ≤ stop := by
  unfold slice? at h
  split_ifs at h with hle
  exact hle

/-- A name ends where it starts or later. -/
theorem nameAt_le (symbol : Str) (start length : ℕ) : start ≤ (nameAt symbol start length).1 := by
  unfold nameAt
  split
  · rename_i hname
    have hle := slice?_le hname
    split_ifs <;> omega
  · exact le_rfl

/-- The loop moves on. -/
theorem demangleStep_lt {symbol : Str} {index next : ℕ} {byte : UInt8} {name : Option Str}
    (hb : (bytes symbol)[index]? = some byte)
    (h : demangleStep symbol index byte = .ok (next, name)) : index < next := by
  have hi : index < (bytes symbol).length := (List.getElem?_eq_some_iff.mp hb).1
  unfold demangleStep at h
  split_ifs at h with h1 h2
  · obtain ⟨rest, -, h⟩ := bind_eq_ok.mp h
    split at h <;> cases h <;> omega
  · obtain ⟨tail, ht, h⟩ := bind_eq_ok.mp h
    obtain ⟨text, -, h⟩ := bind_eq_ok.mp h
    rw [tailFrom_of_le hi.le] at ht
    cases ht
    have hpos : 0 < leadingDigits ((bytes symbol).drop index) := leadingDigits_pos hb h2
    have hle := nameAt_le symbol (index + leadingDigits ((bytes symbol).drop index) +
      if (bytes symbol)[index + leadingDigits ((bytes symbol).drop index)]? = some 95 then 1 else 0)
      ((parseUnsigned 64 text).getD 0)
    simp only [pure, Except.pure, Except.ok.injEq] at h
    rw [h] at hle
    dsimp only at hle
    omega
  · cases h; omega

/-- The bytes after a prefix are those of the rest. -/
theorem bytes_drop_append (p q : Str) : (bytes (p ++ q)).drop (byteLen p) = bytes q := by
  unfold bytes
  rw [List.flatMap_append, ← bytes_length p]
  exact List.drop_left

/-- The digits at the head of a text's bytes are whole characters. -/
theorem leadingDigits_boundary (q : Str) :
    ∃ d r, q = d ++ r ∧ byteLen d = leadingDigits (bytes q) := by
  induction q with
  | nil => exact ⟨[], [], rfl, rfl⟩
  | cons c q ih =>
    cases he : bytes (c :: q) with
    | nil => exact ⟨[], c :: q, rfl, rfl⟩
    | cons b t =>
      by_cases hb : isAsciiDigitByte b
      · have hlt : b.toNat < 128 := by unfold isAsciiDigitByte at hb; simp at hb; omega
        obtain ⟨p, e, r, hpe, hp, h1, -⟩ := ascii_boundary (s := c :: q) (i := 0) (b := b)
          (by rw [he]; rfl) hlt
        obtain rfl : p = [] := by
          cases p with
          | nil => rfl
          | cons x p => rw [byteLen_cons] at hp; have := utf8Size_pos x; omega
        cases hpe
        obtain ⟨d, r, hq, hd⟩ := ih
        have ht : t = bytes q := by
          have := bytes_drop_append [c] q
          rw [List.singleton_append, he] at this
          simpa [h1] using this
        refine ⟨c :: d, r, by rw [hq, List.cons_append], ?_⟩
        unfold leadingDigits at hd ⊢
        rw [List.takeWhile_cons_of_pos hb, List.length_cons, ht, byteLen_cons, h1, ← hd]
        omega
      · refine ⟨[], c :: q, rfl, ?_⟩
        unfold leadingDigits
        rw [List.takeWhile_cons_of_neg hb]
        rfl

/-- One turn of the loop slices at character boundaries. -/
theorem demangleStep_safe {symbol : Str} {index : ℕ} {byte : UInt8}
    (hb : (bytes symbol)[index]? = some byte) : Safe (demangleStep symbol index byte) := by
  have hi : index < (bytes symbol).length := (List.getElem?_eq_some_iff.mp hb).1
  unfold demangleStep
  split_ifs with h1 h2
  · have hlt : byte.toNat < 128 := by
      rcases h1 with ⟨rfl, -⟩ | rfl <;> decide
    obtain ⟨p, c, q, rfl, rfl, -, -⟩ := ascii_boundary hb hlt
    refine Safe.bind (safe_checked_iff.mpr (by rw [sliceFrom?_append]; rfl)) fun rest => ?_
    split <;> exact safe_pure _
  · have hlt : byte.toNat < 128 := by unfold isAsciiDigitByte at h2; simp at h2; omega
    obtain ⟨p, c, q, rfl, rfl, -, -⟩ := ascii_boundary hb hlt
    obtain ⟨d, r, hq, hd⟩ := leadingDigits_boundary (c :: q)
    rw [tailFrom_of_le hi.le, bytes_drop_append]
    show Safe (slice (p ++ c :: q) _ (_ + leadingDigits (bytes (c :: q))) >>= _)
    refine Safe.bind (safe_checked_iff.mpr ?_) fun text => ?_
    · rw [← hd, hq, ← List.append_assoc, slice?_append]; rfl
    · exact safe_pure _
  · exact safe_pure _

/-- The loop of `demangled` over the bytes from `index` on. -/
def demangledFrom (symbol : Str) (index : ℕ) (names : List Str) : Checked (List Str) :=
  if hi : index < (bytes symbol).length then
    match hs : demangleStep symbol index (bytes symbol)[index] with
    | .error p => .error p
    | .ok (next, name) => demangledFrom symbol next (names ++ name.toList)
  else .ok names
termination_by (bytes symbol).length - index
decreasing_by
  have := demangleStep_lt (List.getElem?_eq_getElem hi) hs
  omega

/-- The path of a Rust symbol in v0 mangling; other symbols are returned as they are. -/
def demangled (symbol : Str) : Checked Str :=
  if startsWith symbol "_R".toList then join "::".toList <$> demangledFrom symbol 2 []
  else return symbol

theorem demangledFrom_safe (symbol : Str) (index : ℕ) (names : List Str) :
    Safe (demangledFrom symbol index names) := by
  fun_induction demangledFrom symbol index names with
  | case1 index names hi p hs =>
    obtain ⟨a, ha⟩ := demangleStep_safe (List.getElem?_eq_getElem hi)
    rw [ha] at hs; cases hs
  | case2 index names hi next name hs ih => exact ih
  | case3 index names hi => exact safe_ok names

theorem demangled_safe (symbol : Str) : Safe (demangled symbol) := by
  unfold demangled
  split_ifs
  · exact (demangledFrom_safe symbol 2 []).map _
  · exact safe_pure symbol

/-! ## Frames -/

/-- A name without what stands between angle brackets, at the given depth of them. -/
def withoutTemplatesAt : ℕ → Str → Str
  | _, [] => []
  | depth, c :: s =>
    if c = '<' then withoutTemplatesAt ((depth + 1) % 2 ^ 32) s
    else if c = '>' ∧ 0 < depth then withoutTemplatesAt (depth - 1) s
    else if depth = 0 then c :: withoutTemplatesAt depth s
    else withoutTemplatesAt depth s

def withoutTemplates (s : Str) : Str := withoutTemplatesAt 0 s

/-- The name of the function a frame is in, without its namespace, parameters, template arguments
or return type. -/
def functionName (u : Unicode) (symbol : Str) : Checked (Option Str) := do
  let symbol := bareSymbol symbol
  if symbol = [] || startsWith symbol "at ".toList || symbol = "Unavailable".toList then
    return none
  let symbol ← demangled symbol
  let plain := withoutTemplates symbol
  if contains plain "operator".toList then
    return none
  let last := rsplitHead (· == ' ') (trim (splitHead (· == '(') plain))
  let some name := (rsplit "::".toList last).find? fun segment =>
      segment ≠ [] && !startsWith segment ['\x7b']
    | return none
  let valid := name.all fun c => u.isAlphanumeric c || c = '_' || c = '$' || c = '~' || c = '.'
  return if valid && byteLen name ≤ 128 then some name else none

theorem functionName_safe (u : Unicode) (symbol : Str) : Safe (functionName u symbol) := by
  unfold functionName
  dsimp only
  split_ifs
  · exact safe_pure none
  · refine (demangled_safe _).bind fun symbol => ?_
    split_ifs
    · exact safe_pure none
    · split <;> exact safe_pure _

/-- The functions a frame of the machinery that ends a process is in. -/
def runtimeFunctions : List String :=
  ["__pthread_kill", "pthread_kill", "raise", "gsignal", "abort", "__assert_rtn", "__assert_fail",
    "ak_trap", "__builtin_trap", "_thread_start", "__pthread_start", "start_thread", "thread_start"]

/-- What the path of such a frame holds in Rust code. -/
def runtimeRustPaths : List String :=
  ["std::panicking", "core::panicking", "std::process::abort", "std::sys::backtrace",
    "std::sys::pal::unix::abort_internal", "__rustc::", "rust_begin_unwind",
    "core::option::expect_failed", "core::option::unwrap_failed", "core::result::unwrap_failed"]

/-- What the symbol of a frame of the event loop or an entry point starts with. -/
def genericPrefixes : List String :=
  ["Core::ThreadEventQueue::process", "Core::EventLoopImplementationUnix::exec",
    "Core::Timer::timer_event", "ladybird_main("]

def isRuntimeFrame (symbol : Str) : Checked Bool := do
  let symbol ← demangled (bareSymbol symbol)
  return runtimeFunctions.any (·.toList = symbol) ||
    runtimeRustPaths.any fun path => contains symbol path.toList

def isGenericFrame (symbol : Str) : Bool :=
  let symbol := bareSymbol symbol
  (symbol = "_main".toList || symbol = "main".toList || symbol = "_start".toList) ||
    genericPrefixes.any fun start => startsWith symbol start.toList

/-- A frame for which the client sent no symbol. -/
def unavailableFrame (number : ℕ) (address buildId : Str) : StackTraceRow :=
  { number := some number, top := number = 0, symbol := "Unavailable".toList, module := "—".toList,
    address, buildId, raw := [], relevant := false, unavailable := true }

/-- A row for a line that is no frame. -/
def unparsedRow (line : Str) : StackTraceRow :=
  { number := none, top := false, symbol := [], module := [], address := [], buildId := [],
    raw := line, relevant := false, unavailable := false }

/-- `0x` and hexadecimal digits. -/
def isAddress (address : Str) : Checked Bool :=
  if startsWith address "0x".toList then (·.all isAsciiHexdigit) <$> sliceFrom address 2
  else return false

/-- The number of a frame, from `#<number>`, and what follows. -/
def frameNumber? (line : Str) : Option (ℕ × Str) := do
  let rest ← stripPrefix? (trimStart line) ['#']
  let numberLength := leadingDigits (bytes rest)
  let number ← parseUnsigned 32 (← sliceTo? rest numberLength)
  return (number, trimStart (← sliceFrom? rest numberLength))

/-- The build ID of a frame, empty where there is none, and what follows. -/
def frameBuildId? (rest : Str) : Option (Str × Str) := do
  let first ← firstWord? rest
  if 16 ≤ byteLen first ∧ first.all isAsciiHexdigit then
    return (first, trimStart (← sliceFrom? rest (byteLen first)))
  else return ([], rest)

/-- The frame is neither plumbing nor an entry point. -/
def isRelevant (symbol : Str) : Checked Bool :=
  if isGenericFrame symbol then return false else (!·) <$> isRuntimeFrame symbol

/-- What follows the address of a frame: its symbol and module. -/
def frameSymbol (number : ℕ) (address buildId rest : Str) : Checked (Option StackTraceRow) :=
  if rest = [] then return some (unavailableFrame number address buildId)
  else
    let (symbol, module) := match rsplitOnce? " at ".toList rest with
      | some (symbol, module) => (trim symbol, trim module)
      | none => (trim rest, [])
    if symbol = [] then return none
    else do
      let relevant ← isRelevant symbol
      return some
        { number := some number, top := number = 0, symbol,
          module := rsplitHead (fun c => c == '/' || c == '\\') module, address, buildId, raw := [],
          relevant, unavailable := false }

/-- A line `#<number> [<build ID>] <address> [<symbol> [at <module>]]`, or one without a symbol. -/
def parseFrame (line : Str) : Checked (Option StackTraceRow) :=
  match frameNumber? line with
  | none => return none
  | some (number, rest) =>
    if eqIgnoreAsciiCase rest "unavailable".toList then
      return some (unavailableFrame number "—".toList [])
    else match frameBuildId? rest with
      | none => return none
      | some (buildId, rest) =>
        match firstWord? rest with
        | none => return none
        | some address => do
          if ← isAddress address then
            match sliceFrom? rest (byteLen address) with
            | none => return none
            | some rest => frameSymbol number address buildId (trimStart rest)
          else return none

theorem isRelevant_safe (symbol : Str) : Safe (isRelevant symbol) := by
  unfold isRelevant isRuntimeFrame
  split_ifs
  · exact safe_pure false
  · exact ((demangled_safe _).bind fun _ => safe_pure _).map _

/-- The slice of an address follows its prefix. -/
theorem isAddress_safe (address : Str) : Safe (isAddress address) := by
  unfold isAddress
  split_ifs with h
  · obtain ⟨t, rfl⟩ := startsWith_iff.mp h
    refine Safe.map _ (safe_checked_iff.mpr ?_)
    rw [show 2 = byteLen "0x".toList from rfl, sliceFrom?_append]
    rfl
  · exact safe_pure false

theorem frameSymbol_safe (number : ℕ) (address buildId rest : Str) :
    Safe (frameSymbol number address buildId rest) := by
  unfold frameSymbol
  split_ifs
  · exact safe_pure _
  · dsimp only
    split_ifs
    · exact safe_pure none
    · exact (isRelevant_safe _).bind fun _ => safe_pure _

theorem parseFrame_safe (line : Str) : Safe (parseFrame line) := by
  unfold parseFrame
  split
  · exact safe_pure none
  · split_ifs
    · exact safe_pure _
    · split
      · exact safe_pure none
      · split
        · exact safe_pure none
        · refine (isAddress_safe _).bind fun isAddress => ?_
          split_ifs
          · split
            · exact safe_pure none
            · exact frameSymbol_safe _ _ _ _
          · exact safe_pure none

/-! ## Stacks -/

/-- The name a row adds to the frame keys. -/
def rowKey (u : Unicode) (parsed : ParsedStackTrace) (row : StackTraceRow) : Checked (Option Str) :=
  if row.relevant ∧ parsed.frameKeys.length < maxSignatureFrames then functionName u row.symbol
  else return none

/-- The row of a line joins the rows before it. -/
def ParsedStackTrace.push (u : Unicode) (parsed : ParsedStackTrace) (row : StackTraceRow) :
    Checked ParsedStackTrace := do
  let name ← rowKey u parsed row
  let address := if row.unavailable ∧ row.buildId ≠ [] ∧
      parsed.addressKeys.length < signatureAddresses
    then some (row.buildId ++ [':'] ++ row.address) else none
  return { parsed with
    rows := parsed.rows ++ [row]
    frameCount := parsed.frameCount + if row.number.isSome then 1 else 0
    frameKeys := parsed.frameKeys ++ name.toList
    addressKeys := parsed.addressKeys ++ address.toList }

/-- The loop over the lines of a stack, the first of them at `index`. -/
def parseLines (u : Unicode) : ℕ → List Str → ParsedStackTrace → Checked ParsedStackTrace
  | _, [], parsed => .ok parsed
  | index, line :: lines, parsed =>
    if maxRenderedLines ≤ index then .ok { parsed with truncated := true }
    else if index = 0 ∧ trim line = nativeStackHeader then parseLines u (index + 1) lines parsed
    else do
      let row ← parseFrame line
      let parsed ← parsed.push u (row.getD (unparsedRow line))
      parseLines u (index + 1) lines parsed

def parseStackTrace (u : Unicode) (text : Str) : Checked ParsedStackTrace :=
  parseLines u 0 (lines text) .empty

theorem push_safe (u : Unicode) (parsed : ParsedStackTrace) (row : StackTraceRow) :
    Safe (parsed.push u row) := by
  refine Safe.bind ?_ fun name => safe_pure _
  unfold rowKey
  split_ifs
  · exact functionName_safe u row.symbol
  · exact safe_pure none

theorem parseLines_safe (u : Unicode) (index : ℕ) (lines : List Str) (parsed : ParsedStackTrace) :
    Safe (parseLines u index lines parsed) := by
  induction lines generalizing index parsed with
  | nil => exact safe_ok parsed
  | cons line lines ih =>
    unfold parseLines
    split_ifs
    · exact safe_ok _
    · exact ih (index + 1) parsed
    · exact (parseFrame_safe line).bind fun row => (push_safe u parsed _).bind fun next =>
        ih (index + 1) next

/-- Every stack is read without a panic. -/
theorem parseStackTrace_safe (u : Unicode) (text : Str) : Safe (parseStackTrace u text) :=
  parseLines_safe u 0 (lines text) .empty

/-! ## Fingerprints -/

/-- Digits blanked: a run of them is one `#`. `hash` says that what was written ends with one. -/
def blankDigits : Bool → Str → Str
  | _, [] => []
  | hash, c :: s =>
    if isAsciiDigit c then (if hash then [] else ['#']) ++ blankDigits true s
    else c :: blankDigits (c = '#') s

/-- What a failure reason says, without the numbers that change from one build or run to the
next. -/
def failureKey (u : Unicode) (reason : Str) : Option Str :=
  let reason := trim reason
  let (message, location) := match rsplitOnce? " at ".toList reason with
    | some (message, location) =>
      if contains location [':'] then (message, location) else (reason, [])
    | none => (reason, [])
  if message = [] then none
  else some (blankDigits false (u.toLowercase message) ++ ['@'] ++ splitHead (· == ':') location)

/-- The components of a fingerprint, each followed by a zero byte, hashed by `sha256`. -/
def stackFingerprint (u : Unicode) (sha256 : List UInt8 → Str) (kind : ReportKind)
    (process signal failureReason : Option Str) (parsed : ParsedStackTrace) : Option Str :=
  let failure := failureReason.bind (failureKey u)
  let frames := if failure.isSome || parsed.frameKeys ≠ [] then parsed.frameKeys
    else parsed.addressKeys
  if frames = [] ∧ failure = none then none
  else
    let process := toAsciiLowercase (trim (process.getD []))
    let signal := toAsciiUppercase (splitHead (fun c => c == '(' || c == ' ') (signal.getD []))
    let components := [kind.asStr.toList, process, signal, failure.getD []] ++
      frames.take signatureFrames
    some (sha256 (components.flatMap fun component => bytes component ++ [0]))

end LadybirdReports
