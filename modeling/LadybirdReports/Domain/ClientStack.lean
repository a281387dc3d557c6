import LadybirdReports.Domain.StackRows
import LadybirdReports.Lib.StrRender
import Mathlib.Data.List.Forall2

/-!
# Stacks as clients write them

A frame is a line `#<number>` with `unavailable`, or with an address that may have a build ID before
it and a symbol after it, and a symbol may have a module after ` at `. The parts are told apart by
how they begin: an address has an `x`, so it is no build ID; the last ` at ` is the one that was
written (`rsplitOnce?_at`), for a module neither has one nor makes one with the blank before it.

What is read of a frame is what was written of it (`parseFrame_line`), and so with a stack
(`parse_after_render`).
-/

namespace LadybirdReports

open Rust

/-! ## The format -/

/-- A function, and the file that it is in. -/
structure ClientSymbol where
  symbol : Str
  module : Option Str
  ne_nil : symbol ≠ []
  trimmed : trim symbol = symbol
  no_feed : '\n' ∉ symbol
  no_at : contains symbol " at ".toList = false
  module_trimmed : ∀ path ∈ module, trim path = path
  module_no_feed : ∀ path ∈ module, '\n' ∉ path
  module_no_at : ∀ path ∈ module, contains path " at ".toList = false
  module_head : ∀ path ∈ module, startsWith path "at ".toList = false

/-- An address, after the build ID if there is one. -/
structure ClientAddress where
  buildId : Option Str
  hex : Str
  symbol : Option ClientSymbol
  buildId_hex : ∀ id ∈ buildId, 16 ≤ id.length ∧ ∀ c ∈ id, isAsciiHexdigit c = true
  hex_hex : ∀ c ∈ hex, isAsciiHexdigit c = true

/-- A frame; without an address it is unavailable. -/
structure ClientFrame where
  number : ℕ
  address : Option ClientAddress
  number_lt : number < 2 ^ 32

def atSeparator : Str := " at ".toList

def ClientSymbol.text (s : ClientSymbol) : Str :=
  match s.module with
  | some path => s.symbol ++ atSeparator ++ path
  | none => s.symbol

def ClientAddress.address (a : ClientAddress) : Str := "0x".toList ++ a.hex

def ClientAddress.text (a : ClientAddress) : Str :=
  (match a.buildId with
    | some id => id ++ [' ']
    | none => []) ++
  a.address ++
  (match a.symbol with
    | some s => ' ' :: s.text
    | none => [])

/-- What follows the number of a frame. -/
def ClientFrame.body (frame : ClientFrame) : Str :=
  match frame.address with
  | some a => a.text
  | none => "unavailable".toList

def ClientFrame.line (frame : ClientFrame) : Str :=
  '#' :: digits frame.number ++ ' ' :: frame.body

/-- The header, if the client writes it. -/
def headerLines (header : Bool) : List Str := if header then [nativeStackHeader] else []

def clientText (header : Bool) (frames : List ClientFrame) : Str :=
  join ['\n'] (headerLines header ++ frames.map ClientFrame.line)

/-! ## The frames that are meant -/

/-- The file of a path. -/
def baseName (path : Str) : Str := rsplitHead (fun c => c == '/' || c == '\\') path

def isRelevantSymbol (symbol : Str) : Bool :=
  match isRelevant symbol with
  | .ok relevant => relevant
  | .error _ => false

theorem isRelevant_eq (symbol : Str) : isRelevant symbol = .ok (isRelevantSymbol symbol) := by
  obtain ⟨relevant, h⟩ := isRelevant_safe symbol
  unfold isRelevantSymbol
  rw [h]

def ClientFrame.row (frame : ClientFrame) : StackTraceRow :=
  match frame.address with
  | none => unavailableFrame frame.number "—".toList []
  | some a =>
    match a.symbol with
    | none => unavailableFrame frame.number a.address (a.buildId.getD [])
    | some s =>
      { number := some frame.number, top := frame.number = 0, symbol := s.symbol,
        module := baseName (s.module.getD []), address := a.address,
        buildId := a.buildId.getD [], raw := [], relevant := isRelevantSymbol s.symbol,
        unavailable := false }

/-! ## Numbers -/

section

variable {c : Char} {s t rest : Str}

theorem utf8Size_of_isAsciiDigit (h : isAsciiDigit c = true) : c.utf8Size = 1 := by
  unfold isAsciiDigit at h
  simp only [Bool.and_eq_true, decide_eq_true_eq] at h
  have hnine : '9'.toNat = 57 := rfl
  exact Char.utf8Size_eq_one_iff.mpr (UInt32.le_iff_toNat_le.mpr (by
    change c.toNat ≤ 127
    omega))

theorem isAsciiDigitByte_iff {byte : UInt8} (h : byte.toNat = c.toNat) :
    isAsciiDigitByte byte = isAsciiDigit c := by
  unfold isAsciiDigitByte isAsciiDigit
  rw [h]
  rfl

/-- Digits that a text starts with are whole characters. -/
theorem leadingDigits_append (hs : ∀ c ∈ s, isAsciiDigit c = true)
    (ht : ∀ c ∈ t.head?, isAsciiDigit c = false) : leadingDigits (bytes (s ++ t)) = s.length := by
  induction s with
  | nil =>
    unfold leadingDigits
    rw [List.nil_append, List.length_nil, List.length_eq_zero_iff]
    cases t with
    | nil => rfl
    | cons c t =>
      have hcons : bytes (c :: t) = String.utf8EncodeChar c ++ bytes t := rfl
      obtain ⟨byte, more, hbytes⟩ := List.exists_cons_of_ne_nil
        (String.utf8EncodeChar_ne_nil (c := c))
      rw [hcons, hbytes, List.cons_append, List.takeWhile_cons_of_neg]
      intro hdigit
      have hlt : byte.toNat < 128 := by
        unfold isAsciiDigitByte at hdigit
        simp only [Bool.and_eq_true, decide_eq_true_eq] at hdigit
        omega
      obtain ⟨-, hnat⟩ := ascii_of_mem_utf8EncodeChar (c := c) (b := byte)
        (by rw [hbytes]; exact List.mem_cons_self) hlt
      rw [isAsciiDigitByte_iff hnat.symm, ht c rfl] at hdigit
      cases hdigit
  | cons c s ih =>
    obtain ⟨hc, hs⟩ := List.forall_mem_cons.mp hs
    have hbytes : bytes (c :: s ++ t) = c.val.toUInt8 :: bytes (s ++ t) := by
      change String.utf8EncodeChar c ++ bytes (s ++ t) = _
      rw [String.utf8EncodeChar_eq_singleton (utf8Size_of_isAsciiDigit hc)]
      rfl
    have hnat : c.val.toUInt8.toNat = c.toNat := by
      have hsmall := hc
      unfold isAsciiDigit at hsmall
      simp only [Bool.and_eq_true, decide_eq_true_eq] at hsmall
      have hnine : '9'.toNat = 57 := rfl
      rw [UInt32.toNat_toUInt8]
      change c.toNat % 256 = c.toNat
      omega
    have ih := ih hs
    unfold leadingDigits at ih ⊢
    rw [hbytes, List.takeWhile_cons_of_pos (by rw [isAsciiDigitByte_iff hnat, hc]),
      List.length_cons, ih, List.length_cons]

theorem byteLen_of_digits (hs : ∀ c ∈ s, isAsciiDigit c = true) : byteLen s = s.length :=
  byteLen_of_ascii fun c hc => utf8Size_of_isAsciiDigit (hs c hc)

/-- A number ends at the blank after it. -/
theorem frameNumber?_append {number : ℕ} (h : number < 2 ^ 32)
    (hrest : ∀ c ∈ rest.head?, isWhitespace c = false) :
    frameNumber? ('#' :: digits number ++ ' ' :: rest) = some (number, rest) := by
  have hdigits (c : Char) (hc : c ∈ digits number) : isAsciiDigit c = true :=
    isAsciiDigit_of_mem_digits hc
  have hlength :
      leadingDigits (bytes (digits number ++ ' ' :: rest)) = byteLen (digits number) := by
    rw [leadingDigits_append hdigits (by simp; decide), byteLen_of_digits hdigits]
  unfold frameNumber?
  rw [trimStart_of_head (by simp; decide)]
  have hstrip : stripPrefix? ('#' :: digits number ++ ' ' :: rest) ['#'] =
      some (digits number ++ ' ' :: rest) := by
    unfold stripPrefix?
    simp [startsWith]
  simp only [hstrip, hlength, sliceTo?_append, sliceFrom?_append, parseUnsigned_digits h,
    Option.bind_eq_bind, Option.bind_some]
  rw [trimStart_cons_of_isWhitespace (by decide), trimStart_of_head hrest]
  rfl

end

/-! ## Addresses -/

section

variable {c : Char} {s t id hex rest : Str}

theorem hexdigit_facts (h : isAsciiHexdigit c = true) :
    c.utf8Size = 1 ∧ isWhitespace c = false ∧ c ≠ '\n' ∧ c ≠ '\r' := by
  unfold isAsciiHexdigit isAsciiDigit at h
  simp only [Bool.or_eq_true, Bool.and_eq_true, decide_eq_true_eq, show '0'.toNat = 48 from rfl,
    show '9'.toNat = 57 from rfl, show 'a'.toNat = 97 from rfl, show 'f'.toNat = 102 from rfl,
    show 'A'.toNat = 65 from rfl, show 'F'.toNat = 70 from rfl] at h
  have hne (d : Char) (hd : d.toNat < 48) : c ≠ d := by
    rintro rfl
    omega
  refine ⟨?_, ?_, hne _ (by decide), hne _ (by decide)⟩
  · refine Char.utf8Size_eq_one_iff.mpr (UInt32.le_iff_toNat_le.mpr ?_)
    change c.toNat ≤ 127
    omega
  · unfold isWhitespace
    simp only [Bool.or_eq_false_iff, Bool.and_eq_false_iff, decide_eq_false_iff_not,
      beq_eq_false_iff_ne]
    omega

theorem isWord_of_hex (hne : s ≠ []) (h : ∀ c ∈ s, isAsciiHexdigit c = true) : IsWord s :=
  ⟨hne, fun c hc => (hexdigit_facts (h c hc)).2.1⟩

theorem isWord_address (h : ∀ c ∈ hex, isAsciiHexdigit c = true) : IsWord ("0x".toList ++ hex) where
  ne_nil := by simp
  no_space := by
    refine List.forall_mem_append.mpr ⟨?_, fun c hc => (hexdigit_facts (h c hc)).2.1⟩
    exact forall_of_all (by decide)

theorem isAddress_of_hex (h : ∀ c ∈ hex, isAsciiHexdigit c = true) :
    isAddress ("0x".toList ++ hex) = .ok true := by
  unfold isAddress
  rw [if_pos (startsWith_iff.mpr ⟨hex, rfl⟩)]
  unfold sliceFrom
  rw [show 2 = byteLen "0x".toList from rfl, sliceFrom?_append]
  exact congrArg Except.ok (List.all_eq_true.mpr h)

/-- A build ID is the word before the blank. -/
theorem frameBuildId?_append (hid : 16 ≤ id.length ∧ ∀ c ∈ id, isAsciiHexdigit c = true)
    (hrest : ∀ c ∈ rest.head?, isWhitespace c = false) :
    frameBuildId? (id ++ ' ' :: rest) = some (id, rest) := by
  have hne : id ≠ [] := by
    rintro rfl
    exact absurd hid.1 (by decide)
  have hlength : byteLen id = id.length :=
    byteLen_of_ascii fun c hc => (hexdigit_facts (hid.2 c hc)).1
  have hends : EndsWord (' ' :: rest) := by
    unfold EndsWord
    simp only [List.head?_cons, Option.mem_some_iff, forall_eq']
    decide
  unfold frameBuildId?
  simp only [firstWord?_append (isWord_of_hex hne hid.2) hends, Option.bind_eq_bind,
    Option.bind_some]
  rw [if_pos ⟨by omega, List.all_eq_true.mpr hid.2⟩, sliceFrom?_append, Option.bind_some,
    trimStart_cons_of_isWhitespace (by decide), trimStart_of_head hrest]
  rfl

/-- An address is no build ID. -/
theorem frameBuildId?_address (hhex : ∀ c ∈ hex, isAsciiHexdigit c = true) (ht : EndsWord t) :
    frameBuildId? ("0x".toList ++ hex ++ t) = some ([], "0x".toList ++ hex ++ t) := by
  unfold frameBuildId?
  simp only [firstWord?_append (isWord_address hhex) ht, Option.bind_eq_bind, Option.bind_some]
  rw [if_neg]
  · rfl
  · rintro ⟨-, hall⟩
    have hx := List.all_eq_true.mp hall 'x' (by simp)
    exact absurd hx (by decide)

/-! ## Symbols -/

/-- The last ` at ` is the one that was written. -/
theorem splitOnce?_at (h : contains s " ta ".toList = false) (hlast : ¬ " ta".toList <:+ s) :
    splitOnce? " ta ".toList (s ++ " ta ".toList ++ t) = some (s, t) := by
  induction s with
  | nil => rfl
  | cons c s ih =>
    have hno : startsWith (c :: (s ++ " ta ".toList ++ t)) " ta ".toList = false := by
      rw [← Bool.not_eq_true]
      intro hstarts
      obtain ⟨rest, hrest⟩ := startsWith_iff.mp hstarts
      match s with
      | [] => simp at hrest
      | [d] => simp at hrest
      | [d, e] =>
        simp only [List.cons_append, List.nil_append] at hrest
        obtain ⟨rfl, rfl, rfl, -⟩ := hrest
        exact hlast (List.suffix_refl _)
      | d :: e :: f :: s =>
        have hoccurs : contains (c :: d :: e :: f :: s) " ta ".toList = true := by
          refine contains_iff.mpr ⟨[], s, ?_⟩
          simp at hrest
          simp [hrest]
        rw [h] at hoccurs
        cases hoccurs
    have hrest : contains s " ta ".toList = false := by
      rw [← Bool.not_eq_true]
      intro hoccurs
      obtain ⟨a, b, rfl⟩ := contains_iff.mp hoccurs
      have hmore : contains (c :: (a ++ " ta ".toList ++ b)) " ta ".toList = true :=
        contains_iff.mpr ⟨c :: a, b, rfl⟩
      rw [h] at hmore
      cases hmore
    have hsuffix : ¬ " ta".toList <:+ s := fun hs => hlast (hs.trans (List.suffix_cons c s))
    rw [List.cons_append, List.cons_append, splitOnce?,
      if_neg (Bool.eq_false_iff.mp hno), ih hrest hsuffix]
    rfl

theorem rsplitOnce?_at (h : contains t atSeparator = false)
    (hhead : startsWith t "at ".toList = false) :
    rsplitOnce? atSeparator (s ++ atSeparator ++ t) = some (s, t) := by
  have hreverse : (s ++ atSeparator ++ t).reverse =
      t.reverse ++ " ta ".toList ++ s.reverse := by simp [atSeparator]
  have hno : contains t.reverse " ta ".toList = false := by
    rw [← Bool.not_eq_true]
    intro hoccurs
    obtain ⟨a, b, hab⟩ := contains_iff.mp hoccurs
    have hmore : contains t atSeparator = true := by
      refine contains_iff.mpr ⟨b.reverse, a.reverse, ?_⟩
      have hab := congrArg List.reverse hab
      simpa [atSeparator] using hab
    rw [h] at hmore
    cases hmore
  have hsuffix : ¬ " ta".toList <:+ t.reverse := by
    rintro ⟨a, ha⟩
    have hstarts : startsWith t "at ".toList = true := by
      refine startsWith_iff.mpr ⟨a.reverse, ?_⟩
      have ha := congrArg List.reverse ha
      simpa using ha.symm
    rw [hhead] at hstarts
    cases hstarts
  unfold rsplitOnce?
  rw [hreverse, show atSeparator.reverse = " ta ".toList from rfl, splitOnce?_at hno hsuffix]
  simp

end

/-! ## Frames -/

section

variable {number : ℕ} {address buildId rest : Str}

theorem ClientSymbol.head_text (s : ClientSymbol) :
    s.text ≠ [] ∧ ∀ c ∈ s.text.head?, isWhitespace c = false := by
  have hhead := (trim_eq_self_iff.mp s.trimmed).1
  obtain ⟨first, more, hsymbol⟩ := List.exists_cons_of_ne_nil s.ne_nil
  have htext : ∃ tail, s.text = s.symbol ++ tail := by
    unfold ClientSymbol.text
    cases s.module with
    | none => exact ⟨[], (List.append_nil _).symm⟩
    | some path => exact ⟨atSeparator ++ path, List.append_assoc _ _ _⟩
  obtain ⟨tail, htail⟩ := htext
  rw [hsymbol] at hhead htail
  rw [htail]
  exact ⟨by simp, hhead⟩

theorem ClientSymbol.rsplitOnce?_text (s : ClientSymbol) :
    rsplitOnce? " at ".toList s.text = s.module.map fun path => (s.symbol, path) := by
  unfold ClientSymbol.text
  cases hmodule : s.module with
  | none => exact rsplitOnce?_eq_none s.no_at
  | some path => exact rsplitOnce?_at (s.module_no_at path hmodule) (s.module_head path hmodule)

/-- Symbol and module are told apart. -/
theorem frameSymbol_text (s : ClientSymbol) : frameSymbol number address buildId s.text =
    .ok (some
      { number := some number, top := number = 0, symbol := s.symbol,
        module := baseName (s.module.getD []), address, buildId, raw := [],
        relevant := isRelevantSymbol s.symbol, unavailable := false }) := by
  unfold frameSymbol
  rw [if_neg s.head_text.1, s.rsplitOnce?_text]
  cases hmodule : s.module with
  | none =>
    have htext : s.text = s.symbol := by
      unfold ClientSymbol.text
      rw [hmodule]
    simp only [Option.map_none, htext, s.trimmed, if_neg s.ne_nil, isRelevant_eq, ok_bind]
    rfl
  | some path =>
    simp only [Option.map_some, s.trimmed, s.module_trimmed path hmodule, if_neg s.ne_nil,
      isRelevant_eq, ok_bind]
    rfl

/-- What follows an address. -/
def ClientAddress.tail (a : ClientAddress) : Str :=
  match a.symbol with
  | some s => ' ' :: s.text
  | none => []

theorem ClientAddress.endsWord_tail (a : ClientAddress) : EndsWord a.tail := by
  unfold EndsWord ClientAddress.tail
  cases a.symbol with
  | none => simp
  | some s =>
    simp only [List.head?_cons, Option.mem_some_iff, forall_eq']
    decide

theorem ClientAddress.frameSymbol_tail (a : ClientAddress) :
    frameSymbol number a.address (a.buildId.getD []) (trimStart a.tail) =
      .ok (some (match a.symbol with
        | none => unavailableFrame number a.address (a.buildId.getD [])
        | some s =>
          { number := some number, top := number = 0, symbol := s.symbol,
            module := baseName (s.module.getD []), address := a.address,
            buildId := a.buildId.getD [], raw := [], relevant := isRelevantSymbol s.symbol,
            unavailable := false })) := by
  unfold ClientAddress.tail
  cases a.symbol with
  | none => rfl
  | some s =>
    dsimp only
    rw [trimStart_cons_of_isWhitespace (by decide), trimStart_of_head s.head_text.2,
      frameSymbol_text]

/-- The build ID, if there is one, and what follows. -/
theorem ClientAddress.frameBuildId?_text (a : ClientAddress) :
    frameBuildId? a.text = some (a.buildId.getD [], a.address ++ a.tail) := by
  have htext : a.text = (match a.buildId with
      | some id => id ++ [' ']
      | none => []) ++ (a.address ++ a.tail) := List.append_assoc _ _ _
  rw [htext]
  cases hid : a.buildId with
  | none => exact frameBuildId?_address a.hex_hex a.endsWord_tail
  | some id =>
    dsimp only
    rw [List.append_assoc, List.singleton_append]
    refine frameBuildId?_append (a.buildId_hex id hid) ?_
    exact (isWord_address a.hex_hex).head a.tail

theorem ClientAddress.not_unavailable (a : ClientAddress) :
    eqIgnoreAsciiCase a.text "unavailable".toList = false := by
  unfold eqIgnoreAsciiCase toAsciiLowercase
  rw [beq_eq_false_iff_ne]
  intro heq
  cases hid : a.buildId with
  | none =>
    simp [ClientAddress.text, hid, ClientAddress.address] at heq
  | some id =>
    have hlength := congrArg List.length heq
    have hlong := (a.buildId_hex id hid).1
    simp [ClientAddress.text, hid, ClientAddress.address] at hlength
    omega

theorem ClientFrame.head_body (frame : ClientFrame) :
    ∀ c ∈ frame.body.head?, isWhitespace c = false := by
  unfold ClientFrame.body
  cases frame.address with
  | none =>
    intro c hc
    cases hc
    decide
  | some a =>
    dsimp only
    unfold ClientAddress.text
    rw [List.append_assoc]
    cases hid : a.buildId with
    | none =>
      rw [List.nil_append]
      exact (isWord_address a.hex_hex).head _
    | some id =>
      have hid := a.buildId_hex id hid
      have hne : id ≠ [] := by
        rintro rfl
        exact absurd hid.1 (by decide)
      dsimp only
      rw [List.append_assoc]
      exact (isWord_of_hex hne hid.2).head _

/-- What is read of a frame is what was written. -/
theorem parseFrame_line (frame : ClientFrame) : parseFrame frame.line = .ok (some frame.row) := by
  unfold parseFrame ClientFrame.line
  rw [frameNumber?_append frame.number_lt frame.head_body]
  dsimp only
  unfold ClientFrame.body ClientFrame.row
  cases frame.address with
  | none => rfl
  | some a =>
    dsimp only
    rw [if_neg (Bool.eq_false_iff.mp a.not_unavailable), a.frameBuildId?_text]
    dsimp only
    rw [show a.address ++ a.tail = "0x".toList ++ a.hex ++ a.tail from rfl,
      firstWord?_append (isWord_address a.hex_hex) a.endsWord_tail]
    dsimp only
    rw [isAddress_of_hex a.hex_hex, ok_bind, if_pos rfl, sliceFrom?_append]
    dsimp only
    exact a.frameSymbol_tail

end

/-! ## Stacks -/

section

variable {u : Unicode} {header : Bool} {frames : List ClientFrame}

theorem hex_no_feed {s : Str} (h : ∀ c ∈ s, isAsciiHexdigit c = true) : '\n' ∉ s := by
  intro hmem
  exact absurd (h _ hmem) (by decide)

theorem trimmed_last {s : Str} (h : trim s = s) : s.getLast? ≠ some '\r' := by
  intro hlast
  exact absurd ((trim_eq_self_iff.mp h).2 _ hlast) (by decide)

theorem ClientSymbol.line_text (s : ClientSymbol) :
    '\n' ∉ s.text ∧ s.text.getLast? ≠ some '\r' := by
  unfold ClientSymbol.text
  cases hmodule : s.module with
  | none => exact ⟨s.no_feed, trimmed_last s.trimmed⟩
  | some path =>
    have hpath := trimmed_last (s.module_trimmed path hmodule)
    constructor
    · simp only [List.mem_append, not_or]
      exact ⟨⟨s.no_feed, by decide⟩, s.module_no_feed path hmodule⟩
    · dsimp only
      rw [List.getLast?_append]
      cases hlast : path.getLast? with
      | none => simp [atSeparator]
      | some c =>
        rw [hlast] at hpath
        exact hpath

theorem ClientAddress.line_text (a : ClientAddress) :
    '\n' ∉ a.text ∧ a.text.getLast? ≠ some '\r' := by
  have hfeed : '\n' ∉ (match a.buildId with
      | some id => id ++ [' ']
      | none => []) ++ a.address := by
    rw [List.mem_append, not_or]
    constructor
    · cases hid : a.buildId with
      | none => simp
      | some id => simpa using hex_no_feed (a.buildId_hex id hid).2
    · simpa [ClientAddress.address] using hex_no_feed a.hex_hex
  have hlast : ((match a.buildId with
      | some id => id ++ [' ']
      | none => []) ++ a.address).getLast? ≠ some '\r' := by
    unfold ClientAddress.address
    rw [← List.append_assoc, List.getLast?_append]
    cases hhex : a.hex.getLast? with
    | none => simp
    | some c =>
      rintro hc
      cases hc
      exact absurd (a.hex_hex _ (List.mem_of_getLast? hhex)) (by decide)
  unfold ClientAddress.text
  cases a.symbol with
  | none =>
    rw [List.append_nil]
    exact ⟨hfeed, hlast⟩
  | some s =>
    obtain ⟨hno, hend⟩ := s.line_text
    dsimp only
    refine ⟨?_, ?_⟩
    · rw [List.mem_append, List.mem_cons]
      simp [hfeed, hno]
    · rw [List.getLast?_append, List.getLast?_cons_of_ne_nil s.head_text.1]
      cases htext : s.text.getLast? with
      | none => exact absurd (List.getLast?_eq_none_iff.mp htext) s.head_text.1
      | some c =>
        rw [htext] at hend
        exact hend

theorem ClientFrame.isLine (frame : ClientFrame) : IsLine frame.line := by
  have hbody : '\n' ∉ frame.body ∧ frame.body.getLast? ≠ some '\r' := by
    unfold ClientFrame.body
    cases frame.address with
    | none => decide
    | some a => exact a.line_text
  have hdigits : '\n' ∉ digits frame.number := fun hmem =>
    absurd (isAsciiDigit_of_mem_digits hmem) (by decide)
  unfold ClientFrame.line
  constructor
  · simp
  · simp [hdigits, hbody.1]
  · rw [List.getLast?_append]
    cases hlast : frame.body with
    | nil => simp
    | cons c rest =>
      rw [hlast] at hbody
      rw [List.getLast?_cons_cons]
      cases hrest : (c :: rest).getLast? with
      | none => exact absurd (List.getLast?_eq_none_iff.mp hrest) (List.cons_ne_nil c rest)
      | some d =>
        rw [hrest] at hbody
        exact hbody.2

theorem frame_is_no_header (frame : ClientFrame) : trim frame.line ≠ nativeStackHeader := by
  intro h
  have hprefix := trimEnd_prefix (trimStart frame.line)
  have hstart : trimStart frame.line = frame.line := trimStart_of_head (by
    unfold ClientFrame.line
    simp only [List.cons_append, List.head?_cons, Option.mem_some_iff, forall_eq']
    decide)
  rw [show trimEnd (trimStart frame.line) = nativeStackHeader from h, hstart] at hprefix
  obtain ⟨rest, hrest⟩ := hprefix
  unfold ClientFrame.line nativeStackHeader at hrest
  have hfirst := (List.cons.inj hrest).1
  exact absurd hfirst (by decide)

theorem lines_clientText (header : Bool) (frames : List ClientFrame) :
    lines (clientText header frames) = headerLines header ++ frames.map ClientFrame.line := by
  refine lines_join fun part hpart => ?_
  rcases List.mem_append.mp hpart with hpart | hpart
  · unfold headerLines at hpart
    split_ifs at hpart
    · rw [List.mem_singleton.mp hpart]
      exact ⟨by decide, by decide, by decide⟩
    · cases hpart
  · obtain ⟨frame, -, rfl⟩ := List.mem_map.mp hpart
    exact frame.isLine

/-- The frames become rows, as far as there is room next to the header. -/
theorem stackLines_clientText (header : Bool) (frames : List ClientFrame) :
    stackLines (clientText header frames) =
      (frames.take (maxRenderedLines - (headerLines header).length)).map ClientFrame.line := by
  unfold stackLines
  rw [lines_clientText]
  cases header with
  | true =>
    have htake : (headerLines true ++ frames.map ClientFrame.line).take maxRenderedLines =
        nativeStackHeader :: (frames.map ClientFrame.line).take (maxRenderedLines - 1) := rfl
    rw [htake]
    dsimp only
    rw [if_pos (by decide), ← List.map_take]
    rfl
  | false =>
    cases frames with
    | nil => rfl
    | cons frame frames =>
      have htake : (headerLines false ++ (frame :: frames).map ClientFrame.line).take
          maxRenderedLines = frame.line :: (frames.map ClientFrame.line).take
            (maxRenderedLines - 1) := rfl
      rw [htake]
      dsimp only
      rw [if_neg (frame_is_no_header frame), ← List.map_take]
      rfl

theorem frameRow_line (frame : ClientFrame) : frameRow frame.line = frame.row := by
  rw [frameRow_of_parseFrame (parseFrame_line frame), Option.getD_some]

theorem rows_clientText {parsed : ParsedStackTrace}
    (h : parseStackTrace u (clientText header frames) = .ok parsed) :
    parsed.rows = (frames.take (maxRenderedLines - (headerLines header).length)).map
      ClientFrame.row := by
  rw [(rows_of_parseStackTrace h).1, stackLines_clientText, List.map_map]
  have hrow : frameRow ∘ ClientFrame.line = ClientFrame.row := funext frameRow_line
  rw [hrow]

theorem number_row (frame : ClientFrame) : frame.row.number.isSome = true := by
  unfold ClientFrame.row
  split
  · rfl
  · split <;> rfl

end

/-- A line and its row: the frame that it writes, or else its text. -/
def IsRowOf (line : Str) (row : StackTraceRow) : Prop :=
  parseFrame line = .ok (some row) ∨ parseFrame line = .ok none ∧ row = unparsedRow line

theorem isRowOf_frameRow (line : Str) : IsRowOf line (frameRow line) := by
  obtain ⟨row, hrow⟩ := parseFrame_safe line
  rw [frameRow_of_parseFrame hrow]
  cases row with
  | none => exact .inr ⟨hrow, rfl⟩
  | some row => exact .inl hrow

/-- The frames a client writes are read back, what is no frame is kept as text, and only a stack
that is cut is marked. -/
theorem parse_after_render (u : Unicode) :
    (∀ header frames, (headerLines header).length + frames.length ≤ maxRenderedLines →
      ∃ parsed, parseStackTrace u (clientText header frames) = .ok parsed ∧
        parsed.rows = frames.map ClientFrame.row ∧ parsed.frameCount = frames.length) ∧
    ∀ text, ∃ parsed, parseStackTrace u text = .ok parsed ∧
      List.Forall₂ IsRowOf (stackLines text) parsed.rows ∧
      (parsed.truncated = true ↔ 256 < (lines text).length) := by
  constructor
  · intro header frames hroom
    obtain ⟨parsed, hparsed⟩ := parseStackTrace_safe u (clientText header frames)
    have hrows := rows_clientText hparsed
    rw [List.take_of_length_le (by omega)] at hrows
    refine ⟨parsed, hparsed, hrows, ?_⟩
    rw [(rows_of_parseStackTrace hparsed).2.1, hrows, List.countP_map]
    exact List.countP_eq_length.mpr fun frame _ => number_row frame
  · intro text
    obtain ⟨parsed, hparsed⟩ := parseStackTrace_safe u text
    obtain ⟨hrows, -, htruncated⟩ := rows_of_parseStackTrace hparsed
    refine ⟨parsed, hparsed, ?_, htruncated⟩
    rw [hrows]
    refine List.forall₂_map_right_iff.mpr (List.forall₂_same.mpr fun line _ => ?_)
    exact isRowOf_frameRow line

/-! ## A stack with every kind of frame -/

/-- A function in a module. -/
def sampleSymbol : ClientSymbol where
  symbol := "Vector<T>::at(unsigned) + 0x10".toList
  module := some "/opt/lib/libfoo.so".toList
  ne_nil := by decide
  trimmed := by decide +kernel
  no_feed := by decide
  no_at := by decide +kernel
  module_trimmed := by decide +kernel
  module_no_feed := by decide
  module_no_at := by decide +kernel
  module_head := by decide +kernel

/-- The frame of the crash. -/
def ClientFrame.top (address : ClientAddress) : ClientFrame := ⟨0, some address, by decide⟩

def sampleFrames : List ClientFrame :=
  [.top ⟨some "0123456789abcdef".toList, "1f".toList, some sampleSymbol,
      fun _ h => Option.mem_some.mp h ▸ ⟨by decide, forall_of_all (by decide)⟩,
      forall_of_all (by decide)⟩,
    ⟨4294967295, none, by decide⟩]

theorem sample_is_read_back :
    (∃ parsed, parseStackTrace Unicode.ascii (clientText true sampleFrames) = .ok parsed ∧
      parsed.rows = sampleFrames.map ClientFrame.row ∧
        parsed.frameCount = sampleFrames.length) ∧
    (∃ parsed, parseStackTrace Unicode.ascii "no frame".toList = .ok parsed ∧
      List.Forall₂ IsRowOf (stackLines "no frame".toList) parsed.rows ∧
      (parsed.truncated = true ↔ 256 < (lines "no frame".toList).length)) :=
  ⟨(parse_after_render Unicode.ascii).1 true sampleFrames (by decide),
    (parse_after_render Unicode.ascii).2 "no frame".toList⟩

end LadybirdReports
