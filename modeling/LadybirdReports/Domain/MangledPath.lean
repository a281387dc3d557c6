import LadybirdReports.Domain.ClientStack

/-!
# Mangled paths

A symbol of Rust in v0 mangling is a path: a crate root, and identifiers nested in it. `demangled`
is to recover their names.

1. A `MangledPath` is written with `MangledPath.text`: `N` and a namespace for each nested
   identifier, the crate root `Cs` with its disambiguator, then the identifiers. An identifier is a
   length, `_` where the name begins with a digit or `_`, and that many bytes; before a nested one
   there may be a disambiguator. An identifier of no bytes, as a closure has, gives no name.
2. `Reads u names rest` says that the loop of `demangled` passes over `u` before `rest` and takes
   `names` from it. It composes (`Reads.trans`), so what a path is read as follows from its parts.
3. The loop leaves the disambiguator of a crate at its `_` (`reads_crate`), but reads the one of a
   nested identifier like any text: its digits are taken for a length. `passesOver` is the test that
   no number the loop gets to there names text that follows; then nothing is taken from it
   (`reads_disambiguator`).
4. So the names are recovered from every path whose disambiguators pass this test
   (`names_recovered`). From one that does not pass, or right after it, a text is taken that is no
   name of the path there (`strays_of_not_passesOver`).
-/

namespace LadybirdReports

open Rust

/-! ## Paths -/

/-- A number in base 62, after `s` and before `_`. -/
structure Disambiguator where
  digits : Str
  base62 : ∀ c ∈ digits, isAsciiAlphanumeric c = true

def Disambiguator.text (d : Disambiguator) : Str := 's' :: (d.digits ++ ['_'])

/-- The name of an identifier, and whether `_` is written between it and its length. -/
structure MangledName where
  name : Str
  separated : Bool
  separated_of : ∀ c ∈ name.head?, isAsciiDigit c = true ∨ c = '_' → separated = true

def MangledName.separator (n : MangledName) : Str := if n.separated then ['_'] else []

def MangledName.text (n : MangledName) : Str := digits (byteLen n.name) ++ n.separator ++ n.name

/-- An identifier of no bytes gives no name. -/
def MangledName.names (n : MangledName) : List Str := if n.name = [] then [] else [n.name]

/-- A path: a crate root, or an identifier nested in a path. -/
inductive MangledPath where
  | crateRoot (disambiguator : Disambiguator) (name : MangledName)
  | nested (kind : Char) (letter : isAsciiAlphabetic kind = true) (path : MangledPath)
      (disambiguator : Option Disambiguator) (name : MangledName)

def disambiguatorText : Option Disambiguator → Str
  | some d => d.text
  | none => []

def MangledPath.text : MangledPath → Str
  | .crateRoot d n => 'C' :: (d.text ++ n.text)
  | .nested kind _ path d n => 'N' :: kind :: (path.text ++ (disambiguatorText d ++ n.text))

def MangledPath.symbol (path : MangledPath) : Str := "_R".toList ++ path.text

/-- The names along a path, from the crate on. -/
def MangledPath.names : MangledPath → List Str
  | .crateRoot _ n => n.names
  | .nested _ _ path _ n => path.names ++ n.names

/-! ## Disambiguators that are passed over -/

/-- Whether the loop goes on after the next `_` here. -/
def leavesAt (s : Str) : Bool := startsWith s ['B'] || startsWith s ['C', 's']

/-- What a number names in a text: as many bytes of it, if the text has them, they are whole
characters, and the number is one of a `usize` and not 0. -/
def namedBy (number text : Str) : Option Str :=
  let length := (parseUnsigned 64 number).getD 0
  if 0 < length then sliceTo? text length else none

/-- The text that is read for a number inside a disambiguator, before `rest`. -/
def textAfterNumber (rest s : Str) : Str :=
  match s.dropWhile isAsciiDigit with
  | [] => rest
  | after => after ++ '_' :: rest

/-- Whether the loop takes nothing from what is left of a disambiguator before `rest`, after a part
of a number or after none. -/
def passesOver (rest : Str) : Bool → Str → Bool
  | _, [] => true
  | inNumber, c :: s =>
    if isAsciiDigit c then
      (inNumber || (namedBy (c :: s.takeWhile isAsciiDigit) (textAfterNumber rest s)).isNone) &&
        passesOver rest true s
    else leavesAt (c :: s) || passesOver rest false s

def disambiguatorPasses (rest : Str) : Option Disambiguator → Bool
  | some d => passesOver rest false d.digits
  | none => true

/-- Whether the disambiguators of the nested identifiers of a path before `rest` are passed over. -/
def MangledPath.passesOver : MangledPath → Str → Bool
  | .crateRoot _ _, _ => true
  | .nested _ _ path d n, rest =>
    path.passesOver (disambiguatorText d ++ n.text ++ rest) &&
      disambiguatorPasses (n.text ++ rest) d

/-! ## Single bytes -/

section

variable {c d : Char} {p q s u v rest : Str}

theorem utf8Size_of_isAsciiAlphanumeric (h : isAsciiAlphanumeric c = true) : c.utf8Size = 1 := by
  unfold isAsciiAlphanumeric isAsciiDigit isAsciiAlphabetic at h
  simp only [Bool.or_eq_true, Bool.and_eq_true, decide_eq_true_eq, show '0'.toNat = 48 from rfl,
    show '9'.toNat = 57 from rfl, show 'a'.toNat = 97 from rfl, show 'z'.toNat = 122 from rfl,
    show 'A'.toNat = 65 from rfl, show 'Z'.toNat = 90 from rfl] at h
  exact Char.utf8Size_eq_one_iff.mpr (UInt32.le_iff_toNat_le.mpr (by
    change c.toNat ≤ 127
    omega))

theorem toNat_of_utf8Size (h : c.utf8Size = 1) : c.val.toUInt8.toNat = c.toNat := by
  have hle := UInt32.le_iff_toNat_le.mp (Char.utf8Size_eq_one_iff.mp h)
  rw [UInt32.toNat_toUInt8]
  change c.toNat ≤ 127 at hle
  change c.toNat % 256 = c.toNat
  omega

/-- The byte where a character of one byte begins. -/
theorem getElem?_bytes_append (h : c.utf8Size = 1) :
    (bytes (p ++ c :: q))[byteLen p]? = some c.val.toUInt8 := by
  have hbytes : bytes (p ++ c :: q) = bytes p ++ (c.val.toUInt8 :: bytes q) := by
    unfold bytes
    rw [List.flatMap_append, List.flatMap_cons, String.utf8EncodeChar_eq_singleton h,
      List.singleton_append]
  rw [hbytes, ← bytes_length p, List.getElem?_append_right le_rfl, Nat.sub_self,
    List.getElem?_cons_zero]

/-- The first byte of a text tells whether a character of one byte begins it. -/
theorem getElem?_bytes_iff (h : d.utf8Size = 1) :
    (bytes (p ++ q))[byteLen p]? = some d.val.toUInt8 ↔ q.head? = some d := by
  have hle : d.toNat ≤ 127 := UInt32.le_iff_toNat_le.mp (Char.utf8Size_eq_one_iff.mp h)
  have hlt : d.val.toUInt8.toNat < 128 := by
    rw [toNat_of_utf8Size h]
    omega
  constructor
  · intro hbyte
    cases q with
    | nil =>
      rw [List.append_nil, ← bytes_length p, List.getElem?_eq_none le_rfl] at hbyte
      cases hbyte
    | cons c q =>
      have hbytes : bytes (p ++ c :: q) = bytes p ++ (String.utf8EncodeChar c ++ bytes q) := by
        unfold bytes
        rw [List.flatMap_append, List.flatMap_cons]
      obtain ⟨byte, more, hchar⟩ := List.exists_cons_of_ne_nil
        (String.utf8EncodeChar_ne_nil (c := c))
      rw [hbytes, ← bytes_length p, List.getElem?_append_right le_rfl, Nat.sub_self, hchar,
        List.cons_append, List.getElem?_cons_zero, Option.some_inj] at hbyte
      obtain ⟨-, hnat⟩ := ascii_of_mem_utf8EncodeChar (c := c) (b := byte)
        (by rw [hchar]; exact List.mem_cons_self) (by rw [hbyte]; exact hlt)
      rw [hbyte, toNat_of_utf8Size h] at hnat
      rw [List.head?_cons, Char.ext (UInt32.toNat_inj.mp hnat)]
  · intro hhead
    cases q with
    | nil => cases hhead
    | cons c q =>
      cases hhead
      exact getElem?_bytes_append h

theorem toUInt8_inj (hc : c.utf8Size = 1) (hd : d.utf8Size = 1) :
    c.val.toUInt8 = d.val.toUInt8 ↔ c = d := by
  refine ⟨fun h => ?_, fun h => h ▸ rfl⟩
  have hnat := congrArg UInt8.toNat h
  rw [toNat_of_utf8Size hc, toNat_of_utf8Size hd] at hnat
  exact Char.ext (UInt32.toNat_inj.mp hnat)

theorem leavesAt_iff : leavesAt (c :: s) = true ↔ c = 'B' ∨ c = 'C' ∧ s.head? = some 's' := by
  unfold leavesAt
  cases s with
  | nil => simp [startsWith, eq_comm (b := c)]
  | cons d s => simp [startsWith, eq_comm (b := c), eq_comm (b := d)]

/-- The loop looks at the byte it is at and the next one. -/
theorem leaves_iff (hc : c.utf8Size = 1) :
    ((c.val.toUInt8 = 67 ∧ (bytes (p ++ c :: q))[byteLen p + 1]? = some 115) ∨
      c.val.toUInt8 = 66) ↔ leavesAt (c :: q) = true := by
  have hnext : (bytes (p ++ c :: q))[byteLen p + 1]? = some 115 ↔ q.head? = some 's' := by
    have h := getElem?_bytes_iff (d := 's') (p := p ++ [c]) (q := q) rfl
    rw [byteLen_append, byteLen_cons, hc, byteLen_nil, Nat.add_zero, List.append_assoc,
      List.singleton_append] at h
    exact h
  rw [leavesAt_iff, hnext, ← toUInt8_inj hc (d := 'B') rfl, ← toUInt8_inj hc (d := 'C') rfl,
    or_comm]
  rfl

end

/-! ## Turns of the loop -/

section

variable {c : Char} {u v rest text number separator : Str} {ns ms : List Str}

theorem demangledFrom_step {symbol : Str} {index next : ℕ} {byte : UInt8} {name : Option Str}
    (acc : List Str) (hb : (bytes symbol)[index]? = some byte)
    (h : demangleStep symbol index byte = .ok (next, name)) :
    demangledFrom symbol index acc = demangledFrom symbol next (acc ++ name.toList) := by
  obtain ⟨hi, rfl⟩ := List.getElem?_eq_some_iff.mp hb
  rw [demangledFrom, dif_pos hi]
  split
  · rename_i heq
    rw [h] at heq
    cases heq
  · rename_i heq
    rw [h] at heq
    cases heq
    rfl

/-- The loop passes over `u` before `rest`, and takes the names from it. -/
def Reads (u : Str) (names : List Str) (rest : Str) : Prop :=
  ∀ (before : Str) (acc : List Str), byteLen (before ++ (u ++ rest)) < 2 ^ 64 →
    demangledFrom (before ++ (u ++ rest)) (byteLen before) acc =
      demangledFrom (before ++ (u ++ rest)) (byteLen (before ++ u)) (acc ++ names)

theorem Reads.refl : Reads [] [] rest := by
  intro before acc _
  rw [List.append_nil, List.append_nil]

theorem Reads.trans (h : Reads u ns (v ++ rest)) (h' : Reads v ms rest) :
    Reads (u ++ v) (ns ++ ms) rest := by
  intro before acc hlt
  rw [List.append_assoc] at hlt ⊢
  have hlast := h' (before ++ u) (acc ++ ns) (by rwa [List.append_assoc])
  rw [h before acc hlt, ← List.append_assoc before u, hlast, List.append_assoc, List.append_assoc,
    List.append_assoc]

/-- One turn of the loop. -/
theorem Reads.of_step (name : Option Str) (hc : c.utf8Size = 1)
    (h : ∀ before : Str, byteLen (before ++ c :: (u ++ rest)) < 2 ^ 64 →
      demangleStep (before ++ c :: (u ++ rest)) (byteLen before) c.val.toUInt8 =
        .ok (byteLen (before ++ c :: u), name)) : Reads (c :: u) name.toList rest := by
  intro before acc hlt
  exact demangledFrom_step acc (getElem?_bytes_append hc) (h before hlt)

/-- What is neither a digit nor leaves for a `_` is one turn. -/
theorem reads_letter (hc : c.utf8Size = 1) (hdigit : isAsciiDigit c = false)
    (hleaves : leavesAt (c :: rest) = false) : Reads [c] [] rest := by
  refine Reads.of_step none hc fun before _ => ?_
  unfold demangleStep
  rw [if_neg (by rw [leaves_iff hc, List.nil_append, hleaves]; exact Bool.false_ne_true),
    if_neg (by
      rw [isAsciiDigitByte_iff (toNat_of_utf8Size hc), hdigit]
      exact Bool.false_ne_true), byteLen_append, byteLen_cons, hc, byteLen_nil]
  rfl

/-- What leaves for a `_` goes on after the next one. -/
theorem reads_leave (hleaves : leavesAt (c :: (u ++ '_' :: rest)) = true) (hu : '_' ∉ u) :
    Reads (c :: (u ++ ['_'])) [] rest := by
  have hhead := leavesAt_iff.mp hleaves
  have hc : c.utf8Size = 1 := by rcases hhead with rfl | ⟨rfl, -⟩ <;> rfl
  have hmem : '_' ∉ c :: u := by
    refine List.not_mem_cons_of_ne_of_not_mem ?_ hu
    rcases hhead with rfl | ⟨rfl, -⟩ <;> decide
  refine Reads.of_step none hc fun before _ => ?_
  have hrest : c :: (u ++ ['_'] ++ rest) = (c :: u) ++ '_' :: rest := by simp
  have hsplit : splitOnce? ['_'] ((c :: u) ++ ['_'] ++ rest) = some (c :: u, rest) :=
    splitOnce?_append hmem
  have hfind : find? ['_'] ((c :: u) ++ '_' :: rest) = some (byteLen (c :: u)) := by
    unfold find?
    rw [List.append_assoc, List.singleton_append] at hsplit
    rw [hsplit]
    rfl
  rw [hrest]
  unfold demangleStep
  rw [if_pos (by rw [List.cons_append, leaves_iff hc]; exact hleaves)]
  unfold sliceFrom
  rw [sliceFrom?_append, checked_some, ok_bind, hfind]
  have hlength : byteLen (before ++ c :: (u ++ ['_'])) =
      byteLen before + (byteLen (c :: u) + 1) := by
    simp [Nat.add_assoc, show '_'.utf8Size = 1 from rfl]
  rw [hlength]
  rfl

theorem namedBy_eq_some {name : Str} (h : namedBy number text = some name) :
    name ≠ [] ∧ (parseUnsigned 64 number).getD 0 = byteLen name ∧ ∃ rest, text = name ++ rest := by
  unfold namedBy at h
  dsimp only at h
  split_ifs at h with hpos
  obtain ⟨rest, htext, hlength⟩ := sliceTo?_eq_some h
  refine ⟨?_, hlength.symm, rest, htext⟩
  rintro rfl
  rw [byteLen_nil] at hlength
  omega

/-- The loop cuts out what a number names. -/
theorem nameAt_of_some {before name : Str} (h : namedBy number text = some name)
    (hlt : byteLen (before ++ text) < 2 ^ 64) :
    nameAt (before ++ text) (byteLen before) ((parseUnsigned 64 number).getD 0) =
      (byteLen (before ++ name), some name) := by
  obtain ⟨hne, hlength, rest, rfl⟩ := namedBy_eq_some h
  have hpos : 0 < byteLen name := by
    have hle := length_le_byteLen name
    have := List.length_pos_iff.mpr hne
    omega
  have hmod : (byteLen before + byteLen name) % 2 ^ 64 = byteLen before + byteLen name := by
    rw [byteLen_append, byteLen_append] at hlt
    exact Nat.mod_eq_of_lt (by omega)
  unfold nameAt
  rw [hlength, hmod, ← List.append_assoc, slice?_append]
  dsimp only
  rw [if_pos hpos, byteLen_append]

theorem nameAt_of_none {before : Str} (h : namedBy number text = none) :
    nameAt (before ++ text) (byteLen before) ((parseUnsigned 64 number).getD 0) =
      (byteLen before, none) := by
  unfold namedBy at h
  dsimp only at h
  have hbound : (parseUnsigned 64 number).getD 0 < 2 ^ 64 := by
    cases hparse : parseUnsigned 64 number with
    | none => exact Nat.two_pow_pos 64
    | some n => exact parseUnsigned_lt hparse
  generalize (parseUnsigned 64 number).getD 0 = length at h hbound ⊢
  unfold nameAt
  split
  · rename_i name hslice
    rw [if_neg]
    intro hpos
    rw [if_pos hpos] at h
    unfold slice? at hslice
    split_ifs at hslice with hle
    rw [sliceFrom?_append, Option.bind_some] at hslice
    by_cases hsmall : byteLen before + length < 2 ^ 64
    · rw [Nat.mod_eq_of_lt hsmall, Nat.add_sub_cancel_left, h] at hslice
      cases hslice
    · omega
  · rfl

/-- A number ends before the text: at `_`, or where the text goes on with neither that nor a
digit. -/
def EndsNumber (separator text : Str) : Prop :=
  separator = ['_'] ∨ separator = [] ∧ ∀ d ∈ text.head?, isAsciiDigit d = false ∧ d ≠ '_'

/-- A turn at a number: what is read begins after the number and a `_`. -/
theorem demangleStep_number (before : Str) (hnumber : ∀ d ∈ c :: number, isAsciiDigit d = true)
    (hends : EndsNumber separator text) :
    demangleStep (before ++ c :: (number ++ (separator ++ text))) (byteLen before) c.val.toUInt8 =
      .ok (nameAt (before ++ c :: (number ++ (separator ++ text)))
        (byteLen (before ++ c :: (number ++ separator)))
        ((parseUnsigned 64 (c :: number)).getD 0)) := by
  have hdigit : isAsciiDigit c = true := hnumber c List.mem_cons_self
  have hc : c.utf8Size = 1 := utf8Size_of_isAsciiDigit hdigit
  have hleaves : leavesAt (c :: (number ++ (separator ++ text))) = false := by
    rw [Bool.eq_false_iff, ne_eq, leavesAt_iff]
    rintro (rfl | ⟨rfl, -⟩)
    · exact absurd hdigit (by decide)
    · exact absurd hdigit (by decide)
  have hrest : ∀ d ∈ (separator ++ text).head?, isAsciiDigit d = false := by
    rcases hends with rfl | ⟨rfl, htext⟩
    · exact fun d hd => Option.mem_some.mp hd ▸ rfl
    · exact fun d hd => (htext d hd).1
  have hle : byteLen before ≤ (bytes (before ++ c :: (number ++ (separator ++ text)))).length := by
    rw [bytes_length, byteLen_append]
    omega
  have hdigits : leadingDigits (bytes (c :: (number ++ (separator ++ text)))) =
      byteLen (c :: number) := by
    have h := leadingDigits_append hnumber hrest
    rwa [← byteLen_of_digits hnumber, List.cons_append] at h
  have hslice : slice? (before ++ c :: (number ++ (separator ++ text))) (byteLen before)
      (byteLen before + byteLen (c :: number)) = some (c :: number) := by
    have h := slice?_append before (c :: number) (separator ++ text)
    rwa [List.append_assoc, List.cons_append] at h
  have hnext : (bytes (before ++ c :: (number ++ (separator ++ text))))[byteLen before +
      byteLen (c :: number)]? = some 95 ↔ (separator ++ text).head? = some '_' := by
    have h := getElem?_bytes_iff (d := '_') (p := before ++ c :: number)
      (q := separator ++ text) rfl
    rwa [byteLen_append, List.append_assoc, List.cons_append] at h
  have hstart : (byteLen before + byteLen (c :: number) +
      if (bytes (before ++ c :: (number ++ (separator ++ text))))[byteLen before +
        byteLen (c :: number)]? = some 95 then 1 else 0) =
      byteLen (before ++ c :: (number ++ separator)) := by
    rcases hends with rfl | ⟨rfl, htext⟩
    · rw [if_pos (hnext.mpr rfl)]
      simp [Nat.add_assoc, show '_'.utf8Size = 1 from rfl]
    · rw [if_neg (fun h => (htext '_' (hnext.mp h)).2 rfl)]
      simp
  unfold demangleStep
  rw [if_neg (by rw [leaves_iff hc, hleaves]; exact Bool.false_ne_true),
    if_pos (by rw [isAsciiDigitByte_iff (toNat_of_utf8Size hc), hdigit]),
    tailFrom_of_le hle, bytes_drop_append, ok_bind, hdigits]
  unfold slice
  dsimp only
  rw [hslice, checked_some, ok_bind, hstart]
  rfl

theorem reads_number_some {name : Str} (hnumber : ∀ d ∈ c :: number, isAsciiDigit d = true)
    (hends : EndsNumber separator (name ++ rest))
    (hname : namedBy (c :: number) (name ++ rest) = some name) :
    Reads (c :: (number ++ (separator ++ name))) [name] rest := by
  have hc : c.utf8Size = 1 := utf8Size_of_isAsciiDigit (hnumber c List.mem_cons_self)
  refine Reads.of_step (some name) hc fun before hlt => ?_
  rw [List.append_assoc, List.append_assoc] at hlt ⊢
  have hassoc : before ++ c :: (number ++ (separator ++ (name ++ rest))) =
      (before ++ c :: (number ++ separator)) ++ (name ++ rest) := by simp
  rw [demangleStep_number before hnumber hends]
  rw [hassoc] at hlt ⊢
  rw [nameAt_of_some hname hlt]
  simp

theorem reads_number_none (hnumber : ∀ d ∈ c :: number, isAsciiDigit d = true)
    (hends : EndsNumber separator rest) (hname : namedBy (c :: number) rest = none) :
    Reads (c :: (number ++ separator)) [] rest := by
  have hc : c.utf8Size = 1 := utf8Size_of_isAsciiDigit (hnumber c List.mem_cons_self)
  refine Reads.of_step none hc fun before _ => ?_
  have hassoc : before ++ c :: (number ++ (separator ++ rest)) =
      (before ++ c :: (number ++ separator)) ++ rest := by simp
  rw [List.append_assoc, demangleStep_number before hnumber hends, hassoc, nameAt_of_none hname]

/-- Where a number ends in a text. -/
theorem exists_endsNumber (s : Str) :
    ∃ number separator text, s = number ++ (separator ++ text) ∧
      (∀ d ∈ number, isAsciiDigit d = true) ∧ EndsNumber separator text := by
  refine ⟨s.takeWhile isAsciiDigit, ?_⟩
  have hs := (List.takeWhile_append_dropWhile (p := isAsciiDigit) (l := s)).symm
  have hdigits (d : Char) (hd : d ∈ s.takeWhile isAsciiDigit) : isAsciiDigit d = true :=
    List.mem_takeWhile_imp hd
  have hhead : ∀ d ∈ (s.dropWhile isAsciiDigit).head?, isAsciiDigit d = false := by
    intro d hd
    have hnot := List.head?_dropWhile_not isAsciiDigit s
    rwa [Option.mem_def.mp hd] at hnot
  cases hafter : s.dropWhile isAsciiDigit with
  | nil => exact ⟨[], [], by rwa [hafter] at hs, hdigits, .inr ⟨rfl, nofun⟩⟩
  | cons d text =>
    rw [hafter] at hs hhead
    by_cases hd : d = '_'
    · subst hd
      exact ⟨['_'], text, hs, hdigits, .inl rfl⟩
    · refine ⟨[], d :: text, hs, hdigits, .inr ⟨rfl, fun e he => ⟨hhead e he, ?_⟩⟩⟩
      rwa [← Option.mem_some.mp he]

theorem reads_underscore : Reads ['_'] [] rest := reads_letter rfl rfl rfl

/-- A zero before a number does not change it, and alone it names nothing. -/
theorem reads_zero : Reads ['0'] [] rest := by
  obtain ⟨number, separator, text, rfl, hnumber, hends⟩ := exists_endsNumber rest
  have hzero : ∀ d ∈ '0' :: number, isAsciiDigit d = true :=
    List.forall_mem_cons.mpr ⟨rfl, hnumber⟩
  cases number with
  | nil =>
    have hread : Reads ('0' :: ([] ++ separator)) [] text :=
      reads_number_none hzero hends rfl
    rcases hends with rfl | ⟨rfl, htext⟩
    · intro before acc hlt
      have hletter := @reads_underscore text (before ++ ['0']) acc (by simpa using hlt)
      have hboth := hread before acc (by simpa using hlt)
      simp only [List.append_assoc, List.cons_append, List.nil_append, List.append_nil] at *
      rw [hboth, hletter]
    · exact hread
  | cons c number =>
    intro before acc hlt
    have hc : c.utf8Size = 1 := utf8Size_of_isAsciiDigit (hnumber c List.mem_cons_self)
    have hvalue : parseUnsigned 64 ('0' :: c :: number) = parseUnsigned 64 (c :: number) := by
      rw [parseUnsigned_of_digits (List.cons_ne_nil _ _) hzero,
        parseUnsigned_of_digits (List.cons_ne_nil _ _) hnumber]
      rfl
    have hfirst := demangleStep_number before hzero hends
    have hnext := demangleStep_number (before ++ ['0']) hnumber hends
    have hbyte := getElem?_bytes_append (c := '0') (p := before)
      (q := c :: number ++ (separator ++ text)) rfl
    have hbyte' := getElem?_bytes_append (p := before ++ ['0']) (q := number ++ (separator ++ text))
      hc
    simp only [List.append_assoc, List.cons_append, List.nil_append, List.append_nil] at *
    rw [hvalue] at hfirst
    rw [demangledFrom_step acc hbyte hfirst, demangledFrom_step acc hbyte' hnext]

/-- An identifier gives its name. -/
theorem reads_name (n : MangledName) : Reads n.text n.names rest := by
  unfold MangledName.text MangledName.names MangledName.separator
  by_cases hne : n.name = []
  · rw [if_pos hne, hne, List.append_nil]
    have hlast : Reads (if n.separated then ['_'] else []) [] rest := by
      split_ifs
      · exact reads_underscore
      · exact Reads.refl
    exact reads_zero.trans hlast
  · rw [if_neg hne, List.append_assoc]
    obtain ⟨c, number, hdigits⟩ := List.exists_cons_of_ne_nil (digits_ne_nil (byteLen n.name))
    have hnumber : ∀ d ∈ c :: number, isAsciiDigit d = true := by
      rw [← hdigits]
      exact fun d hd => isAsciiDigit_of_mem_digits hd
    have hends : EndsNumber (if n.separated then ['_'] else []) (n.name ++ rest) := by
      cases hseparated : n.separated with
      | true => exact .inl rfl
      | false =>
        refine .inr ⟨rfl, fun d hd => ?_⟩
        rw [List.head?_append_of_ne_nil _ hne] at hd
        have hnot := mt (n.separated_of d hd) (by rw [hseparated]; exact Bool.false_ne_true)
        exact ⟨Bool.eq_false_iff.mpr fun h => hnot (.inl h), fun h => hnot (.inr h)⟩
    intro before acc hlt
    have hsize : byteLen n.name < 2 ^ 64 := by
      simp only [byteLen_append] at hlt
      omega
    have hpos : 0 < byteLen n.name :=
      lt_of_lt_of_le (List.length_pos_iff.mpr hne) (length_le_byteLen _)
    have hname : namedBy (c :: number) (n.name ++ rest) = some n.name := by
      unfold namedBy
      rw [← hdigits, parseUnsigned_digits hsize, Option.getD_some]
      dsimp only
      rw [if_pos hpos, sliceTo?_append]
    rw [hdigits] at hlt ⊢
    exact reads_number_some hnumber hends hname before acc hlt

theorem not_isAsciiDigit_of_alphabetic (h : isAsciiAlphabetic c = true) :
    isAsciiDigit c = false := by
  unfold isAsciiAlphabetic at h
  unfold isAsciiDigit
  simp only [Bool.or_eq_true, Bool.and_eq_true, decide_eq_true_eq, Bool.and_eq_false_iff,
    decide_eq_false_iff_not, show '0'.toNat = 48 from rfl, show '9'.toNat = 57 from rfl,
    show 'a'.toNat = 97 from rfl, show 'z'.toNat = 122 from rfl, show 'A'.toNat = 65 from rfl,
    show 'Z'.toNat = 90 from rfl] at h ⊢
  omega

theorem not_mem_of_base62 (h : ∀ c ∈ u, isAsciiAlphanumeric c = true) : '_' ∉ u :=
  fun hmem => absurd (h _ hmem) (by decide)

/-- The letters before a crate root, and its disambiguator, name nothing. -/
theorem reads_crate (d : Disambiguator) (hletters : ∀ c ∈ u, isAsciiAlphabetic c = true) :
    Reads (u ++ 'C' :: d.text) [] rest := by
  have hbase : ∀ c ∈ d.digits, c ≠ '_' := fun c hc h => not_mem_of_base62 d.base62 (h ▸ hc)
  unfold Disambiguator.text
  induction u with
  | nil =>
    have hmem : '_' ∉ 's' :: d.digits :=
      List.not_mem_cons_of_ne_of_not_mem (by decide) (not_mem_of_base62 d.base62)
    exact reads_leave (c := 'C') (u := 's' :: d.digits) (leavesAt_iff.mpr (.inr ⟨rfl, rfl⟩)) hmem
  | cons c u ih =>
    obtain ⟨hc, hu⟩ := List.forall_mem_cons.mp hletters
    have halphanumeric : isAsciiAlphanumeric c = true := by
      unfold isAsciiAlphanumeric
      rw [hc, Bool.or_true]
    have hsplit : c :: (u ++ 'C' :: 's' :: (d.digits ++ ['_'])) =
        c :: ((u ++ 'C' :: 's' :: d.digits) ++ ['_']) := by simp
    cases hleaves : leavesAt (c :: ((u ++ 'C' :: 's' :: d.digits) ++ '_' :: rest)) with
    | true =>
      have hmem : '_' ∉ u ++ 'C' :: 's' :: d.digits := by
        refine not_mem_of_base62 fun e he => ?_
        rcases List.mem_append.mp he with he | he
        · unfold isAsciiAlphanumeric
          rw [hu e he, Bool.or_true]
        · rcases List.mem_cons.mp he with rfl | he
          · rfl
          · rcases List.mem_cons.mp he with rfl | he
            · rfl
            · exact d.base62 e he
      rw [List.cons_append, hsplit]
      exact reads_leave hleaves hmem
    | false =>
      have hletter : Reads [c] [] (u ++ 'C' :: 's' :: (d.digits ++ ['_']) ++ rest) := by
        refine reads_letter (utf8Size_of_isAsciiAlphanumeric halphanumeric)
          (not_isAsciiDigit_of_alphabetic hc) ?_
        simpa using hleaves
      exact hletter.trans (ih hu)

/-- Within a number, nothing is asked until it ends. -/
theorem passesOver_true_eq (rest u : Str) :
    passesOver rest true u = passesOver rest false (u.dropWhile isAsciiDigit) := by
  induction u with
  | nil => rfl
  | cons d u ih =>
    cases hd : isAsciiDigit d with
    | true =>
      rw [List.dropWhile_cons_of_pos hd, passesOver, if_pos hd, Bool.true_or, Bool.true_and, ih]
    | false =>
      have hnot : ¬ isAsciiDigit d = true := by rw [hd]; exact Bool.false_ne_true
      rw [List.dropWhile_cons_of_neg hnot, passesOver, if_neg hnot, passesOver, if_neg hnot]

theorem textAfterNumber_nil (h : u.dropWhile isAsciiDigit = []) :
    textAfterNumber rest u = rest := by
  unfold textAfterNumber
  rw [h]

theorem textAfterNumber_cons {d : Char} (h : u.dropWhile isAsciiDigit = d :: v) :
    textAfterNumber rest u = d :: v ++ '_' :: rest := by
  unfold textAfterNumber
  rw [h]

/-- A name is taken that begins in `u` or right after it. -/
def Strays (u rest : Str) : Prop :=
  ∃ w name v, u ++ rest = w ++ (name ++ v) ∧ w <+: u ∧ name ≠ [] ∧ Reads (w ++ name) [name] v

theorem Strays.append (h : Strays v rest) (hread : Reads u [] (v ++ rest)) :
    Strays (u ++ v) rest := by
  obtain ⟨w, name, x, heq, hprefix, hne, hname⟩ := h
  refine ⟨u ++ w, name, x, by rw [List.append_assoc, heq, List.append_assoc],
    List.prefix_append_right_inj u |>.mpr hprefix, hne, ?_⟩
  rw [heq, ← List.append_assoc] at hread
  rw [List.append_assoc]
  exact hread.trans hname

/-- A turn in a disambiguator. The loop leaves for the `_`, or comes nearer to it, or takes a
name. -/
theorem base62_turn (rest : Str) (hbase : ∀ e ∈ c :: u, isAsciiAlphanumeric e = true) :
    (passesOver rest false (c :: u) = true ∧ Reads (c :: u ++ ['_']) [] rest) ∨
      (∃ w v, c :: u = w ++ v ∧ w ≠ [] ∧
        passesOver rest false (c :: u) = passesOver rest false v ∧
        Reads w [] (v ++ ['_'] ++ rest)) ∨
      (passesOver rest false (c :: u) = false ∧ Strays (c :: u ++ ['_']) rest) := by
  obtain ⟨hc, hu⟩ := List.forall_mem_cons.mp hbase
  cases hdigit : isAsciiDigit c with
  | false =>
    have hnot : ¬ isAsciiDigit c = true := by rw [hdigit]; exact Bool.false_ne_true
    rw [passesOver, if_neg hnot]
    cases hleaves : leavesAt (c :: u) with
    | true =>
      refine .inl ⟨rfl, reads_leave (leavesAt_iff.mpr ?_) (not_mem_of_base62 hu)⟩
      refine (leavesAt_iff.mp hleaves).imp_right (And.imp_right fun h => ?_)
      rw [List.head?_append, h]
      rfl
    | false =>
      refine .inr (.inl ⟨[c], u, rfl, List.cons_ne_nil _ _, Bool.false_or _, ?_⟩)
      refine reads_letter (utf8Size_of_isAsciiAlphanumeric hc) hdigit ?_
      rw [Bool.eq_false_iff, ne_eq, leavesAt_iff] at hleaves ⊢
      refine mt (Or.imp_right (And.imp_right fun h => ?_)) hleaves
      cases u with
      | nil => cases h
      | cons d u => exact h
  | true =>
    have hsplit : u.takeWhile isAsciiDigit ++ u.dropWhile isAsciiDigit = u :=
      List.takeWhile_append_dropWhile
    have hnumber : ∀ d ∈ c :: u.takeWhile isAsciiDigit, isAsciiDigit d = true :=
      List.forall_mem_cons.mpr ⟨hdigit, fun d hd => List.mem_takeWhile_imp hd⟩
    rw [passesOver, if_pos hdigit, Bool.false_or, passesOver_true_eq]
    cases hafter : u.dropWhile isAsciiDigit with
    | nil =>
      rw [textAfterNumber_nil hafter]
      rw [hafter, List.append_nil] at hsplit
      rw [hsplit] at hnumber ⊢
      cases hname : namedBy (c :: u) rest with
      | none => exact .inl ⟨rfl, reads_number_none hnumber (.inl rfl) hname⟩
      | some name =>
        obtain ⟨hne, -, v, rfl⟩ := namedBy_eq_some hname
        refine .inr (.inr ⟨rfl, c :: u ++ ['_'], name, v, rfl, List.prefix_rfl, hne, ?_⟩)
        have hread : Reads (c :: (u ++ (['_'] ++ name))) [name] v :=
          reads_number_some hnumber (.inl rfl) hname
        rwa [← List.append_assoc, ← List.cons_append] at hread
    | cons d v =>
      rw [textAfterNumber_cons hafter]
      rw [hafter] at hsplit
      have hsub (e : Char) (he : e ∈ d :: v) : isAsciiAlphanumeric e = true :=
        hu e (by rw [← hsplit]; exact List.mem_append_right _ he)
      have hhead : isAsciiDigit d = false := by
        have hnot := List.head?_dropWhile_not isAsciiDigit u
        rwa [hafter] at hnot
      have hends : EndsNumber [] (d :: v ++ '_' :: rest) := by
        refine .inr ⟨rfl, fun e he => ?_⟩
        rw [← Option.mem_some.mp he]
        exact ⟨hhead, fun h => not_mem_of_base62 hsub (h ▸ List.mem_cons_self)⟩
      cases hname : namedBy (c :: u.takeWhile isAsciiDigit) (d :: v ++ '_' :: rest) with
      | none =>
        refine .inr (.inl ⟨c :: u.takeWhile isAsciiDigit, d :: v, by rw [List.cons_append, hsplit],
          List.cons_ne_nil _ _, Bool.true_and _, ?_⟩)
        have hread := reads_number_none hnumber hends hname
        rw [List.append_nil] at hread
        rw [List.append_assoc, List.singleton_append]
        exact hread
      | some name =>
        obtain ⟨hne, -, x, htext⟩ := namedBy_eq_some hname
        rw [htext] at hname hends
        have hread := reads_number_some hnumber hends hname
        refine .inr (.inr ⟨rfl, c :: u.takeWhile isAsciiDigit, name, x, ?_, ?_, hne, hread⟩)
        · rw [← htext]
          nth_rewrite 1 [← hsplit]
          simp
        · refine ⟨d :: v ++ ['_'], ?_⟩
          rw [← List.append_assoc, List.cons_append, hsplit]

/-- What the loop gets to of a disambiguator, up to its `_`: nothing is taken, or a name that begins
there. -/
theorem base62_run (hbase : ∀ c ∈ u, isAsciiAlphanumeric c = true) :
    (passesOver rest false u = true → Reads (u ++ ['_']) [] rest) ∧
      (passesOver rest false u = false → Strays (u ++ ['_']) rest) := by
  induction hn : u.length using Nat.strong_induction_on generalizing u with
  | _ n ih =>
    cases u with
    | nil => exact ⟨fun _ => reads_underscore, nofun⟩
    | cons c u =>
      rcases base62_turn rest hbase with
        ⟨hpasses, hread⟩ | ⟨w, v, heq, hne, hpasses, hread⟩ | ⟨hpasses, hstrays⟩
      · exact ⟨fun _ => hread, fun h => absurd (hpasses.symm.trans h) (by decide)⟩
      · rw [heq] at hn hbase hpasses ⊢
        have hlength := List.length_pos_iff.mpr hne
        rw [List.length_append] at hn
        have hlast := ih v.length (by omega)
          (fun e he => hbase e (List.mem_append_right _ he)) rfl
        rw [hpasses, List.append_assoc]
        exact ⟨fun h => hread.trans (hlast.1 h), fun h => (hlast.2 h).append hread⟩
      · exact ⟨fun h => absurd (hpasses.symm.trans h) (by decide), fun _ => hstrays⟩

theorem reads_s : Reads ['s'] [] rest := reads_letter rfl rfl rfl

theorem reads_disambiguator (d : Disambiguator) (h : passesOver rest false d.digits = true) :
    Reads d.text [] rest := by
  have hletter : Reads ['s'] [] (d.digits ++ ['_'] ++ rest) := reads_s
  exact hletter.trans ((base62_run d.base62).1 h)

/-- A disambiguator that is not passed over gives a name that the path does not have there. -/
theorem strays_of_not_passesOver (d : Disambiguator)
    (h : passesOver rest false d.digits = false) : Strays d.text rest := by
  have hletter : Reads ['s'] [] (d.digits ++ ['_'] ++ rest) := reads_s
  exact ((base62_run d.base62).2 h).append hletter

/-- A path gives its names, also after letters that the loop passes over. -/
theorem reads_path {path : MangledPath} (hletters : ∀ c ∈ u, isAsciiAlphabetic c = true)
    (hpasses : path.passesOver rest = true) : Reads (u ++ path.text) path.names rest := by
  induction path generalizing u rest with
  | crateRoot d n =>
    have hcrate : Reads (u ++ 'C' :: d.text) [] (n.text ++ rest) := reads_crate d hletters
    have hread := hcrate.trans (reads_name n)
    rwa [List.append_assoc] at hread
  | nested kind letter path d n ih =>
    rw [MangledPath.passesOver, Bool.and_eq_true] at hpasses
    have hkind : ∀ c ∈ u ++ ['N', kind], isAsciiAlphabetic c = true :=
      List.forall_mem_append.mpr ⟨hletters, List.forall_mem_cons.mpr ⟨rfl,
        List.forall_mem_cons.mpr ⟨letter, nofun⟩⟩⟩
    have hpath := ih hkind hpasses.1
    have hdisambiguator : Reads (disambiguatorText d) [] (n.text ++ rest) := by
      cases d with
      | none => exact Reads.refl
      | some d => exact reads_disambiguator d hpasses.2
    have hread := hpath.trans (hdisambiguator.trans (reads_name n))
    simp only [List.append_assoc, List.cons_append, List.nil_append] at hread
    rw [MangledPath.text, MangledPath.names]
    exact hread

end

/-- The loop moves on at every turn, and the text is read. -/
def LoopEnds (symbol : Str) : Prop :=
  (∀ index byte next name, (bytes symbol)[index]? = some byte →
    demangleStep symbol index byte = .ok (next, name) → index < next) ∧ Safe (demangled symbol)

/-- The names along a path are recovered if its disambiguators are passed over, and the loop ends on
every text. -/
theorem names_recovered (path : MangledPath) (hsize : byteLen path.symbol < 2 ^ 64)
    (hpasses : path.passesOver [] = true) :
    demangled path.symbol = .ok (join "::".toList path.names) ∧ ∀ symbol, LoopEnds symbol := by
  refine ⟨?_, fun symbol => ⟨fun _ _ _ _ => demangleStep_lt, demangled_safe symbol⟩⟩
  have hread := reads_path (u := []) nofun hpasses "_R".toList []
  rw [List.nil_append, List.append_nil] at hread
  have hfrom : demangledFrom path.symbol 2 [] = .ok path.names := by
    have hend : demangledFrom path.symbol (byteLen path.symbol) path.names = .ok path.names := by
      rw [demangledFrom, dif_neg (by rw [bytes_length]; omega)]
    rw [← hend]
    exact hread hsize
  have hprefix : startsWith path.symbol "_R".toList = true := startsWith_iff.mpr ⟨path.text, rfl⟩
  unfold demangled
  rw [if_pos hprefix, hfrom]
  rfl

/-! ## A name that is misread -/

/-- `std::io::write`, told apart from others of its name. -/
def writePath (d : Disambiguator) : MangledPath :=
  .nested 'v' rfl (.nested 't' rfl
    (.crateRoot ⟨"7mRY9FNn263".toList, forall_of_all (by decide)⟩ ⟨"std".toList, false, nofun⟩)
    none ⟨"io".toList, false, nofun⟩)
    (some d) ⟨"write".toList, false, nofun⟩

def zeroDisambiguator : Disambiguator := ⟨['0'], forall_of_all (by decide)⟩

def twoDisambiguator : Disambiguator := ⟨['2'], forall_of_all (by decide)⟩

theorem zero_is_passed_over : demangled (writePath zeroDisambiguator).symbol =
    .ok (join "::".toList (writePath zeroDisambiguator).names) :=
  (names_recovered (writePath zeroDisambiguator) (by decide +kernel) (by decide +kernel)).1

/-- In `s2_5write` the 2 is taken for a length. -/
theorem two_is_read_as_length : demangled (writePath twoDisambiguator).symbol ≠
    .ok (join "::".toList (writePath twoDisambiguator).names) := by
  have hread : demangled (writePath twoDisambiguator).symbol = .ok "std::io::5w".toList := by
    decide +kernel
  rw [hread]
  decide +kernel

end LadybirdReports
