import LadybirdReports.Lib.Str
import Mathlib.Data.List.TakeWhile

/-!
# Searching, splitting and trimming Rust strings

The functions of `str` and `char` in the standard library, each under its Rust name. Searches
return byte offsets; `splitOnce?_eq_some` and `rfind?_eq_some` say what lies on each side of one.
-/

namespace Rust

/-! ## Characters -/

/-- `char::is_whitespace`: the Unicode property `White_Space`. -/
def isWhitespace (c : Char) : Bool :=
  let n := c.toNat
  (9 ≤ n && n ≤ 13) || n == 0x20 || n == 0x85 || n == 0xA0 || n == 0x1680 ||
    (0x2000 ≤ n && n ≤ 0x200A) || n == 0x2028 || n == 0x2029 || n == 0x202F || n == 0x205F ||
    n == 0x3000

/-- `char::is_control`: the general category `Cc`. -/
def isControl (c : Char) : Bool := c.toNat < 0x20 || (0x7F ≤ c.toNat && c.toNat < 0xA0)

/-- `char::is_ascii_digit`. -/
def isAsciiDigit (c : Char) : Bool := '0'.toNat ≤ c.toNat && c.toNat ≤ '9'.toNat

/-- `char::is_ascii_alphabetic`. -/
def isAsciiAlphabetic (c : Char) : Bool :=
  ('a'.toNat ≤ c.toNat && c.toNat ≤ 'z'.toNat) || ('A'.toNat ≤ c.toNat && c.toNat ≤ 'Z'.toNat)

/-- `char::is_ascii_alphanumeric`. -/
def isAsciiAlphanumeric (c : Char) : Bool := isAsciiDigit c || isAsciiAlphabetic c

/-- `char::is_ascii_hexdigit`. -/
def isAsciiHexdigit (c : Char) : Bool :=
  isAsciiDigit c || ('a'.toNat ≤ c.toNat && c.toNat ≤ 'f'.toNat) ||
    ('A'.toNat ≤ c.toNat && c.toNat ≤ 'F'.toNat)

/-- The parts of the Unicode tables of the standard library that are too large to spell out. -/
structure Unicode where
  /-- `char::is_alphanumeric`. -/
  isAlphanumeric : Char → Bool
  /-- `str::to_lowercase`. -/
  toLowercase : Str → Str

/-- The tables restricted to ASCII, for running the model. -/
def Unicode.ascii : Unicode := ⟨isAsciiAlphanumeric, List.map Char.toLower⟩

/-! ## Trimming and prefixes -/

/-- `str::trim_start`. -/
def trimStart (s : Str) : Str := s.dropWhile isWhitespace

/-- `str::trim_end`. -/
def trimEnd (s : Str) : Str := (s.reverse.dropWhile isWhitespace).reverse

/-- `str::trim`. -/
def trim (s : Str) : Str := trimEnd (trimStart s)

/-- `str::starts_with`. -/
def startsWith (s pattern : Str) : Bool := pattern.isPrefixOf s

/-- `str::ends_with`. -/
def endsWith (s pattern : Str) : Bool := pattern.isSuffixOf s

/-- `str::strip_prefix`. -/
def stripPrefix? (s pattern : Str) : Option Str :=
  if startsWith s pattern then some (s.drop pattern.length) else none

/-- `str::to_ascii_lowercase`. -/
def toAsciiLowercase (s : Str) : Str := s.map Char.toLower

/-- `str::to_ascii_uppercase`. -/
def toAsciiUppercase (s : Str) : Str := s.map Char.toUpper

/-- `str::eq_ignore_ascii_case`. -/
def eqIgnoreAsciiCase (s t : Str) : Bool := toAsciiLowercase s == toAsciiLowercase t

/-- `str::replace` of one character. -/
def replaceChar (s : Str) (old new : Char) : Str := s.map fun c => if c = old then new else c

theorem startsWith_iff {s pattern : Str} : startsWith s pattern ↔ ∃ t, s = pattern ++ t := by
  unfold startsWith
  rw [List.isPrefixOf_iff_prefix]
  exact ⟨fun ⟨t, h⟩ => ⟨t, h.symm⟩, fun ⟨t, h⟩ => ⟨t, h.symm⟩⟩

/-! ## Splitting -/

/-- `str::split_once`: what lies before and after the first occurrence. -/
def splitOnce? (pattern : Str) : Str → Option (Str × Str)
  | [] => if pattern = [] then some ([], []) else none
  | c :: s =>
    if startsWith (c :: s) pattern then some ([], (c :: s).drop pattern.length)
    else (splitOnce? pattern s).map fun (a, b) => (c :: a, b)

/-- `str::rsplit_once`: what lies before and after the last occurrence. -/
def rsplitOnce? (pattern s : Str) : Option (Str × Str) :=
  (splitOnce? pattern.reverse s.reverse).map fun (a, b) => (b.reverse, a.reverse)

/-- `str::contains`. -/
def contains (s pattern : Str) : Bool := (splitOnce? pattern s).isSome

/-- `str::split`, cutting at most `fuel` times. -/
def splitWithin (pattern : Str) : ℕ → Str → List Str
  | 0, s => [s]
  | fuel + 1, s =>
    match splitOnce? pattern s with
    | none => [s]
    | some (a, b) => a :: splitWithin pattern fuel b

/-- `str::split` on a pattern that is not empty: each cut shortens what is left. -/
def split (pattern s : Str) : List Str := splitWithin pattern s.length s

theorem split_ne_nil (pattern s : Str) : split pattern s ≠ [] := by
  unfold split splitWithin
  split
  · exact List.cons_ne_nil _ _
  · split <;> exact List.cons_ne_nil _ _

/-- `str::rsplit`. -/
def rsplit (pattern s : Str) : List Str := (split pattern.reverse s.reverse).map List.reverse

/-- The first piece of `str::split` on the characters of `p`. -/
def splitHead (p : Char → Bool) (s : Str) : Str := s.takeWhile fun c => !p c

/-- The first piece of `str::rsplit` on the characters of `p`. -/
def rsplitHead (p : Char → Bool) (s : Str) : Str :=
  (s.reverse.takeWhile fun c => !p c).reverse

/-- The first word of `str::split_whitespace`. -/
def firstWord? (s : Str) : Option Str :=
  match (trimStart s).takeWhile fun c => !isWhitespace c with
  | [] => none
  | word => some word

/-- A carriage return before the end of a line goes with it. The line is reversed. -/
def stripCarriageReturn : Str → Str
  | '\r' :: s => s
  | s => s

/-- `str::lines` of what follows the characters read so far, kept in reverse. -/
def linesFrom : Str → Str → List Str
  | [], [] => []
  | [], line => [line.reverse]
  | c :: s, line =>
    if c = '\n' then (stripCarriageReturn line).reverse :: linesFrom s []
    else linesFrom s (c :: line)

/-- `str::lines`. -/
def lines (s : Str) : List Str := linesFrom s []

/-- `[&str]::join`. -/
def join (separator : Str) (parts : List Str) : Str := List.intercalate separator parts

theorem splitOnce?_eq_some {pattern s a b : Str} (h : splitOnce? pattern s = some (a, b)) :
    s = a ++ pattern ++ b := by
  induction s generalizing a with
  | nil =>
    unfold splitOnce? at h
    split_ifs at h with hp
    cases h
    simp [hp]
  | cons c s ih =>
    unfold splitOnce? at h
    split_ifs at h with hp
    · cases h
      obtain ⟨t, ht⟩ := startsWith_iff.mp hp
      rw [ht, List.drop_left]; rfl
    · obtain ⟨⟨a', b'⟩, hab, h⟩ := Option.map_eq_some_iff.mp h
      cases h
      rw [ih hab]; simp

/-! ## Offsets -/

/-- `str::find` of a pattern. -/
def find? (pattern s : Str) : Option ℕ := (splitOnce? pattern s).map fun (a, _) => byteLen a

/-- `str::rfind` of a character. -/
def rfind? (p : Char → Bool) : Str → Option ℕ
  | [] => none
  | c :: s =>
    match rfind? p s with
    | some n => some (c.utf8Size + n)
    | none => if p c then some 0 else none

theorem find?_eq_some {pattern s : Str} {n : ℕ} (h : find? pattern s = some n) :
    ∃ a b, splitOnce? pattern s = some (a, b) ∧ s = a ++ pattern ++ b ∧ byteLen a = n := by
  obtain ⟨⟨a, b⟩, hab, h⟩ := Option.map_eq_some_iff.mp h
  exact ⟨a, b, hab, splitOnce?_eq_some hab, h⟩

theorem find?_eq_none_iff {pattern s : Str} :
    find? pattern s = none ↔ splitOnce? pattern s = none := by
  unfold find?; rw [Option.map_eq_none_iff]

theorem rfind?_eq_none {p : Char → Bool} {s : Str} (h : rfind? p s = none) :
    ∀ x ∈ s, p x = false := by
  induction s with
  | nil => intro x hx; cases hx
  | cons c s ih =>
    unfold rfind? at h
    cases hs : rfind? p s with
    | some m => simp [hs] at h
    | none =>
      simp only [hs] at h
      split_ifs at h with hc
      intro x hx
      rcases List.mem_cons.mp hx with rfl | hx
      · simpa using hc
      · exact ih hs x hx

/-- What `rfind` finds is the last character that matches. -/
theorem rfind?_eq_some {p : Char → Bool} {s : Str} {n : ℕ} (h : rfind? p s = some n) :
    ∃ a c b, s = a ++ c :: b ∧ byteLen a = n ∧ p c ∧ ∀ x ∈ b, p x = false := by
  induction s generalizing n with
  | nil => cases h
  | cons d s ih =>
    unfold rfind? at h
    cases hs : rfind? p s with
    | some m =>
      simp only [hs, Option.some.injEq] at h
      obtain ⟨a, c, b, rfl, ha, hc, hb⟩ := ih hs
      exact ⟨d :: a, c, b, rfl, by rw [byteLen_cons, ha, h], hc, hb⟩
    | none =>
      simp only [hs] at h
      split_ifs at h with hd
      cases h
      exact ⟨[], d, s, rfl, rfl, hd, rfind?_eq_none hs⟩

/-- The last piece of a split begins after the last character that matches. -/
theorem rsplitHead_append {p : Char → Bool} {a b : Str} {c : Char} (hc : p c)
    (hb : ∀ x ∈ b, p x = false) : rsplitHead p (a ++ c :: b) = b := by
  unfold rsplitHead
  rw [List.reverse_append, List.reverse_cons, List.append_assoc,
    List.takeWhile_append_of_pos (by simpa using hb), List.singleton_append,
    List.takeWhile_cons_of_neg (by simpa using hc), List.append_nil, List.reverse_reverse]

theorem rsplitHead_of_none {p : Char → Bool} {s : Str} (h : ∀ x ∈ s, p x = false) :
    rsplitHead p s = s := by
  unfold rsplitHead
  rw [List.takeWhile_eq_self_iff.mpr (by simpa using h), List.reverse_reverse]

theorem find?_reverse_append {p : Char → Bool} {a b : Str} {c : Char} (hc : p c)
    (hb : ∀ x ∈ b, p x = false) : (a ++ c :: b).reverse.find? p = some c := by
  rw [List.reverse_append, List.reverse_cons, List.append_assoc, List.find?_append,
    List.find?_eq_none.mpr (by simpa using hb), Option.none_or, List.singleton_append,
    List.find?_cons_of_pos hc]

/-! ## Numbers -/

/-- The value of a text of ASCII digits. -/
def digitsValue (s : Str) : ℕ := s.foldl (fun n c => 10 * n + (c.toNat - '0'.toNat)) 0

/-- `str::parse` of an unsigned integer of `bits` bits. -/
def parseUnsigned (bits : ℕ) (s : Str) : Option ℕ :=
  let digits := match s with
    | '+' :: rest => rest
    | _ => s
  if digits = [] || !digits.all isAsciiDigit then none
  else if digitsValue digits < 2 ^ bits then some (digitsValue digits) else none

/-! ## What is left of a text -/

theorem trim_eq_nil_iff {s : Str} : trim s = [] ↔ ∀ c ∈ s, isWhitespace c = true := by
  unfold trim trimEnd trimStart
  rw [List.reverse_eq_nil_iff, List.dropWhile_eq_nil_iff]
  simp only [List.mem_reverse]
  constructor
  · intro h
    by_contra hne
    push Not at hne
    obtain ⟨c, hc, hspace⟩ := hne
    have hdrop : s.dropWhile isWhitespace ≠ [] := fun hnil =>
      hspace (List.dropWhile_eq_nil_iff.mp hnil c hc)
    have hhead := List.head_dropWhile_not isWhitespace hdrop
    rw [h _ (List.head_mem hdrop)] at hhead
    cases hhead
  · exact fun h c hc => h c ((List.dropWhile_sublist _).subset hc)

theorem trim_subset (s : Str) : trim s ⊆ s := by
  intro c hc
  unfold trim trimEnd trimStart at hc
  rw [List.mem_reverse] at hc
  have hc := (List.dropWhile_sublist _).subset hc
  rw [List.mem_reverse] at hc
  exact (List.dropWhile_sublist _).subset hc

/-- A text that is trimmed does not begin with a space. -/
theorem isWhitespace_head_trim {s t : Str} {c : Char} (h : trim s = c :: t) :
    isWhitespace c = false := by
  unfold trim trimEnd at h
  have hbefore : c :: t <+: trimStart s := by
    rw [← h]
    exact List.reverse_suffix.mp (by simpa using List.dropWhile_suffix isWhitespace)
  obtain ⟨rest, hrest⟩ := hbefore
  unfold trimStart at hrest
  have hne : s.dropWhile isWhitespace ≠ [] := by rw [← hrest]; exact List.cons_ne_nil _ _
  have hhead := List.head_dropWhile_not isWhitespace hne
  simpa [← hrest] using hhead

theorem rsplitOnce?_eq_some {pattern s a b : Str} (h : rsplitOnce? pattern s = some (a, b)) :
    s = a ++ pattern ++ b := by
  obtain ⟨⟨x, y⟩, hsplit, heq⟩ := Option.map_eq_some_iff.mp h
  cases heq
  have hs := congrArg List.reverse (splitOnce?_eq_some hsplit)
  simpa using hs

end Rust
