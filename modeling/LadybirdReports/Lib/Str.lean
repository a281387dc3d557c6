import LadybirdReports.Lib.Result
import Mathlib.Tactic.Ring

/-!
# Rust strings

A string slice is the list of its Unicode scalar values; its bytes are their UTF-8 encodings. An
offset is a number of bytes, and a slice `&s[n..]` exists only when `n` is a character boundary of
`s` (`sliceFrom?_append`, `sliceFrom?_inside`): elsewhere Rust panics. `Checked` is the result of
code that slices.

The searching, splitting and trimming functions of the standard library follow, with the offsets
they return.
-/

namespace Rust

/-- A `str`: its characters in order. -/
abbrev Str := List Char

/-! ## Bytes and offsets -/

/-- `str::len`: the length in bytes. -/
def byteLen : Str → ℕ
  | [] => 0
  | c :: s => c.utf8Size + byteLen s

/-- `str::as_bytes`. -/
def bytes (s : Str) : List UInt8 := s.flatMap String.utf8EncodeChar

@[simp] theorem byteLen_nil : byteLen [] = 0 := rfl

@[simp] theorem byteLen_cons (c : Char) (s : Str) : byteLen (c :: s) = c.utf8Size + byteLen s := rfl

@[simp] theorem byteLen_append (s t : Str) : byteLen (s ++ t) = byteLen s + byteLen t := by
  induction s with
  | nil => simp
  | cons c s ih => rw [List.cons_append, byteLen_cons, byteLen_cons, ih]; ring

/-- No character takes less than a byte. -/
theorem length_le_byteLen (s : Str) : s.length ≤ byteLen s := by
  induction s with
  | nil => exact le_rfl
  | cons c s ih =>
    have hc := Char.utf8Size_pos c
    rw [List.length_cons, byteLen_cons]
    omega

theorem byteLen_of_ascii {s : Str} (h : ∀ c ∈ s, c.utf8Size = 1) : byteLen s = s.length := by
  induction s with
  | nil => rfl
  | cons c s ih =>
    obtain ⟨hc, hs⟩ := List.forall_mem_cons.mp h
    rw [byteLen_cons, hc, ih hs, List.length_cons, Nat.add_comm]

theorem bytes_length (s : Str) : (bytes s).length = byteLen s := by
  induction s with
  | nil => rfl
  | cons c s ih =>
    have h : bytes (c :: s) = String.utf8EncodeChar c ++ bytes s := rfl
    rw [h, List.length_append, String.length_utf8EncodeChar, ih, byteLen_cons]

/-! ## Slices -/

/-- Why code that slices stops: an offset that is no character boundary, or an index outside. -/
inductive Panic
  | slice
  | index
  deriving DecidableEq, Repr

/-- The result of code that may panic. -/
abbrev Checked := Except Panic

/-- `s.get(n..)`. -/
def sliceFrom? : Str → ℕ → Option Str
  | s, 0 => some s
  | [], _ + 1 => none
  | c :: s, n + 1 => if c.utf8Size ≤ n + 1 then sliceFrom? s (n + 1 - c.utf8Size) else none

/-- `s.get(..n)`. -/
def sliceTo? : Str → ℕ → Option Str
  | _, 0 => some []
  | [], _ + 1 => none
  | c :: s, n + 1 =>
    if c.utf8Size ≤ n + 1 then (sliceTo? s (n + 1 - c.utf8Size)).map (c :: ·) else none

/-- `s.get(start..stop)`. -/
def slice? (s : Str) (start stop : ℕ) : Option Str :=
  if start ≤ stop then (sliceFrom? s start).bind (sliceTo? · (stop - start)) else none

/-- The value of a `get` that the code does not check, as in `&s[n..]`. -/
def checked {α : Type} : Option α → Checked α
  | some a => .ok a
  | none => .error .slice

/-- `&s[n..]`. -/
def sliceFrom (s : Str) (n : ℕ) : Checked Str := checked (sliceFrom? s n)

/-- `&s[..n]`. -/
def sliceTo (s : Str) (n : ℕ) : Checked Str := checked (sliceTo? s n)

/-- `&s[start..stop]`. -/
def slice (s : Str) (start stop : ℕ) : Checked Str := checked (slice? s start stop)

/-- `String::truncate`. -/
def truncate (s : Str) (n : ℕ) : Checked Str := if n ≤ byteLen s then sliceTo s n else .ok s

/-- `&xs[n..]` of a slice that is no text. -/
def tailFrom {α : Type} (xs : List α) (n : ℕ) : Checked (List α) :=
  if n ≤ xs.length then .ok (xs.drop n) else .error .index

@[simp] theorem checked_some {α : Type} (a : α) : checked (some a) = .ok a := rfl

theorem utf8Size_pos (c : Char) : 0 < c.utf8Size := Char.utf8Size_pos c

@[simp] theorem sliceFrom?_zero (s : Str) : sliceFrom? s 0 = some s := by
  cases s <;> rfl

@[simp] theorem sliceTo?_zero (s : Str) : sliceTo? s 0 = some [] := by
  cases s <;> rfl

theorem sliceFrom?_cons (c : Char) (s : Str) (n : ℕ) :
    sliceFrom? (c :: s) (c.utf8Size + n) = sliceFrom? s n := by
  obtain ⟨k, hk⟩ : ∃ k, c.utf8Size + n = k + 1 :=
    ⟨c.utf8Size + n - 1, by have := utf8Size_pos c; omega⟩
  rw [hk, sliceFrom?, if_pos (by omega)]
  congr 1; omega

theorem sliceTo?_cons (c : Char) (s : Str) (n : ℕ) :
    sliceTo? (c :: s) (c.utf8Size + n) = (sliceTo? s n).map (c :: ·) := by
  obtain ⟨k, hk⟩ : ∃ k, c.utf8Size + n = k + 1 :=
    ⟨c.utf8Size + n - 1, by have := utf8Size_pos c; omega⟩
  rw [hk, sliceTo?, if_pos (by omega)]
  congr 2; omega

/-- Slicing at the end of a prefix leaves the rest. -/
@[simp] theorem sliceFrom?_append (s t : Str) : sliceFrom? (s ++ t) (byteLen s) = some t := by
  induction s with
  | nil => simp
  | cons c s ih => rw [List.cons_append, byteLen_cons, sliceFrom?_cons, ih]

@[simp] theorem sliceTo?_append (s t : Str) : sliceTo? (s ++ t) (byteLen s) = some s := by
  induction s with
  | nil => simp
  | cons c s ih => rw [List.cons_append, byteLen_cons, sliceTo?_cons, ih]; rfl

theorem sliceFrom?_eq_some {s t : Str} {n : ℕ} (h : sliceFrom? s n = some t) :
    ∃ a, s = a ++ t ∧ byteLen a = n := by
  induction s generalizing n with
  | nil =>
    cases n with
    | zero => exact ⟨[], by simpa using h, rfl⟩
    | succ n => simp [sliceFrom?] at h
  | cons c s ih =>
    cases n with
    | zero => exact ⟨[], by simpa using h, rfl⟩
    | succ n =>
      rw [sliceFrom?] at h
      split_ifs at h with hc
      obtain ⟨a, hs, ha⟩ := ih h
      exact ⟨c :: a, by rw [hs, List.cons_append], by rw [byteLen_cons]; omega⟩

theorem sliceTo?_eq_some {s t : Str} {n : ℕ} (h : sliceTo? s n = some t) :
    ∃ a, s = t ++ a ∧ byteLen t = n := by
  induction s generalizing n t with
  | nil =>
    cases n with
    | zero =>
      cases h
      exact ⟨[], rfl, rfl⟩
    | succ n => cases h
  | cons c s ih =>
    cases n with
    | zero =>
      rw [sliceTo?_zero, Option.some_inj] at h
      exact ⟨c :: s, by rw [← h, List.nil_append], by rw [← h, byteLen_nil]⟩
    | succ n =>
      rw [sliceTo?] at h
      split_ifs at h with hc
      obtain ⟨t, ht, rfl⟩ := Option.map_eq_some_iff.mp h
      obtain ⟨a, hs, ha⟩ := ih ht
      exact ⟨a, by rw [hs, List.cons_append], by rw [byteLen_cons]; omega⟩

/-- `get` on a middle part. -/
theorem slice?_append (a b c : Str) :
    slice? (a ++ b ++ c) (byteLen a) (byteLen a + byteLen b) = some b := by
  unfold slice?
  rw [if_pos (by omega), List.append_assoc, sliceFrom?_append]
  simp

/-- An offset inside a character cannot be sliced at. -/
theorem sliceFrom?_inside (a b : Str) (c : Char) {k : ℕ} (hk : 0 < k) (hc : k < c.utf8Size) :
    sliceFrom? (a ++ c :: b) (byteLen a + k) = none := by
  induction a with
  | nil =>
    obtain ⟨k, rfl⟩ : ∃ j, k = j + 1 := ⟨k - 1, by omega⟩
    rw [List.nil_append, byteLen_nil, Nat.zero_add, sliceFrom?, if_neg (by omega)]
  | cons d a ih => rw [List.cons_append, byteLen_cons, Nat.add_assoc, sliceFrom?_cons, ih]

/-- A slice one byte after the start of a character. -/
theorem sliceFrom_next (a b : Str) (c : Char) :
    sliceFrom (a ++ c :: b) (byteLen a + 1) = if c.utf8Size = 1 then .ok b else .error .slice := by
  unfold sliceFrom
  split_ifs with h
  · rw [← h, show byteLen a + c.utf8Size = byteLen (a ++ [c]) by simp, List.append_cons,
      sliceFrom?_append, checked_some]
  · have := utf8Size_pos c
    rw [sliceFrom?_inside a b c one_pos (by omega), checked]

/-! ## Code that does not panic -/

/-- The code returns. -/
def Safe {α : Type} (c : Checked α) : Prop := ∃ a, c = .ok a

@[simp] theorem safe_ok {α : Type} (a : α) : Safe (.ok a : Checked α) := ⟨a, rfl⟩

@[simp] theorem safe_pure {α : Type} (a : α) : Safe (pure a : Checked α) := ⟨a, rfl⟩

@[simp] theorem not_safe_error {α : Type} (p : Panic) : ¬ Safe (.error p : Checked α) := by
  rintro ⟨a, h⟩; cases h

theorem safe_bind_iff {α β : Type} {c : Checked α} {f : α → Checked β} :
    Safe (c >>= f) ↔ ∃ a, c = .ok a ∧ Safe (f a) := by
  cases c with
  | ok a => exact ⟨fun h => ⟨a, rfl, h⟩, fun ⟨b, hb, h⟩ => by cases hb; exact h⟩
  | error p =>
    refine ⟨fun h => absurd h (not_safe_error p), fun ⟨b, hb, _⟩ => ?_⟩
    cases hb

/-- A computation is safe when its first part is, and what follows is safe on every result. -/
theorem Safe.bind {α β : Type} {c : Checked α} {f : α → Checked β} (hc : Safe c)
    (hf : ∀ a, Safe (f a)) : Safe (c >>= f) := by
  obtain ⟨a, ha⟩ := hc
  exact safe_bind_iff.mpr ⟨a, ha, hf a⟩

theorem Safe.map {α β : Type} {c : Checked α} (f : α → β) (hc : Safe c) : Safe (f <$> c) := by
  obtain ⟨a, rfl⟩ := hc
  exact ⟨f a, rfl⟩

theorem tailFrom_of_le {α : Type} {xs : List α} {n : ℕ} (h : n ≤ xs.length) :
    tailFrom xs n = .ok (xs.drop n) := if_pos h

/-- Cutting off the end of a text that was a suffix is safe. -/
theorem truncate_append (a b : Str) : truncate (a ++ b) (byteLen a) = .ok a := by
  unfold truncate sliceTo
  rw [if_pos (by rw [byteLen_append]; omega), sliceTo?_append, checked_some]

theorem safe_checked_iff {α : Type} {o : Option α} : Safe (checked o) ↔ o.isSome := by
  cases o with
  | none => simp [checked]
  | some a => simp

/-! ## ASCII bytes stand alone -/

/-- A byte below 128 in the encoding of a character is that character. -/
theorem ascii_of_mem_utf8EncodeChar {c : Char} {b : UInt8} (h : b ∈ String.utf8EncodeChar c)
    (hb : b.toNat < 128) : c.utf8Size = 1 ∧ c.toNat = b.toNat := by
  have hlen := String.length_utf8EncodeChar c
  unfold String.utf8EncodeChar at h hlen
  simp only at h hlen
  split_ifs at h hlen with h1 h2 h3
  · simp only [List.mem_singleton] at h
    subst h
    refine ⟨by simpa using hlen.symm, ?_⟩
    show c.val.toNat = _
    rw [UInt8.toNat_ofNat']
    omega
  -- the longer encodings hold no byte below 128
  all_goals simp only [List.mem_cons, List.not_mem_nil, or_false] at h
  · rcases h with rfl | rfl <;> rw [UInt8.toNat_ofNat'] at hb <;> omega
  · rcases h with rfl | rfl | rfl <;> rw [UInt8.toNat_ofNat'] at hb <;> omega
  · rcases h with rfl | rfl | rfl | rfl <;> rw [UInt8.toNat_ofNat'] at hb <;> omega

/-- Where the bytes of a text hold an ASCII byte, a one-byte character begins. -/
theorem ascii_boundary {s : Str} {i : ℕ} {b : UInt8} (h : (bytes s)[i]? = some b)
    (hb : b.toNat < 128) :
    ∃ p c q, s = p ++ c :: q ∧ byteLen p = i ∧ c.utf8Size = 1 ∧ c.toNat = b.toNat := by
  induction s generalizing i with
  | nil => simp [bytes] at h
  | cons d s ih =>
    have hcons : bytes (d :: s) = String.utf8EncodeChar d ++ bytes s := rfl
    rw [hcons] at h
    by_cases hi : i < d.utf8Size
    · rw [List.getElem?_append_left (by rw [String.length_utf8EncodeChar]; exact hi)] at h
      obtain ⟨h1, h2⟩ := ascii_of_mem_utf8EncodeChar (List.mem_of_getElem? h) hb
      exact ⟨[], d, s, rfl, by rw [byteLen_nil]; omega, h1, h2⟩
    · rw [List.getElem?_append_right (by rw [String.length_utf8EncodeChar]; omega),
        String.length_utf8EncodeChar] at h
      obtain ⟨p, c, q, rfl, hp, h1, h2⟩ := ih h
      exact ⟨d :: p, c, q, rfl, by rw [byteLen_cons]; omega, h1, h2⟩

end Rust
