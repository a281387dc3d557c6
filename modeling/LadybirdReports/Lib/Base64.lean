import LadybirdReports.Lib.Str
import Mathlib.Data.Fin.Basic
import Mathlib.Data.List.Basic

/-!
# Base64

The encoding of bytes in the URL-safe alphabet, without padding. Three bytes are four digits of six
bits. One or two bytes are left for two or three digits, whose last bits have to be zero.

1. What is encoded is decoded again (`decode_encode`).
2. Only that is decoded: a text has to be the encoding of what it is decoded to (`encode_decode`),
   so that two texts are never decoded to the same bytes.
-/

namespace Rust.Base64

/-! ## Digits -/

def alphabet : List Char :=
  "ABCDEFGHIJKLMNOPQRSTUVWXYZabcdefghijklmnopqrstuvwxyz0123456789-_".toList

def digit (n : Fin 64) : Char := alphabet.get (n.cast rfl)

def value? (c : Char) : Option (Fin 64) := (List.finRange 64).find? fun n => digit n = c

theorem digit_injective : ∀ n m : Fin 64, digit n = digit m → n = m := by
  decide +kernel

theorem value?_eq_some {c : Char} {n : Fin 64} : value? c = some n ↔ digit n = c := by
  have hdigit {m : Fin 64} (h : value? c = some m) : digit m = c := by
    have hfound : decide (digit m = c) = true :=
      List.find?_some (p := fun n => decide (digit n = c)) h
    exact of_decide_eq_true hfound
  constructor
  · exact hdigit
  · rintro rfl
    cases hfound : value? (digit n) with
    | none =>
      have hnone := List.find?_eq_none.mp hfound n (List.mem_finRange n)
      exact absurd (decide_eq_true rfl) hnone
    | some m => exact congrArg some (digit_injective m n (hdigit hfound))

theorem digit_mem (n : Fin 64) : digit n ∈ alphabet := List.get_mem _ _

/-! ## Groups of bits -/

def sextet (n : ℕ) : Fin 64 := Fin.ofNat 64 n

/-- The digits of bytes, as numbers. -/
def sextets : List UInt8 → List (Fin 64)
  | [] => []
  | [a] => [sextet (a.toNat / 4), sextet (a.toNat % 4 * 16)]
  | [a, b] =>
    [sextet (a.toNat / 4), sextet (a.toNat % 4 * 16 + b.toNat / 16), sextet (b.toNat % 16 * 4)]
  | a :: b :: c :: bytes =>
    sextet (a.toNat / 4) :: sextet (a.toNat % 4 * 16 + b.toNat / 16) ::
      sextet (b.toNat % 16 * 4 + c.toNat / 64) :: sextet (c.toNat % 64) :: sextets bytes

/-- The bytes of digits. The bits that are left over have to be zero. -/
def octets : List (Fin 64) → Option (List UInt8)
  | [] => some []
  | [_] => none
  | [p, q] => if q.val % 16 = 0 then some [UInt8.ofNat (p.val * 4 + q.val / 16)] else none
  | [p, q, r] =>
    if r.val % 4 = 0 then
      some [UInt8.ofNat (p.val * 4 + q.val / 16), UInt8.ofNat (q.val % 16 * 16 + r.val / 4)]
    else none
  | p :: q :: r :: s :: digits =>
    (octets digits).map fun bytes =>
      UInt8.ofNat (p.val * 4 + q.val / 16) :: UInt8.ofNat (q.val % 16 * 16 + r.val / 4) ::
        UInt8.ofNat (r.val % 4 * 64 + s.val) :: bytes

def encode (bytes : List UInt8) : Str := (sextets bytes).map digit

def decode (text : Str) : Option (List UInt8) := (text.mapM value?).bind octets

/-! ## Both ways -/

theorem sextet_val {n : ℕ} (h : n < 64) : (sextet n).val = n := Nat.mod_eq_of_lt h

theorem toNat_ofNat {n : ℕ} (h : n < 256) : (UInt8.ofNat n).toNat = n := by
  rw [UInt8.toNat_ofNat']
  exact Nat.mod_eq_of_lt h

/-- A byte, from its bits in two digits. -/
theorem byte_eq {a : UInt8} {n : ℕ} (h : n = a.toNat) : UInt8.ofNat n = a := by
  rw [h]
  exact UInt8.ofNat_toNat

theorem sextet_eq {p : Fin 64} {n : ℕ} (h : n = p.val) : sextet n = p := by
  apply Fin.ext
  rw [sextet_val (h ▸ p.isLt), h]

theorem octets_sextets (bytes : List UInt8) : octets (sextets bytes) = some bytes := by
  induction bytes using sextets.induct with
  | case1 => rfl
  | case2 a =>
    have ha := a.toNat_lt
    unfold sextets octets
    rw [sextet_val (by omega), sextet_val (by omega), if_pos (by omega)]
    rw [byte_eq (a := a) (by omega)]
  | case3 a b =>
    have ha := a.toNat_lt
    have hb := b.toNat_lt
    unfold sextets octets
    rw [sextet_val (by omega), sextet_val (by omega), sextet_val (by omega), if_pos (by omega)]
    rw [byte_eq (a := a) (by omega), byte_eq (a := b) (by omega)]
  | case4 a b c bytes ih =>
    have ha := a.toNat_lt
    have hb := b.toNat_lt
    have hc := c.toNat_lt
    unfold sextets octets
    rw [ih, Option.map_some, sextet_val (by omega), sextet_val (by omega),
      sextet_val (by omega), sextet_val (by omega)]
    rw [byte_eq (a := a) (by omega), byte_eq (a := b) (by omega), byte_eq (a := c) (by omega)]

theorem sextets_of_octets {digits : List (Fin 64)} {bytes : List UInt8}
    (h : octets digits = some bytes) : sextets bytes = digits := by
  induction digits using octets.induct generalizing bytes with
  | case1 =>
    obtain rfl := Option.some.inj h
    rfl
  | case2 p => cases h
  | case3 p q hq =>
    unfold octets at h
    rw [if_pos hq] at h
    obtain rfl := Option.some.inj h
    unfold sextets
    rw [toNat_ofNat (by omega)]
    rw [sextet_eq (p := p) (by omega), sextet_eq (p := q) (by omega)]
  | case4 p q hq =>
    unfold octets at h
    rw [if_neg hq] at h
    cases h
  | case5 p q r hr =>
    unfold octets at h
    rw [if_pos hr] at h
    obtain rfl := Option.some.inj h
    unfold sextets
    rw [toNat_ofNat (by omega), toNat_ofNat (by omega)]
    rw [sextet_eq (p := p) (by omega), sextet_eq (p := q) (by omega),
      sextet_eq (p := r) (by omega)]
  | case6 p q r hr =>
    unfold octets at h
    rw [if_neg hr] at h
    cases h
  | case7 p q r s digits ih =>
    unfold octets at h
    obtain ⟨rest, hrest, rfl⟩ := Option.map_eq_some_iff.mp h
    unfold sextets
    rw [ih hrest, toNat_ofNat (by omega), toNat_ofNat (by omega), toNat_ofNat (by omega)]
    rw [sextet_eq (p := p) (by omega), sextet_eq (p := q) (by omega),
      sextet_eq (p := r) (by omega), sextet_eq (p := s) (by omega)]

theorem mapM_value? {text : Str} {digits : List (Fin 64)} :
    text.mapM value? = some digits ↔ digits.map digit = text := by
  induction text generalizing digits with
  | nil =>
    rw [List.mapM_nil, List.map_eq_nil_iff]
    exact ⟨fun h => (Option.some.inj h).symm, fun h => congrArg some h.symm⟩
  | cons c text ih =>
    rw [List.mapM_cons]
    constructor
    · intro h
      obtain ⟨n, hn, h⟩ := Option.bind_eq_some_iff.mp h
      obtain ⟨rest, hrest, h⟩ := Option.bind_eq_some_iff.mp h
      obtain rfl := Option.some.inj h
      rw [List.map_cons, ih.mp hrest, value?_eq_some.mp hn]
    · intro h
      cases digits with
      | nil => cases h
      | cons n rest =>
        obtain ⟨hn, hrest⟩ := List.cons.inj h
        exact Option.bind_eq_some_iff.mpr ⟨n, value?_eq_some.mpr hn,
          Option.bind_eq_some_iff.mpr ⟨rest, ih.mpr hrest, rfl⟩⟩

theorem decode_encode (bytes : List UInt8) : decode (encode bytes) = some bytes :=
  Option.bind_eq_some_iff.mpr ⟨sextets bytes, mapM_value?.mpr rfl, octets_sextets bytes⟩

/-- A text is decoded only if it is the encoding of the result. -/
theorem encode_decode {text : Str} {bytes : List UInt8} (h : decode text = some bytes) :
    encode bytes = text := by
  obtain ⟨digits, hdigits, hbytes⟩ := Option.bind_eq_some_iff.mp h
  unfold encode
  rw [sextets_of_octets hbytes]
  exact mapM_value?.mp hdigits

/-! ## Texts -/

theorem mem_encode {bytes : List UInt8} {c : Char} (h : c ∈ encode bytes) : c ∈ alphabet := by
  obtain ⟨n, -, rfl⟩ := List.mem_map.mp h
  exact digit_mem n

theorem length_encode (bytes : List UInt8) :
    (encode bytes).length = (4 * bytes.length + 2) / 3 := by
  unfold encode
  rw [List.length_map]
  induction bytes using sextets.induct with
  | case1 => rfl
  | case2 a => simp [sextets]
  | case3 a b => simp [sextets]
  | case4 a b c bytes ih =>
    unfold sextets
    simp only [List.length_cons, ih]
    omega

end Rust.Base64
