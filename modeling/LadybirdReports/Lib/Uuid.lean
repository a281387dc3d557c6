import Mathlib.Data.Fin.Basic
import Mathlib.Data.Nat.Notation

/-!
# UUIDs

A UUID is sixteen bytes. Its variant and its version are bits of two of them, and digits of its
text, so that a check of the text is one of the bits (`variantDigit_mem_iff`,
`versionDigit_eq_iff`).
-/

structure Uuid where
  bytes : Fin 16 → Fin 256

namespace Uuid

/-- The digits of the text, and a code of the digit. -/
def digits : List Char := "0123456789abcdef".toList

def digit (n : Fin 16) : Char := digits.get (n.cast rfl)

/-- The first of the two digits of a byte. -/
def high (b : Fin 256) : Fin 16 := ⟨b / 16, by omega⟩

def low (b : Fin 256) : Fin 16 := ⟨b % 16, by omega⟩

def byteText (b : Fin 256) : List Char := [digit (high b), digit (low b)]

/-- Groups of four, two, two, two and six bytes. -/
def text (u : Uuid) : List Char :=
  let byte (i : Fin 16) : List Char := byteText (u.bytes i)
  byte 0 ++ byte 1 ++ byte 2 ++ byte 3 ++ '-' :: (byte 4 ++ byte 5) ++ '-' :: (byte 6 ++ byte 7) ++
    '-' :: (byte 8 ++ byte 9) ++
    '-' :: (byte 10 ++ byte 11 ++ byte 12 ++ byte 13 ++ byte 14 ++ byte 15)

/-- The variant of RFC 4122: the first two bits of a byte are 1 and 0. -/
def isRfc4122 (u : Uuid) : Bool := (u.bytes 8).val &&& 0xC0 = 0x80

def version (u : Uuid) : ℕ := (u.bytes 6).val >>> 4

theorem high_mem_iff (b : Fin 256) :
    [digit (high b)] ∈ [['8'], ['9'], ['a'], ['b']] ↔ b.val &&& 0xC0 = 0x80 := by
  revert b
  decide +kernel

theorem high_eq_seven_iff (b : Fin 256) : [digit (high b)] = ['7'] ↔ b.val >>> 4 = 7 := by
  revert b
  decide +kernel

/-- Of the text, the digit of the variant. -/
theorem variantDigit_mem_iff (u : Uuid) :
    (u.text.drop 19).take 1 ∈ [['8'], ['9'], ['a'], ['b']] ↔ u.isRfc4122 = true := by
  unfold isRfc4122
  rw [decide_eq_true_eq, ← high_mem_iff]
  rfl

/-- Of the text, the digit of the version. -/
theorem versionDigit_eq_iff (u : Uuid) : (u.text.drop 14).take 1 = ['7'] ↔ u.version = 7 := by
  unfold version
  rw [← high_eq_seven_iff]
  rfl

theorem digit_mem (n : Fin 16) : digit n ∈ digits := List.get_mem _ _

theorem mem_digits_of_mem_byteText {b : Fin 256} {c : Char} (h : c ∈ byteText b) : c ∈ digits := by
  simp only [byteText, List.mem_cons, List.not_mem_nil, or_false] at h
  rcases h with rfl | rfl <;> exact digit_mem _

theorem mem_text {u : Uuid} {c : Char} (h : c ∈ u.text) : c = '-' ∨ c ∈ digits := by
  by_cases hc : c = '-'
  · exact .inl hc
  · simp only [text, List.mem_append, List.mem_cons, hc, false_or] at h
    refine .inr ?_
    obtain ⟨i, hi⟩ : ∃ i, c ∈ byteText (u.bytes i) := by tauto
    exact mem_digits_of_mem_byteText hi

end Uuid
