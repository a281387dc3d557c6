import LadybirdReports.Lib.StrRender
import Mathlib.Tactic.SplitIfs

/-!
# Texts that differ in their numbers

Two texts may be the same but for the length and the digits of their runs of digits, as two runs of
a program write them. What is cut out of such texts at a pattern without digits is such a pair
again, and so is what trimming leaves.
-/

namespace Rust

/-- The texts are the same up to runs of digits, none of them empty. -/
inductive SameButDigits : Str → Str → Prop
  | nil : SameButDigits [] []
  | char (c : Char) {s t : Str} (h : SameButDigits s t) : SameButDigits (c :: s) (c :: t)
  | run {d e s t : Str} (hd : d ≠ []) (he : e ≠ []) (hdigits : ∀ c ∈ d, isAsciiDigit c = true)
      (hedigits : ∀ c ∈ e, isAsciiDigit c = true) (h : SameButDigits s t) :
      SameButDigits (d ++ s) (e ++ t)

namespace SameButDigits

variable {s t s' t' d pattern : Str} {c : Char}

theorem refl (s : Str) : SameButDigits s s := by
  induction s with
  | nil => exact .nil
  | cons c s ih => exact .char c ih

theorem append (h : SameButDigits s t) (h' : SameButDigits s' t') :
    SameButDigits (s ++ s') (t ++ t') := by
  induction h with
  | nil => exact h'
  | char c _ ih => exact .char c ih
  | run hd he hdigits hedigits _ ih =>
    rw [List.append_assoc, List.append_assoc]
    exact .run hd he hdigits hedigits ih

theorem reverse (h : SameButDigits s t) : SameButDigits s.reverse t.reverse := by
  induction h with
  | nil => exact .nil
  | char c _ ih =>
    rw [List.reverse_cons, List.reverse_cons]
    exact ih.append (.char c .nil)
  | @run d e s t hd he hdigits hedigits _ ih =>
    have hlast : SameButDigits (d.reverse ++ []) (e.reverse ++ []) :=
      .run (by simpa using hd) (by simpa using he) (by simpa using hdigits)
        (by simpa using hedigits) .nil
    rw [List.append_nil, List.append_nil] at hlast
    rw [List.reverse_append, List.reverse_append]
    exact ih.append hlast

theorem eq_nil_iff (h : SameButDigits s t) : s = [] ↔ t = [] := by
  cases h with
  | nil => exact Iff.rfl
  | char c _ => simp
  | run hd he _ _ _ => simp [hd, he]

theorem mem_iff (h : SameButDigits s t) (hc : isAsciiDigit c = false) : c ∈ s ↔ c ∈ t := by
  induction h with
  | nil => exact Iff.rfl
  | char d _ ih => rw [List.mem_cons, List.mem_cons, ih]
  | @run d e s t hd he hdigits hedigits _ ih =>
    have hnot (d : Str) (hdigits : ∀ c ∈ d, isAsciiDigit c = true) : c ∉ d := fun hmem => by
      rw [hdigits c hmem] at hc
      cases hc
    simp [hnot d hdigits, hnot e hedigits, ih]

/-! ## Trimming -/

theorem isWhitespace_of_isAsciiDigit (h : isAsciiDigit c = true) : isWhitespace c = false := by
  unfold isAsciiDigit at h
  simp only [Bool.and_eq_true, decide_eq_true_eq, show '0'.toNat = 48 from rfl,
    show '9'.toNat = 57 from rfl] at h
  unfold isWhitespace
  simp only [Bool.or_eq_false_iff, Bool.and_eq_false_iff, decide_eq_false_iff_not,
    beq_eq_false_iff_ne]
  omega

theorem trimStart_digits (hd : d ≠ []) (hdigits : ∀ c ∈ d, isAsciiDigit c = true) :
    trimStart (d ++ s) = d ++ s := by
  refine trimStart_of_head fun c hc => ?_
  obtain ⟨first, rest, rfl⟩ := List.exists_cons_of_ne_nil hd
  rw [← Option.some.inj hc]
  exact isWhitespace_of_isAsciiDigit (hdigits first List.mem_cons_self)

theorem trimStart (h : SameButDigits s t) : SameButDigits (trimStart s) (trimStart t) := by
  induction h with
  | nil => exact .nil
  | @char c s t h ih =>
    by_cases hspace : isWhitespace c = true
    · rw [trimStart_cons_of_isWhitespace hspace, trimStart_cons_of_isWhitespace hspace]
      exact ih
    · rw [trimStart_of_head (by simpa using hspace), trimStart_of_head (by simpa using hspace)]
      exact .char c h
  | run hd he hdigits hedigits h _ =>
    rw [trimStart_digits hd hdigits, trimStart_digits he hedigits]
    exact .run hd he hdigits hedigits h

theorem trim (h : SameButDigits s t) : SameButDigits (trim s) (trim t) :=
  h.trimStart.reverse.trimStart.reverse

/-! ## Cutting -/

/-- A text does not start with a pattern that begins otherwise. -/
theorem not_startsWith_digits {p : Char} (hp : isAsciiDigit p = false) (hd : d ≠ [])
    (hdigits : ∀ c ∈ d, isAsciiDigit c = true) : startsWith (d ++ s) (p :: pattern) = false := by
  obtain ⟨first, rest, rfl⟩ := List.exists_cons_of_ne_nil hd
  have hne : p ≠ first := by
    rintro rfl
    rw [hdigits p List.mem_cons_self] at hp
    cases hp
  simp [hne]

/-- Both texts start with the pattern, or none does. -/
theorem startsWith_cases (h : SameButDigits s t)
    (hpattern : ∀ c ∈ pattern, isAsciiDigit c = false) :
    (startsWith s pattern = false ∧ startsWith t pattern = false) ∨
      ∃ s' t', s = pattern ++ s' ∧ t = pattern ++ t' ∧ SameButDigits s' t' := by
  induction pattern generalizing s t with
  | nil => exact .inr ⟨s, t, rfl, rfl, h⟩
  | cons p pattern ih =>
    obtain ⟨hp, hpattern⟩ := List.forall_mem_cons.mp hpattern
    cases h with
    | nil => exact .inl ⟨rfl, rfl⟩
    | @char c s t h =>
      by_cases hc : p = c
      · subst hc
        rcases ih h hpattern with ⟨hs, ht⟩ | ⟨s', t', hs, ht, hrest⟩
        · exact .inl ⟨by simp [hs], by simp [ht]⟩
        · exact .inr ⟨s', t', congrArg (p :: ·) hs, congrArg (p :: ·) ht, hrest⟩
      · exact .inl ⟨by simp [hc], by simp [hc]⟩
    | run hd he hdigits hedigits h =>
      exact .inl ⟨not_startsWith_digits hp hd hdigits, not_startsWith_digits hp he hedigits⟩

theorem splitOnce?_digits {p : Char} (hp : isAsciiDigit p = false)
    (hdigits : ∀ c ∈ d, isAsciiDigit c = true) :
    splitOnce? (p :: pattern) (d ++ s) =
      (splitOnce? (p :: pattern) s).map fun parts => (d ++ parts.1, parts.2) := by
  induction d with
  | nil =>
    rw [List.nil_append]
    cases splitOnce? (p :: pattern) s <;> rfl
  | cons c d ih =>
    have hno : startsWith (c :: d ++ s) (p :: pattern) = false :=
      not_startsWith_digits hp (List.cons_ne_nil c d) hdigits
    rw [List.cons_append] at hno ⊢
    rw [splitOnce?, if_neg (Bool.eq_false_iff.mp hno), ih (List.forall_mem_cons.mp hdigits).2]
    cases splitOnce? (p :: pattern) s <;> rfl

/-- The texts are cut at the same places, or none is. -/
theorem splitOnce?_cases {p : Char} (h : SameButDigits s t)
    (hpattern : ∀ c ∈ p :: pattern, isAsciiDigit c = false) :
    (splitOnce? (p :: pattern) s = none ∧ splitOnce? (p :: pattern) t = none) ∨
      ∃ a b a' b', splitOnce? (p :: pattern) s = some (a, b) ∧
        splitOnce? (p :: pattern) t = some (a', b') ∧ SameButDigits a a' ∧ SameButDigits b b' := by
  induction h with
  | nil => exact .inl ⟨rfl, rfl⟩
  | @char c s t h ih =>
    rcases startsWith_cases (.char c h) hpattern with ⟨hs, ht⟩ | ⟨s', t', hs, ht, hrest⟩
    · rw [splitOnce?, splitOnce?, if_neg (Bool.eq_false_iff.mp hs),
        if_neg (Bool.eq_false_iff.mp ht)]
      rcases ih with ⟨hsplit, hsplit'⟩ | ⟨a, b, a', b', hsplit, hsplit', ha, hb⟩
      · rw [hsplit, hsplit']
        exact .inl ⟨rfl, rfl⟩
      · rw [hsplit, hsplit']
        exact .inr ⟨c :: a, b, c :: a', b', rfl, rfl, .char c ha, hb⟩
    · rw [splitOnce?, splitOnce?, if_pos (startsWith_iff.mpr ⟨s', hs⟩),
        if_pos (startsWith_iff.mpr ⟨t', ht⟩), hs, ht, List.drop_left, List.drop_left]
      exact .inr ⟨[], s', [], t', rfl, rfl, .nil, hrest⟩
  | run hd he hdigits hedigits h ih =>
    have hp := hpattern p List.mem_cons_self
    rw [splitOnce?_digits hp hdigits, splitOnce?_digits hp hedigits]
    rcases ih with ⟨hsplit, hsplit'⟩ | ⟨a, b, a', b', hsplit, hsplit', ha, hb⟩
    · rw [hsplit, hsplit']
      exact .inl ⟨rfl, rfl⟩
    · rw [hsplit, hsplit']
      exact .inr ⟨_, _, _, _, rfl, rfl, .run hd he hdigits hedigits ha, hb⟩

theorem rsplitOnce?_cases (h : SameButDigits s t) (hne : pattern ≠ [])
    (hpattern : ∀ c ∈ pattern, isAsciiDigit c = false) :
    (rsplitOnce? pattern s = none ∧ rsplitOnce? pattern t = none) ∨
      ∃ a b a' b', rsplitOnce? pattern s = some (a, b) ∧ rsplitOnce? pattern t = some (a', b') ∧
        SameButDigits a a' ∧ SameButDigits b b' := by
  obtain ⟨p, rest, hreverse⟩ := List.exists_cons_of_ne_nil (List.reverse_ne_nil_iff.mpr hne)
  have hrest : ∀ c ∈ p :: rest, isAsciiDigit c = false := by
    rw [← hreverse]
    simpa using hpattern
  unfold rsplitOnce?
  rw [hreverse]
  rcases h.reverse.splitOnce?_cases hrest with ⟨hs, ht⟩ | ⟨a, b, a', b', hs, ht, ha, hb⟩
  · rw [hs, ht]
    exact .inl ⟨rfl, rfl⟩
  · rw [hs, ht]
    exact .inr ⟨_, _, _, _, rfl, rfl, hb.reverse, ha.reverse⟩

end SameButDigits

end Rust
