import LadybirdReports.Lib.StrSearch

/-!
# Reading back what was written

What the functions of `str` find in a text that was put together: the lines that were joined, the
word before a blank, the number whose digits were written, the last of several separators.
-/

namespace Rust

variable {s t a b word pattern : Str} {c : Char} {n : ℕ}

/-! ## Trimmed texts -/

theorem trimStart_of_head (h : ∀ c ∈ s.head?, isWhitespace c = false) : trimStart s = s := by
  unfold trimStart
  cases s with
  | nil => rfl
  | cons c s => rw [List.dropWhile_cons_of_neg (by simp [h c rfl])]

theorem trimStart_cons_of_isWhitespace (h : isWhitespace c = true) :
    trimStart (c :: s) = trimStart s := by
  unfold trimStart
  rw [List.dropWhile_cons_of_pos h]

theorem trim_eq_self_iff : trim s = s ↔
    (∀ c ∈ s.head?, isWhitespace c = false) ∧ ∀ c ∈ s.getLast?, isWhitespace c = false := by
  constructor
  · intro h
    constructor
    · intro c hc
      obtain ⟨t, rfl⟩ := List.head?_eq_some_iff.mp hc
      exact isWhitespace_head_trim h
    · intro c hc
      rw [← h] at hc
      unfold trim trimEnd at hc
      rw [List.getLast?_reverse] at hc
      by_contra hspace
      obtain ⟨t, ht⟩ := List.head?_eq_some_iff.mp hc
      have hne : (trimStart s).reverse.dropWhile isWhitespace ≠ [] := by simp [ht]
      have hhead := List.head_dropWhile_not isWhitespace hne
      simp only [ht, List.head_cons] at hhead
      exact hspace hhead
  · rintro ⟨hhead, hlast⟩
    unfold trim
    rw [trimStart_of_head hhead]
    unfold trimEnd
    have hreverse : ∀ c ∈ s.reverse.head?, isWhitespace c = false := by simpa using hlast
    change (trimStart s.reverse).reverse = s
    rw [trimStart_of_head hreverse, List.reverse_reverse]

theorem trimEnd_prefix (s : Str) : trimEnd s <+: s := by
  unfold trimEnd
  exact List.reverse_suffix.mp (by simpa using List.dropWhile_suffix isWhitespace)

/-! ## Lines -/

theorem linesFrom_append {line : Str} (h : '\n' ∉ s) :
    linesFrom (s ++ '\n' :: t) line =
      (stripCarriageReturn (s.reverse ++ line)).reverse :: lines t := by
  induction s generalizing line with
  | nil => rw [List.nil_append, linesFrom, if_pos rfl]; rfl
  | cons c s ih =>
    rw [List.mem_cons, not_or] at h
    rw [List.cons_append, linesFrom, if_neg (Ne.symm h.1), ih h.2]
    simp

theorem linesFrom_of_not_mem {line : Str} (h : '\n' ∉ s) (hne : s.reverse ++ line ≠ []) :
    linesFrom s line = [(s.reverse ++ line).reverse] := by
  induction s generalizing line with
  | nil =>
    cases line with
    | nil => exact absurd rfl hne
    | cons c line => simp [linesFrom]
  | cons c s ih =>
    rw [List.mem_cons, not_or] at h
    rw [linesFrom, if_neg (Ne.symm h.1), ih h.2 (by simp)]
    simp

/-- A text that is one line. -/
structure IsLine (s : Str) : Prop where
  ne_nil : s ≠ []
  no_feed : '\n' ∉ s
  no_return : s.getLast? ≠ some '\r'

theorem IsLine.stripCarriageReturn (h : IsLine s) :
    (stripCarriageReturn s.reverse).reverse = s := by
  have hlast := h.no_return
  rw [← List.head?_reverse] at hlast
  unfold Rust.stripCarriageReturn
  split
  · rename_i rest heq
    rw [heq] at hlast
    exact absurd rfl hlast
  · exact List.reverse_reverse s

/-- The lines of joined lines. -/
theorem lines_join {parts : List Str} (h : ∀ part ∈ parts, IsLine part) :
    lines (join ['\n'] parts) = parts := by
  induction parts with
  | nil => rfl
  | cons part parts ih =>
    obtain ⟨hpart, hparts⟩ := List.forall_mem_cons.mp h
    cases parts with
    | nil =>
      rw [show join ['\n'] [part] = part by simp [join]]
      unfold lines
      rw [linesFrom_of_not_mem hpart.no_feed (by simpa using hpart.ne_nil)]
      simp
    | cons next parts =>
      have hjoin : join ['\n'] (part :: next :: parts) =
          part ++ '\n' :: join ['\n'] (next :: parts) := by simp [join, List.intercalate]
      rw [hjoin]
      unfold lines at ih ⊢
      rw [linesFrom_append hpart.no_feed, List.append_nil, hpart.stripCarriageReturn]
      unfold lines
      rw [ih hparts]

/-! ## Words -/

/-- A text that is one word. -/
structure IsWord (word : Str) : Prop where
  ne_nil : word ≠ []
  no_space : ∀ c ∈ word, isWhitespace c = false

theorem IsWord.head (h : IsWord word) (t : Str) :
    ∀ c ∈ (word ++ t).head?, isWhitespace c = false := by
  obtain ⟨first, rest, rfl⟩ := List.exists_cons_of_ne_nil h.ne_nil
  intro c hc
  cases hc
  exact h.no_space first List.mem_cons_self

/-- What may follow a word: nothing, or a blank. -/
def EndsWord (t : Str) : Prop := ∀ c ∈ t.head?, isWhitespace c = true

theorem firstWord?_append (hword : IsWord word) (ht : EndsWord t) :
    firstWord? (word ++ t) = some word := by
  unfold firstWord?
  rw [trimStart_of_head (hword.head t), List.takeWhile_append_of_pos fun c hc => by
    simp [hword.no_space c hc]]
  have hrest : t.takeWhile (fun c => !isWhitespace c) = [] := by
    cases t with
    | nil => rfl
    | cons c t => rw [List.takeWhile_cons_of_neg (by simp [ht c rfl])]
  rw [hrest, List.append_nil]
  obtain ⟨first, rest, rfl⟩ := List.exists_cons_of_ne_nil hword.ne_nil
  rfl

/-! ## Separators -/

@[simp] theorem startsWith_cons_cons {p : Char} :
    startsWith (c :: s) (p :: pattern) = (p == c && startsWith s pattern) := rfl

/-- A text without the first character of the pattern lies before the first occurrence. -/
theorem splitOnce?_append {p : Char} (ha : p ∉ a) :
    splitOnce? (p :: pattern) (a ++ (p :: pattern) ++ b) = some (a, b) := by
  induction a with
  | nil =>
    rw [List.nil_append, List.cons_append, splitOnce?,
      if_pos (startsWith_iff.mpr ⟨b, (List.cons_append).symm⟩)]
    simp
  | cons c a ih =>
    rw [List.mem_cons, not_or] at ha
    rw [List.cons_append, List.cons_append, splitOnce?, if_neg (by simp [ha.1]), ih ha.2]
    rfl

theorem splitOnce?_eq_none_of_not_mem {p : Char} (hs : p ∉ s) :
    splitOnce? (p :: pattern) s = none := by
  induction s with
  | nil => rfl
  | cons c s ih =>
    rw [List.mem_cons, not_or] at hs
    rw [splitOnce?, if_neg (by simp [hs.1]), ih hs.2]
    rfl

/-- Parts without what is between them are cut again. -/
theorem splitWithin_join {p : Char} {part : Str} {parts : List Str}
    (h : ∀ t ∈ part :: parts, p ∉ t) {fuel : ℕ} (hfuel : parts.length ≤ fuel) :
    splitWithin [p] fuel (join [p] (part :: parts)) = part :: parts := by
  induction parts generalizing part fuel with
  | nil =>
    have hpart : join [p] [part] = part := by simp [join, List.intercalate]
    have hnone : splitOnce? [p] part = none :=
      splitOnce?_eq_none_of_not_mem (h part List.mem_cons_self)
    rw [hpart]
    cases fuel with
    | zero => rfl
    | succ fuel => rw [splitWithin, hnone]
  | cons next parts ih =>
    have hjoin : join [p] (part :: next :: parts) = part ++ [p] ++ join [p] (next :: parts) := by
      simp [join, List.intercalate]
    cases fuel with
    | zero => cases hfuel
    | succ fuel =>
      have hfuel : parts.length ≤ fuel := Nat.le_of_succ_le_succ hfuel
      rw [hjoin, splitWithin, splitOnce?_append (h part List.mem_cons_self)]
      exact congrArg (part :: ·) (ih (fun t ht => h t (List.mem_cons_of_mem _ ht)) hfuel)

theorem length_le_join {p : Char} {part : Str} {parts : List Str} :
    parts.length ≤ (join [p] (part :: parts)).length := by
  induction parts generalizing part with
  | nil => exact Nat.zero_le _
  | cons next parts ih =>
    have hjoin : join [p] (part :: next :: parts) = part ++ [p] ++ join [p] (next :: parts) := by
      simp [join, List.intercalate]
    have hnext : parts.length ≤ (join [p] (next :: parts)).length := ih
    rw [hjoin, List.length_append, List.length_append, List.length_singleton, List.length_cons]
    omega

theorem split_join {p : Char} {part : Str} {parts : List Str} (h : ∀ t ∈ part :: parts, p ∉ t) :
    split [p] (join [p] (part :: parts)) = part :: parts :=
  splitWithin_join h length_le_join

/-- Where a pattern occurs, a text is cut. -/
theorem contains_iff : contains s pattern = true ↔ ∃ a b, s = a ++ pattern ++ b := by
  unfold contains
  constructor
  · intro h
    obtain ⟨⟨a, b⟩, hsplit⟩ := Option.isSome_iff_exists.mp h
    exact ⟨a, b, splitOnce?_eq_some hsplit⟩
  · rintro ⟨a, b, rfl⟩
    induction a with
    | nil =>
      rw [List.nil_append]
      cases hp : pattern ++ b with
      | nil =>
        rw [List.append_eq_nil_iff] at hp
        rw [splitOnce?, if_pos hp.1]
        rfl
      | cons c t =>
        rw [splitOnce?, if_pos (startsWith_iff.mpr ⟨b, hp.symm⟩)]
        rfl
    | cons c a ih =>
      rw [List.cons_append, List.cons_append, splitOnce?]
      split_ifs
      · rfl
      · rw [Option.isSome_map]
        exact ih

theorem rsplitOnce?_eq_none (h : contains s pattern = false) : rsplitOnce? pattern s = none := by
  unfold rsplitOnce?
  rw [Option.map_eq_none_iff, ← Option.not_isSome_iff_eq_none]
  intro hsome
  obtain ⟨a, b, hs⟩ := contains_iff.mp hsome
  have hoccurs : contains s pattern = true := by
    refine contains_iff.mpr ⟨b.reverse, a.reverse, ?_⟩
    have hs := congrArg List.reverse hs
    simpa using hs
  rw [h] at hoccurs
  cases hoccurs

/-- After the last separator there is nothing of its last character. -/
theorem rsplitOnce?_append {p : Char} (hlast : pattern.getLast? = some p) (hb : p ∉ b) :
    rsplitOnce? pattern (a ++ pattern ++ b) = some (a, b) := by
  obtain ⟨start, rfl⟩ := List.getLast?_eq_some_iff.mp hlast
  unfold rsplitOnce?
  have hreverse : (a ++ (start ++ [p]) ++ b).reverse =
      b.reverse ++ (p :: start.reverse) ++ a.reverse := by simp
  rw [hreverse, List.reverse_append, List.reverse_singleton, List.singleton_append,
    splitOnce?_append (by simpa using hb)]
  simp

/-! ## Numbers -/

theorem isAsciiDigit_of_isDigit (h : c.isDigit = true) : isAsciiDigit c = true := by
  unfold Char.isDigit at h
  unfold isAsciiDigit
  simp only [Bool.and_eq_true, decide_eq_true_eq] at h ⊢
  exact h

theorem digitsValue_eq (s : Str) : digitsValue s = Nat.ofDigitChars 10 s 0 :=
  Nat.ofDigitChars_eq_foldl.symm

/-- The digits of a number. -/
def digits (n : ℕ) : Str := (Nat.repr n).toList

theorem digits_eq (n : ℕ) : digits n = Nat.toDigits 10 n := Nat.toList_repr

theorem digitsValue_digits (n : ℕ) : digitsValue (digits n) = n := by
  rw [digits_eq, digitsValue_eq, Nat.ofDigitChars_ten_toDigits]

theorem isAsciiDigit_of_mem_digits (h : c ∈ digits n) : isAsciiDigit c = true := by
  rw [digits_eq] at h
  exact isAsciiDigit_of_isDigit (Nat.isDigit_of_mem_toDigits (by omega) le_rfl h)

theorem digits_ne_nil (n : ℕ) : digits n ≠ [] := by
  rw [digits_eq]
  exact Nat.toDigits_ne_nil

/-- A number of at most so many digits. -/
theorem length_digits_le_iff {k : ℕ} (hk : 0 < k) : (digits n).length ≤ k ↔ n < 10 ^ k := by
  rw [digits_eq]
  exact Nat.length_toDigits_le_iff (by omega) hk

/-- A text of digits is read as its value, if the type has it. -/
theorem parseUnsigned_of_digits {bits : ℕ} (hne : s ≠ []) (hs : ∀ c ∈ s, isAsciiDigit c = true) :
    parseUnsigned bits s = if digitsValue s < 2 ^ bits then some (digitsValue s) else none := by
  have hplain : parseUnsigned bits s = if s = [] || !s.all isAsciiDigit then none
      else if digitsValue s < 2 ^ bits then some (digitsValue s) else none := by
    unfold parseUnsigned
    split
    · exact absurd (hs '+' List.mem_cons_self) (by decide)
    · rfl
  rw [hplain, if_neg]
  simpa [hne] using hs

theorem parseUnsigned_digits {bits : ℕ} (h : n < 2 ^ bits) :
    parseUnsigned bits (digits n) = some n := by
  rw [parseUnsigned_of_digits (digits_ne_nil n) fun c hc => isAsciiDigit_of_mem_digits hc,
    digitsValue_digits, if_pos h]

end Rust
