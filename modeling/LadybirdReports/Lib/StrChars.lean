import LadybirdReports.Lib.StrSearch

/-!
# The characters of pieces of strings

What the functions of `str` cut out of a text has only characters of the text, so that a test that
every character of the text passes is passed by every character of the piece. A text that was put
together has those of its parts.
-/

namespace Rust

open scoped List

variable {s t pattern separator line : Str} {c : Char} {p q : Char → Bool} {parts : List Str}
  {n : ℕ}

theorem all_of_subset (h : t ⊆ s) (hs : s.all p = true) : t.all p = true :=
  List.all_eq_true.mpr fun c hc => List.all_eq_true.mp hs c (h hc)

/-- What every character of a text is, from a test of the text that can be run. -/
theorem forall_of_all {P : Char → Prop} [DecidablePred P] (h : (s.all fun c => P c) = true) :
    ∀ c ∈ s, P c :=
  fun c hc => of_decide_eq_true (List.all_eq_true.mp h c hc)

theorem all_imp (h : ∀ c, p c = true → q c = true) (hs : s.all p = true) : s.all q = true :=
  List.all_eq_true.mpr fun c hc => h c (List.all_eq_true.mp hs c hc)

/-! ## Pieces -/

theorem splitHead_subset (p : Char → Bool) (s : Str) : splitHead p s ⊆ s :=
  (List.takeWhile_sublist _).subset

theorem trimStart_sublist (s : Str) : trimStart s <+ s := List.dropWhile_sublist _

theorem trimEnd_sublist (s : Str) : trimEnd s <+ s := by
  have h : s.reverse.dropWhile isWhitespace <+ s.reverse := List.dropWhile_sublist _
  have hreverse := h.reverse
  rwa [List.reverse_reverse] at hreverse

theorem trim_sublist (s : Str) : trim s <+ s := (trimEnd_sublist _).trans (trimStart_sublist s)

theorem stripPrefix?_sublist (h : stripPrefix? s pattern = some t) : t <+ s := by
  unfold stripPrefix? at h
  split_ifs at h
  cases h
  exact List.drop_sublist _ _

theorem splitOnce?_subset {a b : Str} (h : splitOnce? pattern s = some (a, b)) :
    a ⊆ s ∧ b ⊆ s := by
  rw [splitOnce?_eq_some h]
  exact ⟨fun c hc => by simp [hc], fun c hc => by simp [hc]⟩

theorem rsplitOnce?_sublist {a b : Str} (h : rsplitOnce? pattern s = some (a, b)) :
    a <+ s ∧ b <+ s := by
  rw [rsplitOnce?_eq_some h]
  exact ⟨(List.sublist_append_left _ _).trans (List.sublist_append_left _ _),
    List.sublist_append_right _ _⟩

theorem splitWithin_subset {fuel : ℕ} (h : t ∈ splitWithin pattern fuel s) : t ⊆ s := by
  induction fuel generalizing s with
  | zero =>
    rw [splitWithin, List.mem_singleton] at h
    rw [h]
    exact List.Subset.refl s
  | succ fuel ih =>
    rw [splitWithin] at h
    split at h
    · rw [List.mem_singleton] at h
      rw [h]
      exact List.Subset.refl s
    · rename_i a b hsplit
      obtain ⟨ha, hb⟩ := splitOnce?_subset hsplit
      rcases List.mem_cons.mp h with rfl | h
      · exact ha
      · exact fun c hc => hb (ih h hc)

theorem split_subset (h : t ∈ split pattern s) : t ⊆ s := splitWithin_subset h

theorem byteLen_le_of_sublist (h : t <+ s) : byteLen t ≤ byteLen s := by
  induction h with
  | slnil => exact le_rfl
  | cons c _ ih => exact ih.trans (by rw [byteLen_cons]; omega)
  | cons_cons c _ ih =>
    rw [byteLen_cons, byteLen_cons]
    omega

/-! ## Lines -/

theorem stripCarriageReturn_sublist (s : Str) : stripCarriageReturn s <+ s := by
  unfold stripCarriageReturn
  split
  · exact List.sublist_cons_self _ _
  · exact List.Sublist.refl _

theorem linesFrom_sublist (h : t ∈ linesFrom s line) : t <+ line.reverse ++ s := by
  induction s generalizing line with
  | nil =>
    cases line with
    | nil => cases h
    | cons d line =>
      rw [linesFrom, List.mem_singleton] at h
      · rw [h, List.append_nil]
      · simp
  | cons d s ih =>
    rw [linesFrom] at h
    split_ifs at h with hd
    · rcases List.mem_cons.mp h with rfl | h
      · exact (stripCarriageReturn_sublist _).reverse.trans (List.sublist_append_left _ _)
      · exact (ih h).trans ((List.sublist_cons_self _ _).trans (List.sublist_append_right _ _))
    · have hline := ih h
      rwa [List.reverse_cons, List.append_assoc, List.singleton_append] at hline

theorem lines_sublist (h : t ∈ lines s) : t <+ s := linesFrom_sublist h

theorem mem_linesFrom (h : t ∈ linesFrom s line) : ∀ c ∈ t, c ∈ line ∨ c ∈ s ∧ c ≠ '\n' := by
  induction s generalizing line with
  | nil =>
    cases line with
    | nil => cases h
    | cons d line =>
      rw [linesFrom, List.mem_singleton] at h
      · rw [h]
        exact fun c hc => .inl (List.mem_reverse.mp hc)
      · simp
  | cons d s ih =>
    rw [linesFrom] at h
    split_ifs at h with hd
    · rcases List.mem_cons.mp h with rfl | h
      · exact fun c hc => .inl
          ((stripCarriageReturn_sublist _).subset (List.mem_reverse.mp hc))
      · intro c hc
        rcases ih h c hc with hline | ⟨hs, hne⟩
        · cases hline
        · exact .inr ⟨List.mem_cons_of_mem _ hs, hne⟩
    · intro c hc
      rcases ih h c hc with hline | ⟨hs, hne⟩
      · rcases List.mem_cons.mp hline with rfl | hline
        · exact .inr ⟨List.mem_cons_self, hd⟩
        · exact .inl hline
      · exact .inr ⟨List.mem_cons_of_mem _ hs, hne⟩

/-- A line has characters of the text, and no line feed. -/
theorem mem_of_mem_lines (h : t ∈ lines s) (hc : c ∈ t) : c ∈ s ∧ c ≠ '\n' := by
  rcases mem_linesFrom h c hc with hline | h
  · cases hline
  · exact h

/-! ## Texts put together -/

theorem join_cons_cons (part next : Str) : join separator (part :: next :: parts) =
    part ++ separator ++ join separator (next :: parts) := by
  simp [join, List.intercalate]

theorem mem_join (h : c ∈ join separator parts) : c ∈ separator ∨ ∃ part ∈ parts, c ∈ part := by
  induction parts with
  | nil => cases h
  | cons part parts ih =>
    cases parts with
    | nil =>
      rw [show join separator [part] = part by simp [join]] at h
      exact .inr ⟨part, List.mem_cons_self, h⟩
    | cons next parts =>
      rw [join_cons_cons, List.mem_append, List.mem_append] at h
      rcases h with (h | h) | h
      · exact .inr ⟨part, List.mem_cons_self, h⟩
      · exact .inl h
      · rcases ih h with h | ⟨other, hother, h⟩
        · exact .inl h
        · exact .inr ⟨other, List.mem_cons_of_mem _ hother, h⟩

theorem all_join (hseparator : separator.all p = true)
    (hparts : ∀ part ∈ parts, part.all p = true) :
    (join separator parts).all p = true := by
  refine List.all_eq_true.mpr fun c hc => ?_
  rcases mem_join hc with hc | ⟨part, hpart, hc⟩
  · exact List.all_eq_true.mp hseparator c hc
  · exact List.all_eq_true.mp (hparts part hpart) c hc

theorem all_append : (s ++ t).all p = true ↔ s.all p = true ∧ t.all p = true := by
  rw [List.all_append, Bool.and_eq_true]

/-- A text cut to fewer characters, with one put after it. -/
theorem all_take_append (hs : s.all p = true) (hc : p c = true) : (s.take n ++ [c]).all p = true :=
  all_append.mpr ⟨all_of_subset (List.take_subset n s) hs, by simp [hc]⟩

/-! ## Numbers -/

theorem all_isAsciiDigit_of_parse {bits value : ℕ}
    (h : (if s = [] || !s.all isAsciiDigit then none
      else if digitsValue s < 2 ^ bits then some (digitsValue s) else none) = some value) :
    ∀ c ∈ s, isAsciiDigit c = true := by
  split at h
  · cases h
  · rename_i hdigits
    simp only [Bool.or_eq_true, decide_eq_true_eq, Bool.not_eq_true', not_or,
      Bool.not_eq_false] at hdigits
    exact List.all_eq_true.mp hdigits.2

/-- A number is written with digits, and perhaps a sign before them. -/
theorem mem_of_parseUnsigned {bits value : ℕ} (h : parseUnsigned bits s = some value) :
    ∀ c ∈ s, isAsciiDigit c = true ∨ c = '+' := by
  intro c hc
  by_cases hplus : ∃ rest, s = '+' :: rest
  · obtain ⟨rest, rfl⟩ := hplus
    rcases List.mem_cons.mp hc with rfl | hc
    · exact .inr rfl
    · exact .inl (all_isAsciiDigit_of_parse h c hc)
  · have hsame : parseUnsigned bits s = if s = [] || !s.all isAsciiDigit then none
        else if digitsValue s < 2 ^ bits then some (digitsValue s) else none := by
      unfold parseUnsigned
      split
      · exact absurd ⟨_, rfl⟩ hplus
      · rfl
    exact .inl (all_isAsciiDigit_of_parse (hsame.symm.trans h) c hc)

end Rust
