import Mathlib.Data.List.Basic

/-!
# Occurrences of a pattern

How often a pattern occurs in a list, and the list with something else in its place. A pattern does
not occur across a place that has an element next to it which is not of the pattern (`Apart`), so
that what is to the left and to the right of it can be looked at by itself (`occurrences_append`,
`replace_append`).

Where a list is cut at elements, a run of others is in one piece (`infix_of_splitOnP`).
-/

namespace Occurrences

section

variable {α : Type} [DecidableEq α]

/-- At how many places the pattern occurs, if it is not empty. -/
def occurrences (pattern : List α) : List α → ℕ
  | [] => 0
  | a :: s => (if pattern.isPrefixOf (a :: s) then 1 else 0) + occurrences pattern s

/-- The list with every occurrence replaced, after some elements that are left out. -/
def replaceFrom (pattern new : List α) : ℕ → List α → List α
  | _, [] => []
  | skipped + 1, _ :: s => replaceFrom pattern new skipped s
  | 0, a :: s =>
    if pattern.isPrefixOf (a :: s) then new ++ replaceFrom pattern new (pattern.length - 1) s
    else a :: replaceFrom pattern new 0 s

/-- Occurrences are replaced from left to right. -/
def replace (pattern new s : List α) : List α := replaceFrom pattern new 0 s

end

section

variable {α : Type} {pattern new s t : List α} {a : α} {n : ℕ}

/-- No occurrence of the pattern is partly in the one and partly in the other. -/
def Apart (pattern s t : List α) : Prop :=
  (∀ a ∈ s.getLast?, a ∉ pattern) ∨ ∀ a ∈ t.head?, a ∉ pattern

theorem Apart.of_cons (h : Apart pattern (a :: s) t) : Apart pattern s t := by
  refine h.imp_left fun hlast b hb => hlast b ?_
  cases s with
  | nil => cases hb
  | cons c s => rwa [List.getLast?_cons_cons]

/-- An occurrence that starts in the one is in it. -/
theorem Apart.prefix_iff (h : Apart pattern (a :: s) t) :
    pattern <+: a :: s ++ t ↔ pattern <+: a :: s := by
  refine ⟨fun hprefix => ?_, fun hprefix => hprefix.trans (List.prefix_append _ _)⟩
  rcases List.prefix_or_prefix_of_prefix hprefix (List.prefix_append (a :: s) t) with hle | hle
  · exact hle
  obtain ⟨rest, rfl⟩ := hle
  rcases h with hlast | hhead
  · have hmem := List.getLast?_eq_some_getLast (List.cons_ne_nil a s)
    exact absurd (List.mem_append_left rest (List.getLast_mem (List.cons_ne_nil a s)))
      (hlast _ hmem)
  · rw [List.prefix_append_right_inj] at hprefix
    cases rest with
    | nil => exact ⟨[], by rw [List.append_nil, List.append_nil]⟩
    | cons b rest =>
      obtain ⟨t, rfl⟩ := hprefix
      exact absurd (List.mem_append_right _ List.mem_cons_self) (hhead b rfl)

theorem not_infix_of_not_mem (ha : a ∈ pattern) (h : a ∉ s) : ¬ pattern <:+: s :=
  fun hwithin => h (hwithin.subset ha)

/-- Elements of the pattern are kept, and others do not become elements of it. -/
theorem prefix_map_iff {f : α → α} (h : ∀ a, ∀ b ∈ pattern, f a = b ↔ a = b) :
    pattern <+: s.map f ↔ pattern <+: s := by
  induction pattern generalizing s with
  | nil => exact ⟨fun _ => List.nil_prefix, fun _ => List.nil_prefix⟩
  | cons b pattern ih =>
    cases s with
    | nil => rfl
    | cons a s =>
      rw [List.map_cons, List.cons_prefix_cons, List.cons_prefix_cons,
        ih fun a b hb => h a b (List.mem_cons_of_mem _ hb), eq_comm,
        h a b List.mem_cons_self, eq_comm]

variable [DecidableEq α]

theorem occurrences_append (h : Apart pattern s t) :
    occurrences pattern (s ++ t) = occurrences pattern s + occurrences pattern t := by
  induction s with
  | nil => rw [List.nil_append, occurrences, Nat.zero_add]
  | cons a s ih =>
    have hprefix := h.prefix_iff
    rw [List.cons_append] at hprefix
    simp only [List.cons_append, occurrences, List.isPrefixOf_iff_prefix, hprefix, ih h.of_cons,
      Nat.add_assoc]

theorem occurrences_eq_zero_iff (hpattern : pattern ≠ []) :
    occurrences pattern s = 0 ↔ ¬ pattern <:+: s := by
  induction s with
  | nil =>
    rw [List.infix_nil]
    exact ⟨fun _ => hpattern, fun _ => rfl⟩
  | cons a s ih =>
    rw [occurrences, List.infix_cons_iff, Nat.add_eq_zero_iff, ih, not_or]
    simp only [List.isPrefixOf_iff_prefix]
    refine and_congr_left fun _ => ?_
    split_ifs with h <;> simp [h]

theorem occurrences_map {f : α → α} (h : ∀ a, ∀ b ∈ pattern, f a = b ↔ a = b) :
    occurrences pattern (s.map f) = occurrences pattern s := by
  induction s with
  | nil => rfl
  | cons a s ih =>
    have hprefix := prefix_map_iff (s := a :: s) h
    rw [List.map_cons] at hprefix
    rw [List.map_cons, occurrences, occurrences, ih]
    simp only [List.isPrefixOf_iff_prefix, hprefix]

/-- What is cut off is of no occurrence. -/
theorem occurrences_between {s' : List α} (hpattern : pattern ≠ []) (hs : ∀ a ∈ s, a ∉ pattern)
    (hs' : ∀ a ∈ s', a ∉ pattern) :
    occurrences pattern (s ++ t ++ s') = occurrences pattern t := by
  have hnone {l : List α} (hl : ∀ a ∈ l, a ∉ pattern) : occurrences pattern l = 0 := by
    obtain ⟨a, rest, rfl⟩ := List.exists_cons_of_ne_nil hpattern
    exact (occurrences_eq_zero_iff hpattern).mpr
      (not_infix_of_not_mem List.mem_cons_self fun ha => hl a ha List.mem_cons_self)
  rw [occurrences_append (.inr fun a ha => hs' a (List.mem_of_mem_head? ha)),
    occurrences_append (.inl fun a ha => hs a (List.mem_of_getLast? ha)), hnone hs, hnone hs',
    Nat.zero_add, Nat.add_zero]

theorem replaceFrom_eq_drop : replaceFrom pattern new n s = replace pattern new (s.drop n) := by
  induction n generalizing s with
  | zero => rfl
  | succ n ih =>
    cases s with
    | nil => rfl
    | cons a s => exact ih

theorem replaceFrom_append (h : Apart pattern s t) (hskipped : n ≤ s.length) :
    replaceFrom pattern new n (s ++ t) = replaceFrom pattern new n s ++ replace pattern new t := by
  induction s generalizing n with
  | nil =>
    obtain rfl : n = 0 := Nat.le_zero.mp hskipped
    rfl
  | cons a s ih =>
    cases n with
    | succ n => exact ih h.of_cons (Nat.le_of_succ_le_succ hskipped)
    | zero =>
      have hprefix := h.prefix_iff
      rw [List.cons_append] at hprefix
      rw [List.cons_append, replaceFrom, replaceFrom]
      simp only [List.isPrefixOf_iff_prefix, hprefix]
      split_ifs with hp
      · have hlength := hp.length_le
        rw [List.length_cons] at hlength
        rw [ih h.of_cons (by omega), List.append_assoc]
      · rw [ih h.of_cons (Nat.zero_le _), List.cons_append]

theorem replace_append (h : Apart pattern s t) :
    replace pattern new (s ++ t) = replace pattern new s ++ replace pattern new t :=
  replaceFrom_append h (Nat.zero_le _)

theorem replace_of_not_infix (h : ¬ pattern <:+: s) : replace pattern new s = s := by
  induction s with
  | nil => rfl
  | cons a s ih =>
    rw [List.infix_cons_iff, not_or] at h
    unfold replace at ih ⊢
    rw [replaceFrom, if_neg (by rw [List.isPrefixOf_iff_prefix]; exact h.1), ih h.2]

theorem replace_self (hpattern : pattern ≠ []) : replace pattern new pattern = new := by
  cases pattern with
  | nil => exact absurd rfl hpattern
  | cons a s =>
    unfold replace
    rw [replaceFrom, if_pos (List.isPrefixOf_iff_prefix.mpr (List.prefix_refl _)),
      replaceFrom_eq_drop, List.length_cons, Nat.add_sub_cancel, List.drop_length]
    exact List.append_nil _

theorem occurrences_self : occurrences (a :: s) (a :: s) = 1 := by
  have hrest : occurrences (a :: s) s = 0 := by
    refine (occurrences_eq_zero_iff (List.cons_ne_nil a s)).mpr fun h => ?_
    have hlength := h.length_le
    rw [List.length_cons] at hlength
    omega
  rw [occurrences, if_pos (List.isPrefixOf_iff_prefix.mpr (List.prefix_refl _)), hrest]

end

/-! ## Runs -/

section

variable {α : Type} {s run : List α} {p : α → Bool}

theorem prefix_of_splitOnP (hrun : ∀ a ∈ run, p a = false) (h : run <+: s) :
    ∃ piece pieces, s.splitOnP p = piece :: pieces ∧ run <+: piece := by
  induction s generalizing run with
  | nil =>
    obtain rfl := List.prefix_nil.mp h
    exact ⟨[], [], List.splitOnP_nil, List.prefix_refl _⟩
  | cons a s ih =>
    cases run with
    | nil =>
      obtain ⟨piece, pieces, hpieces⟩ :=
        List.exists_cons_of_ne_nil (List.splitOnP_ne_nil p (a :: s))
      exact ⟨piece, pieces, hpieces, List.nil_prefix⟩
    | cons b run =>
      obtain ⟨rfl, hprefix⟩ := List.cons_prefix_cons.mp h
      obtain ⟨hb, hrun⟩ := List.forall_mem_cons.mp hrun
      obtain ⟨piece, pieces, hpieces, hpiece⟩ := ih hrun hprefix
      refine ⟨b :: piece, pieces, ?_, List.cons_prefix_cons.mpr ⟨rfl, hpiece⟩⟩
      rw [List.splitOnP_cons_eq_if_modifyHead, hb, hpieces]
      rfl

/-- A run without elements to cut at is in one of the pieces. -/
theorem infix_of_splitOnP (hrun : ∀ a ∈ run, p a = false) (h : run <:+: s) :
    ∃ piece ∈ s.splitOnP p, run <:+: piece := by
  induction s with
  | nil =>
    obtain rfl := List.infix_nil.mp h
    exact ⟨[], by simp, List.infix_refl _⟩
  | cons a s ih =>
    rcases List.infix_cons_iff.mp h with hprefix | hwithin
    · obtain ⟨piece, pieces, hpieces, hpiece⟩ := prefix_of_splitOnP hrun hprefix
      exact ⟨piece, by rw [hpieces]; exact List.mem_cons_self, hpiece.isInfix⟩
    · obtain ⟨piece, hmem, hpiece⟩ := ih hwithin
      rw [List.splitOnP_cons_eq_if_modifyHead]
      split_ifs
      · exact ⟨piece, List.mem_cons_of_mem _ hmem, hpiece⟩
      · obtain ⟨first, pieces, hpieces⟩ := List.exists_cons_of_ne_nil (List.splitOnP_ne_nil p s)
        rw [hpieces] at hmem ⊢
        rcases List.mem_cons.mp hmem with rfl | hmem
        · exact ⟨a :: piece, List.mem_cons_self, List.infix_cons hpiece⟩
        · exact ⟨piece, List.mem_cons_of_mem _ hmem, hpiece⟩

end

end Occurrences
