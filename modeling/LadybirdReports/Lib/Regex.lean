import Mathlib.Data.Nat.Basic

/-!
# Patterns that backtrack

A pattern is tried from left to right, and what it tries first wins: `rests` lists what is left of
the text after each way to match it, the preferred way first. Repetition is greedy, and a round that
takes nothing is not tried, as in ECMAScript. `matchAll` are all matches, one after the other.

1. Where what follows cannot fail nothing is taken back, so that the first way of a sequence is the
   first way of its parts (`first_seq`), and a repetition goes on as long as it can (`first_star`).
2. All matches of a pattern that takes something are the first match and all matches in what it
   leaves, or all matches after one character that starts none (`matchAll_of_some`,
   `matchAll_of_none`).
-/

/-- A pattern. -/
inductive Regex (α : Type)
  | empty
  | one (p : α → Bool)
  | seq (a b : Regex α)
  | alt (a b : Regex α)
  | star (a : Regex α)

namespace Regex

variable {α : Type}

/-- At most so many rounds, each of which takes something, as many as possible first. -/
def rounds (round : List α → List (List α)) : ℕ → List α → List (List α)
  | 0, s => [s]
  | n + 1, s =>
    ((round s).filter fun t => t.length < s.length).flatMap (rounds round n) ++ [s]

/-- What is left after each way to match. -/
def rests : Regex α → List α → List (List α)
  | empty, s => [s]
  | one _, [] => []
  | one p, c :: s => if p c then [s] else []
  | seq a b, s => (rests a s).flatMap (rests b)
  | alt a b, s => rests a s ++ rests b s
  | star a, s => rounds (rests a) s.length s

/-- One or more times. -/
def plus (a : Regex α) : Regex α := seq a (star a)

/-- Once or not at all. -/
def opt (a : Regex α) : Regex α := alt a empty

/-- What the match at the start of a text leaves. -/
def first (r : Regex α) (s : List α) : Option (List α) := (rests r s).head?

/-- The matches of so many attempts, the last of which is at the end of the text. After an empty
match one character is passed over. -/
def matchesWithin (r : Regex α) : ℕ → List α → List (List α)
  | _, [] => (first r []).toList.map fun _ => []
  | 0, _ :: _ => []
  | n + 1, c :: s =>
    match first r (c :: s) with
    | some t =>
      (c :: s).take ((c :: s).length - t.length) ::
        matchesWithin r n (if t.length < (c :: s).length then t else s)
    | none => matchesWithin r n s

/-- `String.prototype.match` with the flag `g`. -/
def matchAll (r : Regex α) (s : List α) : List (List α) := matchesWithin r s.length s

/-! ## The first way -/

section

variable {a b r : Regex α} {s t : List α} {c : α} {p : α → Bool}

/-- The pattern matches any text, if only its empty start. -/
def NeverFails (r : Regex α) : Prop := ∀ s, first r s ≠ none

/-- A match of the pattern takes something. -/
def Consumes (r : Regex α) : Prop := ∀ s, ∀ t ∈ rests r s, t.length < s.length

theorem first_one_cons : first (one p) (c :: s) = if p c then some s else none := by
  unfold first rests
  split <;> rfl

theorem first_alt : first (alt a b) s = (first a s).or (first b s) := by
  unfold first
  rw [rests, List.head?_append]

theorem first_opt : first (opt a) s = some ((first a s).getD s) := by
  unfold opt
  rw [first_alt]
  cases first a s <;> rfl

/-- If nothing that follows fails, the first way is to go on from the first way. -/
theorem head?_flatMap {f : List α → List (List α)} (hf : ∀ t, (f t).head? ≠ none)
    (ts : List (List α)) : (ts.flatMap f).head? = ts.head?.bind fun t => (f t).head? := by
  cases ts with
  | nil => rfl
  | cons t ts =>
    rw [List.flatMap_cons, List.head?_append, List.head?_cons, Option.bind_some]
    exact Option.or_of_isSome (Option.isSome_iff_ne_none.mpr (hf t))

theorem first_seq (hb : NeverFails b) : first (seq a b) s = (first a s).bind (first b) :=
  head?_flatMap hb _

/-- One character and then a pattern, which may fail. -/
theorem first_one_seq : first (seq (one p) b) (c :: s) = if p c then first b s else none := by
  unfold first
  rw [rests, rests]
  split
  · rw [List.flatMap_cons, List.flatMap_nil, List.append_nil]
  · rfl

theorem rounds_ne_nil (round : List α → List (List α)) (n : ℕ) (s : List α) :
    (rounds round n s).head? ≠ none := by
  cases n with
  | zero => simp [rounds]
  | succ n => simp [rounds]

theorem neverFails_star (a : Regex α) : NeverFails (star a) := fun s =>
  rounds_ne_nil (rests a) s.length s

theorem neverFails_opt (a : Regex α) : NeverFails (opt a) := fun s => by
  rw [first_opt]
  exact Option.some_ne_none _

theorem neverFails_seq (ha : NeverFails a) (hb : NeverFails b) : NeverFails (seq a b) := fun s => by
  rw [first_seq hb]
  obtain ⟨t, ht⟩ := Option.ne_none_iff_exists'.mp (ha s)
  rw [ht]
  exact hb t

theorem first_rounds (ha : Consumes a) (n : ℕ) : (rounds (rests a) (n + 1) s).head? =
    match first a s with
    | some t => (rounds (rests a) n t).head?
    | none => some s := by
  have hfilter : (rests a s).filter (fun t => t.length < s.length) = rests a s :=
    List.filter_eq_self.mpr fun t ht => decide_eq_true (ha s t ht)
  rw [rounds, hfilter, List.head?_append, head?_flatMap (rounds_ne_nil (rests a) n)]
  unfold first
  cases (rests a s).head? with
  | none => rfl
  | some t =>
    exact Option.or_of_isSome (Option.isSome_iff_ne_none.mpr (rounds_ne_nil (rests a) n t))

theorem length_lt_of_first (ha : Consumes a) (h : first a s = some t) : t.length < s.length :=
  ha s t (List.mem_of_mem_head? h)

/-- More rounds than characters change nothing. -/
theorem first_rounds_of_le (ha : Consumes a) (n m : ℕ) (hn : s.length ≤ n) (hm : s.length ≤ m) :
    (rounds (rests a) n s).head? = (rounds (rests a) m s).head? := by
  have hnil : ∀ (s : List α) (k : ℕ), s.length ≤ 0 →
      (rounds (rests a) k s).head? = some s := by
    intro s k hs
    cases k with
    | zero => rfl
    | succ k =>
      rw [first_rounds ha]
      cases hfirst : first a s with
      | none => rfl
      | some t =>
        have := length_lt_of_first ha hfirst
        omega
  induction n generalizing s m with
  | zero => rw [hnil s 0 hn, hnil s m hn]
  | succ n ih =>
    cases m with
    | zero => rw [hnil s (n + 1) hm, hnil s 0 hm]
    | succ m =>
      rw [first_rounds ha, first_rounds ha]
      cases hfirst : first a s with
      | none => rfl
      | some t =>
        have := length_lt_of_first ha hfirst
        exact ih (s := t) m (by omega) (by omega)

/-- A repetition goes on as long as it can. -/
theorem first_star (ha : Consumes a) : first (star a) s =
    match first a s with
    | some t => first (star a) t
    | none => some s := by
  have hstar : ∀ t, first (star a) t = (rounds (rests a) t.length t).head? := fun t => rfl
  rw [hstar, first_rounds_of_le ha s.length (s.length + 1) le_rfl (Nat.le_succ _),
    first_rounds ha]
  cases hfirst : first a s with
  | none => rfl
  | some t =>
    have := length_lt_of_first ha hfirst
    exact first_rounds_of_le ha s.length t.length (by omega) le_rfl

theorem first_plus : first (plus a) s = (first a s).bind (first (star a)) :=
  first_seq (neverFails_star a)

/-! ## What a match takes -/

theorem length_le_of_mem_rounds {round : List α → List (List α)} {n : ℕ}
    (h : t ∈ rounds round n s) : t.length ≤ s.length := by
  induction n generalizing s with
  | zero => rw [List.mem_singleton.mp h]
  | succ n ih =>
    rcases List.mem_append.mp h with h | h
    · obtain ⟨u, hu, h⟩ := List.mem_flatMap.mp h
      have hshort := of_decide_eq_true (List.mem_filter.mp hu).2
      exact Nat.le_trans (ih h) (Nat.le_of_lt hshort)
    · rw [List.mem_singleton.mp h]

theorem length_le_of_mem_rests (h : t ∈ rests r s) : t.length ≤ s.length := by
  induction r generalizing s t with
  | empty => rw [List.mem_singleton.mp h]
  | one p =>
    cases s with
    | nil => cases h
    | cons c s =>
      rw [rests] at h
      split at h
      · rw [List.mem_singleton.mp h]
        exact Nat.le_succ _
      · cases h
  | seq a b iha ihb =>
    obtain ⟨u, hu, h⟩ := List.mem_flatMap.mp h
    exact Nat.le_trans (ihb h) (iha hu)
  | alt a b iha ihb =>
    rcases List.mem_append.mp h with h | h
    · exact iha h
    · exact ihb h
  | star a => exact length_le_of_mem_rounds h

theorem consumes_one (p : α → Bool) : Consumes (one p) := by
  intro s t h
  cases s with
  | nil => cases h
  | cons c s =>
    rw [rests] at h
    split at h
    · rw [List.mem_singleton.mp h]
      exact Nat.lt_succ_self _
    · cases h

theorem consumes_seq (ha : Consumes a) (b : Regex α) : Consumes (seq a b) := by
  intro s t h
  obtain ⟨u, hu, h⟩ := List.mem_flatMap.mp h
  exact Nat.lt_of_le_of_lt (length_le_of_mem_rests h) (ha s u hu)

theorem consumes_alt (ha : Consumes a) (hb : Consumes b) : Consumes (alt a b) := by
  intro s t h
  rcases List.mem_append.mp h with h | h
  · exact ha s t h
  · exact hb s t h

/-! ## All matches -/

/-- More attempts than characters change nothing. -/
theorem matchesWithin_of_le (hr : Consumes r) (n m : ℕ) (hn : s.length ≤ n) (hm : s.length ≤ m) :
    matchesWithin r n s = matchesWithin r m s := by
  induction n generalizing s m with
  | zero =>
    rw [List.length_eq_zero_iff.mp (Nat.le_zero.mp hn)]
    cases m <;> rfl
  | succ n ih =>
    cases s with
    | nil => cases m <;> rfl
    | cons c s =>
      cases m with
      | zero => cases hm
      | succ m =>
        rw [List.length_cons] at hn hm
        rw [matchesWithin, matchesWithin]
        cases hfirst : first r (c :: s) with
        | none => exact ih m (by omega) (by omega)
        | some t =>
          have hlt := length_lt_of_first hr hfirst
          dsimp only
          rw [if_pos hlt, ih m]
          · rw [List.length_cons] at hlt
            omega
          · rw [List.length_cons] at hlt
            omega

theorem matchAll_nil (hr : Consumes r) : matchAll r [] = [] := by
  cases hfirst : first r [] with
  | none =>
    unfold matchAll matchesWithin
    rw [hfirst]
    rfl
  | some t => exact absurd (length_lt_of_first hr hfirst) (Nat.not_lt_zero _)

theorem matchAll_of_none (h : first r (c :: s) = none) : matchAll r (c :: s) = matchAll r s := by
  unfold matchAll
  rw [List.length_cons, matchesWithin, h]

theorem matchAll_of_some (hr : Consumes r) (h : first r s = some t) :
    matchAll r s = s.take (s.length - t.length) :: matchAll r t := by
  have hlt := length_lt_of_first hr h
  cases s with
  | nil => cases hlt
  | cons c s =>
    unfold matchAll
    rw [List.length_cons, matchesWithin, h]
    dsimp only
    rw [if_pos hlt, matchesWithin_of_le hr s.length t.length (Nat.le_of_lt_succ hlt) le_rfl]
    rfl

end

end Regex
