import Mathlib.Data.Nat.Basic

/-!
# Words read by an automaton

A text is read character by character in a state, and a word goes on until a character breaks it in
the state it is read in: `scan` collects the words, and `rest` is the text from the first break on.
A character that breaks a word is in none.

Two readers with the same states collect the same words of a text exactly if they break them at the
same characters (`words_eq_iff`): where one breaks and the other goes on, the word that is read is
shorter for one, or starts with a character that starts no word of the other.

Words that are joined by a character that breaks each of them are read again (`words_intercalate`).
-/

/-- The state in which a word starts, and those in which it goes on. -/
structure Reader (α σ : Type) where
  start : σ
  next : σ → α → σ

namespace Reader

variable {α σ : Type}

/-- The words of a text, of which the first goes on after what was read of it. -/
def scan (r : Reader α σ) (breaks : σ → α → Bool) : Option (List α) → σ → List α → List (List α)
  | word, _, [] => word.toList
  | word, q, c :: s =>
    if breaks q c then word.toList ++ r.scan breaks none r.start s
    else r.scan breaks (some (word.getD [] ++ [c])) (r.next q c) s

def words (r : Reader α σ) (breaks : σ → α → Bool) (s : List α) : List (List α) :=
  r.scan breaks none r.start s

/-- The text from the first break on. -/
def rest (r : Reader α σ) (breaks : σ → α → Bool) : σ → List α → List α
  | _, [] => []
  | q, c :: s => if breaks q c then c :: s else r.rest breaks (r.next q c) s

/-- The text is broken at the same characters. -/
def SameBreaks (r : Reader α σ) (breaks breaks' : σ → α → Bool) : σ → List α → Prop
  | _, [] => True
  | q, c :: s => breaks q c = breaks' q c ∧
      r.SameBreaks breaks breaks' (if breaks q c then r.start else r.next q c) s

/-- The state after a text that is read from this state on. -/
def final (r : Reader α σ) (q : σ) (s : List α) : σ := s.foldl r.next q

/-- No character breaks the text where it is read. -/
def Unbroken (r : Reader α σ) (breaks : σ → α → Bool) : σ → List α → Prop
  | _, [] => True
  | q, c :: s => breaks q c = false ∧ r.Unbroken breaks (r.next q c) s

/-- A text that is read as one word. -/
structure IsWord (r : Reader α σ) (breaks : σ → α → Bool) (w : List α) : Prop where
  ne_nil : w ≠ []
  unbroken : r.Unbroken breaks r.start w

section

variable {r : Reader α σ} {breaks breaks' : σ → α → Bool} {q : σ} {c : α} {s w : List α}

theorem length_rest_le : (r.rest breaks q s).length ≤ s.length := by
  induction s generalizing q with
  | nil => exact Nat.le_refl _
  | cons c s ih =>
    rw [rest]
    split
    · exact Nat.le_refl _
    · exact Nat.le_succ_of_le ih

/-- A word ends at the first break, and the others are the words of the rest, if a character that
breaks a word starts none. -/
theorem scan_some (hstart : ∀ q c, breaks q c = true → breaks r.start c = true) :
    r.scan breaks (some w) q s =
      (w ++ s.take (s.length - (r.rest breaks q s).length)) ::
        r.words breaks (r.rest breaks q s) := by
  induction s generalizing w q with
  | nil => simp [scan, rest, words]
  | cons c s ih =>
    rw [scan, rest]
    by_cases hbreak : breaks q c = true
    · rw [if_pos hbreak, if_pos hbreak, words, scan, if_pos (hstart q c hbreak)]
      simp
    · rw [if_neg hbreak, if_neg hbreak, ih]
      have hle : (r.rest breaks (r.next q c) s).length ≤ s.length := length_rest_le
      rw [List.length_cons, Nat.succ_sub hle, List.take_succ_cons, Option.getD_some,
        List.append_assoc, List.singleton_append]

theorem words_cons_of_break (h : breaks r.start c = true) :
    r.words breaks (c :: s) = r.words breaks s := by
  rw [words, scan, if_pos h]
  rfl

theorem words_cons (hstart : ∀ q c, breaks q c = true → breaks r.start c = true)
    (h : breaks r.start c = false) : r.words breaks (c :: s) =
      (c :: s).take ((c :: s).length - (r.rest breaks r.start (c :: s)).length) ::
        r.words breaks (r.rest breaks r.start (c :: s)) := by
  have hne : ¬ breaks r.start c = true := by rw [h]; decide
  have hrest : r.rest breaks r.start (c :: s) = r.rest breaks (r.next r.start c) s := by
    rw [rest, if_neg hne]
  have hle : (r.rest breaks (r.next r.start c) s).length ≤ s.length := length_rest_le
  rw [words, scan, if_neg hne, scan_some hstart, hrest, List.length_cons, Nat.succ_sub hle,
    List.take_succ_cons]
  rfl

/-! ## The same words -/

/-- The first word starts with what was read of it. -/
theorem exists_scan_some : ∃ t ws, r.scan breaks (some w) q s = (w ++ t) :: ws := by
  induction s generalizing w q with
  | nil => exact ⟨[], [], by simp [scan]⟩
  | cons c s ih =>
    rw [scan]
    split
    · exact ⟨[], _, by rw [List.append_nil]; rfl⟩
    · obtain ⟨t, ws, h⟩ := ih (w := w ++ [c]) (q := r.next q c)
      exact ⟨c :: t, ws, by rw [Option.getD_some, h, List.append_assoc, List.singleton_append]⟩

/-- No word starts with a character that breaks words at their start. -/
theorem head_of_words {ws : List (List α)} (h : r.words breaks s = (c :: w) :: ws) :
    breaks r.start c = false := by
  induction s with
  | nil => cases h
  | cons d s ih =>
    by_cases hbreak : breaks r.start d = true
    · exact ih ((words_cons_of_break hbreak).symm.trans h)
    · rw [words, scan, if_neg hbreak] at h
      have hscan : ∃ t us, r.scan breaks (some [d]) (r.next r.start d) s = ([d] ++ t) :: us :=
        exists_scan_some
      obtain ⟨t, us, hscan⟩ := hscan
      rw [Option.getD_none, List.nil_append, hscan] at h
      obtain ⟨rfl, -⟩ := List.cons.inj (List.cons.inj h).1
      exact Bool.not_eq_true _ ▸ hbreak

/-- Where a word is broken it is not read on. -/
theorem scan_ne_of_break {word : Option (List α)} {q' : σ} {s' : List α}
    (hword : word = none → q = r.start) (h : breaks q c = true) :
    word.toList ++ r.scan breaks none r.start s ≠
      r.scan breaks' (some (word.getD [] ++ [c])) q' s' := by
  intro heq
  have hscan : ∃ t ws, r.scan breaks' (some (word.getD [] ++ [c])) q' s' =
      (word.getD [] ++ [c] ++ t) :: ws := exists_scan_some
  obtain ⟨t, ws, hscan⟩ := hscan
  rw [hscan] at heq
  cases word with
  | none =>
    have hfree : breaks r.start c = false := head_of_words heq
    rw [← hword rfl, h] at hfree
    cases hfree
  | some w =>
    have hlength := congrArg List.length (List.cons.inj heq).1
    simp only [Option.getD_some, List.length_append, List.length_singleton] at hlength
    omega

theorem scan_eq_iff {word : Option (List α)} (hword : word = none → q = r.start) :
    r.scan breaks word q s = r.scan breaks' word q s ↔ r.SameBreaks breaks breaks' q s := by
  induction s generalizing word q with
  | nil => exact iff_of_true rfl trivial
  | cons c s ih =>
    have hsome : some (word.getD [] ++ [c]) = none → r.next q c = r.start := fun h => by cases h
    rw [scan, scan, SameBreaks]
    cases h : breaks q c <;> cases h' : breaks' q c
    · simpa using ih hsome
    · refine iff_of_false (fun heq => ?_) fun hsame => (by cases hsame.1)
      exact scan_ne_of_break hword h' heq.symm
    · refine iff_of_false (fun heq => ?_) fun hsame => (by cases hsame.1)
      exact scan_ne_of_break hword h heq
    · rw [if_pos rfl, if_pos rfl, if_pos rfl, List.append_cancel_left_eq, and_iff_right rfl]
      exact ih fun _ => rfl

/-- Two readers collect the same words exactly if they break the text at the same characters. -/
theorem words_eq_iff :
    r.words breaks s = r.words breaks' s ↔ r.SameBreaks breaks breaks' r.start s :=
  scan_eq_iff fun _ => rfl

/-! ## Words that are joined -/

@[simp] theorem final_nil : r.final q [] = q := rfl

@[simp] theorem final_cons : r.final q (c :: s) = r.final (r.next q c) s := rfl

theorem final_append (w s : List α) : r.final q (w ++ s) = r.final (r.final q w) s :=
  List.foldl_append

theorem unbroken_append : r.Unbroken breaks q (w ++ s) ↔
    r.Unbroken breaks q w ∧ r.Unbroken breaks (r.final q w) s := by
  induction w generalizing q with
  | nil => exact (and_iff_right trivial).symm
  | cons c w ih =>
    rw [List.cons_append, Unbroken, Unbroken, ih, and_assoc]
    rfl

theorem scan_append {word : List α} (h : r.Unbroken breaks q w) :
    r.scan breaks (some word) q (w ++ s) =
      r.scan breaks (some (word ++ w)) (r.final q w) s := by
  induction w generalizing word q with
  | nil => rw [List.nil_append, List.append_nil, final_nil]
  | cons c w ih =>
    rw [List.cons_append, scan, if_neg (by rw [h.1]; decide), ih h.2, Option.getD_some,
      List.append_assoc, List.singleton_append, final_cons]

/-- A word is read up to what breaks it. -/
theorem words_append (h : r.IsWord breaks w) :
    r.words breaks (w ++ s) = r.scan breaks (some w) (r.final r.start w) s := by
  obtain ⟨c, w, rfl⟩ := List.exists_cons_of_ne_nil h.ne_nil
  obtain ⟨hc, hw⟩ := h.unbroken
  rw [words, List.cons_append, scan, if_neg (by rw [hc]; decide), scan_append hw]
  rfl

theorem words_of_isWord (h : r.IsWord breaks w) : r.words breaks w = [w] := by
  have happend := words_append (s := []) h
  rw [List.append_nil] at happend
  exact happend

/-- Words that are joined by what breaks them are read again. -/
theorem words_intercalate {ws : List (List α)} (h : ∀ w ∈ ws, r.IsWord breaks w)
    (hbreak : ∀ w ∈ ws, breaks (r.final r.start w) c = true) :
    r.words breaks ([c].intercalate ws) = ws := by
  induction ws with
  | nil => rfl
  | cons w ws ih =>
    obtain ⟨hw, h⟩ := List.forall_mem_cons.mp h
    obtain ⟨hwbreak, hbreak⟩ := List.forall_mem_cons.mp hbreak
    cases ws with
    | nil => exact (congrArg _ (List.intercalate_singleton ..)).trans (words_of_isWord hw)
    | cons w' ws =>
      rw [List.intercalate_cons_cons, List.append_assoc, words_append hw, List.singleton_append,
        scan, if_pos hwbreak, ← words, ih h hbreak]
      rfl

theorem scan_isWord {word : Option (List α)} (hnone : word = none → q = r.start)
    (hsome : ∀ u ∈ word, r.IsWord breaks u ∧ q = r.final r.start u) :
    ∀ w ∈ r.scan breaks word q s, r.IsWord breaks w := by
  induction s generalizing word q with
  | nil => exact fun w hw => (hsome w (Option.mem_toList.mp hw)).1
  | cons c s ih =>
    rw [scan]
    split
    · intro w hw
      rcases List.mem_append.mp hw with hw | hw
      · exact (hsome w (Option.mem_toList.mp hw)).1
      · exact ih (fun _ => rfl) (fun _ hu => by cases hu) w hw
    · rename_i hfree
      have hfree : breaks q c = false := Bool.not_eq_true _ ▸ hfree
      refine ih (fun h => by cases h) fun u hu => ?_
      cases hu
      cases word with
      | none =>
        rw [hnone rfl] at hfree ⊢
        exact ⟨⟨List.cons_ne_nil _ _, hfree, trivial⟩, rfl⟩
      | some u =>
        obtain ⟨hu, hq⟩ := hsome u rfl
        rw [hq] at hfree ⊢
        refine ⟨⟨by simp, unbroken_append.mpr ⟨hu.unbroken, hfree, trivial⟩⟩, ?_⟩
        exact (final_append u [c]).symm

/-- If words are broken only in states of a kind, and there the state is as at their start, all
words of a text end in such a state if the text does. -/
theorem final_of_mem_scan {word : Option (List α)} {P : σ → Prop}
    (hbreaks : ∀ q c, breaks q c = true → P q ∧ r.next q c = r.start)
    (hnone : word = none → q = r.start) (hsome : ∀ u ∈ word, q = r.final r.start u)
    (hfinal : P (r.final q s)) : ∀ w ∈ r.scan breaks word q s, P (r.final r.start w) := by
  induction s generalizing word q with
  | nil => exact fun w hw => hsome w (Option.mem_toList.mp hw) ▸ hfinal
  | cons c s ih =>
    rw [scan]
    split
    · rename_i hbreak
      obtain ⟨hq, hnext⟩ := hbreaks q c hbreak
      rw [final_cons, hnext] at hfinal
      intro w hw
      rcases List.mem_append.mp hw with hw | hw
      · exact hsome w (Option.mem_toList.mp hw) ▸ hq
      · exact ih (fun _ => rfl) (fun _ hu => by cases hu) hfinal w hw
    · refine ih (fun h => by cases h) (fun u hu => ?_) hfinal
      cases hu
      cases word with
      | none => rw [hnone rfl, Option.getD_none, List.nil_append, final_cons, final_nil]
      | some u =>
        rw [hsome u rfl, Option.getD_some, final_append, final_cons, final_nil]

theorem final_of_mem_words {P : σ → Prop}
    (hbreaks : ∀ q c, breaks q c = true → P q ∧ r.next q c = r.start)
    (hfinal : P (r.final r.start s)) (h : w ∈ r.words breaks s) : P (r.final r.start w) :=
  final_of_mem_scan hbreaks (fun _ => rfl) (fun _ hu => by cases hu) hfinal w h

/-- All words of a text are read as one word each. -/
theorem isWord_of_mem_words (h : w ∈ r.words breaks s) : r.IsWord breaks w :=
  scan_isWord (fun _ => rfl) (fun _ hu => by cases hu) w h

end

end Reader
