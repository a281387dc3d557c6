import Mathlib.Data.List.Sort

/-!
# Pages of rows by their keys

Rows are listed from the greatest key down, a page at a time. A page is asked for with the key of
the last row of the page before it, and one row more is fetched than it shows: if there is one,
there is a next page. If no two rows have one key, the pages are the parts of one list, in its order
(`page_next`, `page_last`).
-/

namespace Keyset

section

variable {ρ κ : Type} [LinearOrder κ] (key : ρ → κ)

/-- The rows from the greatest key down. -/
def descending (rows : List ρ) : List ρ := rows.insertionSort fun a b => key b ≤ key a

/-- The rows that come after a cursor. -/
def afterCursor (cursor : Option κ) (rows : List ρ) : List ρ :=
  rows.filter fun row => cursor.all fun last => key row < last

/-- The rows that are shown, and the cursor of the next page. -/
def page (size : ℕ) (cursor : Option κ) (rows : List ρ) : List ρ × Option κ :=
  let fetched := (descending key (afterCursor key cursor rows)).take (size + 1)
  let shown := fetched.take size
  (shown, if size < fetched.length then shown.getLast?.map key else none)

end

section

variable {ρ κ : Type} [LinearOrder κ] {key : ρ → κ} {rows l l' : List ρ} {cursor : Option κ}
  {size : ℕ} {shown : List ρ} {next : κ} {p : ρ → Bool}

theorem descending_perm (rows : List ρ) : (descending key rows).Perm rows :=
  List.perm_insertionSort _ _

theorem descending_pairwise (hkeys : (rows.map key).Nodup) :
    (descending key rows).Pairwise fun a b => key b < key a := by
  have hsorted : (descending key rows).Pairwise fun a b => key b ≤ key a :=
    List.pairwise_insertionSort (r := fun a b => key b ≤ key a) rows
  have hnodup : ((descending key rows).map key).Nodup :=
    (((descending_perm rows).map key).nodup_iff).mpr hkeys
  have hne : (descending key rows).Pairwise fun a b => key a ≠ key b := List.pairwise_map.mp hnodup
  exact hsorted.imp₂ (fun _ _ hle hne => lt_of_le_of_ne hle hne.symm) hne

/-- There is one way to list rows from the greatest key down. -/
theorem eq_of_descending (hl : l.Pairwise fun a b => key b < key a)
    (hl' : l'.Pairwise fun a b => key b < key a) (hperm : l.Perm l') : l = l' :=
  List.Perm.eq_of_pairwise (fun _ _ _ _ h h' => absurd h (lt_asymm h')) hl hl' hperm

theorem descending_filter (hkeys : (rows.map key).Nodup) :
    descending key (rows.filter p) = (descending key rows).filter p := by
  refine eq_of_descending (descending_pairwise ?_) ((descending_pairwise hkeys).filter _) ?_
  · exact hkeys.sublist (List.filter_sublist.map key)
  · exact (descending_perm _).trans ((descending_perm rows).symm.filter p)

/-- After a row of the list come those with lower keys. -/
theorem filter_lt_of_descending {before after : List ρ} {last : ρ}
    (h : (before ++ last :: after).Pairwise fun a b => key b < key a) :
    (before ++ last :: after).filter (fun row => key row < key last) = after := by
  obtain ⟨-, hafter, hbefore⟩ := List.pairwise_append.mp h
  have hnone : before.filter (fun row => key row < key last) = [] :=
    List.filter_eq_nil_iff.mpr fun row hrow hlt =>
      lt_asymm (of_decide_eq_true hlt) (hbefore row hrow last List.mem_cons_self)
  have hall : after.filter (fun row => key row < key last) = after :=
    List.filter_eq_self.mpr fun row hrow =>
      decide_eq_true ((List.pairwise_cons.mp hafter).1 row hrow)
  rw [List.filter_append, hnone, List.nil_append,
    List.filter_cons_of_neg (by simp), hall]

theorem page_shown : (page key size cursor rows).1 =
    (descending key (afterCursor key cursor rows)).take size := by
  unfold page
  dsimp only
  rw [List.take_take, min_eq_left (Nat.le_succ size)]

/-- A page without a next one shows all that is left. -/
theorem page_last (hsize : 0 < size) (h : (page key size cursor rows).2 = none) :
    (page key size cursor rows).1 = descending key (afterCursor key cursor rows) := by
  rw [page_shown]
  refine List.take_of_length_le ?_
  by_contra hmore
  unfold page at h
  dsimp only at h
  rw [List.length_take, if_pos (by omega), Option.map_eq_none_iff, List.getLast?_eq_none_iff,
    List.take_take, min_eq_left (Nat.le_succ size)] at h
  have hlength := congrArg List.length h
  rw [List.length_take, List.length_nil] at hlength
  omega

/-- A page with a next one is full, and what is left after it is what comes after its last row. -/
theorem page_next (hkeys : (rows.map key).Nodup)
    (h : (page key size cursor rows).2 = some next) :
    (page key size cursor rows).1.length = size ∧
      (page key size cursor rows).1.getLast?.map key = some next ∧
      (page key size cursor rows).1 ++ descending key (afterCursor key (some next) rows) =
        descending key (afterCursor key cursor rows) := by
  have hlast : (page key size cursor rows).1.getLast?.map key = some next := by
    unfold page at h ⊢
    dsimp only at h ⊢
    split_ifs at h
    exact h
  have hlength : size < (descending key (afterCursor key cursor rows)).length := by
    unfold page at h
    dsimp only at h
    split_ifs at h with hmore
    rw [List.length_take] at hmore
    omega
  refine ⟨by rw [page_shown, List.length_take, min_eq_left hlength.le], hlast, ?_⟩
  obtain ⟨last, hshown, rfl⟩ := Option.map_eq_some_iff.mp hlast
  obtain ⟨before, hbefore⟩ := List.getLast?_eq_some_iff.mp hshown
  have hlist : descending key (afterCursor key cursor rows) =
      before ++ last :: (descending key (afterCursor key cursor rows)).drop size := by
    conv_lhs => rw [← List.take_append_drop size (descending key (afterCursor key cursor rows)),
      ← page_shown, hbefore, List.append_assoc, List.singleton_append]
  have hpairwise : (descending key (afterCursor key cursor rows)).Pairwise
      fun a b => key b < key a :=
    descending_pairwise (hkeys.sublist (List.filter_sublist.map key))
  have hafter := filter_lt_of_descending (hlist ▸ hpairwise)
  rw [← hlist] at hafter
  have hcursor : cursor.all (fun c => key last < c) = true := by
    have hmem : last ∈ descending key (afterCursor key cursor rows) := by
      rw [hlist]
      exact List.mem_append_right _ List.mem_cons_self
    exact (List.mem_filter.mp ((descending_perm _).mem_iff.mp hmem)).2
  have hnarrow : descending key (afterCursor key (some (key last)) rows) =
      (descending key (afterCursor key cursor rows)).filter fun row => key row < key last := by
    unfold afterCursor
    rw [descending_filter hkeys, descending_filter hkeys, List.filter_filter]
    refine List.filter_congr fun row _ => ?_
    rw [Option.all_some]
    cases cursor with
    | none => simp
    | some c =>
      have hc : key last < c := of_decide_eq_true hcursor
      by_cases hlt : key row < key last
      · simp [hlt, hlt.trans hc]
      · simp [hlt]
  rw [hnarrow, hafter, page_shown, List.take_append_drop]

end

end Keyset
