import Mathlib.Data.List.Nodup

/-!
# Rows with a primary key

A table is a list of rows whose keys are distinct. A row is the one that its key finds
(`find?_key`), an update that leaves the keys alone is a map, and an event written for each row that
a condition selects is found again under the key of its row (`filterMap_selected`).
-/

namespace Rows

section

variable {ρ κ : Type} {key : ρ → κ} {rows : List ρ} {r s : ρ}

theorem eq_of_key (hnodup : (rows.map key).Nodup) (hr : r ∈ rows) (hs : s ∈ rows)
    (h : key r = key s) : r = s :=
  List.inj_on_of_nodup_map hnodup hr hs h

theorem find?_key [DecidableEq κ] (hnodup : (rows.map key).Nodup) (hr : r ∈ rows) :
    rows.find? (fun s => key s = key r) = some r := by
  cases h : rows.find? (fun s => key s = key r) with
  | none => exact absurd (List.find?_eq_none.mp h r hr) (by simp)
  | some s =>
    have hs : key s = key r := by simpa using List.find?_some h
    rw [eq_of_key hnodup (List.mem_of_find?_eq_some h) hr hs]

theorem find?_key_and [DecidableEq κ] {p : ρ → Bool} (hnodup : (rows.map key).Nodup) (hr : r ∈ rows)
    (hp : p r = true) : rows.find? (fun s => key s = key r && p s) = some r := by
  cases h : rows.find? (fun s => key s = key r && p s) with
  | none => exact absurd (List.find?_eq_none.mp h r hr) (by simp [hp])
  | some s =>
    have hs := List.find?_some h
    simp only [Bool.and_eq_true, decide_eq_true_eq] at hs
    rw [eq_of_key hnodup (List.mem_of_find?_eq_some h) hr hs.1]

theorem find?_key_eq_some_iff [DecidableEq κ] (hnodup : (rows.map key).Nodup) {k : κ} :
    rows.find? (fun s => key s = k) = some r ↔ r ∈ rows ∧ key r = k := by
  constructor
  · intro h
    exact ⟨List.mem_of_find?_eq_some h, by simpa using List.find?_some h⟩
  · rintro ⟨hr, rfl⟩
    exact find?_key hnodup hr

/-- An update of the rows that leaves their keys alone. -/
theorem map_key {f : ρ → ρ} (hkey : ∀ r ∈ rows, key (f r) = key r) :
    (rows.map f).map key = rows.map key := by
  rw [List.map_map]
  exact List.map_congr_left hkey

theorem find?_map_key [DecidableEq κ] {f : ρ → ρ} (hkey : ∀ r, key (f r) = key r) (k : κ) :
    (rows.map f).find? (fun s => key s = k) = (rows.find? fun s => key s = k).map f := by
  rw [List.find?_map]
  simp only [Function.comp_def, hkey]

/-- A row after an update is the update of the row with its key. -/
theorem eq_update_of_key {f : ρ → ρ} (hnodup : (rows.map key).Nodup)
    (hkey : ∀ r ∈ rows, key (f r) = key r) (hr : r ∈ rows) (hs : s ∈ rows.map f)
    (h : key s = key r) : s = f r := by
  obtain ⟨t, ht, rfl⟩ := List.mem_map.mp hs
  rw [hkey t ht] at h
  rw [eq_of_key hnodup ht hr h]

/-- Of what is written for each selected row, only one thing is about the row with a given key. -/
theorem filterMap_selected {ε : Type} [DecidableEq κ] (hnodup : (rows.map key).Nodup)
    (hr : r ∈ rows) (p : ρ → Bool) (entry : ρ → Option ε) :
    (rows.filter p).filterMap (fun s => if key s = key r then entry s else none) =
      if p r then (entry r).toList else [] := by
  induction rows with
  | nil => cases hr
  | cons t rows ih =>
    rw [List.map_cons, List.nodup_cons] at hnodup
    obtain ⟨hnotin, hnodup⟩ := hnodup
    have hnone (h : key t = key r) :
        (rows.filter p).filterMap (fun s => if key s = key r then entry s else none) = [] := by
      refine List.filterMap_eq_nil_iff.mpr fun s hs => if_neg fun hkey => hnotin ?_
      rw [h, ← hkey]
      exact List.mem_map_of_mem (List.mem_of_mem_filter hs)
    rcases List.mem_cons.mp hr with rfl | hr
    · by_cases hp : p r
      · rw [List.filter_cons_of_pos hp, if_pos hp, List.filterMap_cons, if_pos rfl, hnone rfl]
        cases entry r <;> rfl
      · rw [List.filter_cons_of_neg hp, if_neg hp, hnone rfl]
    · have hne : key t ≠ key r := fun h => hnotin (h ▸ List.mem_map_of_mem hr)
      rw [← ih hnodup hr, List.filter_cons]
      split
      · rw [List.filterMap_cons, if_neg hne]
      · rfl

theorem filterMap_selected_of_not_mem {ε : Type} [DecidableEq κ] {k : κ}
    (hk : ∀ r ∈ rows, key r ≠ k) (p : ρ → Bool) (entry : ρ → Option ε) :
    (rows.filter p).filterMap (fun s => if key s = k then entry s else none) = [] :=
  List.filterMap_eq_nil_iff.mpr fun s hs => if_neg (hk s (List.mem_of_mem_filter hs))

/-- What holds between any two rows goes on holding when one row is replaced, if it holds between
the new one and the others. -/
theorem pairwise_replace [DecidableEq κ] {R : ρ → ρ → Prop} {k : κ} {new : ρ}
    (hnodup : (rows.map key).Nodup) (h : rows.Pairwise R)
    (hnew : ∀ s ∈ rows, key s ≠ k → R new s ∧ R s new) :
    (rows.map fun s => if key s = k then new else s).Pairwise R := by
  rw [List.pairwise_map]
  refine (List.Pairwise.and h (List.pairwise_map.mp hnodup)).imp_of_mem ?_
  rintro a b ha hb ⟨hab, hne⟩
  by_cases hka : key a = k
  · have hkb : key b ≠ k := fun hkb => hne (hka.trans hkb.symm)
    rw [if_pos hka, if_neg hkb]
    exact (hnew b hb hkb).1
  · rw [if_neg hka]
    by_cases hkb : key b = k
    · rw [if_pos hkb]
      exact (hnew a ha hka).2
    · rw [if_neg hkb]
      exact hab

/-! ## The first row in an order -/

/-- `ORDER BY … LIMIT 1`, where `before` is the order. -/
def first? (before : ρ → ρ → Bool) (rows : List ρ) : Option ρ :=
  rows.find? fun r => rows.all (before r)

variable {before : ρ → ρ → Bool}

theorem first?_eq_some (h : first? before rows = some r) :
    r ∈ rows ∧ ∀ s ∈ rows, before r s = true := by
  unfold first? at h
  have hall : rows.all (before r) = true := by simpa using List.find?_some h
  exact ⟨List.mem_of_find?_eq_some h, List.all_eq_true.mp hall⟩

/-- The first of what is computed from rows is computed from the first row. -/
theorem first?_map {σ : Type} (f : σ → ρ) (rows : List σ) :
    first? before (rows.map f) = (first? (fun a b => before (f a) (f b)) rows).map f := by
  unfold first?
  rw [List.find?_map]
  congr 2
  funext r
  simp [Function.comp_def, List.all_map]

theorem exists_first (htotal : ∀ r s, before r s = true ∨ before s r = true)
    (htrans : ∀ r s t, before r s = true → before s t = true → before r t = true) (r : ρ)
    (rows : List ρ) : ∃ s ∈ r :: rows, ∀ t ∈ r :: rows, before s t = true := by
  induction rows generalizing r with
  | nil =>
    refine ⟨r, List.mem_cons_self, fun t ht => ?_⟩
    rw [List.mem_singleton.mp ht]
    exact (htotal r r).elim id id
  | cons r' rows ih =>
    obtain ⟨s, hs, hbefore⟩ := ih r'
    rcases htotal r s with h | h
    · refine ⟨r, List.mem_cons_self, fun t ht => ?_⟩
      rcases List.mem_cons.mp ht with rfl | ht
      · exact (htotal t t).elim id id
      · exact htrans r s t h (hbefore t ht)
    · refine ⟨s, List.mem_cons_of_mem _ hs, fun t ht => ?_⟩
      rcases List.mem_cons.mp ht with rfl | ht
      · exact h
      · exact hbefore t ht

/-- In a total order there is a first row unless there is none. -/
theorem first?_eq_none_iff (htotal : ∀ r s, before r s = true ∨ before s r = true)
    (htrans : ∀ r s t, before r s = true → before s t = true → before r t = true) :
    first? before rows = none ↔ rows = [] := by
  constructor
  · intro h
    cases rows with
    | nil => rfl
    | cons r rows =>
      obtain ⟨s, hs, hbefore⟩ := exists_first htotal htrans r rows
      exact absurd (List.all_eq_true.mpr hbefore) (List.find?_eq_none.mp h s hs)
  · rintro rfl
    rfl

end

end Rows
