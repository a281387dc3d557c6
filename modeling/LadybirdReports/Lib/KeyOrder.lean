import LadybirdReports.Lib.Rows
import Mathlib.Data.List.Perm.Basic
import Mathlib.Data.List.Sort

/-!
# Rows in an order

The rows with given keys, in the order of the keys (`ofKeys`): for a permutation of all keys they
are all rows (`ofKeys_perm`). Rows that are listed by distinct numbers are sorted by them, whatever
would break a tie (`insertionSort_eq`).
-/

namespace Rows

section

variable {ρ σ κ : Type} [DecidableEq κ] {key : ρ → κ} {key' : σ → κ} {rows : List ρ}
  {keys : List κ} {k : κ}

/-- The rows with the keys, one after another. -/
def ofKeys (key : ρ → κ) (rows : List ρ) (keys : List κ) : List ρ :=
  keys.filterMap fun k => rows.find? fun r => key r = k

theorem find?_isSome_of_mem (h : k ∈ rows.map key) :
    ∃ r, rows.find? (fun r => key r = k) = some r ∧ key r = k := by
  obtain ⟨r, hr, hk⟩ := List.mem_map.mp h
  have hsome : (rows.find? fun r => key r = k).isSome = true :=
    List.find?_isSome.mpr ⟨r, hr, decide_eq_true hk⟩
  obtain ⟨s, hs⟩ := Option.isSome_iff_exists.mp hsome
  exact ⟨s, hs, by simpa using List.find?_some hs⟩

theorem map_ofKeys (h : ∀ k ∈ keys, k ∈ rows.map key) : (ofKeys key rows keys).map key = keys := by
  unfold ofKeys
  induction keys with
  | nil => rfl
  | cons k keys ih =>
    obtain ⟨hk, hkeys⟩ := List.forall_mem_cons.mp h
    obtain ⟨r, hr, hkey⟩ := find?_isSome_of_mem hk
    rw [List.filterMap_cons, hr]
    dsimp only
    rw [List.map_cons, hkey, ih hkeys]

theorem ofKeys_self (hnodup : (rows.map key).Nodup) : ofKeys key rows (rows.map key) = rows := by
  unfold ofKeys
  rw [List.filterMap_map]
  refine (List.filterMap_congr fun r hr => ?_).trans List.filterMap_some
  exact find?_key hnodup hr

theorem ofKeys_perm (hnodup : (rows.map key).Nodup) (h : keys.Perm (rows.map key)) :
    (ofKeys key rows keys).Perm rows := by
  have hperm : (ofKeys key rows keys).Perm (ofKeys key rows (rows.map key)) :=
    List.Perm.filterMap _ h
  rwa [ofKeys_self hnodup] at hperm

theorem ofKeys_map {f : ρ → σ} (hkey : ∀ r, key' (f r) = key r) :
    ofKeys key' (rows.map f) keys = (ofKeys key rows keys).map f := by
  unfold ofKeys
  rw [List.map_filterMap]
  refine List.filterMap_congr fun k _ => ?_
  rw [List.find?_map]
  simp only [Function.comp_def, hkey]

end

/-- Rows that are listed by increasing numbers are the sorted ones. -/
theorem insertionSort_eq {ρ α : Type} [LinearOrder α] {number : ρ → α} {le : ρ → ρ → Prop}
    [DecidableRel le] [Std.Total le] [IsTrans ρ le] {rows listed : List ρ}
    (hle : ∀ a b, le a b → number a ≤ number b) (hperm : listed.Perm rows)
    (hlisted : (listed.map number).Pairwise (· < ·)) : rows.insertionSort le = listed := by
  have hlisted := List.pairwise_map.mp hlisted
  have hsorted : listed.Pairwise le := hlisted.imp fun {a b} hlt =>
    (total_of le a b).resolve_right fun h => absurd (hle b a h) (not_le.mpr hlt)
  have hnodup : (listed.map number).Nodup :=
    List.pairwise_map.mpr (hlisted.imp fun hlt => hlt.ne)
  have hsort := List.perm_insertionSort le rows
  refine List.Perm.eq_of_pairwise (fun a b ha hb hab hba => ?_)
    (List.pairwise_insertionSort le rows)
    hsorted (hsort.trans hperm.symm)
  exact eq_of_key hnodup (hperm.mem_iff.mpr (hsort.mem_iff.mp ha)) hb
    (le_antisymm (hle a b hab) (hle b a hba))

end Rows
