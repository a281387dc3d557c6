import Mathlib.Order.Lattice

/-!
# The newest of several versions

Versions come in any order, some of them more than once, and one that is older than the version held
is dropped. In the end the newest is held: the first version if all others are older
(`foldl_keep_of_older`), and else the newest of the others (`foldl_keep_of_newest`).
-/

namespace Newest

section

variable {α τ : Type} [LinearOrder τ] {time : α → τ} {held version : α} {versions : List α}

/-- What is held after another version came. -/
def keep (time : α → τ) (held next : α) : α := if time next < time held then held else next

theorem foldl_keep_of_older (h : ∀ v ∈ versions, time v < time held) :
    versions.foldl (keep time) held = held := by
  induction versions with
  | nil => rfl
  | cons v versions ih =>
    have hkeep : keep time held v = held := if_pos (h v List.mem_cons_self)
    rw [List.foldl_cons, hkeep]
    exact ih fun w hw => h w (List.mem_cons_of_mem _ hw)

theorem foldl_keep_of_newest (hmem : version ∈ versions)
    (hnewest : ∀ v ∈ versions, time v ≤ time version) (hheld : time held ≤ time version)
    (hone : ∀ v ∈ versions, time v = time version → v = version) :
    versions.foldl (keep time) held = version := by
  induction versions generalizing held with
  | nil => cases hmem
  | cons v versions ih =>
    rw [List.foldl_cons]
    by_cases hrest : version ∈ versions
    · refine ih hrest (fun w hw => hnewest w (List.mem_cons_of_mem _ hw)) ?_
        fun w hw => hone w (List.mem_cons_of_mem _ hw)
      unfold keep
      split
      · exact hheld
      · exact hnewest v List.mem_cons_self
    · obtain rfl : version = v := (List.mem_cons.mp hmem).resolve_right hrest
      have hkeep : keep time held version = version := if_neg (not_lt.mpr hheld)
      rw [hkeep]
      refine foldl_keep_of_older fun w hw =>
        lt_of_le_of_ne (hnewest w (List.mem_cons_of_mem _ hw)) ?_
      intro htime
      exact hrest (hone w (List.mem_cons_of_mem _ hw) htime ▸ hw)

end

end Newest
