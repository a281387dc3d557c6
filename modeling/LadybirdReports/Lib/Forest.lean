import Mathlib.Data.Nat.Notation
import Mathlib.Logic.Relation

/-!
# Forests given by parents

Everything has at most one parent, given by `parent : α → Option α`, and `RootOf parent a r` says
that following the parents from `a` ends at `r`. Where that ends from everywhere there is no cycle
(`IsForest.not_above_self`), and a root may be hung under anything that is not below it
(`IsForest.attach`). `descendants` collects what is below by following children, and finds all of it
in as many rounds as there are candidates (`mem_descendants`). `rootWithin` follows the parents for
a number of steps.
-/

namespace Forest

section

variable {α : Type} {parent parent' : α → Option α} {a b c r s x : α}

/-- Following the parents from `a` ends at `r`. -/
inductive RootOf (parent : α → Option α) : α → α → Prop
  | here {a : α} (h : parent a = none) : RootOf parent a a
  | up {a b r : α} (h : parent a = some b) (rest : RootOf parent b r) : RootOf parent a r

/-- Following the parents ends from everywhere. -/
def IsForest (parent : α → Option α) : Prop := ∀ a, ∃ r, RootOf parent a r

/-- `b` is a parent of `a`, a parent of a parent, or further above. -/
def Above (parent : α → Option α) : α → α → Prop :=
  Relation.TransGen fun a b => parent a = some b

theorem RootOf.parent_eq_none (h : RootOf parent a r) : parent r = none := by
  induction h with
  | here h => exact h
  | up _ _ ih => exact ih

theorem RootOf.unique (h : RootOf parent a r) (h' : RootOf parent a s) : r = s := by
  induction h with
  | here hn =>
    cases h' with
    | here => rfl
    | up hp => rw [hn] at hp; cases hp
  | up hp _ ih =>
    cases h' with
    | here hn => rw [hn] at hp; cases hp
    | up hp' rest => rw [hp] at hp'; cases hp'; exact ih rest

theorem RootOf.of_none (hn : parent a = none) (h : RootOf parent a r) : r = a :=
  h.unique (.here hn)

/-- Two that have a common root have the same root in a forest that agrees above them. -/
theorem RootOf.congr (h : RootOf parent a r)
    (heq : ∀ b, b = a ∨ Above parent a b → parent' b = parent b) : RootOf parent' a r := by
  induction h with
  | here hn => exact .here ((heq _ (.inl rfl)).trans hn)
  | up hp _ ih =>
    refine .up ((heq _ (.inl rfl)).trans hp) (ih fun b hb => heq b (.inr ?_))
    rcases hb with rfl | hb
    · exact .single hp
    · exact .head hp hb

/-- What is above something has the same root. -/
theorem Above.rootOf_iff (h : Above parent a b) : RootOf parent a r ↔ RootOf parent b r := by
  have hstep : ∀ {a b : α}, parent a = some b → (RootOf parent a r ↔ RootOf parent b r) := by
    intro a b hp
    refine ⟨fun h => ?_, fun h => .up hp h⟩
    cases h with
    | here hn => rw [hn] at hp; cases hp
    | up hp' rest => rw [hp] at hp'; cases hp'; exact rest
  induction h with
  | single hp => exact hstep hp
  | tail _ hp ih => exact ih.trans (hstep hp)

theorem not_above_of_none (hn : parent a = none) : ¬ Above parent a b := by
  intro h
  obtain ⟨c, hp, -⟩ := Relation.TransGen.head'_iff.mp h
  rw [hn] at hp
  cases hp

/-- A property that passes from a parent to its children, and not to `a`, does not hold of the root
of `a` either. -/
theorem RootOf.not_of_not {P : α → Prop} (hdown : ∀ a b, parent a = some b → P b → P a)
    (h : RootOf parent a r) (ha : ¬ P a) : ¬ P r := by
  induction h with
  | here => exact ha
  | up hp _ ih => exact ih fun hb => ha (hdown _ _ hp hb)

/-- Following the parents never comes back. -/
theorem RootOf.not_above_self (h : RootOf parent a r) : ¬ Above parent a a := by
  induction h with
  | here hn => exact not_above_of_none hn
  | up hp _ ih =>
    intro hcycle
    obtain ⟨c, hp', hrest⟩ := Relation.TransGen.head'_iff.mp hcycle
    rw [hp] at hp'
    cases hp'
    exact ih (Relation.TransGen.tail' hrest hp)

theorem IsForest.not_above_self (h : IsForest parent) (a : α) : ¬ Above parent a a :=
  let ⟨_, hr⟩ := h a
  hr.not_above_self

/-- The root of `a`, if following the parents gets there in a number of steps. -/
def rootWithin (parent : α → Option α) : ℕ → α → Option α
  | 0, a => if (parent a).isNone then some a else none
  | n + 1, a =>
    match parent a with
    | some b => rootWithin parent n b
    | none => some a

theorem rootOf_of_rootWithin {n : ℕ} (h : rootWithin parent n a = some r) : RootOf parent a r := by
  induction n generalizing a with
  | zero =>
    unfold rootWithin at h
    split at h
    · rename_i hn
      cases h
      exact .here (Option.isNone_iff_eq_none.mp hn)
    · cases h
  | succ n ih =>
    unfold rootWithin at h
    split at h
    · rename_i b hp
      exact .up hp (ih h)
    · rename_i hn
      cases h
      exact .here hn

/-! ## Hanging a root under something -/

section

variable (hother : ∀ x, x ≠ a → parent' x = parent x) (hself : parent' a = some b)
include hother hself

theorem RootOf.attach_of_ne (h : RootOf parent x r) (hr : r ≠ a) (ha : parent a = none) :
    RootOf parent' x r := by
  refine h.congr fun y hy => hother y ?_
  rintro rfl
  have hroot : r = y := by
    refine RootOf.of_none ha ?_
    rcases hy with rfl | hy
    · exact h
    · exact hy.rootOf_iff.mp h
  exact hr hroot

theorem RootOf.attach (h : RootOf parent x a) (hb : RootOf parent' b s) :
    RootOf parent' x s := by
  generalize hr : a = r at h
  induction h with
  | here => subst hr; exact .up hself hb
  | @up x y r hp _ ih =>
    by_cases hx : x = a
    · rw [hx]; exact .up hself hb
    · exact .up ((hother x hx).trans hp) (ih hr)

/-- A root that is not the root of `b` may be hung under `b`. -/
theorem IsForest.attach (h : IsForest parent) (ha : parent a = none) (hb : ¬ RootOf parent b a) :
    IsForest parent' := by
  obtain ⟨s, hs⟩ := h b
  have hs' : RootOf parent' b s :=
    hs.attach_of_ne hother hself (fun hsa => hb (hsa ▸ hs)) ha
  intro x
  obtain ⟨r, hr⟩ := h x
  by_cases hra : r = a
  · exact ⟨s, (hra ▸ hr).attach hother hself hs'⟩
  · exact ⟨r, hr.attach_of_ne hother hself hra ha⟩

end

/-! ## What is below -/

/-- What following the children finds in a number of rounds. -/
def descendants (children : α → List α) : ℕ → α → List α
  | 0, _ => []
  | n + 1, a => (children a).flatMap fun c => c :: descendants children n c

variable {children : α → List α}

theorem above_of_mem_descendants (hchildren : ∀ a, ∀ c ∈ children a, parent c = some a) {n : ℕ}
    (h : x ∈ descendants children n a) : Above parent x a := by
  induction n generalizing a with
  | zero => cases h
  | succ n ih =>
    obtain ⟨c, hc, hx⟩ := List.mem_flatMap.mp h
    rcases List.mem_cons.mp hx with rfl | hx
    · exact .single (hchildren a x hc)
    · exact .tail (ih hx) (hchildren a c hc)

/-- With a round for each candidate, everything below is found: a candidate that has been passed is
not met again. -/
theorem mem_descendants [DecidableEq α] (hforest : ∀ a, ¬ Above parent a a)
    (hchildren : ∀ a c, parent c = some a → c ∈ children a) {n : ℕ} (candidates : List α)
    (hbelow : ∀ x, Above parent x a → x ∈ candidates) (hn : candidates.length ≤ n)
    (h : Above parent x a) : x ∈ descendants children n a := by
  induction n generalizing a candidates with
  | zero =>
    have hpos := List.length_pos_of_mem (hbelow x h)
    omega
  | succ n ih =>
    obtain ⟨c, hxc, hc⟩ := Relation.TransGen.tail'_iff.mp h
    refine List.mem_flatMap.mpr ⟨c, hchildren a c hc, List.mem_cons.mpr ?_⟩
    rcases Relation.reflTransGen_iff_eq_or_transGen.mp hxc with rfl | hxc
    · exact .inl rfl
    · refine .inr (ih (candidates.erase c) (fun y hy => ?_) ?_ hxc)
      · have hyc : y ≠ c := fun heq => hforest c (heq ▸ hy)
        exact (List.mem_erase_of_ne hyc).mpr (hbelow y (.tail hy hc))
      · rw [List.length_erase_of_mem (hbelow c (.single hc))]
        omega

end

end Forest
