import Mathlib.Logic.Basic

/-!
# Three truth values

What a comparison of columns that may be null comes to: true, false, or null. Conjunction is false
as soon as one side is, and otherwise null if one side is.
-/

namespace Ternary

variable {α : Type} {a b : Option Bool}

/-- `column = value`, of a value that is not null. -/
def eq [DecidableEq α] (column : Option α) (value : α) : Option Bool :=
  column.map fun x => decide (x = value)

/-- `a AND b`. -/
def and : Option Bool → Option Bool → Option Bool
  | some false, _ => some false
  | _, some false => some false
  | some true, some true => some true
  | _, _ => none

@[simp] theorem eq_none [DecidableEq α] (value : α) : eq none value = none := rfl

@[simp] theorem eq_some [DecidableEq α] (x value : α) :
    eq (some x) value = some (decide (x = value)) := rfl

@[simp] theorem and_some (a b : Bool) : and (some a) (some b) = some (a && b) := by
  cases a <;> cases b <;> rfl

/-- A conjunction is null where one side is, unless the other is false. -/
theorem and_eq_none_iff : and a b = none ↔
    (a = none ∧ b ≠ some false) ∨ (b = none ∧ a ≠ some false) := by
  rcases a with - | - | - <;> rcases b with - | - | - <;> simp [and]

end Ternary
