import Mathlib.Logic.Relation
import Mathlib.Order.Basic

/-!
# Runs of a transition system

A system is a labelled step relation `step s a t`; a run is a sequence of steps with their labels.
What every step keeps, every run keeps: a property of states (`Run.invariant`), or a relation
between the states at the two ends (`Run.related`). `Where ok step` is the system that takes only
the steps that meet a condition, so that a run of it is a run all of whose steps meet it.
-/

namespace Transition

section

variable {σ α : Type} {step step' : σ → α → σ → Prop} {s t u : σ} {as bs : List α} {a : α}

/-- The labels of a run, first to last, between its two ends. -/
inductive Run (step : σ → α → σ → Prop) : σ → List α → σ → Prop
  | nil (s : σ) : Run step s [] s
  | snoc {s t u : σ} {as : List α} {a : α} (run : Run step s as t) (last : step t a u) :
      Run step s (as ++ [a]) u

/-- The steps that meet a condition on the state before and the label. -/
def Where (ok : σ → α → Prop) (step : σ → α → σ → Prop) (s : σ) (a : α) (t : σ) : Prop :=
  ok s a ∧ step s a t

/-- The state is reached by some run. -/
def Reachable (step : σ → α → σ → Prop) (s t : σ) : Prop := ∃ as, Run step s as t

theorem Run.single (h : step s a t) : Run step s [a] t := Run.snoc (Run.nil s) h

theorem Run.append (h₁ : Run step s as t) (h₂ : Run step t bs u) : Run step s (as ++ bs) u := by
  induction h₂ with
  | nil => rwa [List.append_nil]
  | snoc _ last ih => rw [← List.append_assoc]; exact Run.snoc ih last

theorem Run.mono (hstep : ∀ s a t, step s a t → step' s a t) (h : Run step s as t) :
    Run step' s as t := by
  induction h with
  | nil => exact Run.nil _
  | snoc _ last ih => exact Run.snoc ih (hstep _ _ _ last)

/-- A run whose labels meet a condition in every state is one of the steps that meet it. -/
theorem Run.restrict {ok : σ → α → Prop} (hok : ∀ a ∈ as, ∀ s, ok s a) (h : Run step s as t) :
    Run (Where ok step) s as t := by
  induction h with
  | nil => exact Run.nil _
  | snoc _ last ih =>
    exact Run.snoc (ih fun b hb => hok b (List.mem_append_left _ hb))
      ⟨hok _ (List.mem_append_right _ (List.mem_singleton_self _)) _, last⟩

/-- A run goes through a state between any two parts of it. -/
theorem Run.split (h : Run step s (as ++ bs) u) : ∃ t, Run step s as t ∧ Run step t bs u := by
  generalize hcs : as ++ bs = cs at h
  induction h generalizing bs with
  | nil =>
    obtain ⟨rfl, rfl⟩ := List.append_eq_nil_iff.mp hcs
    exact ⟨s, Run.nil s, Run.nil s⟩
  | @snoc t u cs a run last ih =>
    rcases List.eq_nil_or_concat bs with rfl | ⟨bs', b, rfl⟩
    · rw [List.append_nil] at hcs
      subst hcs
      exact ⟨u, Run.snoc run last, Run.nil u⟩
    · rw [List.concat_eq_append, ← List.append_assoc] at hcs
      obtain ⟨hinit, hlast⟩ := List.append_inj' hcs rfl
      cases hlast
      obtain ⟨m, hm, hrest⟩ := ih hinit
      refine ⟨m, hm, ?_⟩
      rw [List.concat_eq_append]
      exact Run.snoc hrest last

theorem Run.of_single (h : Run step s [a] t) : step s a t := by
  generalize hl : [a] = l at h
  cases h with
  | nil => cases hl
  | @snoc m t as b run last =>
    have hl' : ([] : List α) ++ [a] = as ++ [b] := hl
    obtain ⟨has, hb⟩ := List.append_inj' hl' rfl
    cases hb
    subst has
    generalize hn : ([] : List α) = l at run
    cases run with
    | nil => exact last
    | snoc => exact absurd hn.symm (List.append_ne_nil_of_right_ne_nil _ (List.cons_ne_nil _ _))

theorem Run.head (h : Run step s (a :: as) t) : ∃ m, step s a m ∧ Run step m as t := by
  have h' : Run step s ([a] ++ as) t := h
  obtain ⟨m, hm, h⟩ := h'.split
  exact ⟨m, hm.of_single, h⟩

theorem Reachable.refl (s : σ) : Reachable step s s := ⟨[], Run.nil s⟩

theorem Reachable.run (h₁ : Reachable step s t) (h₂ : Run step t as u) : Reachable step s u :=
  let ⟨bs, h⟩ := h₁
  ⟨bs ++ as, h.append h₂⟩

/-! ## What runs keep -/

/-- A property that every step keeps holds at the end of a run. -/
theorem Run.invariant {I : σ → Prop} (hstep : ∀ s a t, I s → step s a t → I t)
    (h : Run step s as t) (hs : I s) : I t := by
  induction h with
  | nil => exact hs
  | snoc _ last ih => exact hstep _ _ _ ih last

theorem Reachable.invariant {I : σ → Prop} (hstep : ∀ s a t, I s → step s a t → I t)
    (h : Reachable step s t) (hs : I s) : I t :=
  let ⟨_, hr⟩ := h
  hr.invariant hstep hs

/-- A reflexive and transitive relation that holds across every step holds across a run. -/
theorem Run.related {I : σ → Prop} {R : σ → σ → Prop} (hI : ∀ s a t, I s → step s a t → I t)
    (hrefl : ∀ s, R s s) (htrans : ∀ s t u, R s t → R t u → R s u)
    (hstep : ∀ s a t, I s → step s a t → R s t) (h : Run step s as t) (hs : I s) : R s t := by
  induction h with
  | nil => exact hrefl _
  | snoc run last ih =>
    exact htrans _ _ _ ih (hstep _ _ _ (run.invariant hI hs) last)

end

/-! ## Systems that compute -/

section

variable {σ α : Type} {step : σ → α → Option σ} {s t : σ} {as : List α}

/-- The steps of a function. -/
def Steps (step : σ → α → Option σ) (s : σ) (a : α) (t : σ) : Prop := step s a = some t

/-- The state a list of labels leads to, where each can be taken. -/
def run? (step : σ → α → Option σ) : σ → List α → Option σ
  | state, [] => some state
  | state, a :: as => (step state a).bind fun next => run? step next as

theorem run?_eq_some (h : run? step s as = some t) : Run (Steps step) s as t := by
  induction as generalizing s with
  | nil => cases h; exact Run.nil _
  | cons a as ih =>
    obtain ⟨m, hm, h⟩ := Option.bind_eq_some_iff.mp h
    exact (Run.single hm : Run (Steps step) s [a] m).append (ih h)

/-- The steps of a function that meet a condition. -/
def stepWhere (ok : σ → α → Prop) [∀ s a, Decidable (ok s a)] (step : σ → α → Option σ) (s : σ)
    (a : α) : Option σ := if ok s a then step s a else none

theorem run_where {ok : σ → α → Prop} [∀ s a, Decidable (ok s a)]
    (h : run? (stepWhere ok step) s as = some t) : Run (Where ok (Steps step)) s as t := by
  refine (run?_eq_some h).mono fun s a t hstep => ?_
  unfold Steps stepWhere at hstep
  split_ifs at hstep with hok
  exact ⟨hok, hstep⟩

end

end Transition
