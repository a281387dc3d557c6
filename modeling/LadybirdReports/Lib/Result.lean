import Mathlib.Data.List.Basic

/-!
# Rust results

`Result` is `Except`: `?` is its bind, and the first error ends the function. A loop that may fail
is a fold, and what every round keeps, a loop that ends keeps (`foldlM_related`).
-/

namespace Rust

section

variable {ε α β : Type}

@[simp] theorem ok_bind (a : α) (f : α → Except ε β) :
    ((.ok a : Except ε α) >>= f) = f a := rfl

theorem bind_eq_ok {c : Except ε α} {f : α → Except ε β} {b : β} :
    (c >>= f) = .ok b ↔ ∃ a, c = .ok a ∧ f a = .ok b := by
  cases c with
  | ok a => exact ⟨fun h => ⟨a, rfl, h⟩, fun ⟨_, ha, h⟩ => by cases ha; exact h⟩
  | error p => exact ⟨fun h => (by cases h), fun ⟨_, ha, _⟩ => (by cases ha)⟩

/-- What follows a computation matters only for what it returns. -/
theorem bind_congr_ok {c : Except ε α} {f g : α → Except ε β}
    (h : ∀ a, c = .ok a → f a = g a) : (c >>= f) = (c >>= g) := by
  cases c with
  | ok a => exact h a rfl
  | error e => rfl

theorem pure_eq_ok {a b : α} : (pure a : Except ε α) = .ok b ↔ a = b :=
  ⟨fun h => by cases h; rfl, fun h => by rw [h]; rfl⟩

theorem map_eq_ok {c : Except ε α} {f : α → β} {b : β} :
    f <$> c = .ok b ↔ ∃ a, c = .ok a ∧ f a = b := by
  cases c with
  | ok a => exact ⟨fun h => ⟨a, rfl, Except.ok.inj h⟩, fun ⟨_, ha, h⟩ => by cases ha; rw [← h]; rfl⟩
  | error p => exact ⟨fun h => (by cases h), fun ⟨_, ha, _⟩ => (by cases ha)⟩

theorem eq_ok_of_isOk {x : Except ε α} (default : α) (h : x.isOk = true) :
    x = .ok (x.toOption.getD default) := by
  cases x with
  | ok a => rfl
  | error e => cases h

/-- `Option::ok_or`. -/
def okOr (value : Option α) (error : ε) : Except ε α :=
  match value with
  | some a => .ok a
  | none => .error error

/-- `if !condition { return Err(error) }`. -/
def ensure (condition : Bool) (error : ε) : Except ε Unit :=
  if condition then .ok () else .error error

theorem okOr_eq_ok {value : Option α} {error : ε} {a : α} :
    okOr value error = .ok a ↔ value = some a := by
  cases value with
  | some b => exact ⟨fun h => by cases h; rfl, fun h => by cases h; rfl⟩
  | none => exact ⟨fun h => (by cases h), fun h => (by cases h)⟩

theorem ensure_eq_ok {condition : Bool} {error : ε} {u : Unit} :
    ensure condition error = .ok u ↔ condition = true := by
  cases condition with
  | true => exact ⟨fun _ => rfl, fun _ => rfl⟩
  | false => exact ⟨fun h => (by cases h), fun h => (by cases h)⟩

end

section

variable {ε α σ : Type} {round : σ → α → Except ε σ}

/-- A reflexive and transitive relation that holds across every round holds across the loop. -/
theorem foldlM_related {I : σ → Prop} {R : σ → σ → Prop} (hrefl : ∀ s, R s s)
    (htrans : ∀ s t u, R s t → R t u → R s u)
    (hround : ∀ s a t, I s → round s a = .ok t → I t ∧ R s t) {s t : σ} {items : List α} (hs : I s)
    (h : items.foldlM round s = .ok t) : I t ∧ R s t := by
  induction items generalizing s with
  | nil =>
    rw [List.foldlM_nil, pure_eq_ok] at h
    exact ⟨h ▸ hs, h ▸ hrefl s⟩
  | cons a items ih =>
    rw [List.foldlM_cons, bind_eq_ok] at h
    obtain ⟨m, hm, h⟩ := h
    obtain ⟨hIm, hsm⟩ := hround s a m hs hm
    obtain ⟨hIt, hmt⟩ := ih hIm h
    exact ⟨hIt, htrans s m t hsm hmt⟩

end

/-- A loop over what never fails collects what it computes. -/
theorem mapM_eq_ok {ε α β : Type} {f : α → Except ε β} {g : α → β} {items : List α}
    (h : ∀ a ∈ items, f a = .ok (g a)) : items.mapM f = .ok (items.map g) := by
  induction items with
  | nil => rfl
  | cons a items ih =>
    rw [List.mapM_cons, h a List.mem_cons_self, ih fun b hb => h b (List.mem_cons_of_mem _ hb)]
    rfl

/-- What a loop over an `Option` collects is, item by item, what it computes. -/
theorem forall₂_of_mapM {α β : Type} {f : α → Option β} {items : List α} {results : List β}
    (h : items.mapM f = some results) :
    List.Forall₂ (fun item result => f item = some result) items results := by
  induction items generalizing results with
  | nil =>
    cases h
    exact .nil
  | cons item items ih =>
    rw [List.mapM_cons] at h
    obtain ⟨result, hresult, h⟩ := Option.bind_eq_some_iff.mp h
    obtain ⟨rest, hrest, h⟩ := Option.bind_eq_some_iff.mp h
    cases h
    exact .cons hresult (ih hrest)

end Rust
