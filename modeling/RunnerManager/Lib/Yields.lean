import Mathlib.Logic.Basic

/-!
# Computations that meet no fault

`Yields x P` says that a computation that may fail does not, and that its value is as stated. Read
`Yields.bind` first: a sequence is taken apart at its steps. `Refines` compares two computations
where the second has more to spend: whatever the first returns, the second does.
-/

namespace RunnerManager

variable {α β ε : Type}

/-- The computation returns a value as stated. -/
def Yields (x : Except ε α) (P : α → Prop) : Prop :=
  ∃ value, x = .ok value ∧ P value

namespace Yields

variable {x : Except ε α} {f : α → Except ε β} {P R : α → Prop} {Q : β → Prop}

theorem of_pure {value : α} (h : P value) : Yields (pure value : Except ε α) P :=
  ⟨value, rfl, h⟩

theorem of_eq {value : α} (hx : x = .ok value) (h : P value) : Yields x P :=
  ⟨value, hx, h⟩

theorem mono (h : Yields x P) (hmono : ∀ value, P value → R value) : Yields x R := by
  obtain ⟨value, hx, hvalue⟩ := h
  exact ⟨value, hx, hmono value hvalue⟩

theorem bind (h : Yields x P) (hnext : ∀ value, P value → Yields (f value) Q) :
    Yields (x >>= f) Q := by
  obtain ⟨value, rfl, hvalue⟩ := h
  exact hnext value hvalue

end Yields

/-- What the first computation returns, the second returns. -/
def Refines (x y : Except ε α) : Prop :=
  ∀ value, x = .ok value → y = .ok value

namespace Refines

variable {x y : Except ε α} {f g : α → Except ε β}

theorem refl (x : Except ε α) : Refines x x :=
  fun _ h ↦ h

theorem of_error {e : ε} (y : Except ε α) : Refines (.error e) y :=
  fun _ h ↦ nomatch h

theorem bind (h : Refines x y) (hnext : ∀ value, Refines (f value) (g value)) :
    Refines (x >>= f) (y >>= g) := by
  intro value hvalue
  cases x with
  | error e => cases hvalue
  | ok first =>
    rw [h first rfl]
    exact hnext first value hvalue

theorem eq_of_yields {P : α → Prop} (h : Refines x y) (hx : Yields x P) : y = x := by
  obtain ⟨value, rfl, -⟩ := hx
  exact h value rfl

end Refines

end RunnerManager
