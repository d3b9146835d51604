import Mathlib.Init

/-!
# Loops over endless input

A loop that takes one input a turn from an endless supply, and either goes on from a new state or
ends. `reached` is where the loop stands after a number of turns, and `ended` what it ended with in
a turn. Read `invariant` and `ends_of_grows` first: what holds at every turn, and why there is a
last one.
-/

namespace RunnerManager.Loop

variable {σ α ρ : Type} {turn : σ → α → σ ⊕ ρ} {start s t : σ} {inputs : Nat → α} {n m : Nat}

/-- The state before a turn, if the loop gets there. -/
def reached (turn : σ → α → σ ⊕ ρ) (start : σ) (inputs : Nat → α) : Nat → Option σ
  | 0 => some start
  | n + 1 => (reached turn start inputs n).bind fun s ↦ (turn s (inputs n)).getLeft?

def ended (turn : σ → α → σ ⊕ ρ) (start : σ) (inputs : Nat → α) (n : Nat) : Option ρ :=
  (reached turn start inputs n).bind fun s ↦ (turn s (inputs n)).getRight?

theorem reached_succ : reached turn start inputs (n + 1) = some t ↔
    ∃ s, reached turn start inputs n = some s ∧ turn s (inputs n) = .inl t := by
  simp [reached, Option.bind_eq_some_iff, Sum.getLeft?_eq_some_iff]

theorem reached_of_le (hle : n ≤ m) (h : reached turn start inputs m = some t) :
    ∃ s, reached turn start inputs n = some s := by
  induction hle generalizing t with
  | refl => exact ⟨t, h⟩
  | step _ ih =>
    rw [reached_succ] at h
    obtain ⟨s, hs, -⟩ := h
    exact ih hs

theorem not_reached_of_le (hle : n ≤ m) (h : reached turn start inputs n = none) :
    reached turn start inputs m = none := by
  cases hm : reached turn start inputs m with
  | none => rfl
  | some t =>
    obtain ⟨s, hs⟩ := reached_of_le hle hm
    rw [hs] at h
    cases h

theorem ended_of_not_reached (h : reached turn start inputs n = none) :
    ∃ m < n, ∃ result, ended turn start inputs m = some result := by
  induction n with
  | zero => cases h
  | succ n ih =>
    cases hn : reached turn start inputs n with
    | none =>
      obtain ⟨m, hm, hresult⟩ := ih hn
      exact ⟨m, Nat.lt_succ_of_lt hm, hresult⟩
    | some s =>
      cases hturn : turn s (inputs n) with
      | inl t =>
        have hnext : reached turn start inputs (n + 1) = some t := by
          rw [reached_succ]
          exact ⟨s, hn, hturn⟩
        rw [hnext] at h
        cases h
      | inr result =>
        refine ⟨n, Nat.lt_succ_self n, result, ?_⟩
        rw [ended, hn, Option.bind_some, hturn]
        rfl

/-- What every turn keeps holds wherever the loop gets. -/
theorem invariant {I : Nat → σ → Prop} (hstart : I 0 start)
    (hkeeps : ∀ n s t, I n s → turn s (inputs n) = .inl t → I (n + 1) t)
    (h : reached turn start inputs n = some s) : I n s := by
  induction n generalizing s with
  | zero =>
    obtain rfl := Option.some.inj h
    exact hstart
  | succ n ih =>
    rw [reached_succ] at h
    obtain ⟨r, hr, hturn⟩ := h
    exact hkeeps n r s (ih hr) hturn

theorem ends_of_grows (size : σ → Nat) {bound : Nat}
    (hgrows : ∀ n s t, reached turn start inputs n = some s → turn s (inputs n) = .inl t →
      size s < size t ∧ size t ≤ bound) :
    reached turn start inputs (bound + 2) = none := by
  have hsize : ∀ n s, reached turn start inputs n = some s → n ≤ size s := by
    intro n
    induction n with
    | zero => exact fun s _ ↦ Nat.zero_le _
    | succ n ih =>
      intro t ht
      rw [reached_succ] at ht
      obtain ⟨s, hs, hturn⟩ := ht
      exact Nat.lt_of_le_of_lt (ih s hs) (hgrows n s t hs hturn).1
  cases h : reached turn start inputs (bound + 2) with
  | none => rfl
  | some t =>
    have hlarge := hsize (bound + 2) t h
    rw [reached_succ] at h
    obtain ⟨s, hs, hturn⟩ := h
    have hbounded := (hgrows (bound + 1) s t hs hturn).2
    omega

end RunnerManager.Loop
