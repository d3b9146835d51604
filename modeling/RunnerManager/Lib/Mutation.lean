import Mathlib.Logic.Basic

/-!
# In-place operations

A method that mutates its receiver and may refuse is a computation in `EStateM`: its error
still carries the receiver as the method left it. The rules below evaluate such a computation
at a receiver. Read `AppliedOrRefused` first: it is the shape every well-behaved method has.
-/

namespace RunnerManager.Mutation

variable {ε σ α β : Type} {receiver : σ}

@[simp]
theorem bind_apply (x : EStateM ε σ α) (f : α → EStateM ε σ β) :
    (x >>= f) receiver =
      match x receiver with
      | .ok value next => f value next
      | .error error next => .error error next := by
  rfl

@[simp]
theorem pure_apply (value : α) : (pure value : EStateM ε σ α) receiver = .ok value receiver :=
  rfl

@[simp]
theorem map_apply (f : α → β) (x : EStateM ε σ α) :
    (f <$> x) receiver =
      match x receiver with
      | .ok value next => .ok (f value) next
      | .error error next => .error error next := by
  rfl

@[simp]
theorem get_apply : (get : EStateM ε σ σ) receiver = .ok receiver receiver :=
  rfl

@[simp]
theorem set_apply (next : σ) : (set next : EStateM ε σ PUnit) receiver = .ok ⟨⟩ next :=
  rfl

@[simp]
theorem modify_apply (f : σ → σ) :
    (modify f : EStateM ε σ PUnit) receiver = .ok ⟨⟩ (f receiver) :=
  rfl

@[simp]
theorem throw_apply (error : ε) :
    (throw error : EStateM ε σ α) receiver = .error error receiver :=
  rfl

/-- The method changes its receiver by `effect` where `permits` holds, and elsewhere refuses
and leaves it alone. -/
def AppliedOrRefused (method : EStateM ε σ Unit) (permits : Prop) (receiver next : σ) : Prop :=
  permits ∧ method receiver = .ok () next ∨
    ¬ permits ∧ ∃ error, method receiver = .error error receiver

/-- The receiver after a call, whatever the call answered. -/
def exec (method : EStateM ε σ Unit) (receiver : σ) : σ :=
  match method receiver with
  | .ok _ next => next
  | .error _ next => next

/-- The answer of a call, with the new receiver when it was accepted. -/
def answer (method : EStateM ε σ Unit) (receiver : σ) : Except ε σ :=
  match method receiver with
  | .ok _ next => .ok next
  | .error error _ => .error error

section AppliedOrRefused

variable {method : EStateM ε σ Unit} {permits : Prop} {next : σ}

theorem AppliedOrRefused.of_iff {other : Prop} (h : AppliedOrRefused method other receiver next)
    (hiff : permits ↔ other) : AppliedOrRefused method permits receiver next := by
  rwa [AppliedOrRefused, hiff]

theorem AppliedOrRefused.exec_eq (h : AppliedOrRefused method permits receiver next) :
    permits ∧ exec method receiver = next ∨ ¬ permits ∧ exec method receiver = receiver := by
  obtain ⟨hpermits, hcall⟩ | ⟨hrefused, error, hcall⟩ := h
  · exact .inl ⟨hpermits, by rw [exec, hcall]⟩
  · exact .inr ⟨hrefused, by rw [exec, hcall]⟩

theorem AppliedOrRefused.answer_ok_iff (h : AppliedOrRefused method permits receiver next)
    {result : σ} : answer method receiver = .ok result ↔ permits ∧ result = next := by
  obtain ⟨hpermits, hcall⟩ | ⟨hrefused, error, hcall⟩ := h
  · simp [answer, hcall, hpermits, eq_comm]
  · simp [answer, hcall, hrefused]

theorem AppliedOrRefused.refused (h : AppliedOrRefused method permits receiver next)
    {error : ε} {result : σ} (hcall : method receiver = .error error result) :
    result = receiver := by
  obtain ⟨-, hok⟩ | ⟨-, other, herror⟩ := h
  · rw [hok] at hcall
    cases hcall
  · rw [herror] at hcall
    cases hcall
    rfl

end AppliedOrRefused

end RunnerManager.Mutation
