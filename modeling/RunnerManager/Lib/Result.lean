import Mathlib.Data.List.Forall2

/-!
# Results

When a computation that may refuse is accepted. Read `bind_eq_ok` first: an accepted sequence
was accepted at every step, so a proof takes such a computation apart with `obtain` and never
unfolds it.
-/

namespace RunnerManager.Result

variable {α β ε ε' : Type}

/-- An accepted sequence was accepted at both steps. -/
theorem bind_eq_ok {x : Except ε α} {f : α → Except ε β} {result : β} :
    (x >>= f) = .ok result ↔ ∃ value, x = .ok value ∧ f value = .ok result := by
  cases x <;> simp [bind, Except.bind]

theorem bind_eq_error {x : Except ε α} {f : α → Except ε β} {error : ε} :
    (x >>= f) = .error error ↔
      x = .error error ∨ ∃ value, x = .ok value ∧ f value = .error error := by
  cases x <;> simp [bind, Except.bind]

theorem map_eq_ok {x : Except ε α} {f : α → β} {result : β} :
    x.map f = .ok result ↔ ∃ value, x = .ok value ∧ f value = result := by
  cases x <;> simp [Except.map]

@[simp]
theorem mapError_eq_ok {x : Except ε α} {f : ε → ε'} {result : α} :
    x.mapError f = .ok result ↔ x = .ok result := by
  cases x <;> simp [Except.mapError]

@[simp]
theorem pure_eq_ok {value result : α} :
    (pure value : Except ε α) = .ok result ↔ value = result := by
  simp [pure, Except.pure]

theorem ite_error_eq_ok {c : Prop} [Decidable c] {error : ε} {x : Except ε α} {result : α} :
    (if c then .error error else x) = .ok result ↔ ¬ c ∧ x = .ok result := by
  split_ifs with h <;> simp [h]

theorem forM_eq_ok {check : α → Except ε Unit} {list : List α} :
    list.forM check = .ok () ↔ ∀ x ∈ list, check x = .ok () := by
  induction list with
  | nil => exact iff_of_true rfl (by simp)
  | cons x list ih =>
    show (check x >>= fun _ ↦ list.forM check) = .ok () ↔ _
    rw [bind_eq_ok, List.forall_mem_cons, ← ih]
    exact ⟨fun ⟨_, hhead, htail⟩ ↦ ⟨hhead, htail⟩, fun ⟨hhead, htail⟩ ↦ ⟨(), hhead, htail⟩⟩

theorem mapM_eq_ok {read : α → Except ε β} {rows : List α} {values : List β} :
    rows.mapM read = .ok values ↔
      List.Forall₂ (fun row value ↦ read row = .ok value) rows values := by
  induction rows generalizing values with
  | nil => simp [pure, Except.pure, eq_comm]
  | cons row rows ih =>
    rw [List.mapM_cons]
    cases hrow : read row with
    | error e =>
      constructor
      · intro h
        cases h
      · intro h
        cases h with
        | cons hhead htail =>
          rw [hrow] at hhead
          cases hhead
    | ok value =>
      cases hrows : rows.mapM read with
      | error e =>
        constructor
        · intro h
          cases h
        · intro h
          cases h with
          | cons hhead htail =>
            rw [ih.mpr htail] at hrows
            cases hrows
      | ok tail =>
        constructor
        · intro h
          cases h
          exact .cons hrow (ih.mp hrows)
        · intro h
          cases h with
          | cons hhead htail =>
            rw [ih.mpr htail] at hrows
            rw [hrow] at hhead
            cases hrows
            cases hhead
            rfl

theorem exists_row_of_mapM {read : α → Except ε β} {rows : List α} {values : List β} {value : β}
    (h : rows.mapM read = .ok values) (hvalue : value ∈ values) :
    ∃ row ∈ rows, read row = .ok value := by
  rw [mapM_eq_ok] at h
  induction h with
  | nil => cases hvalue
  | @cons row head rows values hrow hrows ih =>
    rcases List.mem_cons.mp hvalue with rfl | hvalue
    · exact ⟨row, List.mem_cons_self, hrow⟩
    · obtain ⟨other, hother, hread⟩ := ih hvalue
      exact ⟨other, List.mem_cons_of_mem _ hother, hread⟩

theorem exists_value_of_mapM {read : α → Except ε β} {rows : List α} {values : List β} {row : α}
    (h : rows.mapM read = .ok values) (hrow : row ∈ rows) :
    ∃ value ∈ values, read row = .ok value := by
  rw [mapM_eq_ok] at h
  induction h with
  | nil => cases hrow
  | @cons head value rows values hhead hrows ih =>
    rcases List.mem_cons.mp hrow with rfl | hrow
    · exact ⟨value, List.mem_cons_self, hhead⟩
    · obtain ⟨other, hother, hread⟩ := ih hrow
      exact ⟨other, List.mem_cons_of_mem _ hother, hread⟩

theorem mapM_ok_of_forall {read : α → Except ε β} {rows : List α}
    (h : ∀ row ∈ rows, ∃ value, read row = .ok value) : ∃ values, rows.mapM read = .ok values := by
  induction rows with
  | nil => exact ⟨[], rfl⟩
  | cons row rows ih =>
    obtain ⟨value, hvalue⟩ := h row List.mem_cons_self
    obtain ⟨values, hvalues⟩ := ih fun other hother ↦ h other (List.mem_cons_of_mem _ hother)
    refine ⟨value :: values, ?_⟩
    rw [mapM_eq_ok] at hvalues ⊢
    exact .cons hvalue hvalues

theorem keys_of_mapM {κ : Type} {read : α → Except ε β} {key : α → κ} {keyOf : β → κ}
    {rows : List α} {values : List β} (h : rows.mapM read = .ok values)
    (hkey : ∀ row ∈ rows, ∀ value, read row = .ok value → keyOf value = key row) :
    values.map keyOf = rows.map key := by
  rw [mapM_eq_ok] at h
  induction h with
  | nil => rfl
  | @cons row value rows values hrow hrows ih =>
    rw [List.map_cons, List.map_cons, hkey row List.mem_cons_self value hrow,
      ih fun other hother ↦ hkey other (List.mem_cons_of_mem _ hother)]

theorem countP_of_mapM {read : α → Except ε β} {rows : List α} {values : List β}
    {selects : α → Bool} {counts : β → Bool} (h : rows.mapM read = .ok values)
    (hsame : ∀ row value, read row = .ok value → counts value = selects row) :
    values.countP counts = rows.countP selects := by
  rw [mapM_eq_ok] at h
  induction h with
  | nil => rfl
  | @cons row value rows values hrow hrows ih =>
    rw [List.countP_cons, List.countP_cons, hsame row value hrow, ih]

theorem toOption_mapM (read : α → Except ε β) (rows : List α) :
    (rows.mapM read).toOption = rows.mapM fun row ↦ (read row).toOption := by
  induction rows with
  | nil => rfl
  | cons row rows ih =>
    rw [List.mapM_cons, List.mapM_cons, ← ih]
    cases read row with
    | error _ => rfl
    | ok value => cases rows.mapM read <;> rfl

end RunnerManager.Result
