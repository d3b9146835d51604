import RunnerManager.Lib.Result
import Mathlib.Data.List.Nodup
import Mathlib.Data.List.Sort
import Mathlib.Data.Option.Basic

/-!
# Tables with a primary key

A table is a list of rows no two of which share a key. Read `find?_put` and `find?_erase`
first: they say what a write changes, and `mem_iff_find?` turns facts about the listed rows
into facts about lookups.
-/

namespace RunnerManager

/-- Rows with a primary key. -/
structure Table {κ ρ : Type} (key : ρ → κ) where
  rows : List ρ
  nodup : (rows.map key).Nodup

namespace Table

variable {κ ρ : Type} {key : ρ → κ}

theorem ext {a b : Table key} (h : a.rows = b.rows) : a = b := by
  cases a
  cases b
  simp_all

instance [DecidableEq ρ] : DecidableEq (Table key) := fun a b ↦
  decidable_of_iff (a.rows = b.rows) ⟨ext, fun h ↦ by rw [h]⟩

/-- The table without rows. -/
def empty : Table key where
  rows := []
  nodup := List.nodup_nil

theorem eq_of_key (table : Table key) {a b : ρ} (ha : a ∈ table.rows) (hb : b ∈ table.rows)
    (hkey : key a = key b) : a = b :=
  List.inj_on_of_nodup_map table.nodup ha hb hkey

variable [DecidableEq κ]

def find? (table : Table key) (k : κ) : Option ρ :=
  table.rows.find? fun row ↦ key row = k

/-- Drop the row of a key. -/
def erase (table : Table key) (k : κ) : Table key where
  rows := table.rows.filter fun row ↦ key row ≠ k
  nodup := table.nodup.sublist (List.filter_sublist.map key)

/-- Insert a row, replacing the row of its key. -/
def put (table : Table key) (row : ρ) : Table key where
  rows := row :: (table.erase (key row)).rows
  nodup := by
    rw [List.map_cons, List.nodup_cons]
    refine ⟨fun hmem ↦ ?_, (table.erase (key row)).nodup⟩
    obtain ⟨other, hother, hkey⟩ := List.mem_map.mp hmem
    simp [erase, hkey] at hother

variable {table : Table key} {row : ρ} {k : κ}

theorem find?_eq_some_iff : table.find? k = some row ↔ row ∈ table.rows ∧ key row = k := by
  constructor
  · intro h
    exact ⟨List.mem_of_find?_eq_some h, by simpa using List.find?_some h⟩
  · rintro ⟨hmem, hkey⟩
    cases hfind : table.find? k with
    | none =>
      have hnone := List.find?_eq_none.mp hfind row hmem
      simp [hkey] at hnone
    | some other =>
      have hother := List.mem_of_find?_eq_some hfind
      have hkey' : key other = k := by simpa using List.find?_some hfind
      rw [table.eq_of_key hother hmem (hkey'.trans hkey.symm)]

theorem mem_iff_find? : row ∈ table.rows ↔ table.find? (key row) = some row := by
  simp [find?_eq_some_iff]

theorem key_of_find? (h : table.find? k = some row) : key row = k :=
  (find?_eq_some_iff.mp h).2

theorem find?_eq_none_iff : table.find? k = none ↔ ∀ row ∈ table.rows, key row ≠ k := by
  simp [find?]

@[simp]
theorem find?_empty : (empty : Table key).find? k = none :=
  rfl

@[simp]
theorem mem_erase : row ∈ (table.erase k).rows ↔ row ∈ table.rows ∧ key row ≠ k := by
  simp [erase]

@[simp]
theorem mem_put {other : ρ} : other ∈ (table.put row).rows ↔
    other = row ∨ other ∈ table.rows ∧ key other ≠ key row := by
  simp [put]

theorem find?_erase (k other : κ) :
    (table.erase k).find? other = if other = k then none else table.find? other := by
  split_ifs with h
  · subst h
    rw [find?_eq_none_iff]
    intro row hrow
    exact (mem_erase.mp hrow).2
  · cases hfind : table.find? other with
    | none =>
      rw [find?_eq_none_iff] at hfind ⊢
      exact fun row hrow ↦ hfind row (mem_erase.mp hrow).1
    | some row =>
      rw [find?_eq_some_iff] at hfind ⊢
      exact ⟨mem_erase.mpr ⟨hfind.1, by rw [hfind.2]; exact h⟩, hfind.2⟩

theorem length_erase (h : row ∈ table.rows) :
    (table.erase (key row)).rows.length = table.rows.length - 1 := by
  have hkeys : (table.erase (key row)).rows.map key = (table.rows.map key).erase (key row) := by
    rw [table.nodup.erase_eq_filter, List.filter_map]
    exact congrArg (List.map key) (List.filter_congr fun other _ ↦ Bool.eq_iff_iff.mpr (by simp))
  rw [← List.length_map key, hkeys, List.length_erase_of_mem (List.mem_map_of_mem h),
    List.length_map]

theorem find?_put (row : ρ) (k : κ) :
    (table.put row).find? k = if k = key row then some row else table.find? k := by
  split_ifs with h
  · rw [find?_eq_some_iff]
    exact ⟨mem_put.mpr (.inl rfl), h.symm⟩
  · have hkey : ¬ key row = k := fun heq ↦ h heq.symm
    rw [← (table.find?_erase (key row) k).trans (if_neg h)]
    simp [find?, put, hkey]

def orderBy (table : Table key) (le : ρ → ρ → Prop) [DecidableRel le] : List ρ :=
  table.rows.insertionSort le

omit [DecidableEq κ] in
@[simp]
theorem mem_orderBy {le : ρ → ρ → Prop} [DecidableRel le] :
    row ∈ table.orderBy le ↔ row ∈ table.rows :=
  List.mem_insertionSort le

/-! ### A table that implements a function of its keys -/

/-- The table holds a row related to the value of every key that has one, and no other
row. -/
def Holds {v : Type} (R : ρ → v → Prop) (table : Table key) (f : κ → Option v) : Prop :=
  ∀ k, Option.Rel R (table.find? k) (f k)

namespace Holds

variable {v : Type} {R : ρ → v → Prop} {f : κ → Option v} {value : v}

theorem empty : Holds R (Table.empty : Table key) fun _ ↦ none :=
  fun _ ↦ .none

theorem put (h : Holds R table f) (hrow : R row value) :
    Holds R (table.put row) (Function.update f (key row) (some value)) := by
  intro k
  rw [find?_put]
  by_cases hk : k = key row
  · subst hk
    rw [if_pos rfl, Function.update_self]
    exact .some hrow
  · rw [if_neg hk, Function.update_of_ne hk]
    exact h k

theorem erase (h : Holds R table f) (k : κ) :
    Holds R (table.erase k) (Function.update f k none) := by
  intro other
  rw [find?_erase]
  by_cases hk : other = k
  · subst hk
    rw [if_pos rfl, Function.update_self]
    exact .none
  · rw [if_neg hk, Function.update_of_ne hk]
    exact h other

theorem value_of_mem (h : Holds R table f) (hrow : row ∈ table.rows) :
    ∃ value, f (key row) = some value ∧ R row value := by
  have hrel := h (key row)
  rw [mem_iff_find?.mp hrow] at hrel
  cases hvalue : f (key row) with
  | none =>
    rw [hvalue] at hrel
    cases hrel
  | some value =>
    rw [hvalue] at hrel
    cases hrel with
    | some hrel => exact ⟨value, rfl, hrel⟩

theorem row_of_value (h : Holds R table f) (hvalue : f k = some value) :
    ∃ row, table.find? k = some row ∧ R row value := by
  have hrel := h k
  rw [hvalue] at hrel
  cases hfind : table.find? k with
  | none =>
    rw [hfind] at hrel
    cases hrel
  | some row =>
    rw [hfind] at hrel
    cases hrel with
    | some hrel => exact ⟨row, rfl, hrel⟩

theorem read_orderBy (h : Holds R table f) {ε : Type} {read : ρ → Except ε v} {keyOf : v → κ}
    {le : ρ → ρ → Prop} [DecidableRel le]
    (hread : ∀ row ∈ table.rows, ∀ value, f (key row) = some value → R row value →
      read row = .ok value ∧ keyOf value = key row) :
    ∃ values, (table.orderBy le).mapM read = .ok values ∧ (values.map keyOf).Nodup ∧
      ∀ value, value ∈ values ↔ f (keyOf value) = some value := by
  have hrows : ∀ row ∈ table.rows, ∃ value, f (key row) = some value ∧ read row = .ok value ∧
      keyOf value = key row := by
    intro row hrow
    obtain ⟨value, hvalue, hrel⟩ := h.value_of_mem hrow
    exact ⟨value, hvalue, hread row hrow value hvalue hrel⟩
  obtain ⟨values, hvalues⟩ : ∃ values, (table.orderBy le).mapM read = .ok values := by
    refine Result.mapM_ok_of_forall fun row hrow ↦ ?_
    obtain ⟨value, -, hvalue, -⟩ := hrows row (mem_orderBy.mp hrow)
    exact ⟨value, hvalue⟩
  have hkeys : values.map keyOf = (table.orderBy le).map key := by
    refine Result.keys_of_mapM hvalues fun row hrow value hvalue ↦ ?_
    obtain ⟨other, -, hother, hkey⟩ := hrows row (mem_orderBy.mp hrow)
    rw [hvalue, Except.ok.injEq] at hother
    exact hother ▸ hkey
  refine ⟨values, hvalues, ?_, fun value ↦ ?_⟩
  · rw [hkeys]
    exact ((List.perm_insertionSort le table.rows).map key).nodup_iff.mpr table.nodup
  · constructor
    · intro hvalue
      obtain ⟨row, hrow, hrowRead⟩ := Result.exists_row_of_mapM hvalues hvalue
      obtain ⟨other, hother, hotherRead, hkey⟩ := hrows row (mem_orderBy.mp hrow)
      rw [hrowRead, Except.ok.injEq] at hotherRead
      subst hotherRead
      rwa [hkey]
    · intro hvalue
      obtain ⟨row, hfind, hrel⟩ := h.row_of_value hvalue
      obtain ⟨hrow, hkey⟩ := find?_eq_some_iff.mp hfind
      have hrowRead := (hread row hrow value (hkey ▸ hvalue) hrel).1
      obtain ⟨other, hmem, hother⟩ :=
        Result.exists_value_of_mapM hvalues (mem_orderBy.mpr hrow)
      rw [hrowRead, Except.ok.injEq] at hother
      exact hother ▸ hmem

end Holds

end Table

end RunnerManager
