import Mathlib.Data.BitVec
import Mathlib.Order.Lattice

/-!
# Saturating machine integers

Fixed-width unsigned integers whose operations stop at the ends of their range. Each operation has
one lemma that says what it computes on the numbers, so that a proof about a machine computation
becomes one about `Nat`, `min` and `max`.
-/

namespace RunnerManager.Saturating

variable {w v : Nat}

def maxValue (w : Nat) : Nat := 2 ^ w - 1

/-- Addition that stops at the largest value. -/
def add (a b : BitVec w) : BitVec w :=
  if a.toNat + b.toNat < 2 ^ w then a + b else BitVec.allOnes w

/-- Subtraction that stops at zero. -/
def sub (a b : BitVec w) : BitVec w :=
  if b.toNat ≤ a.toNat then a - b else 0

/-- Multiplication that stops at the largest value. -/
def mul (a b : BitVec w) : BitVec w :=
  if a.toNat * b.toNat < 2 ^ w then a * b else BitVec.allOnes w

/-- The smaller of two values. -/
def least (a b : BitVec w) : BitVec w :=
  if a.toNat ≤ b.toNat then a else b

/-- A value within a range; an inverted range has no answer. -/
def clamp (a low high : BitVec w) : Option (BitVec w) :=
  if high.toNat < low.toNat then none
  else if a.toNat < low.toNat then some low
  else if high.toNat < a.toNat then some high
  else some a

/-- A count that stops at the largest value. -/
def count {α : Type} (p : α → Bool) (items : List α) : BitVec w :=
  (items.filter p).foldl (fun total _ ↦ add total 1) 0

theorem le_maxValue (a : BitVec w) : a.toNat ≤ maxValue w := by
  have h := a.isLt
  unfold maxValue
  omega

@[simp]
theorem add_toNat (a b : BitVec w) : (add a b).toNat = min (a.toNat + b.toNat) (maxValue w) := by
  unfold add maxValue
  have hpos : 0 < 2 ^ w := Nat.two_pow_pos w
  split_ifs with h
  · rw [BitVec.toNat_add, Nat.mod_eq_of_lt h]
    omega
  · rw [BitVec.toNat_allOnes]
    omega

@[simp]
theorem add_zero (a : BitVec w) : add a 0 = a := by
  have h := le_maxValue a
  refine BitVec.eq_of_toNat_eq ?_
  rw [add_toNat]
  simpa using h

@[simp]
theorem mul_toNat (a b : BitVec w) : (mul a b).toNat = min (a.toNat * b.toNat) (maxValue w) := by
  unfold mul maxValue
  have hpos : 0 < 2 ^ w := Nat.two_pow_pos w
  split_ifs with h
  · rw [BitVec.toNat_mul, Nat.mod_eq_of_lt h]
    omega
  · rw [BitVec.toNat_allOnes]
    omega

@[simp]
theorem sub_toNat (a b : BitVec w) : (sub a b).toNat = a.toNat - b.toNat := by
  unfold sub
  split_ifs with h
  · rw [BitVec.toNat_sub_of_le (BitVec.le_def.mpr h)]
  · show (0 : BitVec w).toNat = _
    rw [BitVec.ofNat_eq_ofNat, BitVec.toNat_ofNat, Nat.zero_mod]
    omega

@[simp]
theorem least_toNat (a b : BitVec w) : (least a b).toNat = min a.toNat b.toNat := by
  unfold least
  split_ifs with h
  · exact (Nat.min_eq_left h).symm
  · exact (Nat.min_eq_right (Nat.le_of_not_le h)).symm

theorem clamp_of_le {a low high : BitVec w} (h : low.toNat ≤ high.toNat) :
    ∃ value, clamp a low high = some value ∧
      value.toNat = max low.toNat (min a.toNat high.toNat) := by
  unfold clamp
  rw [if_neg (Nat.not_lt.mpr h)]
  split_ifs with hlow hhigh
  · exact ⟨low, rfl, by omega⟩
  · exact ⟨high, rfl, by omega⟩
  · exact ⟨a, rfl, by omega⟩

/-- Counting stops at the largest value and nowhere else. -/
theorem count_toNat {α : Type} (hw : 0 < w) (p : α → Bool) (items : List α) :
    (count p items : BitVec w).toNat = min (items.countP p) (maxValue w) := by
  have hone : (1 : BitVec w).toNat = 1 := by
    rw [BitVec.ofNat_eq_ofNat, BitVec.toNat_ofNat, Nat.mod_eq_of_lt (Nat.one_lt_two_pow hw.ne')]
  have hfold : ∀ (counted : List α) (total : BitVec w),
      (counted.foldl (fun total _ ↦ add total 1) total).toNat =
        min (total.toNat + counted.length) (maxValue w) := by
    intro counted
    induction counted with
    | nil =>
      intro total
      have h := le_maxValue total
      simp only [List.foldl_nil, List.length_nil]
      omega
    | cons item counted ih =>
      intro total
      rw [List.foldl_cons, ih, add_toNat, hone, List.length_cons]
      omega
  unfold count
  rw [hfold, List.countP_eq_length_filter]
  simp

theorem sum_toNat {α : Type} (value : α → BitVec w) (items : List α) (total : BitVec w) :
    (items.foldl (fun total item ↦ add total (value item)) total).toNat =
      min (total.toNat + (items.map fun item ↦ (value item).toNat).sum) (maxValue w) := by
  induction items generalizing total with
  | nil => simpa using le_maxValue total
  | cons item items ih =>
    rw [List.foldl_cons, ih, add_toNat, List.map_cons, List.sum_cons]
    omega

theorem min_sum_min {α : Type} (value : α → Nat) (items : List α) (bound : Nat) :
    min (items.map fun item ↦ min (value item) bound).sum bound =
      min (items.map value).sum bound := by
  induction items with
  | nil => rfl
  | cons item items ih =>
    rw [List.map_cons, List.map_cons, List.sum_cons, List.sum_cons]
    omega

theorem setWidth_toNat {a : BitVec w} (h : a.toNat ≤ maxValue v) :
    (a.setWidth v).toNat = a.toNat := by
  have hpos : 0 < 2 ^ v := Nat.two_pow_pos v
  rw [BitVec.toNat_setWidth]
  refine Nat.mod_eq_of_lt ?_
  unfold maxValue at h
  omega

theorem ofNat_toNat {n : Nat} (h : n ≤ maxValue w) : (BitVec.ofNat w n).toNat = n := by
  have hpos : 0 < 2 ^ w := Nat.two_pow_pos w
  rw [BitVec.toNat_ofNat]
  refine Nat.mod_eq_of_lt ?_
  unfold maxValue at h
  omega

end RunnerManager.Saturating
