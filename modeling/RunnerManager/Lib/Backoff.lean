import Mathlib.Algebra.Order.Field.Basic
import Mathlib.Algebra.Order.Ring.Pow
import Mathlib.Order.Lattice

/-!
# Back-offs

A wait that doubles, is held by a cap, and is widened by a random share of itself. Nothing here
is about a clock: a wait is an element of an ordered semiring, or of an ordered field where a
share of it is taken.
-/

namespace RunnerManager.Backoff

section Doubling

variable {α : Type*} [CommSemiring α] [LinearOrder α]

/-- A wait doubled a number of times and held by a cap. -/
def doubled (base cap : α) (doublings : Nat) : α :=
  min (base * 2 ^ doublings) cap

theorem doubled_le_cap (base cap : α) (n : Nat) : doubled base cap n ≤ cap :=
  min_le_right _ _

variable [IsStrictOrderedRing α]

theorem le_mul_two_pow {base : α} (h : 0 ≤ base) (n : Nat) : base ≤ base * 2 ^ n :=
  le_mul_of_one_le_right h (one_le_pow₀ one_le_two)

theorem doubled_mono {base : α} (h : 0 ≤ base) (cap : α) {m n : Nat} (hmn : m ≤ n) :
    doubled base cap m ≤ doubled base cap n := by
  have hpow : (2 : α) ^ m ≤ 2 ^ n := pow_le_pow_right₀ one_le_two hmn
  exact min_le_min_right cap (mul_le_mul_of_nonneg_left hpow h)

theorem doubled_min {base cap : α} {enough : Nat} (h : cap ≤ base * 2 ^ enough) (hbase : 0 ≤ base)
    (n : Nat) : doubled base cap (min n enough) = doubled base cap n := by
  rcases Nat.le_total n enough with hle | hle
  · rw [Nat.min_eq_left hle]
  · have hgrown := doubled_mono hbase cap hle
    have hheld : doubled base cap enough = cap := min_eq_right h
    rw [Nat.min_eq_right hle]
    exact le_antisymm hgrown ((doubled_le_cap base cap n).trans_eq hheld.symm)

theorem cast_doubled (base cap n : Nat) :
    ((doubled base cap n : Nat) : α) = doubled (base : α) cap n := by
  simp [doubled]

end Doubling

section Jitter

variable {α : Type*} [Field α] [LinearOrder α]

/-- A fraction, held between zero and one. -/
def clampUnit (fraction : α) : α :=
  min (max fraction 0) 1

/-- A wait widened by a share of itself. -/
def jittered (ratio fraction wait : α) : α :=
  wait + wait * (ratio * clampUnit fraction)

theorem jittered_eq_mul (ratio fraction wait : α) :
    jittered ratio fraction wait = wait * (1 + ratio * clampUnit fraction) := by
  rw [jittered, mul_add, mul_one]

variable [IsStrictOrderedRing α]

theorem clampUnit_nonneg (fraction : α) : 0 ≤ clampUnit fraction :=
  le_min (le_max_right _ _) zero_le_one

@[simp]
theorem clampUnit_zero : clampUnit (0 : α) = 0 := by
  simp [clampUnit]

@[simp]
theorem jittered_zero (ratio wait : α) : jittered ratio 0 wait = wait := by
  simp [jittered]

theorem le_jittered {ratio wait : α} (hratio : 0 ≤ ratio) (hwait : 0 ≤ wait) (fraction : α) :
    wait ≤ jittered ratio fraction wait :=
  le_add_of_nonneg_right (mul_nonneg hwait (mul_nonneg hratio (clampUnit_nonneg fraction)))

theorem jittered_le_jittered {ratio a b : α} (hratio : 0 ≤ ratio) (fraction : α) (h : a ≤ b) :
    jittered ratio fraction a ≤ jittered ratio fraction b := by
  have hshare : 0 ≤ 1 + ratio * clampUnit fraction :=
    add_nonneg zero_le_one (mul_nonneg hratio (clampUnit_nonneg fraction))
  rw [jittered_eq_mul, jittered_eq_mul]
  exact mul_le_mul_of_nonneg_right h hshare

theorem le_jittered_doubled_iff {ratio base cap : α} (hratio : 0 ≤ ratio) (hbase : 0 ≤ base)
    (fraction : α) (n : Nat) :
    base ≤ jittered ratio fraction (doubled base cap n) ↔ base ≤ jittered ratio fraction cap := by
  constructor
  · intro h
    exact h.trans (jittered_le_jittered hratio fraction (doubled_le_cap base cap n))
  · intro h
    rcases le_total (base * 2 ^ n) cap with hroom | hcap
    · have hgrown : doubled base cap n = base * 2 ^ n := min_eq_left hroom
      have hlong : base ≤ doubled base cap n := hgrown ▸ le_mul_two_pow hbase n
      exact hlong.trans (le_jittered hratio (hbase.trans hlong) fraction)
    · have hheld : doubled base cap n = cap := min_eq_right hcap
      rwa [hheld]

end Jitter

end RunnerManager.Backoff
