import Mathlib.Algebra.BigOperators.Ring.List
import Mathlib.Algebra.Order.Field.Rat
import Mathlib.Data.List.Forall2
import Mathlib.Tactic.Ring
import RunnerManager.Domain.Model
import RunnerManager.Lib.Saturating

/-!
# The shared request budget

`TargetCost` and `BudgetProjection` of `crates/github/src/rest.rs`. The rate is the whole number of
refreshes in an hour, rounded down before it is multiplied, and two of the sums are plain additions
of machine integers; `budget_sound_iff` says for which targets and intervals that is as good as the
exact arithmetic.
-/

namespace RunnerManager.Github

open RunnerManager.Domain

/-! ## Costs -/

def hourlyRequestCeiling : BitVec 32 := 5000

def budgetShareDivisor : BitVec 32 := 2

def secondsPerHour : BitVec 32 := 3600

def runnerInventoryRequestsPerRefresh : BitVec 32 := 1

def activityRequestsPerRepositoryPerRefresh : BitVec 32 := 1

def demandRequestsPerRepositoryPerRefresh : BitVec 32 := 2

structure TargetCost where
  scope : TargetScope
  installedRepositories : BitVec 32
  demandRequestsPerRepository : BitVec 32
deriving DecidableEq

def refreshesPerHour (interval : RefreshInterval) : BitVec 32 :=
  secondsPerHour / BitVec.ofNat 32 interval.val

def budgetAllowance : BitVec 32 := hourlyRequestCeiling / budgetShareDivisor

namespace TargetCost

def repository : TargetCost := ⟨.repository, 1, demandRequestsPerRepositoryPerRefresh⟩

def organization (installedRepositories : BitVec 32) : TargetCost :=
  ⟨.organization, installedRepositories, demandRequestsPerRepositoryPerRefresh⟩

def withDemandRequestsPerRepository (cost : TargetCost) (requests : BitVec 32) : TargetCost :=
  { cost with demandRequestsPerRepository := requests }

/-- The repositories a refresh walks. -/
def repositories (cost : TargetCost) : BitVec 32 :=
  match cost.scope with
  | .repository => 1
  | .organization => cost.installedRepositories

/-- The requests a refresh spends on one repository. -/
def perRepository (cost : TargetCost) : BitVec 32 :=
  activityRequestsPerRepositoryPerRefresh + cost.demandRequestsPerRepository

def requestsPerRefresh (cost : TargetCost) : BitVec 32 :=
  runnerInventoryRequestsPerRefresh + Saturating.mul cost.repositories cost.perRepository

/-- No step of `requests_per_refresh` leaves the range of its type; the others saturate. -/
structure NoOverflow (cost : TargetCost) : Prop where
  perRepository : BitVec.uaddOverflow activityRequestsPerRepositoryPerRefresh
    cost.demandRequestsPerRepository = false
  total : BitVec.uaddOverflow runnerInventoryRequestsPerRefresh
    (Saturating.mul cost.repositories cost.perRepository) = false

def requestsPerHour (cost : TargetCost) (interval : RefreshInterval) : BitVec 32 :=
  Saturating.mul cost.requestsPerRefresh (refreshesPerHour interval)

end TargetCost

/-! ## Admission -/

structure BudgetProjection where
  interval : RefreshInterval
  targets : List TargetCost

inductive Admission where
  | admitted (projectedRequestsPerHour headroomAfter : BitVec 32)
  | refused (candidate : TargetCost)
      (candidateRequestsPerHour projectedRequestsPerHour allowance ceiling : BitVec 32)
      (interval : RefreshInterval) (maxRepositoryTargets : BitVec 32)
deriving DecidableEq

def Admission.isAdmitted : Admission → Bool
  | admitted .. => true
  | refused .. => false

namespace BudgetProjection

def requestsPerHour (projection : BudgetProjection) : BitVec 32 :=
  projection.targets.foldl
    (fun total target ↦ Saturating.add total (target.requestsPerHour projection.interval)) 0

def maxRepositoryTargets (interval : RefreshInterval) : BitVec 32 :=
  let perTarget := TargetCost.repository.requestsPerHour interval
  if perTarget = 0 then 0 else budgetAllowance / perTarget

/-- `BudgetProjection::admit`. -/
def admitCandidate (projection : BudgetProjection) (candidate : TargetCost) : Admission :=
  let candidatePerHour := candidate.requestsPerHour projection.interval
  let projected := Saturating.add projection.requestsPerHour candidatePerHour
  if budgetAllowance.toNat < projected.toNat then
    .refused candidate candidatePerHour projected budgetAllowance hourlyRequestCeiling
      projection.interval (maxRepositoryTargets projection.interval)
  else .admitted projected (budgetAllowance - projected)

end BudgetProjection

/-! ## Soundness -/

/-- What a sum of exact hourly rates comes to. -/
def exactPerHour (interval : RefreshInterval) (costs : List TargetCost) : ℚ :=
  (costs.map fun cost ↦ (cost.requestsPerRefresh.toNat : ℚ) * 3600 / interval.val).sum

/-- The same target with no more repositories. -/
def TargetCost.Lowers (lower cost : TargetCost) : Prop :=
  lower = { cost with installedRepositories := lower.installedRepositories } ∧
    lower.installedRepositories.toNat ≤ cost.installedRepositories.toNat

/-- The answer to a candidate that joins targets. -/
def admits (interval : RefreshInterval) (targets : List TargetCost) (candidate : TargetCost) :
    Bool :=
  (BudgetProjection.admitCandidate ⟨interval, targets⟩ candidate).isAdmitted

/-- What admission is for: what is admitted fits exactly, less of it is admitted too, the stated
maximum is the number of repositories that are admitted one by one, and no step overflows. -/
structure BudgetSound (interval : RefreshInterval) (targets : List TargetCost)
    (candidate : TargetCost) : Prop where
  fits : admits interval targets candidate →
    exactPerHour interval (candidate :: targets) ≤ (budgetAllowance.toNat : ℚ)
  monotone : ∀ fewer less, List.SublistForall₂ TargetCost.Lowers fewer targets →
    less.Lowers candidate → admits interval targets candidate → admits interval fewer less
  greatest : IsGreatest {n : Nat | ∀ k < n,
    admits interval (List.replicate k TargetCost.repository) TargetCost.repository}
      (BudgetProjection.maxRepositoryTargets interval).toNat
  noOverflow : ∀ cost ∈ candidate :: targets, cost.NoOverflow

def TargetCost.requests (cost : TargetCost) : Nat :=
  1 + cost.repositories.toNat * (1 + cost.demandRequestsPerRepository.toNat)

def requestsOf (costs : List TargetCost) : Nat := (costs.map TargetCost.requests).sum

/-- Every count on the way to the cost of a refresh is within the range of its type. -/
structure TargetCost.InRange (cost : TargetCost) : Prop where
  perRepository : 1 + cost.demandRequestsPerRepository.toNat < 2 ^ 32
  total : cost.requests < 2 ^ 32

/-- The targets and the interval for which the arithmetic is as good as exact: the counts are within
range, the interval is within the hour, and the requests of a refresh are no more than the hour
exactly holds, or more than fit even by the whole refreshes of the hour. -/
structure BudgetExact (interval : RefreshInterval) (costs : List TargetCost) : Prop where
  inRange : ∀ cost ∈ costs, cost.InRange
  withinHour : interval.val ≤ 3600
  noGap : requestsOf costs ≤ 2500 * interval.val / 3600 ∨
    2500 / (3600 / interval.val) < requestsOf costs

namespace TargetCost

theorem perRepository_toNat {cost : TargetCost}
    (h : 1 + cost.demandRequestsPerRepository.toNat < 2 ^ 32) :
    cost.perRepository.toNat = 1 + cost.demandRequestsPerRepository.toNat := by
  rw [perRepository, BitVec.toNat_add]
  exact Nat.mod_eq_of_lt h

theorem noOverflow_iff {cost : TargetCost} : cost.NoOverflow ↔ cost.InRange := by
  have hmost : Saturating.maxValue 32 = 2 ^ 32 - 1 := rfl
  have hfirst : activityRequestsPerRepositoryPerRefresh.toNat = 1 := rfl
  have hsecond : runnerInventoryRequestsPerRefresh.toNat = 1 := rfl
  constructor
  · rintro ⟨hper, htotal⟩
    simp only [BitVec.uaddOverflow, hfirst, hsecond, decide_eq_false_iff_not, not_le,
      Saturating.mul_toNat] at hper htotal
    rw [perRepository_toNat hper] at htotal
    refine ⟨hper, ?_⟩
    unfold requests
    omega
  · rintro ⟨hper, htotal⟩
    unfold requests at htotal
    constructor
    · simpa [BitVec.uaddOverflow, hfirst] using hper
    · simp only [BitVec.uaddOverflow, hsecond, decide_eq_false_iff_not, not_le,
        Saturating.mul_toNat, perRepository_toNat hper]
      omega

theorem InRange.requestsPerRefresh_toNat {cost : TargetCost} (h : cost.InRange) :
    cost.requestsPerRefresh.toNat = cost.requests := by
  have hmost : Saturating.maxValue 32 = 2 ^ 32 - 1 := rfl
  have hsecond : runnerInventoryRequestsPerRefresh.toNat = 1 := rfl
  obtain ⟨hper, htotal⟩ := h
  unfold requests at htotal ⊢
  rw [requestsPerRefresh, BitVec.toNat_add, Saturating.mul_toNat, perRepository_toNat hper, hsecond]
  omega

theorem Lowers.repositories_le {lower cost : TargetCost} (h : lower.Lowers cost) :
    lower.repositories.toNat ≤ cost.repositories.toNat := by
  obtain ⟨hsame, hle⟩ := h
  rw [hsame]
  unfold repositories
  cases cost.scope with
  | repository => exact Nat.le_refl _
  | organization => exact hle

theorem Lowers.requests_le {lower cost : TargetCost} (h : lower.Lowers cost) :
    lower.requests ≤ cost.requests := by
  have hsame : lower.demandRequestsPerRepository = cost.demandRequestsPerRepository := by
    rw [h.1]
  unfold requests
  rw [hsame]
  exact Nat.add_le_add_left (Nat.mul_le_mul_right _ h.repositories_le) 1

theorem Lowers.inRange {lower cost : TargetCost} (h : lower.Lowers cost) (hcost : cost.InRange) :
    lower.InRange where
  perRepository := by
    rw [h.1]
    exact hcost.perRepository
  total := Nat.lt_of_le_of_lt h.requests_le hcost.total

end TargetCost

theorem refreshesPerHour_toNat (interval : RefreshInterval) :
    (refreshesPerHour interval).toNat = 3600 / interval.val := by
  have hwide : interval.val < 2 ^ 32 := Nat.lt_trans interval.property.2 (by decide)
  have hhour : secondsPerHour.toNat = 3600 := rfl
  rw [refreshesPerHour, BitVec.toNat_udiv, hhour, BitVec.toNat_ofNat, Nat.mod_eq_of_lt hwide]

theorem admits_iff (interval : RefreshInterval) (targets : List TargetCost)
    (candidate : TargetCost) : admits interval targets candidate ↔
      ((candidate :: targets).map fun cost ↦ cost.requestsPerRefresh.toNat).sum *
        (3600 / interval.val) ≤ 2500 := by
  have hmost : Saturating.maxValue 32 = 2 ^ 32 - 1 := rfl
  have hallowance : budgetAllowance.toNat = 2500 := rfl
  have hrate (cost : TargetCost) : (cost.requestsPerHour interval).toNat =
      min (cost.requestsPerRefresh.toNat * (3600 / interval.val)) (Saturating.maxValue 32) := by
    rw [TargetCost.requestsPerHour, Saturating.mul_toNat, refreshesPerHour_toNat]
  have htargets : (BudgetProjection.requestsPerHour ⟨interval, targets⟩).toNat =
      min ((targets.map fun cost ↦ cost.requestsPerRefresh.toNat).sum * (3600 / interval.val))
        (Saturating.maxValue 32) := by
    have hsum := Saturating.sum_toNat (fun cost : TargetCost ↦ cost.requestsPerHour interval)
      targets 0
    simp only [hrate] at hsum
    rw [BudgetProjection.requestsPerHour, hsum, ← List.sum_map_mul_right]
    show min (0 + _) _ = _
    rw [Nat.zero_add, Saturating.min_sum_min]
  rw [admits, BudgetProjection.admitCandidate, Saturating.add_toNat, htargets, hrate, hallowance,
    List.map_cons, List.sum_cons, Nat.add_mul]
  split_ifs with hover
  · simp only [Admission.isAdmitted, Bool.false_eq_true, false_iff, not_le]
    omega
  · simp only [Admission.isAdmitted, true_iff]
    omega

theorem exactPerHour_eq (interval : RefreshInterval) {costs : List TargetCost}
    (h : ∀ cost ∈ costs, cost.InRange) :
    exactPerHour interval costs = (requestsOf costs : ℚ) * 3600 / interval.val := by
  unfold exactPerHour requestsOf
  induction costs with
  | nil => simp
  | cons cost costs ih =>
    have hcost := (h cost List.mem_cons_self).requestsPerRefresh_toNat
    rw [List.map_cons, List.sum_cons, List.map_cons, List.sum_cons, hcost,
      ih fun other hother ↦ h other (List.mem_cons_of_mem _ hother)]
    push_cast
    ring

theorem exactPerHour_le_iff (interval : RefreshInterval) {costs : List TargetCost}
    (h : ∀ cost ∈ costs, cost.InRange) :
    exactPerHour interval costs ≤ (budgetAllowance.toNat : ℚ) ↔
      requestsOf costs ≤ 2500 * interval.val / 3600 := by
  have hpos : (0 : ℚ) < interval.val :=
    Nat.cast_pos.mpr (Nat.lt_of_lt_of_le (by decide) interval.property.1)
  have hallowance : budgetAllowance.toNat = 2500 := rfl
  rw [exactPerHour_eq interval h, hallowance, div_le_iff₀ hpos,
    Nat.le_div_iff_mul_le (by decide)]
  exact_mod_cast Iff.rfl

theorem admits_iff_requests {interval : RefreshInterval} {targets : List TargetCost}
    {candidate : TargetCost} (h : ∀ cost ∈ candidate :: targets, cost.InRange) :
    admits interval targets candidate ↔
      requestsOf (candidate :: targets) * (3600 / interval.val) ≤ 2500 := by
  have hsum : (candidate :: targets).map (fun cost ↦ cost.requestsPerRefresh.toNat) =
      (candidate :: targets).map TargetCost.requests :=
    List.map_congr_left fun cost hcost ↦ (h cost hcost).requestsPerRefresh_toNat
  rw [admits_iff, hsum, requestsOf]

theorem requestsOf_le {fewer targets : List TargetCost}
    (h : List.SublistForall₂ TargetCost.Lowers fewer targets) :
    requestsOf fewer ≤ requestsOf targets := by
  unfold requestsOf
  induction h with
  | nil => exact Nat.zero_le _
  | cons hlower _ ih =>
    rw [List.map_cons, List.map_cons, List.sum_cons, List.sum_cons]
    exact Nat.add_le_add hlower.requests_le ih
  | cons_right _ ih =>
    rw [List.map_cons, List.sum_cons]
    exact Nat.le_add_left_of_le ih

theorem inRange_of_fewer {fewer targets : List TargetCost}
    (h : List.SublistForall₂ TargetCost.Lowers fewer targets)
    (htargets : ∀ cost ∈ targets, cost.InRange) : ∀ cost ∈ fewer, cost.InRange := by
  induction h with
  | nil => exact fun _ hcost ↦ nomatch hcost
  | cons hlower _ ih =>
    intro cost hcost
    rcases List.mem_cons.mp hcost with rfl | hcost
    · exact hlower.inRange (htargets _ List.mem_cons_self)
    · exact ih (fun other hother ↦ htargets other (List.mem_cons_of_mem _ hother)) cost hcost
  | cons_right _ ih =>
    exact ih fun other hother ↦ htargets other (List.mem_cons_of_mem _ hother)

/-! ## Repositories one by one -/

theorem inRange_repository : TargetCost.repository.InRange := ⟨by decide, by decide⟩

theorem requestsOf_replicate (n : Nat) :
    requestsOf (List.replicate n TargetCost.repository) = n * 4 := by
  have hcost : TargetCost.repository.requests = 4 := rfl
  rw [requestsOf, List.map_replicate, List.sum_replicate, hcost, Nat.nsmul_eq_mul]

theorem admits_replicate_iff (interval : RefreshInterval) (n : Nat) :
    admits interval (List.replicate n TargetCost.repository) TargetCost.repository ↔
      (n + 1) * (4 * (3600 / interval.val)) ≤ 2500 := by
  have hrange : ∀ cost ∈ TargetCost.repository :: List.replicate n TargetCost.repository,
      cost.InRange := by
    rw [← List.replicate_succ]
    intro cost hcost
    rw [List.eq_of_mem_replicate hcost]
    exact inRange_repository
  rw [admits_iff_requests hrange, ← List.replicate_succ, requestsOf_replicate, Nat.mul_assoc]

theorem maxRepositoryTargets_toNat (interval : RefreshInterval) :
    (BudgetProjection.maxRepositoryTargets interval).toNat =
      2500 / (4 * (3600 / interval.val)) := by
  have hmost : Saturating.maxValue 32 = 2 ^ 32 - 1 := rfl
  have hallowance : budgetAllowance.toNat = 2500 := rfl
  have hcost : TargetCost.repository.requestsPerRefresh.toNat = 4 := rfl
  have hrate : (TargetCost.repository.requestsPerHour interval).toNat =
      4 * (3600 / interval.val) := by
    have hfew : 3600 / interval.val ≤ 3600 := Nat.div_le_self _ _
    rw [TargetCost.requestsPerHour, Saturating.mul_toNat, refreshesPerHour_toNat, hcost]
    omega
  unfold BudgetProjection.maxRepositoryTargets
  dsimp only
  split_ifs with hzero
  · rw [← hrate, hzero]
    rfl
  · rw [BitVec.toNat_udiv, hrate, hallowance]

/-- Within the hour the stated maximum is what is admitted; beyond it there is no maximum. -/
theorem maxRepositoryTargets_isGreatest_iff (interval : RefreshInterval) :
    IsGreatest {n : Nat | ∀ k < n,
      admits interval (List.replicate k TargetCost.repository) TargetCost.repository}
        (BudgetProjection.maxRepositoryTargets interval).toNat ↔ interval.val ≤ 3600 := by
  have hfloor : 0 < interval.val := Nat.lt_of_lt_of_le (by decide) interval.property.1
  rw [maxRepositoryTargets_toNat]
  constructor
  · intro hgreatest
    by_contra hlong
    have hnone : 3600 / interval.val = 0 := Nat.div_eq_of_lt (Nat.not_le.mp hlong)
    have hone : 1 ∈ {n : Nat | ∀ k < n,
        admits interval (List.replicate k TargetCost.repository) TargetCost.repository} := by
      intro k _
      rw [admits_replicate_iff, hnone]
      simp
    have hle := hgreatest.2 hone
    rw [hnone] at hle
    simp at hle
  · intro hhour
    have hrate : 0 < 4 * (3600 / interval.val) :=
      Nat.mul_pos (by decide) (Nat.div_pos hhour hfloor)
    constructor
    · intro k hk
      rw [admits_replicate_iff]
      exact (Nat.le_div_iff_mul_le hrate).mp hk
    · intro n hn
      cases n with
      | zero => exact Nat.zero_le _
      | succ n =>
        have hlast := hn n (Nat.lt_succ_self n)
        rw [admits_replicate_iff] at hlast
        exact (Nat.le_div_iff_mul_le hrate).mpr hlast

/-! ## Exactness -/

/-- Admission is sound for a configuration exactly if the arithmetic is exact enough for it. -/
theorem budget_sound_iff (interval : RefreshInterval) (targets : List TargetCost)
    (candidate : TargetCost) :
    BudgetSound interval targets candidate ↔ BudgetExact interval (candidate :: targets) := by
  have hfloor : 0 < interval.val := Nat.lt_of_lt_of_le (by decide) interval.property.1
  constructor
  · intro hsound
    have hrange : ∀ cost ∈ candidate :: targets, cost.InRange := fun cost hcost ↦
      TargetCost.noOverflow_iff.mp (hsound.noOverflow cost hcost)
    have hhour := (maxRepositoryTargets_isGreatest_iff interval).mp hsound.greatest
    refine ⟨hrange, hhour, ?_⟩
    by_cases hfits : requestsOf (candidate :: targets) ≤ 2500 / (3600 / interval.val)
    · have hadmitted : admits interval targets candidate :=
        (admits_iff_requests hrange).mpr
          ((Nat.le_div_iff_mul_le (Nat.div_pos hhour hfloor)).mp hfits)
      exact .inl ((exactPerHour_le_iff interval hrange).mp (hsound.fits hadmitted))
    · exact .inr (Nat.not_le.mp hfits)
  · rintro ⟨hrange, hhour, hgap⟩
    have hrate : 0 < 3600 / interval.val := Nat.div_pos hhour hfloor
    refine ⟨?_, ?_, (maxRepositoryTargets_isGreatest_iff interval).mpr hhour, ?_⟩
    · intro hadmitted
      have hwhole := (Nat.le_div_iff_mul_le hrate).mpr ((admits_iff_requests hrange).mp hadmitted)
      rw [exactPerHour_le_iff interval hrange]
      omega
    · intro fewer less hfewer hless hadmitted
      have hlowered : ∀ cost ∈ less :: fewer, cost.InRange := by
        intro cost hcost
        rcases List.mem_cons.mp hcost with rfl | hcost
        · exact hless.inRange (hrange candidate List.mem_cons_self)
        · exact inRange_of_fewer hfewer
            (fun other hother ↦ hrange other (List.mem_cons_of_mem _ hother)) cost hcost
      have hle : requestsOf (less :: fewer) ≤ requestsOf (candidate :: targets) :=
        Nat.add_le_add hless.requests_le (requestsOf_le hfewer)
      rw [admits_iff_requests hrange] at hadmitted
      rw [admits_iff_requests hlowered]
      exact Nat.le_trans (Nat.mul_le_mul_right _ hle) hadmitted
    · exact fun cost hcost ↦ TargetCost.noOverflow_iff.mpr (hrange cost hcost)

/-- At seventy seconds 49 requests a refresh are admitted, though they come to 2520 an hour. -/
theorem budget_not_sound :
    ¬ ∀ (interval : RefreshInterval) (targets : List TargetCost) (candidate : TargetCost),
      BudgetSound interval targets candidate := by
  intro h
  have hsound := h ⟨70, by decide⟩ (List.replicate 9 .repository) (.organization 4)
  have hrange : ∀ cost ∈ TargetCost.organization 4 :: List.replicate 9 .repository,
      cost.InRange := fun cost hcost ↦
    TargetCost.noOverflow_iff.mp (hsound.noOverflow cost hcost)
  have hfits := hsound.fits (by decide)
  rw [exactPerHour_le_iff _ hrange] at hfits
  exact absurd hfits (by decide)

end RunnerManager.Github
