import RunnerManager.Domain.Capacity
import RunnerManager.Lib.Saturating

/-!
# What a sequence of allocations grants

`HostAllocator` of `crates/domain/src/capacity.rs` once more, in its own `u16` and `u32` and with
its panics, and the formula it stands for, in integers over the true counts. The machine simulates
the counting allocator of `Capacity` call by call, and that one grants what the formula says even
where a count has saturated. Read `allocation_formula` first.
-/

namespace RunnerManager.Domain

open RunnerManager.Saturating

/-! ## The formula -/

namespace Intended

/-- How many attempts occupy a slot, however many there are. -/
def occupied (attempts : List RunnerAttempt) : Nat :=
  attempts.countP fun attempt ↦ attempt.countsAgainstCapacity

/-- How many attempts of one policy occupy a slot. -/
def owned (policy : PolicyId) (attempts : List RunnerAttempt) : Nat :=
  attempts.countP fun attempt ↦ attempt.policyId = policy && attempt.countsAgainstCapacity

/-- How many attempts of one policy can still take a job. -/
def unassigned (policy : PolicyId) (attempts : List RunnerAttempt) : Nat :=
  attempts.countP fun attempt ↦ attempt.policyId = policy && attempt.state.isUnassigned

/-- The host may start nothing for the policy. -/
def refused (host : Host) (policy : ScalePolicy) : Bool :=
  policy.hostId ≠ host.id || !policy.mode.isAutoscale || !policy.mayStartRunners

/-- The policy's ceiling; a policy that owns no runners has none. -/
def ceiling (policy : ScalePolicy) : Nat :=
  (policy.mode.maxCapacity.map Subtype.val).getD 0

/-- What one call should grant after `spent` runners were granted before it. -/
def grant (host : Host) (attempts : List RunnerAttempt) (spent : Nat) (policy : ScalePolicy)
    (demand : Nat) : Nat :=
  if refused host policy then 0
  else
    let active : Int := owned policy.id attempts
    let busy : Int := active - unassigned policy.id attempts
    let desired : Int := max policy.mode.minCapacity (min (demand + busy) (ceiling policy))
    let headroom : Int := host.hostCapacity.val - occupied attempts - spent
    (max 0 (min (desired - active) headroom)).toNat

/-- What a sequence of calls should grant. -/
def grants (host : Host) (attempts : List RunnerAttempt) :
    (spent : Nat) → List (ScalePolicy × Nat) → List Nat
  | _, [] => []
  | spent, (policy, demand) :: calls =>
    let granted := grant host attempts spent policy demand
    granted :: grants host attempts (spent + granted) calls

theorem unassigned_le_owned (policy : PolicyId) (attempts : List RunnerAttempt) :
    unassigned policy attempts ≤ owned policy attempts := by
  refine List.countP_mono_left fun attempt _ h ↦ ?_
  rw [Bool.and_eq_true] at h ⊢
  refine ⟨h.1, ?_⟩
  by_contra hleft
  rw [Bool.not_eq_true, not_counts_iff] at hleft
  cases hstate : attempt.state <;> simp_all [AttemptState.isUnassigned, AttemptState.isTerminal]

theorem grant_le_headroom (host : Host) (attempts : List RunnerAttempt) (spent : Nat)
    (policy : ScalePolicy) (demand : Nat) :
    grant host attempts spent policy demand ≤
      host.hostCapacity.val - (occupied attempts + spent) := by
  unfold grant
  split_ifs
  · exact Nat.zero_le _
  · simp only
    omega

theorem grants_sum_le (host : Host) (attempts : List RunnerAttempt) (spent : Nat)
    (calls : List (ScalePolicy × Nat)) :
    (grants host attempts spent calls).sum ≤
      host.hostCapacity.val - (occupied attempts + spent) := by
  induction calls generalizing spent with
  | nil => exact Nat.zero_le _
  | cons call calls ih =>
    obtain ⟨policy, demand⟩ := call
    have hfirst := grant_le_headroom host attempts spent policy demand
    have hrest := ih (spent + grant host attempts spent policy demand)
    rw [grants, List.sum_cons]
    omega

theorem grant_le_ceiling (host : Host) (attempts : List RunnerAttempt) (spent : Nat)
    (policy : ScalePolicy) (demand : Nat) :
    owned policy.id attempts + grant host attempts spent policy demand ≤
      max (owned policy.id attempts) (ceiling policy) := by
  have hordered : policy.mode.minCapacity ≤ ceiling policy := by
    cases hmode : policy.mode with
    | monitorOnly => exact Nat.zero_le _
    | autoscale config =>
      simpa [ceiling, hmode, PolicyMode.maxCapacity, PolicyMode.minCapacity] using config.ordered
  unfold grant
  split_ifs
  · exact Nat.le_max_left _ _
  · simp only
    omega

theorem grants_le_ceiling (host : Host) (attempts : List RunnerAttempt) (spent : Nat)
    (calls : List (ScalePolicy × Nat)) :
    List.Forall₂ (fun call granted ↦ owned call.1.id attempts + granted ≤
      max (owned call.1.id attempts) (ceiling call.1)) calls
        (grants host attempts spent calls) := by
  induction calls generalizing spent with
  | nil => exact .nil
  | cons call calls ih =>
    exact .cons (grant_le_ceiling host attempts spent call.1 call.2) (ih _)

end Intended

/-! ## The counting allocator -/

namespace HostAllocator

/-- An allocator of a host that has granted `spent` runners so far. -/
structure Spent (host : Host) (attempts : List RunnerAttempt) (spent : Nat)
    (allocator : HostAllocator) : Prop where
  hostId : allocator.hostId = host.id
  hostCapacity : allocator.hostCapacity = host.hostCapacity
  counted : allocator.attempts = attempts
  activeTotal : allocator.activeTotal = min (Intended.occupied attempts + spent) u16Max

variable {host : Host} {attempts : List RunnerAttempt} {spent : Nat} {allocator : HostAllocator}

theorem spent_fromAttempts (host : Host) (attempts : List RunnerAttempt) :
    Spent host attempts 0 (fromAttempts host attempts) :=
  ⟨rfl, rfl, rfl, rfl⟩

theorem Spent.headroom_eq (h : Spent host attempts spent allocator) :
    allocator.headroom = host.hostCapacity.val - (Intended.occupied attempts + spent) := by
  have hcapacity := host.hostCapacity.property.2
  rw [headroom, h.hostCapacity, h.activeTotal, u16Max]
  omega

theorem wanted_saturated {active idle low high : Nat} (demand : Nat) (hidle : idle ≤ active)
    (hordered : low ≤ high) (hhigh : high ≤ u16Max) :
    max low (min (min (demand + (min active u16Max - min idle u16Max)) (2 ^ 32 - 1)) high) -
        min active u16Max =
      max low (min (demand + (active - idle)) high) - active := by
  unfold u16Max at *
  have hwide : ∀ target, min (min target (2 ^ 32 - 1)) high = min target high := by
    intro target
    omega
  rw [hwide]
  by_cases hactive : active ≤ 2 ^ 16 - 1
  · rw [Nat.min_eq_left hactive, Nat.min_eq_left (Nat.le_trans hidle hactive)]
  · have hdesired : ∀ target, max low (min target high) ≤ 2 ^ 16 - 1 := by
      intro target
      omega
    rw [Nat.min_eq_right (Nat.le_of_not_le hactive), Nat.sub_eq_zero_of_le (hdesired _),
      Nat.sub_eq_zero_of_le (Nat.le_trans (hdesired _) (Nat.le_of_not_le hactive))]

theorem wanted_toNat {active idle low high capacity used : Nat} (demand : Nat)
    (hidle : idle ≤ active) :
    (max 0 (min (max (low : Int) (min (demand + ((active : Int) - idle)) high) - active)
        ((capacity : Int) - used))).toNat =
      min (max low (min (demand + (active - idle)) high) - active) (capacity - used) := by
  have hdesired : max (low : Int) (min (demand + ((active : Int) - idle)) high) =
      (max low (min (demand + (active - idle)) high) : Nat) := by
    omega
  rw [hdesired]
  omega

theorem Spent.grant_eq (h : Spent host attempts spent allocator) {policy : ScalePolicy}
    (hserved : Intended.refused host policy = false) {config : AutoscaleConfig}
    (hmode : policy.mode = .autoscale config) (demand : Nat) :
    (allocator.grant policy demand config).toStart =
      Intended.grant host attempts spent policy demand := by
  have hsupply := Intended.unassigned_le_owned policy.id attempts
  have hmax := config.maxCapacity.property.2
  have hceiling : Intended.ceiling policy = config.maxCapacity.val := by
    simp [Intended.ceiling, hmode, PolicyMode.maxCapacity]
  have hfloor : policy.mode.minCapacity = config.minCapacity := by
    rw [hmode, PolicyMode.minCapacity]
  have hactive : activeCountFor policy.id allocator.attempts =
      min (Intended.owned policy.id attempts) u16Max := by
    rw [h.counted]
    rfl
  have hidle : Domain.unassignedSupply policy.id allocator.attempts =
      min (Intended.unassigned policy.id attempts) u16Max := by
    rw [h.counted]
    rfl
  rw [Intended.grant, if_neg (by simp [hserved])]
  simp only [grant, h.headroom_eq, hactive, hidle, hceiling, hfloor]
  have hroom : (host.hostCapacity.val : Int) - Intended.occupied attempts - spent =
      (host.hostCapacity.val : Int) - (Intended.occupied attempts + spent : Nat) := by
    omega
  rw [wanted_saturated demand hsupply config.ordered (Nat.le_of_lt_succ hmax), hroom]
  exact (wanted_toNat demand hsupply).symm

/-- One call grants what the formula says and spends it. -/
theorem Spent.allocate (h : Spent host attempts spent allocator) (policy : ScalePolicy)
    (demand : Nat) :
    (allocator.allocate policy demand).1.toStart =
        Intended.grant host attempts spent policy demand ∧
      Spent host attempts (spent + Intended.grant host attempts spent policy demand)
        (allocator.allocate policy demand).2 := by
  have hrefuse : Intended.refused host policy = true →
      Intended.grant host attempts spent policy demand = 0 :=
    fun hrefused ↦ if_pos hrefused
  unfold HostAllocator.allocate
  by_cases hforeign : policy.hostId = allocator.hostId
  · rw [if_neg (not_not.mpr hforeign)]
    rw [h.hostId] at hforeign
    cases hmode : policy.mode with
    | monitorOnly =>
      rw [hrefuse (by simp [Intended.refused, hmode, PolicyMode.isAutoscale])]
      exact ⟨rfl, h⟩
    | autoscale config =>
      cases hstart : policy.mayStartRunners with
      | false =>
        rw [hrefuse (by simp [Intended.refused, hstart])]
        exact ⟨rfl, h⟩
      | true =>
        have hserved : Intended.refused host policy = false := by
          simp [Intended.refused, hforeign, hmode, PolicyMode.isAutoscale, hstart]
        have hgrant := h.grant_eq hserved hmode demand
        refine ⟨hgrant, h.hostId, h.hostCapacity, h.counted, ?_⟩
        show min (allocator.activeTotal + (allocator.grant policy demand config).toStart) u16Max
          = _
        rw [hgrant, h.activeTotal]
        omega
  · rw [if_pos hforeign]
    rw [h.hostId] at hforeign
    rw [hrefuse (by simp [Intended.refused, hforeign])]
    exact ⟨rfl, h⟩

end HostAllocator

/-! ## The machine allocator -/

namespace Machine

/-- `Allocation`, in the widths of its fields. -/
structure Allocation where
  policyId : PolicyId
  demand : BitVec 32
  desired : BitVec 16
  activeOwned : BitVec 16
  headroomBefore : BitVec 16
  toStart : BitVec 16
  limitingFactor : LimitingFactor
deriving DecidableEq

/-- `HostAllocator`, in the widths of its fields. -/
structure HostAllocator where
  hostId : HostId
  hostCapacity : BitVec 16
  attempts : List RunnerAttempt
  activeTotal : BitVec 16

def activeCount (attempts : List RunnerAttempt) : BitVec 16 :=
  count (fun attempt ↦ attempt.countsAgainstCapacity) attempts

def activeCountFor (policy : PolicyId) (attempts : List RunnerAttempt) : BitVec 16 :=
  count (fun attempt ↦ attempt.policyId = policy && attempt.countsAgainstCapacity) attempts

/-- The unassigned supply: a `usize` count, cut off before it is narrowed. -/
def unassignedSupply (policy : PolicyId) (attempts : List RunnerAttempt) : BitVec 16 :=
  BitVec.ofNat 16 (min (attempts.countP fun attempt ↦
    attempt.policyId = policy && attempt.state.isUnassigned) u16Max)

namespace HostAllocator

def fromAttempts (host : Host) (attempts : List RunnerAttempt) : HostAllocator where
  hostId := host.id
  hostCapacity := BitVec.ofNat 16 host.hostCapacity.val
  attempts
  activeTotal := activeCount attempts

def headroom (allocator : HostAllocator) : BitVec 16 :=
  sub allocator.hostCapacity allocator.activeTotal

/-- The allocation of a policy that may start nothing. -/
def refuse (allocator : HostAllocator) (policy : ScalePolicy) (demand : BitVec 32)
    (limitingFactor : LimitingFactor) : Allocation where
  policyId := policy.id
  demand
  desired := 0
  activeOwned := activeCountFor policy.id allocator.attempts
  headroomBefore := allocator.headroom
  toStart := 0
  limitingFactor

/-- The rest of `allocate`, once the policy's range is known; no answer is a panic of `clamp`. -/
def grant (allocator : HostAllocator) (policy : ScalePolicy) (demand : BitVec 32)
    (low high : BitVec 16) : Option (Allocation × HostAllocator) :=
  let activeOwned := activeCountFor policy.id allocator.attempts
  let headroomBefore := allocator.headroom
  let target := add demand
    ((sub activeOwned (unassignedSupply policy.id allocator.attempts)).setWidth 32)
  match clamp target (low.setWidth 32) (high.setWidth 32) with
  | none => none
  | some clamped =>
    let desired := clamped.setWidth 16
    let wanted := sub desired activeOwned
    let toStart := least wanted headroomBefore
    some ({
      policyId := policy.id
      demand
      desired
      activeOwned
      headroomBefore
      toStart
      limitingFactor :=
        if toStart.toNat < wanted.toNat then .hostCapacity
        else if (high.setWidth 32).toNat < target.toNat then .maxCapacity
        else if target.toNat < (low.setWidth 32).toNat then .minCapacity
        else .demand },
      { allocator with activeTotal := add allocator.activeTotal toStart })

/-- `allocate`; no answer is a panic. -/
def allocate (allocator : HostAllocator) (policy : ScalePolicy) (demand : BitVec 32) :
    Option (Allocation × HostAllocator) :=
  if policy.hostId ≠ allocator.hostId then
    some (allocator.refuse policy demand .foreignHost, allocator)
  else if !policy.mode.isAutoscale then
    some (allocator.refuse policy demand .monitorOnly, allocator)
  else if !policy.mayStartRunners then
    some (allocator.refuse policy demand .notReconciling, allocator)
  else
    match policy.mode.maxCapacity with
    | none => none
    | some high =>
      allocator.grant policy demand (BitVec.ofNat 16 policy.mode.minCapacity)
        (BitVec.ofNat 16 high.val)

/-- A sequence of calls. -/
def allocateAll : HostAllocator → List (ScalePolicy × BitVec 32) →
    Option (List Allocation × HostAllocator)
  | allocator, [] => some ([], allocator)
  | allocator, (policy, demand) :: calls => do
    let (allocation, next) ← allocator.allocate policy demand
    let (allocations, last) ← allocateAll next calls
    return (allocation :: allocations, last)

/-- The machine allocator holds the numbers of a counting one. -/
structure Represents (machine : HostAllocator) (allocator : Domain.HostAllocator) : Prop where
  hostId : machine.hostId = allocator.hostId
  hostCapacity : machine.hostCapacity.toNat = allocator.hostCapacity.val
  counted : machine.attempts = allocator.attempts
  activeTotal : machine.activeTotal.toNat = allocator.activeTotal

theorem represents_fromAttempts (host : Host) (attempts : List RunnerAttempt) :
    Represents (fromAttempts host attempts) (.fromAttempts host attempts) where
  hostId := rfl
  hostCapacity := ofNat_toNat (Nat.le_of_lt_succ host.hostCapacity.property.2)
  counted := rfl
  activeTotal := count_toNat (by decide) _ _

variable {machine : HostAllocator} {allocator : Domain.HostAllocator}

theorem Represents.headroom_eq (h : Represents machine allocator) :
    machine.headroom.toNat = allocator.headroom := by
  rw [headroom, sub_toNat, h.hostCapacity, h.activeTotal]
  rfl

theorem Represents.activeOwned_eq (h : Represents machine allocator) (policy : PolicyId) :
    (activeCountFor policy machine.attempts).toNat =
      Domain.activeCountFor policy allocator.attempts := by
  rw [h.counted]
  exact count_toNat (by decide) _ _

theorem Represents.unassignedSupply_eq (h : Represents machine allocator) (policy : PolicyId) :
    (unassignedSupply policy machine.attempts).toNat =
      Domain.unassignedSupply policy allocator.attempts := by
  rw [h.counted]
  exact ofNat_toNat (Nat.min_le_right _ _)

/-- The rest of a call neither panics nor loses a bit. -/
theorem Represents.grant (h : Represents machine allocator) (policy : ScalePolicy)
    (demand : BitVec 32) (config : AutoscaleConfig) :
    ∃ allocation next, machine.grant policy demand (BitVec.ofNat 16 config.minCapacity)
        (BitVec.ofNat 16 config.maxCapacity.val) = some (allocation, next) ∧
      allocation.toStart.toNat = (allocator.grant policy demand.toNat config).toStart ∧
      Represents next { allocator with
        activeTotal := min (allocator.activeTotal +
          (allocator.grant policy demand.toNat config).toStart) u16Max } := by
  have hhigh : config.maxCapacity.val ≤ maxValue 16 :=
    Nat.le_of_lt_succ config.maxCapacity.property.2
  have hlow : config.minCapacity ≤ maxValue 16 := Nat.le_trans config.ordered hhigh
  have hwide : ∀ value : BitVec 16, (value.setWidth 32).toNat = value.toNat :=
    fun value ↦ setWidth_toNat (Nat.le_trans (le_maxValue value) (by decide))
  have hordered : ((BitVec.ofNat 16 config.minCapacity).setWidth 32).toNat ≤
      ((BitVec.ofNat 16 config.maxCapacity.val).setWidth 32).toNat := by
    rw [hwide, hwide, ofNat_toNat hlow, ofNat_toNat hhigh]
    exact config.ordered
  obtain ⟨clamped, hclamp, hvalue⟩ := clamp_of_le (a := add demand ((sub
    (activeCountFor policy.id machine.attempts)
    (unassignedSupply policy.id machine.attempts)).setWidth 32)) hordered
  rw [hwide, hwide, ofNat_toNat hlow, ofNat_toNat hhigh, add_toNat, hwide, sub_toNat,
    h.activeOwned_eq, h.unassignedSupply_eq] at hvalue
  -- The clamped target is at most the ceiling, so narrowing it keeps its value.
  have hnarrow : (clamped.setWidth 16).toNat = clamped.toNat := by
    refine setWidth_toNat ?_
    rw [hvalue]
    omega
  have hstart : (least (sub (clamped.setWidth 16) (activeCountFor policy.id machine.attempts))
      machine.headroom).toNat = (allocator.grant policy demand.toNat config).toStart := by
    rw [least_toNat, sub_toNat, hnarrow, hvalue, h.activeOwned_eq, h.headroom_eq]
    rfl
  simp only [HostAllocator.grant, hclamp]
  refine ⟨_, _, rfl, hstart, ⟨h.hostId, h.hostCapacity, h.counted, ?_⟩⟩
  show (add machine.activeTotal _).toNat = _
  rw [add_toNat, hstart, h.activeTotal]
  rfl

theorem Represents.allocate (h : Represents machine allocator) (policy : ScalePolicy)
    (demand : BitVec 32) :
    ∃ allocation next, machine.allocate policy demand = some (allocation, next) ∧
      allocation.toStart.toNat = (allocator.allocate policy demand.toNat).1.toStart ∧
      Represents next (allocator.allocate policy demand.toNat).2 := by
  unfold HostAllocator.allocate Domain.HostAllocator.allocate
  by_cases hforeign : policy.hostId = allocator.hostId
  · rw [if_neg (by rw [h.hostId]; exact not_not.mpr hforeign), if_neg (not_not.mpr hforeign)]
    cases hmode : policy.mode with
    | monitorOnly => exact ⟨_, _, rfl, rfl, h⟩
    | autoscale config =>
      cases hstart : policy.mayStartRunners with
      | false => exact ⟨_, _, rfl, rfl, h⟩
      | true => exact h.grant policy demand config
  · rw [if_pos (by rw [h.hostId]; exact hforeign), if_pos hforeign]
    exact ⟨_, _, rfl, rfl, h⟩

theorem allocate_refused {host : Host} (hhost : machine.hostId = host.id) {policy : ScalePolicy}
    (hrefused : Intended.refused host policy = true) (demand : BitVec 32) :
    ∃ allocation, machine.allocate policy demand = some (allocation, machine) ∧
      allocation.toStart = 0 := by
  unfold HostAllocator.allocate
  split_ifs with hforeign hmode hstart
  · exact ⟨_, rfl, rfl⟩
  · exact ⟨_, rfl, rfl⟩
  · exact ⟨_, rfl, rfl⟩
  · rw [hhost] at hforeign
    simp only [Intended.refused, Bool.or_eq_true, decide_eq_true_eq] at hrefused
    obtain (hother | hmonitor) | hstopped := hrefused
    · exact absurd hother hforeign
    · exact absurd hmonitor hmode
    · exact absurd hstopped hstart

/-- Every sequence of calls runs to its end and grants what the formula says. -/
theorem Represents.allocateAll {host : Host} {attempts : List RunnerAttempt} {spent : Nat}
    (h : Represents machine allocator)
    (hspent : Domain.HostAllocator.Spent host attempts spent allocator)
    (calls : List (ScalePolicy × BitVec 32)) :
    ∃ allocations final, machine.allocateAll calls = some (allocations, final) ∧
      allocations.map (fun allocation ↦ allocation.toStart.toNat) =
        Intended.grants host attempts spent (calls.map fun call ↦ (call.1, call.2.toNat)) ∧
      machine.allocateAll (calls.filter fun call ↦ !Intended.refused host call.1) =
        some (((calls.zip allocations).filter fun pair ↦ !Intended.refused host pair.1.1).map (·.2),
          final) := by
  induction calls generalizing machine allocator spent with
  | nil => exact ⟨[], machine, rfl, rfl, rfl⟩
  | cons call calls ih =>
    obtain ⟨policy, demand⟩ := call
    obtain ⟨allocation, next, hcall, hstart, hnext⟩ := h.allocate policy demand
    obtain ⟨hgrant, hafter⟩ := hspent.allocate policy demand.toNat
    obtain ⟨allocations, final, hcalls, hgrants, hserved⟩ := ih hnext hafter
    refine ⟨allocation :: allocations, final, ?_, ?_, ?_⟩
    · simp [HostAllocator.allocateAll, hcall, hcalls]
    · rw [List.map_cons, List.map_cons, Intended.grants, hgrants, hstart, hgrant]
    · cases hrefused : Intended.refused host policy with
      | true =>
        -- The call left the allocator as it was, so the rest begins where the call began.
        have hhost : machine.hostId = host.id := by rw [h.hostId, hspent.hostId]
        obtain ⟨refusal, hrefusal, -⟩ := allocate_refused hhost hrefused demand
        rw [hcall] at hrefusal
        cases hrefusal
        simpa [hrefused] using hserved
      | false => simp [hrefused, HostAllocator.allocateAll, hcall, hserved]

end HostAllocator

end Machine

/-! ## Sequences of calls -/

/-- On any attempts, any sequence of calls answers every call, without a panic. Each call grants
what the formula over the true counts says; together the grants fit the headroom the host had, each
fits its policy's ceiling, and leaving out the refused policies changes no other allocation and
not the allocator that is left. -/
theorem allocation_formula (host : Host) (attempts : List RunnerAttempt)
    (calls : List (ScalePolicy × BitVec 32)) :
    ∃ allocations final,
      (Machine.HostAllocator.fromAttempts host attempts).allocateAll calls =
        some (allocations, final) ∧
      allocations.map (fun allocation ↦ allocation.toStart.toNat) =
        Intended.grants host attempts 0 (calls.map fun call ↦ (call.1, call.2.toNat)) ∧
      (allocations.map fun allocation ↦ allocation.toStart.toNat).sum ≤
        host.hostCapacity.val - Intended.occupied attempts ∧
      List.Forall₂ (fun call allocation ↦
        Intended.owned call.1.id attempts + allocation.toStart.toNat ≤
          max (Intended.owned call.1.id attempts) (Intended.ceiling call.1)) calls allocations ∧
      (Machine.HostAllocator.fromAttempts host attempts).allocateAll
          (calls.filter fun call ↦ !Intended.refused host call.1) =
        some (((calls.zip allocations).filter fun pair ↦
          !Intended.refused host pair.1.1).map (·.2), final) := by
  obtain ⟨allocations, final, hcalls, hgrants, hserved⟩ :=
    (Machine.HostAllocator.represents_fromAttempts host attempts).allocateAll
      (HostAllocator.spent_fromAttempts host attempts) calls
  refine ⟨allocations, final, hcalls, hgrants, ?_, ?_, hserved⟩
  · rw [hgrants]
    exact Intended.grants_sum_le host attempts 0 _
  · have hceilings := Intended.grants_le_ceiling host attempts 0
      (calls.map fun call ↦ (call.1, call.2.toNat))
    rw [← hgrants, List.forall₂_map_left_iff, List.forall₂_map_right_iff] at hceilings
    exact hceilings

end RunnerManager.Domain
