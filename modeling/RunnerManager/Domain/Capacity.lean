import RunnerManager.Domain.AttemptHistory
import RunnerManager.Domain.Policy

/-!
# The host allocator

`crates/domain/src/capacity.rs`: how many runners one policy may start, over every attempt on
the machine. Counts are `u16` and saturate. Read `allocate_grants` first: a grant is bounded by
the host headroom, so nothing is granted on a full host.
-/

namespace RunnerManager.Domain

/-! ## Counts -/

/-- `active_count`: how many attempts occupy a slot. -/
def activeCount (attempts : List RunnerAttempt) : Nat :=
  min (attempts.countP fun attempt ↦ attempt.countsAgainstCapacity) u16Max

/-- `active_count_for`: how many attempts of one policy occupy a slot. -/
def activeCountFor (policy : PolicyId) (attempts : List RunnerAttempt) : Nat :=
  min (attempts.countP fun attempt ↦
    attempt.policyId = policy && attempt.countsAgainstCapacity) u16Max

/-- The states of an attempt that can still take a job. -/
def AttemptState.isUnassigned : AttemptState → Bool
  | .allocated | .preparing | .prepared | .jitReceived | .starting | .idle => true
  | _ => false

/-- How many attempts of one policy can still take a job. -/
def unassignedSupply (policy : PolicyId) (attempts : List RunnerAttempt) : Nat :=
  min (attempts.countP fun attempt ↦
    attempt.policyId = policy && attempt.state.isUnassigned) u16Max

theorem not_counts_iff (attempt : RunnerAttempt) : attempt.countsAgainstCapacity = false ↔
    attempt.state.isTerminal = true ∧ (attempt.execution.isNative = true ∨
      attempt.state = .cleaned) := by
  unfold RunnerAttempt.countsAgainstCapacity AttemptState.countsAgainstCapacity
  cases attempt.state.isTerminal <;> cases attempt.execution.isNative <;> simp

/-- An attempt that left its slot never takes one again. -/
theorem counts_of_effect {attempt : RunnerAttempt} {op : AttemptOp} (hop : op.Permits attempt)
    (hcounts : (op.effect attempt).countsAgainstCapacity = true) :
    attempt.countsAgainstCapacity = true := by
  by_contra hleft
  rw [Bool.not_eq_true, not_counts_iff] at hleft
  obtain ⟨hterminal, hslot⟩ := hleft
  obtain ⟨hguard, hlegal⟩ := hop
  -- No edge leads back from a concluded state, and none at all leaves a cleaned one.
  have hedge (next : AttemptState) (htarget : op.target = some next) :
      next.isTerminal = true ∧ next.isConcluded = false ∧ attempt.state ≠ .cleaned := by
    have h := hlegal next htarget
    have hkind := AttemptState.legal_terminal h
    rw [hterminal, eq_comm, Bool.and_eq_true, Bool.not_eq_true'] at hkind
    refine ⟨hkind.1, hkind.2, fun hcleaned ↦ ?_⟩
    rw [hcleaned, AttemptState.cleaned_final] at h
    cases h
  cases op with
  | allocateExecution execution =>
    rw [hguard.1] at hterminal
    cases hterminal
  | preparedEnvironment environmentId =>
    rcases hslot with hnative | hcleaned
    · rw [hguard.2.1] at hnative
      cases hnative
    · have hmay := hguard.1
      rw [hcleaned] at hmay
      cases hmay
  | beginPrepare now | markPrepared now | jitReceived now | started processId now
  | startedIsolated now | registeredIdle githubRunnerId now | assignedJob githubRunnerId now
  | assignmentNotTaken now => exact absurd (hedge _ rfl).1 (by decide)
  | conclude outcome now =>
    have hconcluded := (hedge _ rfl).2.1
    cases outcome <;> cases hconcluded
  | clean now | cleanIsolated now =>
    rw [(not_counts_iff _).mpr ⟨rfl, .inr rfl⟩] at hcounts
    cases hcounts
  | beginDestroy now =>
    rcases hslot with hnative | hcleaned
    · rw [hguard.1] at hnative
      cases hnative
    · exact (hedge _ rfl).2.2 hcleaned
  | deferCleanup now =>
    rcases hslot with hnative | hcleaned
    · rw [AttemptOp.Guard] at hguard
      rw [hguard] at hnative
      cases hnative
    · exact (hedge _ rfl).2.2 hcleaned

theorem counts_of_exec {attempt : RunnerAttempt} {op : AttemptOp}
    (hcounts : (op.exec attempt).countsAgainstCapacity = true) :
    attempt.countsAgainstCapacity = true := by
  rcases op.exec_cases attempt with hsame | ⟨hpermits, heffect⟩
  · rwa [hsame] at hcounts
  · rw [heffect] at hcounts
    exact counts_of_effect hpermits hcounts

/-! ## Allocations -/

/-- `LimitingFactor`: what bound an allocation first. -/
inductive LimitingFactor where
  | demand
  | minCapacity
  | maxCapacity
  | hostCapacity
  | monitorOnly
  | notReconciling
  | foreignHost
deriving DecidableEq

/-- `Allocation`: one policy's share of one pass. -/
structure Allocation where
  policyId : PolicyId
  demand : Nat
  desired : Nat
  activeOwned : Nat
  headroomBefore : Nat
  toStart : Nat
  limitingFactor : LimitingFactor
deriving DecidableEq

def Allocation.startsNothing (allocation : Allocation) : Bool :=
  allocation.toStart = 0

structure HostAllocator where
  hostId : HostId
  hostCapacity : NonZeroU16
  attempts : List RunnerAttempt
  activeTotal : Nat

namespace HostAllocator

def fromAttempts (host : Host) (attempts : List RunnerAttempt) : HostAllocator where
  hostId := host.id
  hostCapacity := host.hostCapacity
  attempts := attempts
  activeTotal := activeCount attempts

def headroom (allocator : HostAllocator) : Nat :=
  allocator.hostCapacity.val - allocator.activeTotal

/-- The allocation of a policy that may start nothing. -/
def refuse (allocator : HostAllocator) (policy : ScalePolicy) (demand : Nat)
    (limitingFactor : LimitingFactor) : Allocation where
  policyId := policy.id
  demand := demand
  desired := 0
  activeOwned := activeCountFor policy.id allocator.attempts
  headroomBefore := allocator.headroom
  toStart := 0
  limitingFactor := limitingFactor

/-- The allocation of a policy that may start runners, within its own range and the host
headroom; `demand` is a `u32`. -/
def grant (allocator : HostAllocator) (policy : ScalePolicy) (demand : Nat)
    (config : AutoscaleConfig) : Allocation :=
  let activeOwned := activeCountFor policy.id allocator.attempts
  let headroomBefore := allocator.headroom
  let target := min (demand + (activeOwned - unassignedSupply policy.id allocator.attempts))
    (2 ^ 32 - 1)
  let desired := max config.minCapacity (min target config.maxCapacity.val)
  let wanted := desired - activeOwned
  let toStart := min wanted headroomBefore
  { policyId := policy.id
    demand
    desired
    activeOwned
    headroomBefore
    toStart
    limitingFactor :=
      if toStart < wanted then .hostCapacity
      else if config.maxCapacity.val < target then .maxCapacity
      else if target < config.minCapacity then .minCapacity
      else .demand }

/-- `allocate`: the allocation, and the allocator with the headroom spent. -/
def allocate (allocator : HostAllocator) (policy : ScalePolicy) (demand : Nat) :
    Allocation × HostAllocator :=
  if policy.hostId ≠ allocator.hostId then (allocator.refuse policy demand .foreignHost, allocator)
  else
    match policy.mode with
    | .monitorOnly => (allocator.refuse policy demand .monitorOnly, allocator)
    | .autoscale config =>
      if !policy.mayStartRunners then
        (allocator.refuse policy demand .notReconciling, allocator)
      else
        let allocation := allocator.grant policy demand config
        (allocation, { allocator with
          activeTotal := min (allocator.activeTotal + allocation.toStart) u16Max })

end HostAllocator

/-! ## What an allocation promises -/

theorem allocate_le_headroom (allocator : HostAllocator) (policy : ScalePolicy) (demand : Nat) :
    (allocator.allocate policy demand).1.toStart ≤ allocator.headroom := by
  unfold HostAllocator.allocate
  by_cases hforeign : policy.hostId = allocator.hostId
  · rw [if_neg (not_not.mpr hforeign)]
    cases policy.mode with
    | monitorOnly => exact Nat.zero_le _
    | autoscale config =>
      cases hstart : policy.mayStartRunners with
      | false => exact Nat.zero_le _
      | true => exact Nat.min_le_right _ _
  · rw [if_pos hforeign]
    exact Nat.zero_le _

theorem allocate_counts (allocator : HostAllocator) (policy : ScalePolicy) (demand : Nat) :
    (allocator.allocate policy demand).1.policyId = policy.id ∧
      (allocator.allocate policy demand).1.activeOwned =
        activeCountFor policy.id allocator.attempts := by
  unfold HostAllocator.allocate
  by_cases hforeign : policy.hostId = allocator.hostId
  · rw [if_neg (not_not.mpr hforeign)]
    cases policy.mode with
    | monitorOnly => exact ⟨rfl, rfl⟩
    | autoscale config =>
      cases hstart : policy.mayStartRunners with
      | false => exact ⟨rfl, rfl⟩
      | true => exact ⟨rfl, rfl⟩
  · rw [if_pos hforeign]
    exact ⟨rfl, rfl⟩

theorem allocate_starts {allocator : HostAllocator} {policy : ScalePolicy} {demand : Nat}
    (hgrant : (allocator.allocate policy demand).1.toStart ≠ 0) :
    ∃ config, policy.mode = .autoscale config ∧ policy.mayStartRunners = true ∧
      policy.hostId = allocator.hostId ∧
      (allocator.allocate policy demand).1 = allocator.grant policy demand config := by
  unfold HostAllocator.allocate at hgrant ⊢
  by_cases hforeign : policy.hostId = allocator.hostId
  · rw [if_neg (not_not.mpr hforeign)] at hgrant ⊢
    cases hmode : policy.mode with
    | monitorOnly =>
      rw [hmode] at hgrant
      exact absurd rfl hgrant
    | autoscale config =>
      rw [hmode] at hgrant
      cases hmay : policy.mayStartRunners with
      | false =>
        rw [hmay] at hgrant
        exact absurd rfl hgrant
      | true => exact ⟨config, rfl, rfl, hforeign, rfl⟩
  · rw [if_pos hforeign] at hgrant
    exact absurd rfl hgrant

theorem allocate_grants {host : Host} {attempts : List RunnerAttempt} {policy : ScalePolicy}
    {demand : Nat}
    (hgrant : ((HostAllocator.fromAttempts host attempts).allocate policy demand).1.toStart ≠ 0) :
    (attempts.countP fun attempt ↦ attempt.countsAgainstCapacity) < host.hostCapacity.val := by
  have hle := allocate_le_headroom (.fromAttempts host attempts) policy demand
  have hroom : 0 < host.hostCapacity.val - activeCount attempts := by
    have hheadroom : (HostAllocator.fromAttempts host attempts).headroom =
        host.hostCapacity.val - activeCount attempts := rfl
    omega
  have hcapacity := host.hostCapacity.property.2
  unfold activeCount u16Max at hroom
  omega

end RunnerManager.Domain
