import RunnerManager.Domain.Model

/-!
# The recovery decision

`decide` of `crates/platform/src/wsl/recovery.rs`: whether the Windows side may terminate a
managed distribution. Every fact that is missing, stale or not confirmed has one conservative
answer. Read `proves_of_decide` first: it is the whole proof that a termination rests on.
-/

namespace RunnerManager.Platform

open RunnerManager.Domain

/-- A whole number of seconds. Spans of time are in nanoseconds. -/
def seconds (n : Nat) : Nat := n * 1000000000

structure RecoveryEvidence where
  consecutiveProbeFailures : Nat
  failureSpan : Option Nat
  failureIsRecoverable : Bool
  drainGeneration : Nat
  acknowledgedGeneration : Option Nat
  heartbeatAge : Option Nat
  localActiveAttempts : Option Nat
  localBusyAttempts : Option Nat
  consecutiveZeroAttemptHeartbeats : Nat
  consecutiveNoBusyHeartbeats : Nat
  managedBusyRunners : Option Nat
  managedOnlineRegistrations : Option Nat
  consecutiveZeroInventoryReads : Nat
  unmanagedRunnerServices : Option Nat
  taskIsProductOwned : Bool
  distributionIsWsl2 : Bool
  inventoryAuthorized : Bool
  recoveryFenceHeld : Bool
  circuitOpen : Bool
deriving DecidableEq

inductive RecoveryDecision where
  | observe
  | requestDrain
  | terminateNamed
  | blocked (reason : String)
deriving DecidableEq

def failureThreshold : Nat := 3

def minimumFailureSpan : Nat := seconds (5 * 60)

def maxHeartbeatAge : Nat := seconds 30

/-- The last question: what GitHub reports. -/
def RecoveryEvidence.decideInventory (evidence : RecoveryEvidence) : RecoveryDecision :=
  match evidence.managedBusyRunners, evidence.managedOnlineRegistrations with
  | some 0, some 0 =>
    if 2 ≤ evidence.consecutiveZeroInventoryReads then .terminateNamed
    else .blocked "empty GitHub inventory has not been confirmed twice"
  | some (_ + 1), _ => .blocked "GitHub reports a busy managed runner"
  | none, _ | _, none => .blocked "the GitHub runner inventory is unknown"
  | _, _ => .blocked "GitHub reports an online managed runner"

/-- What the guest reports, once it has acknowledged the drain. -/
def RecoveryEvidence.decideGuest (evidence : RecoveryEvidence) : RecoveryDecision :=
  match evidence.localActiveAttempts with
  | none => .blocked "the guest attempt count is unknown"
  | some active =>
    match evidence.localBusyAttempts with
    | none => .blocked "the guest busy-attempt count is unknown"
    | some (_ + 1) => .blocked "the guest owns a busy attempt"
    | some 0 =>
      if active = 0 then
        if evidence.consecutiveZeroAttemptHeartbeats < 2 then
          .blocked "idle guest state has not been confirmed twice"
        else evidence.decideInventory
      else if evidence.consecutiveNoBusyHeartbeats < 2 then
        .blocked "the guest's active but non-busy attempts have not been confirmed twice"
      else evidence.decideInventory

/-- What is known about the guest at all. -/
def RecoveryEvidence.decideHeartbeat (evidence : RecoveryEvidence) : RecoveryDecision :=
  match evidence.unmanagedRunnerServices with
  | none => .blocked "the unmanaged-runner audit is unknown"
  | some unmanaged =>
    if unmanaged ≠ 0 then .blocked "an unmanaged runner service exists"
    else
      match evidence.heartbeatAge with
      | none => .blocked "the guest heartbeat is missing"
      | some age =>
        if age > maxHeartbeatAge then .blocked "the guest heartbeat is stale"
        else if evidence.acknowledgedGeneration ≠ some evidence.drainGeneration then
          .requestDrain
        else evidence.decideGuest

def RecoveryEvidence.decide (evidence : RecoveryEvidence) : RecoveryDecision :=
  if evidence.circuitOpen then .blocked "the recovery circuit is open"
  else if evidence.consecutiveProbeFailures < failureThreshold then .observe
  else if !evidence.failureIsRecoverable then
    .blocked "the failure is not a recoverable WSL transport failure"
  else
    match evidence.failureSpan with
    | none => .blocked "the probe failure window is unknown"
    | some span =>
      if span < minimumFailureSpan then .observe
      else if !evidence.taskIsProductOwned then
        .blocked "the lifecycle task is not product-owned"
      else if !evidence.distributionIsWsl2 then
        .blocked "the distribution is not verified as WSL2"
      else if !evidence.inventoryAuthorized then
        .blocked "GitHub runner inventory is not authorized"
      else if !evidence.recoveryFenceHeld then .blocked "the recovery fence is not held"
      else evidence.decideHeartbeat

/-- What a termination rests on. -/
structure RecoveryEvidence.Proves (evidence : RecoveryEvidence) : Prop where
  circuit : evidence.circuitOpen = false
  failures : failureThreshold ≤ evidence.consecutiveProbeFailures
  recoverable : evidence.failureIsRecoverable = true
  span : ∃ span ∈ evidence.failureSpan, minimumFailureSpan ≤ span
  owned : evidence.taskIsProductOwned = true
  wsl2 : evidence.distributionIsWsl2 = true
  authorized : evidence.inventoryAuthorized = true
  fence : evidence.recoveryFenceHeld = true
  unmanaged : evidence.unmanagedRunnerServices = some 0
  age : ∃ age ∈ evidence.heartbeatAge, age ≤ maxHeartbeatAge
  acknowledged : evidence.acknowledgedGeneration = some evidence.drainGeneration
  busy : evidence.localBusyAttempts = some 0
  confirmed : ∃ active ∈ evidence.localActiveAttempts,
    (active = 0 → 2 ≤ evidence.consecutiveZeroAttemptHeartbeats) ∧
      (active ≠ 0 → 2 ≤ evidence.consecutiveNoBusyHeartbeats)
  managedBusy : evidence.managedBusyRunners = some 0
  managedOnline : evidence.managedOnlineRegistrations = some 0
  inventory : 2 ≤ evidence.consecutiveZeroInventoryReads

namespace RecoveryEvidence

variable {evidence : RecoveryEvidence}

theorem of_decideInventory (h : evidence.decideInventory = .terminateNamed) :
    evidence.managedBusyRunners = some 0 ∧ evidence.managedOnlineRegistrations = some 0 ∧
      2 ≤ evidence.consecutiveZeroInventoryReads := by
  unfold decideInventory at h
  split at h
  · next hbusy honline =>
    split_ifs at h with hreads
    exact ⟨hbusy, honline, hreads⟩
  all_goals cases h

theorem of_decideGuest (h : evidence.decideGuest = .terminateNamed) :
    evidence.localBusyAttempts = some 0 ∧ (∃ active ∈ evidence.localActiveAttempts,
      (active = 0 → 2 ≤ evidence.consecutiveZeroAttemptHeartbeats) ∧
        (active ≠ 0 → 2 ≤ evidence.consecutiveNoBusyHeartbeats)) ∧
      evidence.decideInventory = .terminateNamed := by
  unfold decideGuest at h
  split at h
  · cases h
  · next active hactive =>
    split at h
    · cases h
    · cases h
    · next hbusy =>
      split_ifs at h with hzero hconfirmed hconfirmed
      · refine ⟨hbusy, ⟨active, hactive, fun _ ↦ Nat.not_lt.mp hconfirmed, ?_⟩, h⟩
        intro hne
        exact absurd hzero hne
      · refine ⟨hbusy, ⟨active, hactive, ?_, fun _ ↦ Nat.not_lt.mp hconfirmed⟩, h⟩
        intro heq
        exact absurd heq hzero

theorem of_decideHeartbeat (h : evidence.decideHeartbeat = .terminateNamed) :
    evidence.unmanagedRunnerServices = some 0 ∧
      (∃ age ∈ evidence.heartbeatAge, age ≤ maxHeartbeatAge) ∧
      evidence.acknowledgedGeneration = some evidence.drainGeneration ∧
      evidence.decideGuest = .terminateNamed := by
  unfold decideHeartbeat at h
  split at h
  · cases h
  · next unmanaged hunmanaged =>
    by_cases hzero : unmanaged = 0
    case neg =>
      rw [if_pos hzero] at h
      cases h
    rw [if_neg (not_not.mpr hzero)] at h
    split at h
    · cases h
    · next age hage =>
      split_ifs at h with hstale hdrain
      exact ⟨by rw [hunmanaged, hzero], ⟨age, hage, Nat.not_lt.mp hstale⟩,
        not_not.mp hdrain, h⟩

/-- A termination rests on every fact. -/
theorem proves_of_decide (h : evidence.decide = .terminateNamed) : evidence.Proves := by
  have hrefuse {p : Prop} [Decidable p] {refused rest : RecoveryDecision}
      (hne : refused ≠ .terminateNamed) (h : (if p then refused else rest) = .terminateNamed) :
      ¬ p ∧ rest = .terminateNamed := by
    split_ifs at h with hp
    · exact absurd h hne
    · exact ⟨hp, h⟩
  unfold decide at h
  obtain ⟨hcircuit, h⟩ := hrefuse (by simp) h
  obtain ⟨hfailures, h⟩ := hrefuse (by simp) h
  obtain ⟨hrecoverable, h⟩ := hrefuse (by simp) h
  split at h
  · cases h
  · next span hspan =>
    split_ifs at h with hshort howned hwsl2 hauthorized hfence
    obtain ⟨hunmanaged, hage, hacknowledged, hguest⟩ := of_decideHeartbeat h
    obtain ⟨hbusy, hconfirmed, hinventory⟩ := of_decideGuest hguest
    obtain ⟨hmanagedBusy, hmanagedOnline, hreads⟩ := of_decideInventory hinventory
    exact {
      circuit := by simpa using hcircuit
      failures := Nat.not_lt.mp hfailures
      recoverable := by simpa using hrecoverable
      span := ⟨span, hspan, Nat.not_lt.mp hshort⟩
      owned := by simpa using howned
      wsl2 := by simpa using hwsl2
      authorized := by simpa using hauthorized
      fence := by simpa using hfence
      unmanaged := hunmanaged
      age := hage
      acknowledged := hacknowledged
      busy := hbusy
      confirmed := hconfirmed
      managedBusy := hmanagedBusy
      managedOnline := hmanagedOnline
      inventory := hreads }

end RecoveryEvidence

/-! ## What the guest reports -/

structure GuestHeartbeat where
  schemaVersion : Nat
  observedAt : Timestamp
  acknowledgedGeneration : Option Nat
  localActiveAttempts : Option Nat
  localBusyAttempts : Option Nat
  managedTargets : List ScaleTarget
  unmanagedRunnerServices : Option Nat
deriving DecidableEq

inductive FenceOwnerKind where
  | guestLaunch
  | windowsRecovery
deriving DecidableEq

inductive RecoveryPhase where
  | healthy
  | degraded
  | draining
  | recovering
  | backoff
  | recoveryBlocked
deriving DecidableEq

/-- `RecoveryStatus`, less when it was written. -/
structure RecoveryStatus where
  phase : RecoveryPhase
  consecutiveProbeFailures : Nat
  reason : Option String
  lastRecoveredAt : Option Timestamp
deriving DecidableEq

end RunnerManager.Platform
