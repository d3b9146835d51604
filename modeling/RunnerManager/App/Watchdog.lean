import RunnerManager.Platform.Recovery
import RunnerManager.Lib.Text

/-!
# The watchdog of a managed distribution

`observe` of `crates/app/src/cli/wsl_watchdog.rs`, and runs of it: the watchdog looks at one
distribution again and again and counts in its tracker what it saw twice in a row. Histories are
lists of observations, the newest first. Read `DrainProof` first: what a termination should rest
on. An observation that lacks evidence does not restart every count, and `Restarts` says when
that does no harm.
-/

namespace RunnerManager.App

open RunnerManager.Domain RunnerManager.Platform

def circuitWindow : Nat := seconds (60 * 60)

def circuitLimit : Nat := 3

/-! ## Inventory -/

/-- What GitHub says about one runner. -/
structure InventoryRunner where
  name : String
  busy : Bool
  online : Bool
deriving DecidableEq

structure RunnerInventory where
  runners : List InventoryRunner
  reportedTotal : Option Nat
  truncated : Bool
deriving DecidableEq

def RunnerInventory.missing (inventory : RunnerInventory) : Option Nat :=
  match inventory.reportedTotal with
  | none => none
  | some total =>
    if inventory.runners.length < total then some (total - inventory.runners.length) else none

def InventoryRunner.managed (runner : InventoryRunner) : Bool :=
  "runner-manager-".toList.isPrefixOf runner.name.toList

/-- Add a flag to a `u32`, saturating. -/
def addFlag (count : Nat) (flag : Bool) : Nat :=
  min (count + flag.toNat) (2 ^ 32 - 1)

/-- Count the managed runners of one target. -/
def countRunners (counts : Nat × Nat) (runners : List InventoryRunner) : Nat × Nat :=
  (runners.filter (·.managed)).foldl
    (fun counts runner ↦ (addFlag counts.1 runner.busy, addFlag counts.2 runner.online)) counts

/-- `github_inventory`: busy and online managed runners over the targets, if every answer is
complete. -/
def githubInventory (listRunners : ScaleTarget → Option RunnerInventory) :
    List ScaleTarget → Nat × Nat → Option (Nat × Nat)
  | [], counts => some counts
  | target :: rest, counts =>
    match listRunners target with
    | none => none
    | some inventory =>
      if inventory.truncated || inventory.missing.isSome then none
      else githubInventory listRunners rest (countRunners counts inventory.runners)

/-! ## One observation -/

/-- What one look at the distribution meets. Instants of the monotonic clock are in nanoseconds
and in the order they are read. -/
structure Observation where
  /-- The recovery root, the WSL host and the task's identity are available. -/
  reached : Bool
  taskOwned : Bool
  wsl2 : Bool
  healthy : Bool
  failedAt : Nat
  /-- `generation_now`. -/
  generation : Nat
  requestWritten : Bool
  /-- Whether the claim was created, unless it failed. -/
  claim : Option Bool
  owner : Option (FenceOwnerKind × Option Nat)
  heartbeat : Option GuestHeartbeat
  listRunners : ScaleTarget → Option RunnerInventory
  now : Timestamp
  expiredAt : Nat
  measuredAt : Nat
  startedAt : Nat
  recovered : Bool
  recoveredAt : Timestamp
  ordered : failedAt ≤ expiredAt ∧ expiredAt ≤ measuredAt ∧ measuredAt ≤ startedAt

structure Tracker where
  failures : Nat
  firstFailure : Option Nat
  generation : Option Nat
  fenceHeld : Bool
  lastHeartbeat : Option Timestamp
  zeroHeartbeats : Nat
  noBusyHeartbeats : Nat
  zeroInventoryReads : Nat
  recoveryAttempts : List Nat
  lastRecoveredAt : Option Timestamp
deriving DecidableEq

namespace Tracker

def default : Tracker :=
  ⟨0, none, none, false, none, 0, 0, 0, [], none⟩

/-- One more in a `u8`, saturating. -/
def count (n : Nat) : Nat :=
  min (n + 1) 255

def publish (tracker : Tracker) (phase : RecoveryPhase) (reason : Option String) :
    RecoveryStatus :=
  ⟨phase, tracker.failures, reason, tracker.lastRecoveredAt⟩

/-- The recovery is over: nothing is counted any more. -/
def settle (tracker : Tracker) : Tracker :=
  { tracker with
    failures := 0
    firstFailure := none
    generation := none
    fenceHeld := false
    zeroHeartbeats := 0
    noBusyHeartbeats := 0
    zeroInventoryReads := 0 }

/-- The generation a failing observation works under. -/
def generationAt (tracker : Tracker) (o : Observation) : Nat :=
  tracker.generation.getD o.generation

/-- One more failed probe. -/
def fail (tracker : Tracker) (o : Observation) : Tracker :=
  { tracker with
    failures := count tracker.failures
    firstFailure := some (tracker.firstFailure.getD o.failedAt)
    generation := some (tracker.generationAt o) }

/-- Take the fence, or find that it is already ours. -/
def claimFence (tracker : Tracker) (o : Observation) (generation : Nat) : Tracker :=
  if tracker.fenceHeld then tracker
  else
    match o.claim with
    | some true => { tracker with fenceHeld := true }
    | some false => { tracker with
        fenceHeld := o.owner = some (.windowsRecovery, some generation) }
    | none => tracker

/-- Count a heartbeat that meets a condition; any other restarts the count. -/
def countIf (condition : Bool) (n : Nat) : Nat :=
  if condition then count n else 0

/-- The guest acknowledged the generation and has no active attempt. -/
def isIdle (generation : Nat) (heartbeat : GuestHeartbeat) : Bool :=
  heartbeat.acknowledgedGeneration = some generation && heartbeat.localActiveAttempts = some 0

/-- The guest acknowledged the generation and has no busy attempt. -/
def isNotBusy (generation : Nat) (heartbeat : GuestHeartbeat) : Bool :=
  heartbeat.acknowledgedGeneration = some generation && heartbeat.localBusyAttempts = some 0

def updateGuestQuiescence (tracker : Tracker) (heartbeat : Option GuestHeartbeat)
    (generation : Nat) : Tracker :=
  match heartbeat with
  | none => { tracker with zeroHeartbeats := 0 }
  | some heartbeat =>
    if tracker.lastHeartbeat = some heartbeat.observedAt then tracker
    else { tracker with
      lastHeartbeat := some heartbeat.observedAt
      zeroHeartbeats := countIf (isIdle generation heartbeat) tracker.zeroHeartbeats
      noBusyHeartbeats := countIf (isNotBusy generation heartbeat) tracker.noBusyHeartbeats }

end Tracker

/-- What GitHub reports about the targets a heartbeat names. -/
def Observation.inventory (o : Observation) : Option (Nat × Nat) :=
  o.heartbeat.bind fun heartbeat ↦
    githubInventory o.listRunners heartbeat.managedTargets (0, 0)

namespace Tracker

/-- Count a reading of the inventory, if there was a heartbeat to read it for. -/
def countInventory (tracker : Tracker) (o : Observation) : Tracker :=
  match o.heartbeat with
  | none => tracker
  | some _ => { tracker with
      zeroInventoryReads := countIf (o.inventory = some (0, 0)) tracker.zeroInventoryReads }

def expireCircuit (tracker : Tracker) (now : Nat) : Tracker :=
  { tracker with
    recoveryAttempts := tracker.recoveryAttempts.dropWhile fun attempt ↦
      circuitWindow < now - attempt }

/-- A failing observation up to its decision. -/
def collect (tracker : Tracker) (o : Observation) (generation : Nat) : Tracker :=
  (((tracker.claimFence o generation).updateGuestQuiescence o.heartbeat generation).countInventory
    o).expireCircuit o.expiredAt

/-- How old a heartbeat is; one from the future has no age. -/
def ageOf (now observedAt : Timestamp) : Option Nat :=
  if observedAt ≤ now then some (now - observedAt).toNat else none

def evidence (tracker : Tracker) (o : Observation) (generation : Nat) : RecoveryEvidence where
  consecutiveProbeFailures := tracker.failures
  failureSpan := tracker.firstFailure.map fun first ↦ o.measuredAt - first
  failureIsRecoverable := true
  drainGeneration := generation
  acknowledgedGeneration := o.heartbeat.bind (·.acknowledgedGeneration)
  heartbeatAge := o.heartbeat.bind fun heartbeat ↦ ageOf o.now heartbeat.observedAt
  localActiveAttempts := o.heartbeat.bind (·.localActiveAttempts)
  localBusyAttempts := o.heartbeat.bind (·.localBusyAttempts)
  consecutiveZeroAttemptHeartbeats := tracker.zeroHeartbeats
  consecutiveNoBusyHeartbeats := tracker.noBusyHeartbeats
  managedBusyRunners := o.inventory.map (·.1)
  managedOnlineRegistrations := o.inventory.map (·.2)
  consecutiveZeroInventoryReads := tracker.zeroInventoryReads
  unmanagedRunnerServices := o.heartbeat.bind (·.unmanagedRunnerServices)
  taskIsProductOwned := o.taskOwned
  distributionIsWsl2 := o.wsl2
  inventoryAuthorized := o.inventory.isSome
  recoveryFenceHeld := tracker.fenceHeld
  circuitOpen := circuitLimit ≤ tracker.recoveryAttempts.length

/-- The attempt is counted before the distribution is terminated. -/
def start (tracker : Tracker) (o : Observation) : Tracker :=
  { tracker with recoveryAttempts := tracker.recoveryAttempts ++ [o.startedAt] }

/-- Act on a decision. -/
def conclude (tracker : Tracker) (o : Observation) :
    Platform.RecoveryDecision → Tracker × List RecoveryStatus
  | .observe => (tracker, [tracker.publish .degraded
      (some "waiting for the bounded failure threshold")])
  | .requestDrain => (tracker, [tracker.publish .draining
      (some "waiting for the guest drain acknowledgement")])
  | .blocked reason => (tracker, [tracker.publish .recoveryBlocked (some reason)])
  | .terminateNamed =>
    let started := tracker.start o
    if o.recovered then
      let healthy := { started.settle with lastRecoveredAt := some o.recoveredAt }
      (healthy, [tracker.publish .recovering none, healthy.publish .healthy none])
    else (started, [tracker.publish .recovering none, started.publish .backoff
      (some "the named distribution did not become healthy after recovery")])

end Tracker

/-- What an observation leaves: the tracker, what it published and what it decided, if it came
to a decision. -/
structure Observed where
  tracker : Tracker
  published : List RecoveryStatus
  decision : Option Platform.RecoveryDecision

def observe (tracker : Tracker) (o : Observation) : Observed :=
  if !o.reached then ⟨tracker, [], none⟩
  else if o.healthy then ⟨tracker.settle, [tracker.settle.publish .healthy none], none⟩
  else
    let generation := tracker.generationAt o
    let failed := tracker.fail o
    if !o.requestWritten then
      ⟨failed, [failed.publish .recoveryBlocked (some "the drain request cannot be written")],
        none⟩
    else
      let collected := failed.collect o generation
      let decision := (collected.evidence o generation).decide
      let concluded := collected.conclude o decision
      ⟨concluded.1, concluded.2, some decision⟩

/-! ## Histories -/

/-- The tracker after a history, the newest observation first. -/
def trackerAfter : List Observation → Tracker
  | [] => .default
  | o :: past => (observe (trackerAfter past) o).tracker

/-- The observation after a history decides to terminate. -/
def Terminates (o : Observation) (past : List Observation) : Prop :=
  (observe (trackerAfter past) o).decision = some .terminateNamed

instance (o : Observation) (past : List Observation) : Decidable (Terminates o past) :=
  inferInstanceAs (Decidable (_ = _))

/-- When each termination of a history was started. -/
def starts : List Observation → List Nat
  | [] => []
  | o :: past => if Terminates o past then o.startedAt :: starts past else starts past

namespace Observation

def read (o : Observation) : Option GuestHeartbeat :=
  if o.reached && !o.healthy && o.requestWritten then o.heartbeat else none

def reading (o : Observation) : Option (Nat × Nat) :=
  if o.reached && !o.healthy && o.requestWritten then o.inventory else none

/-- An observation read a heartbeat and the whole inventory. -/
def hasEvidence (o : Observation) : Bool :=
  o.read.isSome && o.reading.isSome

end Observation

def lastRead : List Observation → Option Timestamp
  | [] => none
  | o :: past =>
    match o.read with
    | some heartbeat => some heartbeat.observedAt
    | none => lastRead past

/-- The heartbeat of an observation, if it is not the one read last before it. -/
def distinctRead (o : Observation) (past : List Observation) : List GuestHeartbeat :=
  match o.read with
  | some heartbeat => if lastRead past = some heartbeat.observedAt then [] else [heartbeat]
  | none => []

/-- The heartbeats of the observations that carried a distinct one, the newest first. -/
def distinctHeartbeats : List Observation → List GuestHeartbeat
  | [] => []
  | o :: past => distinctRead o past ++ distinctHeartbeats past

/-- The guest acknowledged the generation, has no busy attempt and, where the count is none, no
active one. -/
structure Quiet (generation active : Nat) (heartbeat : GuestHeartbeat) : Prop where
  acknowledged : heartbeat.acknowledgedGeneration = some generation
  busy : heartbeat.localBusyAttempts = some 0
  idle : active = 0 → heartbeat.localActiveAttempts = some 0

/-- An unbroken proof that the guest is drained: the two latest distinct heartbeats are quiet, the
two latest inventories are empty, and no observation from the earlier of either pair on lacks a
heartbeat or an inventory. -/
def DrainProof (generation active : Nat) (history : List Observation) : Prop :=
  ∃ unbroken older, history = unbroken ++ older ∧ (∀ o ∈ unbroken, o.hasEvidence = true) ∧
    (∃ later earlier rest,
      distinctHeartbeats history = later :: earlier :: (rest ++ distinctHeartbeats older) ∧
        Quiet generation active later ∧ Quiet generation active earlier) ∧
    ∃ later earlier rest, unbroken = later :: earlier :: rest ∧
      later.reading = some (0, 0) ∧ earlier.reading = some (0, 0)

def Tracker.Restarted (tracker : Tracker) : Prop :=
  tracker.zeroHeartbeats = 0 ∧ tracker.noBusyHeartbeats = 0 ∧ tracker.zeroInventoryReads = 0

def inWindow (since instant : Nat) : Bool :=
  since ≤ instant && instant ≤ since + circuitWindow

/-- The observations follow each other on the monotonic clock. -/
def Ordered (history : List Observation) : Prop :=
  history.Pairwise fun later earlier ↦ earlier.startedAt ≤ later.failedAt

/-- What the watchdog promises about a history: every termination rests on an unbroken proof,
whatever lacks evidence restarts every count, and no window holds more terminations than the
circuit allows. -/
structure WatchdogSafe (history : List Observation) : Prop where
  drained : ∀ o past, o :: past <:+ history → Terminates o past →
    ∃ heartbeat active, o.read = some heartbeat ∧ heartbeat.localActiveAttempts = some active ∧
      DrainProof ((trackerAfter past).generationAt o) active (o :: past)
  restarted : ∀ o past, o :: past <:+ history → o.hasEvidence = false →
    (trackerAfter (o :: past)).Restarted
  circuit : ∀ since, (starts history).countP (inWindow since) ≤ circuitLimit

/-! ## What an observation may leave alone -/

/-- An observation that lacks evidence finds nothing counted that it leaves alone, and counts
nothing. -/
def Restarts (tracker : Tracker) (o : Observation) : Prop :=
  if !o.reached || (!o.healthy && !o.requestWritten) then tracker.Restarted
  else if o.healthy then True
  else
    match o.heartbeat with
    | none => tracker.noBusyHeartbeats = 0 ∧ tracker.zeroInventoryReads = 0
    | some heartbeat => o.inventory = none →
        if tracker.lastHeartbeat = some heartbeat.observedAt then
          tracker.zeroHeartbeats = 0 ∧ tracker.noBusyHeartbeats = 0
        else
          Tracker.isIdle (tracker.generationAt o) heartbeat = false ∧
            Tracker.isNotBusy (tracker.generationAt o) heartbeat = false

/-- A heartbeat that counts no active attempt counts no busy one. -/
def Consistent (o : Observation) : Prop :=
  ∀ heartbeat, o.heartbeat = some heartbeat → heartbeat.localActiveAttempts = some 0 →
    heartbeat.localBusyAttempts = some 0

/-- Every observation of a history is such. -/
def Restarting : List Observation → Prop
  | [] => True
  | o :: past => (Restarts (trackerAfter past) o ∧ Consistent o) ∧ Restarting past

/-! ## What one observation counts -/

namespace Tracker

variable (tracker : Tracker) {o : Observation} (generation : Nat)

theorem claimFence_eq (o : Observation) :
    ∃ held, tracker.claimFence o generation = { tracker with fenceHeld := held } := by
  unfold claimFence
  split
  · exact ⟨tracker.fenceHeld, rfl⟩
  · split
    · exact ⟨true, rfl⟩
    · exact ⟨_, rfl⟩
    · exact ⟨tracker.fenceHeld, rfl⟩

theorem updateGuestQuiescence_frame (heartbeat : Option GuestHeartbeat) :
    (tracker.updateGuestQuiescence heartbeat generation).generation = tracker.generation ∧
      (tracker.updateGuestQuiescence heartbeat generation).recoveryAttempts =
        tracker.recoveryAttempts := by
  unfold updateGuestQuiescence
  split
  · exact ⟨rfl, rfl⟩
  · split
    · exact ⟨rfl, rfl⟩
    · exact ⟨rfl, rfl⟩

theorem countInventory_frame (o : Observation) :
    (tracker.countInventory o).generation = tracker.generation ∧
      (tracker.countInventory o).recoveryAttempts = tracker.recoveryAttempts := by
  unfold countInventory
  split
  · exact ⟨rfl, rfl⟩
  · exact ⟨rfl, rfl⟩

theorem collect_frame (o : Observation) :
    (tracker.collect o generation).generation = tracker.generation ∧
      (tracker.collect o generation).recoveryAttempts =
        tracker.recoveryAttempts.dropWhile fun attempt ↦
          circuitWindow < o.expiredAt - attempt := by
  obtain ⟨held, hheld⟩ := tracker.claimFence_eq generation o
  obtain ⟨hgeneration, hattempts⟩ := updateGuestQuiescence_frame
    (tracker.claimFence o generation) generation o.heartbeat
  obtain ⟨hgeneration', hattempts'⟩ := countInventory_frame
    ((tracker.claimFence o generation).updateGuestQuiescence o.heartbeat generation) o
  constructor
  · show (countInventory _ o).generation = _
    rw [hgeneration', hgeneration, hheld]
  · show ((countInventory _ o).recoveryAttempts).dropWhile _ = _
    rw [hattempts', hattempts, hheld]

theorem collect_none (h : o.heartbeat = none) :
    (tracker.collect o generation).lastHeartbeat = tracker.lastHeartbeat ∧
      (tracker.collect o generation).zeroHeartbeats = 0 ∧
      (tracker.collect o generation).noBusyHeartbeats = tracker.noBusyHeartbeats ∧
      (tracker.collect o generation).zeroInventoryReads = tracker.zeroInventoryReads := by
  obtain ⟨held, hheld⟩ := tracker.claimFence_eq generation o
  simp only [collect, updateGuestQuiescence, countInventory, h, hheld]
  exact ⟨rfl, rfl, rfl, rfl⟩

theorem collect_repeated {heartbeat : GuestHeartbeat} (h : o.heartbeat = some heartbeat)
    (hlast : tracker.lastHeartbeat = some heartbeat.observedAt) :
    (tracker.collect o generation).lastHeartbeat = some heartbeat.observedAt ∧
      (tracker.collect o generation).zeroHeartbeats = tracker.zeroHeartbeats ∧
      (tracker.collect o generation).noBusyHeartbeats = tracker.noBusyHeartbeats ∧
      (tracker.collect o generation).zeroInventoryReads =
        countIf (o.inventory = some (0, 0)) tracker.zeroInventoryReads := by
  obtain ⟨held, hheld⟩ := tracker.claimFence_eq generation o
  simp only [collect, updateGuestQuiescence, countInventory, h, hheld, hlast, if_true]
  exact ⟨rfl, rfl, rfl, rfl⟩

theorem collect_distinct {heartbeat : GuestHeartbeat} (h : o.heartbeat = some heartbeat)
    (hlast : tracker.lastHeartbeat ≠ some heartbeat.observedAt) :
    (tracker.collect o generation).lastHeartbeat = some heartbeat.observedAt ∧
      (tracker.collect o generation).zeroHeartbeats =
        countIf (isIdle generation heartbeat) tracker.zeroHeartbeats ∧
      (tracker.collect o generation).noBusyHeartbeats =
        countIf (isNotBusy generation heartbeat) tracker.noBusyHeartbeats ∧
      (tracker.collect o generation).zeroInventoryReads =
        countIf (o.inventory = some (0, 0)) tracker.zeroInventoryReads := by
  obtain ⟨held, hheld⟩ := tracker.claimFence_eq generation o
  simp only [collect, updateGuestQuiescence, countInventory, h, hheld, if_neg hlast]
  exact ⟨rfl, rfl, rfl, rfl⟩

theorem conclude_cases (o : Observation) (decision : Platform.RecoveryDecision) :
    (tracker.conclude o decision).1.lastHeartbeat = tracker.lastHeartbeat ∧
      (((tracker.conclude o decision).1.Restarted ∧
        (tracker.conclude o decision).1.generation = none) ∨
      ((tracker.conclude o decision).1.zeroHeartbeats = tracker.zeroHeartbeats ∧
        (tracker.conclude o decision).1.noBusyHeartbeats = tracker.noBusyHeartbeats ∧
        (tracker.conclude o decision).1.zeroInventoryReads = tracker.zeroInventoryReads ∧
        (tracker.conclude o decision).1.generation = tracker.generation)) := by
  cases decision with
  | observe | requestDrain | blocked reason =>
    exact ⟨rfl, .inr ⟨rfl, rfl, rfl, rfl⟩⟩
  | terminateNamed =>
    unfold conclude
    cases o.recovered with
    | true => exact ⟨rfl, .inl ⟨⟨rfl, rfl, rfl⟩, rfl⟩⟩
    | false => exact ⟨rfl, .inr ⟨rfl, rfl, rfl, rfl⟩⟩

end Tracker

def Observation.decides (o : Observation) : Bool :=
  o.reached && !o.healthy && o.requestWritten

theorem observe_cases (tracker : Tracker) (o : Observation) :
    (o.decides = false ∧ (observe tracker o).decision = none ∧
      ((o.reached && o.healthy) = true ∧ (observe tracker o).tracker = tracker.settle ∨
        (o.reached && o.healthy) = false ∧ ((observe tracker o).tracker = tracker ∨
          (observe tracker o).tracker = tracker.fail o))) ∨
    (o.decides = true ∧ ∃ decision,
      decision = (((tracker.fail o).collect o (tracker.generationAt o)).evidence o
        (tracker.generationAt o)).decide ∧ (observe tracker o).decision = some decision ∧
      (observe tracker o).tracker =
        (((tracker.fail o).collect o (tracker.generationAt o)).conclude o decision).1) := by
  unfold observe Observation.decides
  cases hreached : o.reached with
  | false => exact .inl ⟨rfl, rfl, .inr ⟨rfl, .inl rfl⟩⟩
  | true =>
    cases hhealthy : o.healthy with
    | true => exact .inl ⟨rfl, rfl, .inl ⟨rfl, rfl⟩⟩
    | false =>
      cases hwritten : o.requestWritten with
      | false => exact .inl ⟨rfl, rfl, .inr ⟨rfl, .inr rfl⟩⟩
      | true => exact .inr ⟨rfl, _, rfl, rfl, rfl⟩

theorem not_hasEvidence {o : Observation} (h : o.decides = false) :
    o.read = none ∧ o.hasEvidence = false := by
  have hread : o.read = none := by
    unfold Observation.read
    unfold Observation.decides at h
    rw [h]
    rfl
  exact ⟨hread, by simp [Observation.hasEvidence, hread]⟩

theorem read_of_decides {o : Observation} (h : o.decides = true) :
    o.read = o.heartbeat ∧ o.reading = o.inventory := by
  unfold Observation.decides at h
  simp [Observation.read, Observation.reading, h]

theorem heartbeat_of_inventory {o : Observation} {counts : Nat × Nat}
    (h : o.inventory = some counts) : ∃ heartbeat, o.heartbeat = some heartbeat := by
  obtain ⟨heartbeat, hheartbeat, -⟩ := Option.bind_eq_some_iff.mp h
  exact ⟨heartbeat, hheartbeat⟩

/-! ## What is counted of a history -/

/-- The distinct heartbeats since evidence was last lacking. -/
def freshHeartbeats : List Observation → List GuestHeartbeat
  | [] => []
  | o :: past =>
    if o.hasEvidence then distinctRead o past ++ freshHeartbeats past else []

def emptyInventory (o : Observation) : Bool :=
  o.hasEvidence && o.reading = some (0, 0)

/-- The counts are about what was read since evidence was last lacking. -/
structure Counts (tracker : Tracker) (history : List Observation) : Prop where
  last : tracker.lastHeartbeat = lastRead history
  idle : ∀ generation, tracker.generation = some generation → tracker.zeroHeartbeats ≤
    ((freshHeartbeats history).takeWhile (Tracker.isIdle generation)).length
  notBusy : ∀ generation, tracker.generation = some generation → tracker.noBusyHeartbeats ≤
    ((freshHeartbeats history).takeWhile (Tracker.isNotBusy generation)).length
  inventory : tracker.zeroInventoryReads ≤ (history.takeWhile emptyInventory).length
  idleOver : tracker.generation = none → tracker.zeroHeartbeats = 0
  notBusyOver : tracker.generation = none → tracker.noBusyHeartbeats = 0

theorem Counts.of_restarted {tracker : Tracker} {history : List Observation}
    (hlast : tracker.lastHeartbeat = lastRead history) (h : tracker.Restarted) :
    Counts tracker history where
  last := hlast
  idle _ _ := h.1 ▸ Nat.zero_le _
  notBusy _ _ := h.2.1 ▸ Nat.zero_le _
  inventory := h.2.2 ▸ Nat.zero_le _
  idleOver _ := h.1
  notBusyOver _ := h.2.1

theorem countIf_le {α : Type} {p : α → Bool} {x : α} {rest : List α} {n : Nat}
    (h : n ≤ (rest.takeWhile p).length) :
    Tracker.countIf (p x) n ≤ ((x :: rest).takeWhile p).length := by
  unfold Tracker.countIf Tracker.count
  rw [List.takeWhile_cons]
  cases p x with
  | false => exact Nat.zero_le _
  | true =>
    show min (n + 1) 255 ≤ (rest.takeWhile p).length + 1
    omega

section

variable {tracker : Tracker} {o : Observation} {past history : List Observation}

theorem collect_lastHeartbeat {generation : Nat} :
    (tracker.collect o generation).lastHeartbeat =
      match o.heartbeat with
      | some heartbeat => some heartbeat.observedAt
      | none => tracker.lastHeartbeat := by
  cases hheartbeat : o.heartbeat with
  | none => exact (Tracker.collect_none tracker generation hheartbeat).1
  | some heartbeat =>
    by_cases hlast : tracker.lastHeartbeat = some heartbeat.observedAt
    · exact (Tracker.collect_repeated tracker generation hheartbeat hlast).1
    · exact (Tracker.collect_distinct tracker generation hheartbeat hlast).1

theorem lastHeartbeat_observe (h : tracker.lastHeartbeat = lastRead past) :
    (observe tracker o).tracker.lastHeartbeat = lastRead (o :: past) := by
  obtain ⟨hdecides, -, htracker⟩ | ⟨hdecides, decision, -, -, htracker⟩ := observe_cases tracker o
  · rw [lastRead, (not_hasEvidence hdecides).1]
    show _ = lastRead past
    rw [← h]
    obtain ⟨-, htracker⟩ | ⟨-, htracker | htracker⟩ := htracker
    · rw [htracker]
      rfl
    · rw [htracker]
    · rw [htracker]
      rfl
  · rw [htracker, (Tracker.conclude_cases _ o decision).1, collect_lastHeartbeat, lastRead,
      (read_of_decides hdecides).1]
    cases o.heartbeat with
    | none => exact h
    | some heartbeat => rfl

theorem Tracker.Restarted.conclude (h : tracker.Restarted) (o : Observation)
    (decision : Platform.RecoveryDecision) : (tracker.conclude o decision).1.Restarted := by
  obtain ⟨-, ⟨hrestarted, -⟩ | ⟨hzero, hbusy, hreads, -⟩⟩ :=
    Tracker.conclude_cases tracker o decision
  · exact hrestarted
  · exact ⟨hzero.trans h.1, hbusy.trans h.2.1, hreads.trans h.2.2⟩

/-- An observation that lacks evidence and finds nothing counted that it leaves alone restarts
every count. -/
theorem restarted_observe (hrestarts : Restarts tracker o) (hevidence : o.hasEvidence = false) :
    (observe tracker o).tracker.Restarted := by
  obtain ⟨hdecides, -, htracker⟩ | ⟨hdecides, decision, -, -, htracker⟩ := observe_cases tracker o
  · obtain ⟨-, htracker⟩ | ⟨hhealthy, htracker⟩ := htracker
    · rw [htracker]
      exact ⟨rfl, rfl, rfl⟩
    · have hskipped : (!o.reached || (!o.healthy && !o.requestWritten)) = true := by
        revert hdecides hhealthy
        unfold Observation.decides
        cases o.reached <;> cases o.healthy <;> cases o.requestWritten <;> decide
      rw [Restarts, if_pos hskipped] at hrestarts
      obtain htracker | htracker := htracker
      · rw [htracker]
        exact hrestarts
      · rw [htracker]
        exact hrestarts
  · rw [htracker]
    refine Tracker.Restarted.conclude ?_ o decision
    have hskipped : ¬ (!o.reached || (!o.healthy && !o.requestWritten)) = true := by
      revert hdecides
      unfold Observation.decides
      cases o.reached <;> cases o.healthy <;> cases o.requestWritten <;> decide
    have hhealthy : ¬ o.healthy = true := by
      revert hdecides
      unfold Observation.decides
      cases o.reached <;> cases o.healthy <;> cases o.requestWritten <;> decide
    rw [Restarts, if_neg hskipped, if_neg hhealthy] at hrestarts
    cases hheartbeat : o.heartbeat with
    | none =>
      obtain ⟨-, hzero, hbusy, hreads⟩ := Tracker.collect_none (tracker.fail o)
        (tracker.generationAt o) hheartbeat
      rw [hheartbeat] at hrestarts
      exact ⟨hzero, hbusy.trans hrestarts.1, hreads.trans hrestarts.2⟩
    | some heartbeat =>
      -- There was a heartbeat, so it is the inventory that is lacking.
      have hinventory : o.inventory = none := by
        obtain ⟨hread, hreading⟩ := read_of_decides hdecides
        unfold Observation.hasEvidence at hevidence
        rw [hread, hreading, hheartbeat] at hevidence
        simpa using hevidence
      rw [hheartbeat] at hrestarts
      have hrestarts := hrestarts hinventory
      have hcount : ∀ n, Tracker.countIf (o.inventory = some (0, 0)) n = 0 := by
        intro n
        rw [hinventory]
        rfl
      by_cases hlast : tracker.lastHeartbeat = some heartbeat.observedAt
      · rw [if_pos hlast] at hrestarts
        obtain ⟨-, hzero, hbusy, hreads⟩ := Tracker.collect_repeated (tracker.fail o)
          (tracker.generationAt o) hheartbeat hlast
        exact ⟨hzero.trans hrestarts.1, hbusy.trans hrestarts.2, hreads.trans (hcount _)⟩
      · rw [if_neg hlast] at hrestarts
        obtain ⟨-, hzero, hbusy, hreads⟩ := Tracker.collect_distinct (tracker.fail o)
          (tracker.generationAt o) hheartbeat hlast
        rw [hrestarts.1] at hzero
        rw [hrestarts.2] at hbusy
        exact ⟨hzero, hbusy, hreads.trans (hcount _)⟩

/-- With a heartbeat and an inventory the counts go on. -/
theorem counts_collect (h : Counts tracker past) (hdecides : o.decides = true)
    (hevidence : o.hasEvidence = true) :
    Counts ((tracker.fail o).collect o (tracker.generationAt o)) (o :: past) := by
  obtain ⟨hread, hreading⟩ := read_of_decides hdecides
  obtain ⟨heartbeat, hheartbeat⟩ : ∃ heartbeat, o.heartbeat = some heartbeat := by
    unfold Observation.hasEvidence at hevidence
    rw [hread] at hevidence
    exact Option.isSome_iff_exists.mp (Bool.and_eq_true_iff.mp hevidence).1
  have hgeneration : ((tracker.fail o).collect o (tracker.generationAt o)).generation =
      some (tracker.generationAt o) := (Tracker.collect_frame (tracker.fail o) _ o).1
  -- Under a generation that is just beginning nothing has been counted.
  have hidle : tracker.zeroHeartbeats ≤ ((freshHeartbeats past).takeWhile
      (Tracker.isIdle (tracker.generationAt o))).length := by
    cases hnow : tracker.generation with
    | none => exact h.idleOver hnow ▸ Nat.zero_le _
    | some generation =>
      have heq : tracker.generationAt o = generation := by simp [Tracker.generationAt, hnow]
      exact heq ▸ h.idle generation hnow
  have hnotBusy : tracker.noBusyHeartbeats ≤ ((freshHeartbeats past).takeWhile
      (Tracker.isNotBusy (tracker.generationAt o))).length := by
    cases hnow : tracker.generation with
    | none => exact h.notBusyOver hnow ▸ Nat.zero_le _
    | some generation =>
      have heq : tracker.generationAt o = generation := by simp [Tracker.generationAt, hnow]
      exact heq ▸ h.notBusy generation hnow
  have hinventory : Tracker.countIf (o.inventory = some (0, 0)) tracker.zeroInventoryReads ≤
      ((o :: past).takeWhile emptyInventory).length := by
    have hempty : emptyInventory o = decide (o.inventory = some (0, 0)) := by
      simp [emptyInventory, hevidence, hreading]
    rw [← hempty]
    exact countIf_le h.inventory
  have hfresh : freshHeartbeats (o :: past) = distinctRead o past ++ freshHeartbeats past := by
    rw [freshHeartbeats, if_pos hevidence]
  have hlast : ((tracker.fail o).collect o (tracker.generationAt o)).lastHeartbeat =
      lastRead (o :: past) := by
    rw [collect_lastHeartbeat, lastRead, hread, hheartbeat]
  by_cases hrepeated : tracker.lastHeartbeat = some heartbeat.observedAt
  · have hnone : distinctRead o past = [] := by
      simp [distinctRead, hread, hheartbeat, ← h.last, hrepeated]
    obtain ⟨-, hzero, hbusy, hreads⟩ := Tracker.collect_repeated (tracker.fail o)
      (tracker.generationAt o) hheartbeat hrepeated
    rw [hnone, List.nil_append] at hfresh
    refine ⟨hlast, ?_, ?_, hreads ▸ hinventory, ?_, ?_⟩
    · intro generation hsome
      rw [hgeneration] at hsome
      cases hsome
      rw [hzero, hfresh]
      exact hidle
    · intro generation hsome
      rw [hgeneration] at hsome
      cases hsome
      rw [hbusy, hfresh]
      exact hnotBusy
    · intro hover
      rw [hgeneration] at hover
      cases hover
    · intro hover
      rw [hgeneration] at hover
      cases hover
  · have hone : distinctRead o past = [heartbeat] := by
      simp [distinctRead, hread, hheartbeat, ← h.last, hrepeated]
    obtain ⟨-, hzero, hbusy, hreads⟩ := Tracker.collect_distinct (tracker.fail o)
      (tracker.generationAt o) hheartbeat hrepeated
    rw [hone] at hfresh
    refine ⟨hlast, ?_, ?_, hreads ▸ hinventory, ?_, ?_⟩
    · intro generation hsome
      rw [hgeneration] at hsome
      cases hsome
      rw [hzero, hfresh]
      exact countIf_le hidle
    · intro generation hsome
      rw [hgeneration] at hsome
      cases hsome
      rw [hbusy, hfresh]
      exact countIf_le hnotBusy
    · intro hover
      rw [hgeneration] at hover
      cases hover
    · intro hover
      rw [hgeneration] at hover
      cases hover

theorem counts_conclude (h : Counts tracker history) (o : Observation)
    (decision : Platform.RecoveryDecision) : Counts (tracker.conclude o decision).1 history := by
  obtain ⟨hlast, ⟨hrestarted, -⟩ | ⟨hzero, hbusy, hreads, hgeneration⟩⟩ :=
    Tracker.conclude_cases tracker o decision
  · exact .of_restarted (hlast.trans h.last) hrestarted
  · refine ⟨hlast.trans h.last, ?_, ?_, hreads ▸ h.inventory, ?_, ?_⟩
    · intro generation hsome
      rw [hzero]
      exact h.idle generation (hgeneration ▸ hsome)
    · intro generation hsome
      rw [hbusy]
      exact h.notBusy generation (hgeneration ▸ hsome)
    · intro hover
      rw [hzero]
      exact h.idleOver (hgeneration ▸ hover)
    · intro hover
      rw [hbusy]
      exact h.notBusyOver (hgeneration ▸ hover)

theorem counts_observe (h : Counts tracker past) (hrestarts : Restarts tracker o) :
    Counts (observe tracker o).tracker (o :: past) := by
  cases hevidence : o.hasEvidence with
  | false =>
    exact .of_restarted (lastHeartbeat_observe h.last) (restarted_observe hrestarts hevidence)
  | true =>
    have hdecides : o.decides = true := by
      cases hdecides : o.decides with
      | true => rfl
      | false =>
        rw [(not_hasEvidence hdecides).2] at hevidence
        cases hevidence
    obtain ⟨hnot, -⟩ | ⟨-, decision, -, -, htracker⟩ := observe_cases tracker o
    · rw [hdecides] at hnot
      cases hnot
    · rw [htracker]
      exact counts_conclude (counts_collect h hdecides hevidence) o decision

theorem counts_trackerAfter (h : Restarting history) : Counts (trackerAfter history) history := by
  induction history with
  | nil => exact .of_restarted rfl ⟨rfl, rfl, rfl⟩
  | cons o past ih => exact counts_observe (ih h.2) h.1.1

/-! ## The drain proof -/

theorem two_of_takeWhile {α : Type} {p : α → Bool} {xs : List α}
    (h : 2 ≤ (xs.takeWhile p).length) :
    ∃ x y rest, xs = x :: y :: rest ∧ p x = true ∧ p y = true := by
  match xs with
  | [] => simp at h
  | [x] =>
    rw [List.takeWhile_cons] at h
    cases hx : p x <;> simp [hx] at h
  | x :: y :: rest =>
    cases hx : p x with
    | false => simp [hx] at h
    | true =>
      cases hy : p y with
      | false => simp [hx, hy] at h
      | true => exact ⟨x, y, rest, rfl, hx, hy⟩

theorem distinct_split (history : List Observation) :
    distinctHeartbeats history = freshHeartbeats history ++
      distinctHeartbeats (history.dropWhile (·.hasEvidence)) := by
  induction history with
  | nil => rfl
  | cons o past ih =>
    cases hevidence : o.hasEvidence with
    | true =>
      rw [distinctHeartbeats, freshHeartbeats, if_pos hevidence,
        List.dropWhile_cons_of_pos hevidence, List.append_assoc, ← ih]
    | false =>
      have hnone : ¬ o.hasEvidence = true := by simp [hevidence]
      rw [freshHeartbeats, if_neg hnone, List.dropWhile_cons_of_neg hnone, List.nil_append]

/-- Every heartbeat that counts was read by an observation. -/
theorem mem_freshHeartbeats {heartbeat : GuestHeartbeat}
    (h : heartbeat ∈ freshHeartbeats history) : ∃ o ∈ history, o.heartbeat = some heartbeat := by
  induction history with
  | nil => cases h
  | cons o past ih =>
    rw [freshHeartbeats] at h
    split_ifs at h with hevidence
    · rcases List.mem_append.mp h with h | h
      · refine ⟨o, List.mem_cons_self, ?_⟩
        have hdecides : o.decides = true := by
          cases hdecides : o.decides with
          | true => rfl
          | false =>
            rw [(not_hasEvidence hdecides).2] at hevidence
            cases hevidence
        unfold distinctRead at h
        rw [(read_of_decides hdecides).1] at h
        cases hheartbeat : o.heartbeat with
        | none =>
          rw [hheartbeat] at h
          cases h
        | some other =>
          rw [hheartbeat] at h
          simp only at h
          split_ifs at h
          · cases h
          · rw [List.mem_singleton.mp h]
      · obtain ⟨other, hother, hread⟩ := ih h
        exact ⟨other, List.mem_cons_of_mem o hother, hread⟩
    · cases h

theorem consistent_of_restarting (h : Restarting history) : ∀ o ∈ history, Consistent o := by
  induction history with
  | nil =>
    intro o ho
    cases ho
  | cons first past ih =>
    intro o ho
    rcases List.mem_cons.mp ho with rfl | ho
    · exact h.1.2
    · exact ih h.2 o ho

theorem quiet_pair {generation active : Nat} (hrestarting : Restarting history)
    (hcounts : Counts tracker history) (hgeneration : tracker.generation = some generation)
    (hidle : active = 0 → 2 ≤ tracker.zeroHeartbeats)
    (hnotBusy : active ≠ 0 → 2 ≤ tracker.noBusyHeartbeats) :
    ∃ later earlier rest, freshHeartbeats history = later :: earlier :: rest ∧
      Quiet generation active later ∧ Quiet generation active earlier := by
  by_cases hactive : active = 0
  · -- No active attempt: the idle count, and an idle guest has nothing busy.
    obtain ⟨later, earlier, rest, hfresh, hlater, hearlier⟩ :=
      two_of_takeWhile ((hidle hactive).trans (hcounts.idle generation hgeneration))
    have hquiet : ∀ heartbeat ∈ freshHeartbeats history,
        Tracker.isIdle generation heartbeat = true → Quiet generation active heartbeat := by
      intro heartbeat hmem hcounted
      obtain ⟨hacknowledged, hzero⟩ := Bool.and_eq_true_iff.mp hcounted
      obtain ⟨o, ho, hread⟩ := mem_freshHeartbeats hmem
      have hzero : heartbeat.localActiveAttempts = some 0 := of_decide_eq_true hzero
      exact ⟨of_decide_eq_true hacknowledged,
        consistent_of_restarting hrestarting o ho heartbeat hread hzero, fun _ ↦ hzero⟩
    refine ⟨later, earlier, rest, hfresh, hquiet later ?_ hlater, hquiet earlier ?_ hearlier⟩
    · rw [hfresh]
      exact List.mem_cons_self
    · rw [hfresh]
      exact List.mem_cons_of_mem _ List.mem_cons_self
  · obtain ⟨later, earlier, rest, hfresh, hlater, hearlier⟩ :=
      two_of_takeWhile ((hnotBusy hactive).trans (hcounts.notBusy generation hgeneration))
    have hquiet : ∀ heartbeat, Tracker.isNotBusy generation heartbeat = true →
        Quiet generation active heartbeat := by
      intro heartbeat hcounted
      obtain ⟨hacknowledged, hzero⟩ := Bool.and_eq_true_iff.mp hcounted
      exact ⟨of_decide_eq_true hacknowledged, of_decide_eq_true hzero,
        fun heq ↦ absurd heq hactive⟩
    exact ⟨later, earlier, rest, hfresh, hquiet later hlater, hquiet earlier hearlier⟩

theorem proves_of_terminates (h : Terminates o past) :
    o.decides = true ∧ RecoveryEvidence.Proves
      ((((trackerAfter past).fail o).collect o ((trackerAfter past).generationAt o)).evidence o
        ((trackerAfter past).generationAt o)) := by
  obtain ⟨-, hnone, -⟩ | ⟨hdecides, decision, hdecision, hsome, -⟩ :=
    observe_cases (trackerAfter past) o
  · rw [Terminates, hnone] at h
    cases h
  · rw [Terminates, hsome, hdecision] at h
    exact ⟨hdecides, RecoveryEvidence.proves_of_decide (Option.some.inj h)⟩

theorem inventory_of_proves {generation : Nat}
    (h : (tracker.evidence o generation).Proves) : o.inventory = some (0, 0) := by
  have hbusy := h.managedBusy
  have honline := h.managedOnline
  simp only [Tracker.evidence, Option.map_eq_some_iff] at hbusy honline
  obtain ⟨⟨busy, online⟩, hsome, rfl⟩ := hbusy
  obtain ⟨counts, hsome', hzero⟩ := honline
  rw [hsome] at hsome'
  cases hsome'
  obtain rfl : online = 0 := hzero
  exact hsome

/-- Every termination of a run that restarts where it should rests on an unbroken proof. -/
theorem drained_of_terminates (hrestarting : Restarting (o :: past)) (h : Terminates o past) :
    ∃ heartbeat active, o.read = some heartbeat ∧ heartbeat.localActiveAttempts = some active ∧
      DrainProof ((trackerAfter past).generationAt o) active (o :: past) := by
  obtain ⟨hdecides, hproves⟩ := proves_of_terminates h
  obtain ⟨hread, hreading⟩ := read_of_decides hdecides
  have hinventory := inventory_of_proves hproves
  obtain ⟨heartbeat, hheartbeat⟩ := heartbeat_of_inventory hinventory
  have hevidence : o.hasEvidence = true := by
    simp [Observation.hasEvidence, hread, hreading, hheartbeat, hinventory]
  have hcounts := counts_collect (counts_trackerAfter hrestarting.2) hdecides hevidence
  have hgeneration := (Tracker.collect_frame ((trackerAfter past).fail o)
    ((trackerAfter past).generationAt o) o).1
  obtain ⟨active, hactive, hidle, hnotBusy⟩ := hproves.confirmed
  have hactive : heartbeat.localActiveAttempts = some active := by
    simpa [Tracker.evidence, hheartbeat] using hactive
  refine ⟨heartbeat, active, hread.trans hheartbeat, hactive,
    (o :: past).takeWhile (·.hasEvidence), (o :: past).dropWhile (·.hasEvidence),
    List.takeWhile_append_dropWhile.symm, ?_, ?_, ?_⟩
  · intro other hother
    exact List.mem_takeWhile_imp hother
  · obtain ⟨later, earlier, rest, hfresh, hlater, hearlier⟩ :=
      quiet_pair hrestarting hcounts hgeneration hidle hnotBusy
    refine ⟨later, earlier, rest, ?_, hlater, hearlier⟩
    rw [distinct_split, hfresh]
    rfl
  · obtain ⟨later, earlier, rest, hhistory, hlater, hearlier⟩ :=
      two_of_takeWhile (hproves.inventory.trans hcounts.inventory)
    obtain ⟨hlaterEvidence, hlaterEmpty⟩ := Bool.and_eq_true_iff.mp hlater
    obtain ⟨hearlierEvidence, hearlierEmpty⟩ := Bool.and_eq_true_iff.mp hearlier
    refine ⟨later, earlier, rest.takeWhile (·.hasEvidence), ?_, of_decide_eq_true hlaterEmpty,
      of_decide_eq_true hearlierEmpty⟩
    rw [hhistory, List.takeWhile_cons_of_pos hlaterEvidence,
      List.takeWhile_cons_of_pos hearlierEvidence]

/-! ## The circuit -/

/-- The terminations of a history: those the tracker still holds and those it has forgotten,
each of which is over a window old. -/
structure Circuit (tracker : Tracker) (history : List Observation) : Prop where
  split : ∃ forgotten, (starts history).Perm (tracker.recoveryAttempts ++ forgotten) ∧
    ∀ now, (∀ o ∈ history, o.startedAt ≤ now) → ∀ start ∈ forgotten, start + circuitWindow < now
  bounded : ∀ since, (starts history).countP (inWindow since) ≤ circuitLimit

theorem recoveryAttempts_conclude (tracker : Tracker) (o : Observation)
    (decision : Platform.RecoveryDecision) : (tracker.conclude o decision).1.recoveryAttempts =
      if decision = .terminateNamed then tracker.recoveryAttempts ++ [o.startedAt]
      else tracker.recoveryAttempts := by
  cases decision with
  | observe | requestDrain | blocked reason => rfl
  | terminateNamed =>
    unfold Tracker.conclude
    cases o.recovered with
    | true => rfl
    | false => rfl

theorem startedAt_le (hordered : Ordered (o :: past)) :
    ∀ p ∈ past, p.startedAt ≤ o.expiredAt ∧ p.startedAt ≤ o.startedAt := by
  intro p hp
  have hbefore : p.startedAt ≤ o.failedAt := (List.pairwise_cons.mp hordered).1 p hp
  have horder := o.ordered
  omega

theorem circuit_observe (hordered : Ordered (o :: past)) (h : Circuit (trackerAfter past) past) :
    Circuit (trackerAfter (o :: past)) (o :: past) := by
  obtain ⟨forgotten, hperm, hold⟩ := h.split
  have hlater := startedAt_le hordered
  -- What is forgotten stays forgotten: later instants are only later.
  have hstill : ∀ now, (∀ p ∈ o :: past, p.startedAt ≤ now) → ∀ start ∈ forgotten,
      start + circuitWindow < now := by
    intro now hnow
    exact hold now fun p hp ↦ hnow p (List.mem_cons_of_mem o hp)
  obtain ⟨-, hnone, htracker⟩ | ⟨-, decision, hdecision, hsome, htracker⟩ :=
    observe_cases (trackerAfter past) o
  · have hstarts : starts (o :: past) = starts past := by
      have hnot : ¬ Terminates o past := by
        rw [Terminates, hnone]
        intro h
        cases h
      rw [starts, if_neg hnot]
    have hattempts : (trackerAfter (o :: past)).recoveryAttempts =
        (trackerAfter past).recoveryAttempts := by
      show (observe (trackerAfter past) o).tracker.recoveryAttempts = _
      obtain ⟨-, htracker⟩ | ⟨-, htracker | htracker⟩ := htracker
      · rw [htracker]
        rfl
      · rw [htracker]
      · rw [htracker]
        rfl
    refine ⟨⟨forgotten, ?_, hstill⟩, ?_⟩
    · rw [hstarts, hattempts]
      exact hperm
    · rw [hstarts]
      exact h.bounded
  · set kept := (trackerAfter past).recoveryAttempts.dropWhile fun attempt ↦
      circuitWindow < o.expiredAt - attempt with hkept
    set dropped := (trackerAfter past).recoveryAttempts.takeWhile fun attempt ↦
      circuitWindow < o.expiredAt - attempt with hdropped
    have hattempts : (trackerAfter past).recoveryAttempts = dropped ++ kept :=
      List.takeWhile_append_dropWhile.symm
    have hcollected : (((trackerAfter past).fail o).collect o
        ((trackerAfter past).generationAt o)).recoveryAttempts = kept :=
      (Tracker.collect_frame _ _ o).2
    have hexpired : ∀ start ∈ dropped, start + circuitWindow < o.expiredAt := by
      intro start hstart
      have hlong := List.mem_takeWhile_imp hstart
      have hlong : circuitWindow < o.expiredAt - start := by simpa using hlong
      omega
    -- Both what was forgotten before and what is forgotten now is over a window old.
    have hgone : ∀ start ∈ dropped ++ forgotten, start + circuitWindow < o.startedAt := by
      intro start hstart
      rcases List.mem_append.mp hstart with hstart | hstart
      · have horder := o.ordered
        have := hexpired start hstart
        omega
      · exact hold o.startedAt (fun p hp ↦ (hlater p hp).2) start hstart
    have hperm' : (starts past).Perm (kept ++ (dropped ++ forgotten)) := by
      refine hperm.trans ?_
      rw [hattempts, ← List.append_assoc]
      exact List.perm_append_comm.append_right forgotten
    have hstill' : ∀ now, (∀ p ∈ o :: past, p.startedAt ≤ now) →
        ∀ start ∈ dropped ++ forgotten, start + circuitWindow < now := by
      intro now hnow start hstart
      have hstarted := hnow o List.mem_cons_self
      have := hgone start hstart
      omega
    have hafter : (trackerAfter (o :: past)).recoveryAttempts =
        if decision = .terminateNamed then kept ++ [o.startedAt] else kept := by
      show (observe (trackerAfter past) o).tracker.recoveryAttempts = _
      rw [htracker, recoveryAttempts_conclude, hcollected]
    by_cases hterminate : decision = .terminateNamed
    · have hterminates : Terminates o past := by
        rw [Terminates, hsome, hterminate]
      have hstarts : starts (o :: past) = o.startedAt :: starts past := by
        rw [starts, if_pos hterminates]
      have hroom : kept.length < circuitLimit := by
        have hclosed := (proves_of_terminates hterminates).2.circuit
        simp only [Tracker.evidence, hcollected, decide_eq_false_iff_not] at hclosed
        omega
      rw [if_pos hterminate] at hafter
      refine ⟨⟨dropped ++ forgotten, ?_, hstill'⟩, ?_⟩
      · rw [hstarts, hafter, List.append_assoc]
        exact (hperm'.cons o.startedAt).trans List.perm_middle.symm
      · intro since
        rw [hstarts, List.countP_cons]
        by_cases hin : inWindow since o.startedAt = true
        · -- Only what the tracker still holds can share a window with a new termination.
          have hnone : (dropped ++ forgotten).countP (inWindow since) = 0 := by
            rw [List.countP_eq_zero]
            intro start hstart hstartIn
            have := hgone start hstart
            simp only [inWindow, Bool.and_eq_true, decide_eq_true_eq] at hin hstartIn
            omega
          have hkeptCount : kept.countP (inWindow since) ≤ kept.length := List.countP_le_length
          rw [if_pos hin, hperm'.countP_eq, List.countP_append, hnone]
          omega
        · have hbounded := h.bounded since
          rw [if_neg hin]
          omega
    · have hnot : ¬ Terminates o past := by
        rw [Terminates, hsome]
        intro heq
        exact hterminate (Option.some.inj heq)
      have hstarts : starts (o :: past) = starts past := by
        rw [starts, if_neg hnot]
      rw [if_neg hterminate] at hafter
      refine ⟨⟨dropped ++ forgotten, ?_, hstill'⟩, ?_⟩
      · rw [hstarts, hafter]
        exact hperm'
      · rw [hstarts]
        exact h.bounded

theorem circuit_trackerAfter (hordered : Ordered history) :
    Circuit (trackerAfter history) history := by
  induction history with
  | nil =>
    refine ⟨⟨[], List.Perm.refl _, ?_⟩, ?_⟩
    · intro now _ start hstart
      cases hstart
    · intro since
      exact Nat.zero_le _
  | cons o past ih => exact circuit_observe hordered (ih (List.pairwise_cons.mp hordered).2)

theorem restarting_of_suffix {later : List Observation} (h : Restarting history)
    (hsuffix : later <:+ history) : Restarting later := by
  induction history with
  | nil =>
    rw [List.suffix_nil.mp hsuffix]
    trivial
  | cons o past ih =>
    rcases List.suffix_cons_iff.mp hsuffix with rfl | hsuffix
    · exact h
    · exact ih h.2 hsuffix

/-- A run in which no observation that lacks evidence leaves a count standing, and every
heartbeat is consistent, keeps every promise. -/
theorem watchdog_safe (hordered : Ordered history) (hrestarting : Restarting history) :
    WatchdogSafe history where
  drained _ _ hsuffix hterminates :=
    drained_of_terminates (restarting_of_suffix hrestarting hsuffix) hterminates
  restarted _ _ hsuffix hevidence :=
    restarted_observe (restarting_of_suffix hrestarting hsuffix).1.1 hevidence
  circuit := (circuit_trackerAfter hordered).bounded

end

/-! ### A gap between two confirmations -/

def guestTarget : ScaleTarget := .repository ⟨⟨"acme", acme_owner⟩, ⟨"app", app_repo⟩⟩

/-- What a drained guest with one idle runner reports in the `n`th period. -/
def drainedHeartbeat (n : Nat) : GuestHeartbeat where
  schemaVersion := 1
  observedAt := seconds (200 * n)
  acknowledgedGeneration := some 7
  localActiveAttempts := some 1
  localBusyAttempts := some 0
  managedTargets := [guestTarget]
  unmanagedRunnerServices := some 0

/-- A failing look at the distribution in the `n`th period, with an empty inventory. -/
def failingLook (n : Nat) (heartbeat : Option GuestHeartbeat) : Observation where
  reached := true
  taskOwned := true
  wsl2 := true
  healthy := false
  failedAt := seconds (200 * n)
  generation := 7
  requestWritten := true
  claim := some true
  owner := none
  heartbeat := heartbeat
  listRunners _ := some ⟨[], some 0, false⟩
  now := seconds (200 * n)
  expiredAt := seconds (200 * n)
  measuredAt := seconds (200 * n)
  startedAt := seconds (200 * n)
  recovered := true
  recoveredAt := 0
  ordered := ⟨Nat.le_refl _, Nat.le_refl _, Nat.le_refl _⟩

/-- Three looks with a heartbeat each. -/
def steadyHistory : List Observation :=
  [failingLook 3 (some (drainedHeartbeat 3)), failingLook 2 (some (drainedHeartbeat 2)),
    failingLook 1 (some (drainedHeartbeat 1))]

/-- Three looks, the second of which finds no heartbeat. -/
def brokenHistory : List Observation :=
  [failingLook 3 (some (drainedHeartbeat 3)), failingLook 2 none,
    failingLook 1 (some (drainedHeartbeat 1))]

theorem steadyHistory_ordered : Ordered steadyHistory := by
  unfold Ordered steadyHistory
  decide

theorem brokenHistory_ordered : Ordered brokenHistory := by
  unfold Ordered brokenHistory
  decide

theorem steadyHistory_restarting : Restarting steadyHistory := by
  have hlook : ∀ (tracker : Tracker) (n : Nat),
      Restarts tracker (failingLook n (some (drainedHeartbeat n))) ∧
        Consistent (failingLook n (some (drainedHeartbeat n))) := by
    intro tracker n
    constructor
    · intro hnone
      cases hnone
    · intro heartbeat hsome hactive
      cases hsome
      cases hactive
  exact ⟨hlook _ 3, hlook _ 2, hlook _ 1, trivial⟩

/-- A drained guest is terminated at its third failure. -/
theorem steady_guest_terminated :
    Terminates (failingLook 3 (some (drainedHeartbeat 3))) steadyHistory.tail ∧
      WatchdogSafe steadyHistory :=
  ⟨by decide, watchdog_safe steadyHistory_ordered steadyHistory_restarting⟩

/-- The watchdog terminates on two confirmations between which it saw no heartbeat. -/
theorem watchdog_not_safe : ¬ ∀ history, Ordered history → WatchdogSafe history := by
  intro hsafe
  have hterminates : Terminates (failingLook 3 (some (drainedHeartbeat 3)))
      brokenHistory.tail := by
    decide
  obtain ⟨heartbeat, active, -, -, unbroken, older, hhistory, hevidence, -, later, earlier, rest,
    hunbroken, -, -⟩ := (hsafe brokenHistory brokenHistory_ordered).drained _ _
      List.suffix_rfl hterminates
  rw [hunbroken] at hhistory
  obtain rfl : failingLook 2 none = earlier := by
    have hsecond := congrArg (fun history ↦ history[1]?) hhistory
    exact Option.some.inj hsecond
  have hlacking := hevidence (failingLook 2 none) (by simp [hunbroken])
  cases hlacking

end RunnerManager.App
