import RunnerManager.Lib.Program
import RunnerManager.Platform.Heartbeat

/-!
# The launch fence

`crates/platform/src/wsl/fence.rs`: a directory that Windows and a managed guest share, and that
only one of them can create. Its owner is recorded in it afterwards. A `FenceCall` is one call
of the file system, of the process table or of the process's own held set; an operation is a
program over these calls. `staleGuestOwner` is the judgement of a recorded guest owner, and
`reclaimUnheld` and `clearRecovery` are the two operations that remove a claim of somebody else.
-/

namespace RunnerManager.Platform

open RunnerManager.Domain

/-! ## Records -/

structure ProcessIdentity where
  pid : Nat
  startToken : String
deriving DecidableEq

inductive Adoption where
  | live
  | gone
  | pidRecycled (current : ProcessIdentity)
deriving DecidableEq

structure FenceOwner where
  schemaVersion : Nat
  kind : FenceOwnerKind
  generation : Option Nat
  processId : Nat
  acquiredAt : Timestamp
  identity : Option ProcessIdentity
deriving DecidableEq

def ownerlessClaimGrace : Nat := seconds (5 * 60)

/-- `elapsed_at_least`: a `since` in the future has not. -/
def elapsedAtLeast (since now : Timestamp) (limit : Nat) : Bool :=
  decide (0 ≤ now - since) && decide ((limit : Int) ≤ now - since)

inductive StaleGuestClaim where
  | ownerExited
  | earlierBoot
  | writtenBeforeThisDaemon
  | releaseFailed
  | ownerNeverRecorded
deriving DecidableEq

structure ReclaimedGuestClaim where
  reason : StaleGuestClaim
  owner : Option FenceOwner
deriving DecidableEq

inductive GuestClaimAttempt where
  | claimed (reclaimed : Option ReclaimedGuestClaim)
  | busy
deriving DecidableEq

/-- What one judgement is told by `ProcessProbe`; no answer means that the system will not
say. -/
structure ProcessProbe where
  current : Option ProcessIdentity
  recheck : ProcessIdentity → Option Adoption
  pidAlive : Nat → Option Bool
  bootTime : Option Timestamp
  processStarted : Timestamp

def staleGuestOwner (owner : FenceOwner) (probe : ProcessProbe) : Option StaleGuestClaim :=
  if owner.kind ≠ .guestLaunch then none
  else
    match owner.identity with
    | some identity =>
      if probe.current = some identity then some .releaseFailed
      else
        match probe.recheck identity with
        | none => none
        | some .live => none
        | some .gone | some (.pidRecycled _) => some .ownerExited
    | none =>
      if probe.bootTime.any fun booted ↦ owner.acquiredAt < booted then some .earlierBoot
      else if owner.acquiredAt < probe.processStarted then some .writtenBeforeThisDaemon
      else if probe.current.any fun me ↦ me.pid = owner.processId then some .releaseFailed
      else
        match probe.pidAlive owner.processId with
        | none => none
        | some true => none
        | some false => some .ownerExited

/-- The owner is this very process, which holds nothing, or it is known to be gone. -/
def FenceOwner.ProvablyGone (owner : FenceOwner) (probe : ProcessProbe) : Prop :=
  match owner.identity with
  | some identity => probe.current = some identity ∨
      ∃ adoption, probe.recheck identity = some adoption ∧ adoption ≠ .live
  | none => (∃ booted, probe.bootTime = some booted ∧ owner.acquiredAt < booted) ∨
      owner.acquiredAt < probe.processStarted ∨
      (∃ me, probe.current = some me ∧ me.pid = owner.processId) ∨
      probe.pidAlive owner.processId = some false

/-- Only the claim of a guest that is known to be gone is stale: a live owner, and one that
cannot be inspected, are not. -/
theorem provablyGone_of_stale {owner : FenceOwner} {probe : ProcessProbe}
    (h : (staleGuestOwner owner probe).isSome = true) :
    owner.kind = .guestLaunch ∧ owner.ProvablyGone probe := by
  unfold staleGuestOwner at h
  by_cases hkind : owner.kind ≠ .guestLaunch
  · rw [if_pos hkind] at h
    cases h
  rw [if_neg hkind] at h
  refine ⟨not_not.mp hkind, ?_⟩
  unfold FenceOwner.ProvablyGone
  cases hidentity : owner.identity with
  | some identity =>
    simp only [hidentity] at h
    by_cases hown : probe.current = some identity
    · exact .inl hown
    rw [if_neg hown] at h
    cases hrecheck : probe.recheck identity with
    | none => simp [hrecheck] at h
    | some adoption =>
      refine .inr ⟨adoption, hrecheck, ?_⟩
      rintro rfl
      simp [hrecheck] at h
  | none =>
    simp only [hidentity] at h
    split_ifs at h with hboot hstarted hpid
    · exact .inl (by simpa [Option.any_eq_true] using hboot)
    · exact .inr (.inl hstarted)
    · exact .inr (.inr (.inl (by simpa [Option.any_eq_true] using hpid)))
    · right; right; right
      cases halive : probe.pidAlive owner.processId with
      | none => simp [halive] at h
      | some alive =>
        cases alive with
        | true => simp [halive] at h
        | false => rfl

/-! ## Calls -/

/-- One call of the file system, the process table or the held set. Where a path is not named,
the call is about the fence directory. -/
inductive FenceCall where
  | now
  | processId
  | ownIdentity
  | probe (owner : FenceOwner)
  | createRoot
  | createDir
  | createParent
  | createTemporary
  | persistOwner (owner : FenceOwner)
  | removeDir
  | readOwner
  | readModified
  | readRequest
  | writeRequest (request : DrainRequest)
  | removeRequest
  | removeStatus
  | heldHere
  | insertHeld
  | removeHeld
  | sleep (attempt : Nat)
  | allocationLock
  | setFenceHeld (generation : Option Nat)

/-- What each call may answer. A directory that exists already and a missing file are answers,
not errors. -/
abbrev FenceCall.Answer : FenceCall → Type
  | now => Timestamp
  | processId => Nat
  | ownIdentity => Option ProcessIdentity
  | probe _ => ProcessProbe
  | createRoot | createParent | createTemporary | persistOwner _ => Except FenceError Unit
  | createDir => Except FenceError Bool
  | removeDir | writeRequest _ | removeRequest | removeStatus => Except FenceError Unit
  | readOwner => Except FenceError (Option FenceOwner)
  | readModified => Except FenceError (Option Timestamp)
  | readRequest => Except FenceError (Option DrainRequest)
  | heldHere => Bool
  | insertHeld | removeHeld | sleep _ | setFenceHeld _ => Unit
  | allocationLock => Bool

abbrev FenceProgram := Program FenceCall FenceCall.Answer FenceError

namespace Fence

def ask (c : FenceCall) : FenceProgram c.Answer :=
  .perform c

def orFail {α : Type} (answer : Except FenceError α) : FenceProgram α :=
  .ofExcept id answer

/-! ## Claims -/

/-- `write_json` of the owner record: `atomic_write` makes the parent and a temporary file in
it, and renames that. -/
def writeOwner (owner : FenceOwner) : FenceProgram Unit := do
  orFail (← ask .createParent)
  orFail (← ask .createTemporary)
  orFail (← ask (.persistOwner owner))

/-- `FenceClaim::try_claim`; the answer is whether the directory was created. -/
def tryClaim (kind : FenceOwnerKind) (generation : Option Nat) : FenceProgram Bool := do
  orFail (← ask .createRoot)
  if ← orFail (← ask .createDir) then
    let processId ← ask .processId
    let acquiredAt ← ask .now
    let identity ← ask .ownIdentity
    match ← (writeOwner
      ⟨recoverySchemaVersion, kind, generation, processId, acquiredAt, identity⟩).outcome with
    | .ok _ => return true
    | .error error =>
      let _ ← ask .removeDir
      .fail error
  else return false

/-- `FenceClaim::owner`. -/
def readOwner : FenceProgram (Option FenceOwner) := do
  orFail (← ask .readOwner)

/-- `reclaim_unheld`. The owner is read again just before the claim is removed. -/
def reclaimUnheld (now : Timestamp) : FenceProgram (Option ReclaimedGuestClaim) := do
  match ← readOwner with
  | none =>
    let modified ← orFail (← ask .readModified)
    if !modified.any fun modified ↦ elapsedAtLeast modified now ownerlessClaimGrace then
      return none
    else if (← readOwner).isSome then return none
    else
      orFail (← ask .removeDir)
      return some ⟨.ownerNeverRecorded, none⟩
  | some owner =>
    let probe ← ask (.probe owner)
    match staleGuestOwner owner probe with
    | none => return none
    | some reason =>
      if (← readOwner) ≠ some owner then return none
      else
        orFail (← ask .removeDir)
        return some ⟨reason, some owner⟩

def reclaimStaleGuestClaim : FenceProgram (Option ReclaimedGuestClaim) := do
  let now ← ask .now
  if ← ask .heldHere then return none
  else reclaimUnheld now

/-- The claim enters the held set. -/
def hold (reclaimed : Option ReclaimedGuestClaim) : FenceProgram GuestClaimAttempt := do
  ask .insertHeld
  return .claimed reclaimed

def tryClaimGuestLaunch : FenceProgram GuestClaimAttempt := do
  let now ← ask .now
  orFail (← ask .createRoot)
  if ← ask .heldHere then return .busy
  else if ← tryClaim .guestLaunch none then hold none
  else
    match ← reclaimUnheld now with
    | none => return .busy
    | some reclaimed =>
      if ← tryClaim .guestLaunch none then hold (some reclaimed) else return .busy

def releaseAttempts : Nat := 3

/-- The removals of a release, from one attempt on. -/
def releaseLoop (attempt : Nat) : (left : Nat) → FenceProgram Unit
  | 0 => do orFail (← ask .removeDir)
  | left + 1 => do
    match ← ask .removeDir with
    | .ok _ => return ()
    | .error _ =>
      ask (.sleep attempt)
      releaseLoop (attempt + 1) left

def release : FenceProgram Unit := do
  ask .removeHeld
  releaseLoop 1 (releaseAttempts - 1)

/-! ## Recovery -/

def isRecoveryOf (generation : Nat) (owner : FenceOwner) : Bool :=
  owner.kind = .windowsRecovery && owner.generation = some generation

def clearRecovery (generation : Nat) : FenceProgram Unit := do
  if (← readOwner).any (isRecoveryOf generation) then orFail (← ask .removeDir)
  if (← orFail (← ask .readRequest)).any fun request ↦ request.generation.val ≠ generation then
    return ()
  else orFail (← ask .removeRequest)

def recoveryGeneration (owner : Option FenceOwner) : Option Nat :=
  owner.bind fun owner ↦ if owner.kind = .windowsRecovery then owner.generation else none

/-- `clear_recovery` where there is a generation. -/
def clearGeneration : Option Nat → FenceProgram Unit
  | none => return ()
  | some generation => clearRecovery generation

def retireWindowsRecovery : FenceProgram Unit := do
  clearGeneration (recoveryGeneration (← readOwner))
  let request ← orFail (← ask .readRequest)
  clearGeneration (request.map (·.generation.val))
  orFail (← ask .removeStatus)

/-- `retire_abandoned_windows_recovery`; the answer is whether anything was retired. -/
def retireAbandonedWindowsRecovery (now : Timestamp) (abandonedAfter : Nat) :
    FenceProgram Bool := do
  let request ← orFail (← ask .readRequest)
  if request.any fun request ↦ !elapsedAtLeast request.requestedAt now abandonedAfter then
    return false
  else
    let owner := (← readOwner).filter fun owner ↦ owner.kind = .windowsRecovery
    if owner.any fun owner ↦ !elapsedAtLeast owner.acquiredAt now abandonedAfter then return false
    else if request.isNone && owner.isNone then return false
    else
      retireWindowsRecovery
      return true

end Fence

end RunnerManager.Platform
