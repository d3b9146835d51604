import RunnerManager.Agent.Ports

/-!
# Supervising attempts

The supervision half of `crates/agent/src/lifecycle.rs`: a pass over one journalled attempt,
native (`reconcileOne`) or isolated (`reconcileIsolatedOne`), and the cleanup of a concluded one
(`cleanAttempt`). A function that mutates the attempt in place returns the new one here; the
callers of the cleanup look only at the id, which does not change.
-/

namespace RunnerManager.Agent

open RunnerManager.Domain

/-- `RetryPolicy`; the delays are lengths of time. -/
structure RetryPolicy where
  maxAttempts : Nat
  initial : Elapsed
  maximum : Elapsed
deriving DecidableEq

/-- The configuration of a launcher. -/
structure Launcher where
  hostId : HostId
  runnerGroupId : Nat
  timeouts : RecoveryTimeouts
  retry : RetryPolicy
deriving DecidableEq

/-! ## The journal -/

/-- Take one domain edge in memory. -/
def edge (attempt : RunnerAttempt) (op : AttemptOp) : LifecycleProgram RunnerAttempt :=
  .ofExcept (fun _ ↦ .transition) (op.answer attempt)

def record (attempt : RunnerAttempt) : LifecycleProgram Unit := do
  .ofExcept (fun _ ↦ .journal) (← call (.recordAttempt attempt))

/-- `transition`: take one domain edge and journal it. -/
def transition (attempt : RunnerAttempt) (op : AttemptOp) : LifecycleProgram RunnerAttempt := do
  let next ← edge attempt op
  record next
  return next

/-- An edge at the present instant, journalled. -/
def advance (attempt : RunnerAttempt) (op : Timestamp → AttemptOp) :
    LifecycleProgram RunnerAttempt := do
  let now ← call .now
  transition attempt (op now)

/-- An edge that is taken where a condition holds. -/
def advanceIf (condition : Prop) [Decidable condition] (attempt : RunnerAttempt)
    (op : Timestamp → AttemptOp) : LifecycleProgram RunnerAttempt :=
  if condition then advance attempt op else return attempt

def conclude (attempt : RunnerAttempt) (outcome : AttemptOutcome) :
    LifecycleProgram RunnerAttempt :=
  advance attempt (.conclude outcome)

/-! ## The runner id -/

/-- `write_runner_id`: a stored id is never replaced by another. -/
def writeRunnerId (runtime : String) (runnerId : Nat) : LifecycleProgram Unit := do
  match ← call (.readRunnerId runtime) with
  | some existing => if existing = runnerId then return () else .fail .journal
  | none => orRaise (← call (.storeRunnerId runtime runnerId))

/-- `known_runner_id`: journalled, observed, or stored beside the runtime. -/
def knownRunnerId (attempt : RunnerAttempt) (observed : Option Nat) :
    LifecycleProgram (Option Nat) :=
  match attempt.githubRunnerId <|> observed with
  | some runnerId => return some runnerId
  | none => call (.readRunnerId attempt.runtimePath)

/-- `deregister_runner`: a failed removal is stepped over. -/
def deregisterRunner (policy : ScalePolicy) (attempt : RunnerAttempt) : LifecycleProgram Unit := do
  match ← knownRunnerId attempt none with
  | none => return ()
  | some runnerId =>
    let _ ← call (.deregister policy.target runnerId)

/-- Inventory closes the gap between an accepted registration and the stored runner id. -/
def recoverRunnerId (attempt : RunnerAttempt) (github : LifecycleGithubObservation) :
    LifecycleProgram Unit := do
  match github.runnerId with
  | none => return ()
  | some runnerId =>
    match ← call (.readRunnerId attempt.runtimePath) with
    | some _ => return ()
    | none => writeRunnerId attempt.runtimePath runnerId

/-- `deregister_runner` where GitHub was seen to list the runner. -/
def deregisterListed (policy : ScalePolicy) (attempt : RunnerAttempt)
    (github : LifecycleGithubObservation) : LifecycleProgram Unit :=
  if github.status.isRegistered then deregisterRunner policy attempt else return ()

/-! ## Cleanup -/

/-- `defer_environment_cleanup`, and the error it is raised with. -/
def deferEnvironmentCleanup {α : Type} (attempt : RunnerAttempt) : LifecycleProgram α := do
  let _ ← advance attempt .deferCleanup
  .fail .environmentCleanupDeferred

/-- The end of both cleanups: keep the diagnostics, scrub, release the package, journal. -/
def retire (attempt : RunnerAttempt) (op : Timestamp → AttemptOp) : LifecycleProgram Unit := do
  match attempt.outcome with
  | none => .fail .transition
  | some outcome =>
    orRaise (← call (.preserveDiagnostics attempt outcome))
    orRaise (← call (.scrubWorkspace attempt))
    orFail (← call (.releasePackage attempt.id))
    let _ ← advance attempt op

section Cleanup

variable (launcher : Launcher)

/-- The environment is gone as far as the provider says; prove it and retire the attempt. -/
def retireIsolated (attempt : RunnerAttempt) : LifecycleProgram Unit := do
  let resources ← call (.enumerateOwned launcher.hostId)
  if resources.any (identitySameAllocation launcher.hostId attempt) then
    deferEnvironmentCleanup attempt
  else retire attempt .cleanIsolated

/-- Stop an environment that was last seen alive; the answer is whether it is stopped. -/
def stopEnvironment (attempt : RunnerAttempt) (current : EnvironmentState) :
    LifecycleProgram Bool := do
  if current = .starting ∨ current = .running then
    match ← call (.stop attempt) with
    | .ok .stopped => return true
    | _ => return false
  else return true

/-- Destroy a stopped environment; only its absence afterwards counts. -/
def destroyStopped (attempt : RunnerAttempt) : LifecycleProgram Unit := do
  match ← call (.destroy attempt) with
  | .ok .destroyed =>
    match ← call (.inspect attempt) with
    | .ok .missing => retireIsolated launcher attempt
    | _ => deferEnvironmentCleanup attempt
  | _ => deferEnvironmentCleanup attempt

/-- Stop and destroy an environment that still exists; `current` is what was last seen of it. -/
def destroyEnvironment (attempt : RunnerAttempt) (current : EnvironmentState) :
    LifecycleProgram Unit := do
  match ← call (.owns attempt) with
  | .ok true =>
    if ← stopEnvironment attempt current then destroyStopped launcher attempt
    else deferEnvironmentCleanup attempt
  | _ => deferEnvironmentCleanup attempt

/-- Whether the journal names the environment. -/
def hasIdentity (attempt : RunnerAttempt) : Bool :=
  attempt.execution.environmentId.isSome

/-- What the provider sees now. A prepare may have succeeded before its identity could be
journalled, so an attempt without one is recovered rather than inspected. -/
def currentEnvironment (attempt : RunnerAttempt) :
    LifecycleProgram (Except FailureReason EnvironmentState) :=
  if hasIdentity attempt then call (.inspect attempt) else call (.recover attempt)

/-- What is left to do, from what the provider sees now. -/
def cleanCurrent (attempt : RunnerAttempt) :
    Except FailureReason EnvironmentState → LifecycleProgram Unit
  | .error _ => deferEnvironmentCleanup attempt
  | .ok current =>
    if !hasIdentity attempt ∧ current ≠ .missing then deferEnvironmentCleanup attempt
    else if current ≠ .missing then destroyEnvironment launcher attempt current
    else retireIsolated launcher attempt

/-- The cleanup of an attempt journalled `destroying`. -/
def cleanDestroying (attempt : RunnerAttempt) : LifecycleProgram Unit := do
  let resources ← call (.enumerateOwned launcher.hostId)
  let matching := resources.filter (identitySameAllocation launcher.hostId attempt)
  if 1 < matching.length ∨
      matching.any (fun identity ↦ !identityMatchesIntent launcher.hostId attempt identity) then
    deferEnvironmentCleanup attempt
  else if !hasIdentity attempt ∧ resources.any (identityMatchesIntent launcher.hostId attempt) then
    deferEnvironmentCleanup attempt
  else
    let current ← currentEnvironment attempt
    cleanCurrent launcher attempt current

def cleanIsolatedAttempt (attempt : RunnerAttempt) : LifecycleProgram Unit := do
  if attempt.state = .destroying then cleanDestroying launcher attempt
  else
    let attempt ← advance attempt .beginDestroy
    cleanDestroying launcher attempt

def cleanAttempt (attempt : RunnerAttempt) : LifecycleProgram Unit := do
  if !attempt.execution.isNative then cleanIsolatedAttempt launcher attempt
  else
    match ← orFail (← call (.destroy attempt)) with
    | .deferred reason => .fail (.failed (.other reason))
    | .destroyed => retire attempt .clean

/-- `clean_or_quarantine`: a tolerated failure is retried later. -/
def cleanOrQuarantine (attempt : RunnerAttempt) : LifecycleProgram Unit := do
  let now ← call .now
  if !(← call (.cleanupDue attempt.id now)) then return ()
  else
    match ← (cleanAttempt launcher attempt).outcome with
    | .error (.slotQuarantined ..) | .error .workspaceCleanupDeferred
    | .error .environmentCleanupDeferred => call (.cleanupFailed attempt.id now)
    | .error error => .fail error
    | .ok _ => call (.cleanupSucceeded attempt.id)

end Cleanup

/-! ## A pass over a native attempt -/

def replacementOperation : AttemptOutcome → Option String
  | .failed .jitExpired => some "jit_expired_replacement"
  | .failed .processExitedUnexpectedly => some "exit_before_acceptance_replacement"
  | _ => none

/-- The intent a conclusion leaves behind. -/
def replacementProgress (attempt : RunnerAttempt) (operation : Option String) :
    ReconcileProgress :=
  match operation with
  | none => .reconciled
  | some operation => .replacement attempt.id operation

section Passes

variable (launcher : Launcher) (policy : ScalePolicy)

/-- Conclude, clean, and answer what the conclusion leaves behind. -/
def concludeAndClean (attempt : RunnerAttempt) (outcome : AttemptOutcome)
    (operation : Option String) : LifecycleProgram ReconcileProgress := do
  let attempt ← conclude attempt outcome
  cleanOrQuarantine launcher attempt
  return replacementProgress attempt operation

/-- A disposable runtime that a late child recreated is removed again. -/
def reconcileCleaned (attempt : RunnerAttempt) : LifecycleProgram ReconcileProgress := do
  if attempt.workspace ≠ .ephemeral then return .reconciled
  else if !(← call (.runtimeExists attempt.runtimePath)) then return .reconciled
  else
    let now ← call .now
    if !(← call (.cleanupDue attempt.id now)) then return .reconciled
    else
      match ← call (.scrubWorkspace attempt) with
      | .ok _ =>
        call (.cleanupSucceeded attempt.id)
        return .reconciled
      | .error .workspaceCleanupDeferred =>
        call (.cleanupFailed attempt.id now)
        return .reconciled
      | .error error => .fail error

/-- The child identity survived a crash that the `starting` write did not. -/
def recoverStarted (attempt : RunnerAttempt) (alive : Bool) : LifecycleProgram RunnerAttempt := do
  if attempt.state = .jitReceived ∧ alive then
    match ← orFail (← call (.recoveredPid attempt)) with
    | none => return attempt
    | some pid => advance attempt (.started pid)
  else return attempt

/-- The states in which a one-shot child may have run. -/
def hasStarted : AttemptState → Bool
  | .starting | .idle | .busy => true
  | _ => false

/-- What a child that exited successfully did: the runner's own diagnostics decide, and GitHub
only where they say nothing. The id is the one to walk to `busy` with. -/
def exitEvidence (attempt : RunnerAttempt) (github : LifecycleGithubObservation)
    (evidence : JobEvidence) : LifecycleProgram (Option (Option Nat × AttemptOutcome)) := do
  match attempt.state, evidence with
  | .starting, .ranAJob | .idle, .ranAJob =>
    let runnerId ← knownRunnerId attempt github.runnerId
    return runnerId.map fun runnerId ↦ (some runnerId, .completedJob)
  | .busy, .ranAJob => return some (none, .completedJob)
  | .busy, .noJob => return some (none, .exitedIdleWithoutWork)
  | .busy, .unknown =>
    return if github.status = .notRegistered then some (none, .completedJob) else none
  | _, _ => return none

/-- What a child that this invocation owned and reaped with a successful exit did, if it is
one. -/
def exitOutcome (attempt : RunnerAttempt) (alive : Bool) (github : LifecycleGithubObservation) :
    LifecycleProgram (Option (Option Nat × AttemptOutcome)) := do
  if alive ∨ github.status = .unreachable ∨ !hasStarted attempt.state then return none
  else if !(← call (.completedSuccessfully attempt)) then return none
  else
    let evidence ← call (.jobEvidence attempt.runtimePath)
    exitEvidence attempt github evidence

/-- Walk a child that exited successfully to the state its outcome needs. -/
def walkExited (attempt : RunnerAttempt) (walkToBusy : Option Nat) (outcome : AttemptOutcome)
    (now : Timestamp) : LifecycleProgram RunnerAttempt :=
  match walkToBusy with
  | some runnerId => transition attempt (.assignedJob runnerId now)
  | none =>
    if outcome = .exitedIdleWithoutWork then transition attempt (.assignmentNotTaken now)
    else return attempt

/-- Conclude a child that exited successfully. -/
def concludeExited (attempt : RunnerAttempt) (github : LifecycleGithubObservation)
    (walkToBusy : Option Nat) (outcome : AttemptOutcome) : LifecycleProgram ReconcileProgress := do
  deregisterListed policy attempt github
  let now ← call .now
  let attempt ← walkExited attempt walkToBusy outcome now
  concludeAndClean launcher attempt outcome none

/-- A live runner journalled `busy` that GitHub shows waiting and that ran nothing. -/
def assignmentDropped (attempt : RunnerAttempt) (alive : Bool)
    (github : LifecycleGithubObservation) : LifecycleProgram Bool := do
  if alive ∧ attempt.state = .busy ∧ github.status = .registered false then
    match ← call (.jobEvidence attempt.runtimePath) with
    | .noJob => return true
    | _ => return false
  else return false

/-- A registration whose process did not survive has lost its one-shot configuration. -/
def concludeLostJit (attempt : RunnerAttempt) : LifecycleProgram ReconcileProgress := do
  let attempt ← advanceIf (attempt.state = .allocated) attempt .jitReceived
  deregisterRunner policy attempt
  concludeAndClean launcher attempt (.failed .jitExpired) (some "jit_expired_replacement")

/-- Move the attempt where GitHub saw it. -/
def observeState (attempt : RunnerAttempt) (github : LifecycleGithubObservation)
    (state : AttemptState) : LifecycleProgram ReconcileProgress := do
  match ← knownRunnerId attempt github.runnerId with
  | none => .fail .transition
  | some runnerId =>
    match state with
    | .jitReceived =>
      let _ ← advance attempt .jitReceived
      return .reconciled
    | .starting =>
      match attempt.processId with
      | none => .fail .transition
      | some pid =>
        let _ ← advance attempt (.started pid)
        return .reconciled
    | .idle =>
      let _ ← advance attempt (.registeredIdle runnerId)
      return .reconciled
    | .busy =>
      let _ ← advance attempt (.assignedJob runnerId)
      return .reconciled
    | _ => .fail .transition

/-- Stop a live process, and conclude only once it is gone. The mark is durable before the
process is signalled. -/
def terminate (attempt : RunnerAttempt) (payload : AttemptOutcome) :
    LifecycleProgram ReconcileProgress := do
  let idleExit := payload = .exitedIdleWithoutWork
  orFail (← call (.recordTerminateIntent attempt))
  if (← orFail (← call (.stop attempt))) = .stillRunning then return .deferred
  else if (← orFail (← call (.inspect attempt))) = .running then return .deferred
  else
    deregisterRunner policy attempt
    if idleExit then concludeAndClean launcher attempt .exitedIdleWithoutWork none
    else
      concludeAndClean launcher attempt (.failed .terminatedAfterRegistrationTimeout)
        (some "registration_timeout_replacement")

/-- Apply the recovery decision to a native attempt. -/
def settle (attempt : RunnerAttempt) (alive : Bool) (github : LifecycleGithubObservation) :
    LifecycleProgram ReconcileProgress := do
  let now ← call .now
  match recoveryDecision attempt ⟨alive, github.status⟩ launcher.timeouts now with
  | .nothing | .wait | .adopt => return .reconciled
  | .defer => return .deferred
  | .clean =>
    cleanOrQuarantine launcher attempt
    return .reconciled
  | .observe state => observeState attempt github state
  | .conclude outcome =>
    deregisterListed policy attempt github
    concludeAndClean launcher attempt outcome (replacementOperation outcome)
  | .terminate payload => terminate launcher policy attempt payload

/-- The rest of a pass, once the terminate mark was read. The durable mark is more
authoritative than an observation that cannot tell a kill from a crash. -/
def decideMarked (attempt : RunnerAttempt) (alive : Bool) (github : LifecycleGithubObservation)
    (marked : Bool) : LifecycleProgram ReconcileProgress := do
  if marked && !alive then
    deregisterRunner policy attempt
    concludeAndClean launcher attempt (.failed .terminatedAfterRegistrationTimeout)
      (some "registration_timeout_replacement")
  else if (attempt.state = .allocated ∨ attempt.state = .jitReceived) ∧ !alive ∧
      github.status.isRegistered then
    concludeLostJit launcher policy attempt
  else settle launcher policy attempt alive github

/-- The decisions of a pass, once the process and GitHub were observed. -/
def decideNative (attempt : RunnerAttempt) (alive : Bool) (github : LifecycleGithubObservation) :
    LifecycleProgram ReconcileProgress := do
  match ← exitOutcome attempt alive github with
  | some (walkToBusy, outcome) => concludeExited launcher policy attempt github walkToBusy outcome
  | none =>
    if ← assignmentDropped attempt alive github then
      let _ ← advance attempt .assignmentNotTaken
      return .reconciled
    else
      let marked ← call (.hasTerminateIntent attempt)
      decideMarked launcher policy attempt alive github marked

/-- A pass over a live native attempt. -/
def reconcileNative (attempt : RunnerAttempt) : LifecycleProgram ReconcileProgress := do
  let alive := (← orFail (← call (.inspect attempt))) = .running
  let github ← call (.observe policy.target attempt.id)
  recoverRunnerId attempt github
  let attempt ← recoverStarted attempt alive
  decideNative launcher policy attempt alive github

/-! ## A pass over an isolated attempt -/

/-- The runner id of an isolated attempt: observed, or stored beside the runtime. -/
def observedRunnerId (attempt : RunnerAttempt) (github : LifecycleGithubObservation) :
    LifecycleProgram (Option Nat) :=
  match github.runnerId with
  | some runnerId => return some runnerId
  | none => call (.readRunnerId attempt.runtimePath)

/-- Move an isolated attempt where GitHub saw it. -/
def observeIsolated (attempt : RunnerAttempt) (runnerId : Nat) (state : AttemptState) :
    LifecycleProgram ReconcileProgress := do
  match state with
  | .idle =>
    let _ ← advance attempt (.registeredIdle runnerId)
    return .reconciled
  | .busy =>
    let _ ← advance attempt (.assignedJob runnerId)
    return .reconciled
  | _ => .fail .transition

/-- Apply the recovery decision to an isolated attempt. Here an ordered termination concludes:
the cleanup of an isolated attempt stops what still runs before the slot comes back. -/
def settleIsolated (attempt : RunnerAttempt) (live : Bool) (github : LifecycleGithubObservation) :
    LifecycleProgram ReconcileProgress := do
  let now ← call .now
  match recoveryDecision attempt ⟨live, github.status⟩ launcher.timeouts now with
  | .nothing | .wait | .adopt => return .reconciled
  | .defer => return .deferred
  | .clean =>
    cleanOrQuarantine launcher attempt
    return .reconciled
  | .observe state =>
    match ← observedRunnerId attempt github with
    | none => .fail .transition
    | some runnerId => observeIsolated attempt runnerId state
  | .conclude outcome | .terminate outcome =>
    deregisterListed policy attempt github
    concludeAndClean launcher attempt outcome (replacementOperation outcome)

/-- A reaped one-shot listener is stronger evidence than a missing registration. -/
def completedUnlisted (attempt : RunnerAttempt) (live : Bool)
    (github : LifecycleGithubObservation) : LifecycleProgram Bool :=
  if attempt.state = .busy ∧ !live ∧ github.status = .notRegistered then
    call (.completedSuccessfully attempt)
  else return false

/-- The part of an isolated pass after the provider's view was journalled. -/
def decideRecovered (attempt : RunnerAttempt) (live : Bool) :
    LifecycleProgram ReconcileProgress := do
  let github ← call (.observe policy.target attempt.id)
  recoverRunnerId attempt github
  if ← completedUnlisted attempt live github then
    concludeAndClean launcher attempt .completedJob none
  else settleIsolated launcher policy attempt live github

/-- The part of an isolated pass after the provider was asked. -/
def decideIsolated (attempt : RunnerAttempt) (live : Bool) :
    LifecycleProgram ReconcileProgress := do
  let attempt ← advanceIf (attempt.state = .jitReceived ∧ live) attempt .startedIsolated
  decideRecovered launcher policy attempt live

/-- A pass over a live isolated attempt whose environment was journalled. -/
def recoverIsolated (attempt : RunnerAttempt) : LifecycleProgram ReconcileProgress := do
  match ← call (.recover attempt) with
  | .error _ => return .deferred
  | .ok provider =>
    let live := provider = .starting ∨ provider = .running
    if provider = .missing then decideIsolated launcher policy attempt live
    else
      match ← call (.owns attempt) with
      | .ok true => decideIsolated launcher policy attempt live
      | _ => return .deferred

/-- The conclusion of an isolated attempt that was interrupted before its configuration. -/
def preparationInterrupted : AttemptOutcome :=
  .failed (.other "isolated preparation interrupted")

def reconcileIsolatedOne (attempt : RunnerAttempt) : LifecycleProgram ReconcileProgress := do
  if attempt.state = .cleaned then return .reconciled
  else if attempt.state.isTerminal then
    cleanOrQuarantine launcher attempt
    return .reconciled
  else if attempt.state = .allocated ∨ attempt.state = .preparing ∨ attempt.state = .prepared then
    concludeAndClean launcher attempt preparationInterrupted none
  else recoverIsolated launcher policy attempt

def reconcileOne (attempt : RunnerAttempt) : LifecycleProgram ReconcileProgress := do
  if !attempt.execution.isNative then reconcileIsolatedOne launcher policy attempt
  else if attempt.state = .cleaned then reconcileCleaned attempt
  else if attempt.state.isTerminal then
    cleanOrQuarantine launcher attempt
    return .reconciled
  else reconcileNative launcher policy attempt

end Passes

end RunnerManager.Agent
