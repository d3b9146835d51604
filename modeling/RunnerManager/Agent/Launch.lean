import RunnerManager.Agent.Lifecycle

/-!
# Launching attempts

The launch half of `crates/agent/src/lifecycle.rs`: `allocateAttempt` places and journals a new
attempt, `launchSteps` materializes the package, prepares the environment, registers the runner
and starts it. The three loops that wait and try again are one loop here, `retryLoop`.
-/

namespace RunnerManager.Agent

open RunnerManager.Domain

/-! ## Names and reasons -/

/-- How an identifier is printed: 32 hexadecimal digits in five groups. -/
def uuidText (value : Nat) : String :=
  let digits := (Nat.toDigits 16 value).leftpad 32 '0'
  "-".intercalate <| [(0, 8), (8, 4), (12, 4), (16, 4), (20, 12)].map fun (start, length) ↦
    String.ofList ((digits.drop start).take length)

def runnerName (attempt : AttemptId) : String :=
  "runner-manager-" ++ uuidText attempt.value

def packageFailureIsTerminal : FailureReason → Bool
  | .runnerPackageUnverified | .runnerVersionRejected => true
  | _ => false

/-- `safe_isolation_reason`: only the closed category of a provider failure is kept. -/
def safeIsolationReason (reason : FailureReason) (fallback : IsolationProviderFailure) :
    FailureReason :=
  match reason with
  | .isolationProvider failure => .isolationProvider failure
  | _ => .isolationProvider fallback

/-- The environment is not the one that the attempt allocated. -/
def ownershipMismatch : LifecycleError :=
  .failed (.isolationProvider .ownershipMismatch)

/-! ## Retries -/

/-- How many times a call is made at most. -/
def RetryPolicy.limit (retry : RetryPolicy) : Nat :=
  max retry.maxAttempts 1

def RetryPolicy.delay (retry : RetryPolicy) (failureIndex : Nat) : Elapsed :=
  min (retry.initial * 2 ^ min (failureIndex - 1) 31) retry.maximum

/-- Make a call again while its failure may pass, tries are left and the demand persists. The
demand is asked for before the wait and after it. -/
def retryLoop {δ α : Type} (policy : PolicyId) (attempt : LifecycleProgram (Except δ α))
    (final : δ → Bool) (delay : δ → Nat → Elapsed) (issued : Nat) :
    (left : Nat) → LifecycleProgram (Except δ α)
  | 0 => attempt
  | left + 1 => do
    match ← attempt with
    | .ok value => return .ok value
    | .error failure =>
      if final failure then return .error failure
      else if !(← call (.demandPersists policy)) then return .error failure
      else
        call (.wait (delay failure issued))
        if !(← call (.demandPersists policy)) then return .error failure
        else retryLoop policy attempt final delay (issued + 1) left

section Launch

variable (launcher : Launcher) (policy : ScalePolicy)

def retrying {δ α : Type} (attempt : LifecycleProgram (Except δ α)) (final : δ → Bool)
    (delay : δ → Option Elapsed) : LifecycleProgram (Except δ α) :=
  retryLoop policy.id attempt final
    (fun failure issued ↦ (delay failure).getD (launcher.retry.delay issued)) 1
    (launcher.retry.limit - 1)

def materializeWithRetry (attempt : RunnerAttempt) :
    LifecycleProgram (Except FailureReason String) :=
  retrying launcher policy (call (.materialize attempt)) packageFailureIsTerminal fun _ ↦ none

def registerWithRetry (request : JitRunnerRequest) :
    LifecycleProgram (Except JitRequestFailure JitRegistration) :=
  retrying launcher policy (call (.register policy.target request)) (·.terminal) (·.retryAfter)

/-- The starts of a native runner. A failure that left a live process is final. -/
def startWithRetry (prepared : PreparedEnvironment) (attempt : RunnerAttempt) (config : String) :
    LifecycleProgram (Except ProcessStartFailure EnvironmentIdentity) :=
  retrying launcher policy (call (.start prepared attempt config))
    (fun failure ↦ failure.livePid.isSome || !failure.retryable) fun _ ↦ none

/-! ## Allocation -/

/-- `record_allocation`: a lost race for a slot is reported as itself. -/
def recordAllocation (attempt : RunnerAttempt) : LifecycleProgram Unit := do
  match ← call (.recordAttempt attempt) with
  | .ok _ => return ()
  | .error (.slotAlreadyLeased policy slot) =>
    .fail (.failed (.other ("policy " ++ uuidText policy.value ++
      " already holds an uncleaned attempt in persistent slot s" ++ toString slot ++
      "; one slot is leased to at most one uncleaned attempt and nothing was written")))
  | .error _ => .fail .journal

/-- The resolved environment of an attempt that has not been prepared. -/
def ResolvedEnvironment.execution (resolution : ResolvedEnvironment) (generation : String) :
    AttemptExecution :=
  .isolated resolution.providerKind none resolution.image generation

def checkResolution : Option ResolvedEnvironment → LifecycleProgram Unit
  | none => return ()
  | some resolution =>
    if resolution.providerKind = .auto then
      .fail (.failed (.other "provider resolution mismatch"))
    else .ofExcept (fun _ ↦ .failed (.other "resolved image is incompatible"))
      (resolution.execution "generation-check").validate

/-- What the provider resolves for a policy, checked. -/
def resolveEnvironment : LifecycleProgram (Option ResolvedEnvironment) := do
  match ← call (.resolve policy) with
  | .error reason =>
    .fail (.failed (if policy.executionPolicy.isNative then reason
      else safeIsolationReason reason .runtimeOperationFailed))
  | .ok resolved =>
    if policy.executionPolicy.isNative ≠ resolved.isNone then
      .fail (.failed (.other "provider resolution mismatch"))
    else
      checkResolution resolved
      return resolved

/-- The attempt takes the environment that was resolved. -/
def takeResolution (attempt : RunnerAttempt) :
    Option ResolvedEnvironment → LifecycleProgram RunnerAttempt
  | none => return attempt
  | some resolution => do
    let generation ← call .newGeneration
    edge attempt (.allocateExecution (resolution.execution generation))

/-- `allocate_attempt`: everything before the first external effect. -/
def allocateAttempt : LifecycleProgram (RunnerAttempt × RoutingLabels) := do
  if !(← orRaise (← call .recoveryComplete)) then .fail .recoveryIncomplete
  else
    let capability ← call (.probe policy)
    if capability ≠ .ready then .fail (.failed capability.refusal)
    else
      let resolved ← resolveEnvironment policy
      match policy.routingLabels with
      | none => .fail (.failed .jitRequestFailed)
      | some labels =>
        let id ← call .newAttemptId
        let placement ← orRaise (← call (.allocateWorkspace policy id))
        let now ← call .now
        let attempt ← takeResolution
          (.allocateIn id policy.id placement.runtime placement.workspace now) resolved
        recordAllocation attempt
        return (attempt, labels)

/-! ## Steps -/

def failLaunch {α : Type} (attempt : RunnerAttempt) (reason : FailureReason) :
    LifecycleProgram α := do
  let _ ← conclude attempt (.failed reason)
  .fail (.failed reason)

/-- Journal the environment that was prepared for an isolated attempt. -/
def takePrepared (attempt : RunnerAttempt) (prepared : PreparedEnvironment) :
    LifecycleProgram RunnerAttempt :=
  match prepared.identity with
  | some (.isolated host owner kind environmentId image generation) => do
    if !identityMatchesIntent launcher.hostId attempt
        (.isolated host owner kind environmentId image generation) then .fail ownershipMismatch
    else
      let named ← edge attempt (.preparedEnvironment environmentId)
      let now ← call .now
      transition named (.markPrepared now)
  | _ => .fail ownershipMismatch

/-- Prepare the environment. An isolated attempt journals both ends of it. -/
def prepareAttempt (attempt : RunnerAttempt) :
    LifecycleProgram (RunnerAttempt × PreparedEnvironment) := do
  let isolated := !attempt.execution.isNative
  let attempt ← advanceIf (isolated = true) attempt .beginPrepare
  match ← call (.prepare attempt policy) with
  | .error reason =>
    failLaunch attempt
      (if isolated then safeIsolationReason reason .runtimeOperationFailed else reason)
  | .ok prepared =>
    if !isolated then return (attempt, prepared)
    else
      let attempt ← takePrepared launcher attempt prepared
      return (attempt, prepared)

/-- Register the runner and store its id before the journal says so. -/
def registerAttempt (attempt : RunnerAttempt) (labels : RoutingLabels) :
    LifecycleProgram (RunnerAttempt × String) := do
  match ← registerWithRetry launcher policy
      ⟨runnerName attempt.id, launcher.runnerGroupId, labels⟩ with
  | .error failure => failLaunch attempt failure.reason
  | .ok registration =>
    writeRunnerId attempt.runtimePath registration.runnerId
    let attempt ← advance attempt .jitReceived
    return (attempt, registration.config)

/-- Start an isolated runner. A failure keeps the attempt, and so its slot. -/
def startIsolated (prepared : PreparedEnvironment) (attempt : RunnerAttempt) (config : String) :
    LifecycleProgram RunnerAttempt := do
  match ← call (.start prepared attempt config) with
  | .error failure =>
    .fail (.failed (safeIsolationReason failure.reason .runtimeOperationFailed))
  | .ok started =>
    if !identityMatchesIntent launcher.hostId attempt started then .fail ownershipMismatch
    else advance attempt .startedIsolated

def startNative (prepared : PreparedEnvironment) (attempt : RunnerAttempt) (config : String) :
    LifecycleProgram RunnerAttempt := do
  match ← startWithRetry launcher policy prepared attempt config with
  | .ok (.nativeProcess pid) => advance attempt (.started pid)
  | .ok (.isolated ..) => .fail (.failed (.other "unexpected isolated environment identity"))
  | .error failure =>
    match failure.livePid with
    | some pid =>
      let _ ← advance attempt (.started pid)
      .fail (.failed failure.reason)
    | none => failLaunch attempt failure.reason

def launchSteps (attempt : RunnerAttempt) (labels : RoutingLabels) :
    LifecycleProgram RunnerAttempt := do
  match ← materializeWithRetry launcher policy attempt with
  | .error reason => failLaunch attempt reason
  | .ok version =>
    orRaise (← call (.prune version))
    orRaise (← call (.rememberVersion attempt.id version))
    let (attempt, prepared) ← prepareAttempt launcher policy attempt
    let (attempt, config) ← registerAttempt launcher policy attempt labels
    if attempt.execution.isNative then startNative launcher policy prepared attempt config
    else startIsolated launcher prepared attempt config

def launchAttempt : LifecycleProgram RunnerAttempt := do
  let (attempt, labels) ← allocateAttempt policy
  launchSteps launcher policy attempt labels

end Launch

end RunnerManager.Agent
