import RunnerManager.Domain.Recovery
import RunnerManager.Domain.Store
import RunnerManager.Lib.Program

/-!
# The ports of the lifecycle launcher

`crates/agent/src/lifecycle.rs` reaches the journal, GitHub, the process provider, the package
cache and the filesystem through ports. A `LifecycleCall` is one call of a port and
`LifecycleCall.Answer` what it may answer; an operation of the launcher is a program over these
calls. Events and log lines are not calls: nothing reads them back.
-/

namespace RunnerManager.Agent

open RunnerManager.Domain

/-! ## Results -/

inductive LifecycleError where
  | journal
  | missing (id : AttemptId)
  | transition
  | recoveryIncomplete
  | slotQuarantined (class_ detail : String)
  | workspaceCleanupDeferred
  | environmentCleanupDeferred
  | failed (reason : FailureReason)
deriving DecidableEq

namespace LifecycleError

def reason : LifecycleError → FailureReason
  | failed reason => reason
  | recoveryIncomplete => .other "startup recovery incomplete"
  | journal => .other "attempt journal operation failed"
  | missing _ => .other "attempt disappeared from the journal"
  | transition => .other "attempt transition was refused"
  | slotQuarantined _ detail => .other ("the persistent slot was not cleaned: " ++ detail)
  | workspaceCleanupDeferred => .workspaceCleanupDeferred
  | environmentCleanupDeferred => .other "isolated environment cleanup is deferred"

end LifecycleError

/-- Where one attempt's files go; the two parts are journalled together. -/
structure Placement where
  runtime : String
  workspace : AttemptWorkspace
deriving DecidableEq

inductive ReconcileProgress where
  | reconciled
  | deferred
  | replacement (attempt : AttemptId) (operation : String)
deriving DecidableEq

/-! ## What the provider, GitHub and the filesystem answer -/

inductive EnvironmentState where
  | starting
  | running
  | exited
  | missing
deriving DecidableEq

inductive ProviderStop where
  | stopped
  | stillRunning
deriving DecidableEq

inductive ProviderDestroy where
  | destroyed
  | deferred (reason : String)
deriving DecidableEq

inductive EnvironmentIdentity where
  | nativeProcess (pid : Nat)
  | isolated (host : HostId) (attempt : AttemptId) (providerKind : Backend)
      (environmentId : String) (resolvedImage : ImageReference) (generation : String)
deriving DecidableEq

/-- `identity_same_allocation`: the resource carries the attempt's own allocation. -/
def identitySameAllocation (host : HostId) (attempt : RunnerAttempt) :
    EnvironmentIdentity → Bool
  | .isolated owner ownerAttempt kind _ image resourceGeneration =>
    match attempt.execution with
    | .isolated providerKind _ resolvedImage generation =>
      owner = host && ownerAttempt = attempt.id && providerKind = kind
        && resolvedImage = image && generation = resourceGeneration
    | .native _ => false
  | .nativeProcess _ => false

/-- `identity_matches_intent`: and the environment the journal names, if it names one. -/
def identityMatchesIntent (host : HostId) (attempt : RunnerAttempt)
    (identity : EnvironmentIdentity) : Bool :=
  identitySameAllocation host attempt identity &&
    match attempt.execution, identity with
    | .isolated _ environmentId _ _, .isolated _ _ _ id _ _ =>
      environmentId.all fun journalId ↦ journalId = id
    | _, _ => false

inductive JobEvidence where
  | ranAJob
  | noJob
  | unknown
deriving DecidableEq

structure LifecycleGithubObservation where
  status : GithubRunnerObservation
  runnerId : Option Nat
deriving DecidableEq

namespace LifecycleGithubObservation

def unreachable : LifecycleGithubObservation :=
  ⟨.unreachable, none⟩

def notRegistered : LifecycleGithubObservation :=
  ⟨.notRegistered, none⟩

def registered (runnerId : Nat) (busy : Bool) : LifecycleGithubObservation :=
  ⟨.registered busy, some runnerId⟩

end LifecycleGithubObservation

structure JitRequestFailure where
  terminal : Bool
  reason : FailureReason
  retryAfter : Option Elapsed
deriving DecidableEq

structure JitRunnerRequest where
  name : String
  runnerGroupId : Nat
  labels : RoutingLabels
deriving DecidableEq

/-- `JitRegistration`: the listed runner and its one-time configuration. -/
structure JitRegistration where
  runnerId : Nat
  config : String
deriving DecidableEq

structure ProcessStartFailure where
  reason : FailureReason
  retryable : Bool
  livePid : Option Nat
deriving DecidableEq

inductive ProviderCapability where
  | ready
  | unsupported
  | notInstalled
  | permissionDenied
  | imageUnavailableOrIncompatible
  | diskQuotaUnavailable
  | degraded
deriving DecidableEq

def ProviderCapability.refusal : ProviderCapability → FailureReason
  | ready | degraded => .isolationProvider .degraded
  | unsupported => .isolationProvider .unsupported
  | notInstalled => .isolationProvider .notInstalled
  | permissionDenied => .isolationProvider .permissionDenied
  | imageUnavailableOrIncompatible => .isolationProvider .imageUnavailableOrIncompatible
  | diskQuotaUnavailable => .isolationProvider .diskQuotaUnavailable

structure ResolvedEnvironment where
  providerKind : Backend
  image : ImageReference
deriving DecidableEq

/-- `PreparedEnvironment`, as far as the launcher looks into it. -/
structure PreparedEnvironment where
  attempt : AttemptId
  identity : Option EnvironmentIdentity
deriving DecidableEq

/-! ## Calls -/

/-- One call of a port. -/
inductive LifecycleCall where
  | now
  | recordAttempt (attempt : RunnerAttempt)
  | inspect (attempt : RunnerAttempt)
  | recover (attempt : RunnerAttempt)
  | owns (attempt : RunnerAttempt)
  | stop (attempt : RunnerAttempt)
  | destroy (attempt : RunnerAttempt)
  | enumerateOwned (host : HostId)
  | recoveredPid (attempt : RunnerAttempt)
  | completedSuccessfully (attempt : RunnerAttempt)
  | hasTerminateIntent (attempt : RunnerAttempt)
  | recordTerminateIntent (attempt : RunnerAttempt)
  | observe (target : ScaleTarget) (attempt : AttemptId)
  | deregister (target : ScaleTarget) (runnerId : Nat)
  | readRunnerId (runtime : String)
  | storeRunnerId (runtime : String) (runnerId : Nat)
  | jobEvidence (runtime : String)
  | runtimeExists (runtime : String)
  | cleanupDue (attempt : AttemptId) (now : Timestamp)
  | cleanupSucceeded (attempt : AttemptId)
  | cleanupFailed (attempt : AttemptId) (now : Timestamp)
  | preserveDiagnostics (attempt : RunnerAttempt) (outcome : AttemptOutcome)
  | scrubWorkspace (attempt : RunnerAttempt)
  | releasePackage (attempt : AttemptId)
  | recoveryComplete
  | probe (policy : ScalePolicy)
  | resolve (policy : ScalePolicy)
  | newAttemptId
  | newGeneration
  | allocateWorkspace (policy : ScalePolicy) (attempt : AttemptId)
  | materialize (attempt : RunnerAttempt)
  | prune (version : String)
  | rememberVersion (attempt : AttemptId) (version : String)
  | demandPersists (policy : PolicyId)
  | wait (delay : Elapsed)
  | prepare (attempt : RunnerAttempt) (policy : ScalePolicy)
  | register (target : ScaleTarget) (request : JitRunnerRequest)
  | start (prepared : PreparedEnvironment) (attempt : RunnerAttempt) (config : String)

/-- What each call may answer. -/
abbrev LifecycleCall.Answer : LifecycleCall → Type
  | now => Timestamp
  | recordAttempt _ => Except StoreError Unit
  | inspect _ | recover _ => Except FailureReason EnvironmentState
  | owns _ => Except FailureReason Bool
  | stop _ => Except FailureReason ProviderStop
  | destroy _ => Except FailureReason ProviderDestroy
  | enumerateOwned _ => List EnvironmentIdentity
  | recoveredPid _ => Except FailureReason (Option Nat)
  | completedSuccessfully _ | hasTerminateIntent _ => Bool
  | recordTerminateIntent _ => Except FailureReason Unit
  | observe .. => LifecycleGithubObservation
  | deregister .. => Bool
  | readRunnerId _ => Option Nat
  | storeRunnerId .. => Except LifecycleError Unit
  | jobEvidence _ => JobEvidence
  | runtimeExists _ | cleanupDue .. => Bool
  | cleanupSucceeded _ | cleanupFailed .. => Unit
  | preserveDiagnostics .. | scrubWorkspace _ => Except LifecycleError Unit
  | releasePackage _ => Except FailureReason Unit
  | recoveryComplete => Except LifecycleError Bool
  | probe _ => ProviderCapability
  | resolve _ => Except FailureReason (Option ResolvedEnvironment)
  | newAttemptId => AttemptId
  | newGeneration => String
  | allocateWorkspace .. => Except LifecycleError Placement
  | materialize _ => Except FailureReason String
  | prune _ | rememberVersion .. => Except LifecycleError Unit
  | demandPersists _ => Bool
  | wait _ => Unit
  | prepare .. => Except FailureReason PreparedEnvironment
  | register .. => Except JitRequestFailure JitRegistration
  | start .. => Except ProcessStartFailure EnvironmentIdentity

abbrev LifecycleProgram := Program LifecycleCall LifecycleCall.Answer LifecycleError

def call (c : LifecycleCall) : LifecycleProgram c.Answer :=
  .perform c

def orFail {α : Type} (answer : Except FailureReason α) : LifecycleProgram α :=
  .ofExcept .failed answer

/-- An answered failure fails the operation. -/
def orRaise {α : Type} (answer : Except LifecycleError α) : LifecycleProgram α :=
  .ofExcept id answer

/-! ## Rules -/

section Rules

variable {σ α β : Type} {requires : σ → LifecycleCall → Prop}
  {after : σ → (c : LifecycleCall) → c.Answer → σ}
  {C : Contract LifecycleCall LifecycleCall.Answer σ} {s : σ}

theorem call_wp {c : LifecycleCall} {Q : Except LifecycleError c.Answer → σ → Prop}
    (hrequires : requires s c) (hnext : ∀ answer, Q (.ok answer) (after s c answer)) :
    (Contract.ofAfter requires after).wp (call c) Q s := by
  refine ⟨hrequires, ?_⟩
  rintro answer _ rfl
  exact hnext answer

theorem ask_wp {c : LifecycleCall} {f : c.Answer → LifecycleProgram α}
    {Q : Except LifecycleError α → σ → Prop} (hrequires : requires s c)
    (hnext : ∀ answer, (Contract.ofAfter requires after).wp (f answer) Q (after s c answer)) :
    (Contract.ofAfter requires after).wp (call c >>= f) Q s :=
  (Contract.wp_bind _ _).mpr (call_wp hrequires hnext)

theorem orFail_bind_wp {answer : Except FailureReason α} {f : α → LifecycleProgram β}
    {Q : Except LifecycleError β → σ → Prop}
    (hok : ∀ value, answer = .ok value → C.wp (f value) Q s)
    (hfailed : ∀ error, Q (.error error) s) : C.wp (orFail answer >>= f) Q s := by
  cases answer with
  | ok value => exact hok value rfl
  | error reason => exact hfailed (.failed reason)

theorem orRaise_bind_wp {answer : Except LifecycleError α} {f : α → LifecycleProgram β}
    {Q : Except LifecycleError β → σ → Prop}
    (hok : ∀ value, answer = .ok value → C.wp (f value) Q s)
    (hfailed : ∀ error, Q (.error error) s) : C.wp (orRaise answer >>= f) Q s := by
  cases answer with
  | ok value => exact hok value rfl
  | error error => exact hfailed error

end Rules

end RunnerManager.Agent
