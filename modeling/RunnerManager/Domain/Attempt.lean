import RunnerManager.Domain.Execution
import RunnerManager.Lib.Mutation

/-!
# The runner attempt

`crates/domain/src/attempt.rs`: the thirteen states of an attempt, the edges between them and
every public operation on the record. The operations mutate in place, so each one is a state
transformer whose error still carries the record. Read `AttemptOp.run_applied` first: it says
for every operation when it is accepted and what it then changes.
-/

namespace RunnerManager.Domain

open RunnerManager.Mutation

/-! ## States -/

/-- The states of one runner attempt. -/
inductive AttemptState where
  | allocated
  | preparing
  | prepared
  | jitReceived
  | starting
  | idle
  | busy
  | finished
  | failed
  | orphaned
  | destroying
  | cleanupDeferred
  | cleaned
deriving DecidableEq

namespace AttemptState

/-- Every edge an attempt may take. -/
def legal : List (AttemptState × AttemptState) :=
  [(allocated, jitReceived), (allocated, preparing), (preparing, prepared),
    (prepared, jitReceived), (jitReceived, starting), (starting, idle), (starting, busy),
    (idle, busy), (busy, idle),
    (allocated, failed), (allocated, orphaned), (preparing, failed), (preparing, orphaned),
    (prepared, failed), (prepared, orphaned), (jitReceived, failed), (jitReceived, orphaned),
    (starting, failed), (starting, orphaned),
    (idle, finished), (idle, failed), (idle, orphaned),
    (busy, finished), (busy, failed), (busy, orphaned),
    (finished, cleaned), (failed, cleaned), (orphaned, cleaned),
    (finished, destroying), (failed, destroying), (orphaned, destroying),
    (destroying, cleanupDeferred), (cleanupDeferred, destroying), (destroying, cleaned)]

def concludableFrom : List AttemptState :=
  [allocated, preparing, prepared, jitReceived, starting, idle, busy]

/-- Whether `LEGAL` holds the edge. -/
def canTransitionTo (state next : AttemptState) : Bool :=
  legal.contains (state, next)

theorem legal_induction {P : AttemptState → AttemptState → Prop} {state next : AttemptState}
    (h : ∀ edge ∈ legal, P edge.1 edge.2) (hlegal : state.canTransitionTo next = true) :
    P state next :=
  h _ (List.contains_iff_mem.mp hlegal)

def isTerminal : AttemptState → Bool
  | finished | failed | orphaned | destroying | cleanupDeferred | cleaned => true
  | _ => false

def countsAgainstCapacity (state : AttemptState) : Bool :=
  !state.isTerminal

/-- Concluded, with no cleanup begun. -/
def isConcluded : AttemptState → Bool
  | finished | failed | orphaned => true
  | _ => false

def isIsolatedPhase : AttemptState → Bool
  | preparing | prepared | destroying | cleanupDeferred => true
  | _ => false

/-- The phases an isolated attempt needs its environment for. -/
def needsEnvironment : AttemptState → Bool
  | prepared | jitReceived | starting | idle | busy => true
  | _ => false

end AttemptState

/-! ## Outcomes -/

/-- Why a provider could not run an isolated attempt. -/
inductive IsolationProviderFailure where
  | unsupported
  | notInstalled
  | permissionDenied
  | imageUnavailableOrIncompatible
  | diskQuotaUnavailable
  | degraded
  | runtimeOperationFailed
  | ownershipMismatch
  | unsafeRuntimePath
  | jitHandoffRejected
deriving DecidableEq

/-- Why an attempt failed. -/
inductive FailureReason where
  | jitRequestFailed
  | jitExpired
  | runnerPackageUnverified
  | runnerVersionRejected
  | processStartFailed
  | processExitedUnexpectedly
  | registrationTimedOut
  | terminatedAfterRegistrationTimeout
  | isolationProvider (category : IsolationProviderFailure)
  | workspaceCleanupDeferred
  | hostUnfit
  | other (detail : String)
deriving DecidableEq

/-- How an attempt ended. -/
inductive AttemptOutcome where
  | completedJob
  | exitedIdleWithoutWork
  | failed (reason : FailureReason)
  | orphaned
deriving DecidableEq

namespace AttemptOutcome

def terminalState : AttemptOutcome → AttemptState
  | completedJob | exitedIdleWithoutWork => .finished
  | failed _ => .failed
  | orphaned => .orphaned

/-- The states an outcome may be recorded from. -/
def requiredFrom : AttemptOutcome → List AttemptState
  | completedJob => [.busy]
  | exitedIdleWithoutWork => [.idle]
  | failed _ | orphaned => AttemptState.concludableFrom

end AttemptOutcome

/-! ## The record -/

/-- Why an operation or a stored row is refused. -/
inductive AttemptError where
  | illegalTransition (source target : AttemptState)
  | busyCannotBeCleaned
  | outcomeUnreachable (source : AttemptState) (outcome : AttemptOutcome)
  | terminalWithoutOutcome (state : AttemptState)
  | nonTerminalWithOutcome (state : AttemptState) (outcome : AttemptOutcome)
  | outcomeStateMismatch (state : AttemptState) (outcome : AttemptOutcome)
  | terminalWithoutTimestamp (state : AttemptState)
  | nonTerminalWithTimestamp (state : AttemptState)
  | timestampsOutOfOrder (state : AttemptState) (field : String) (createdAt found : Timestamp)
  | workspace (error : WorkspaceError)
  | execution (error : ExecutionError)
deriving DecidableEq

/-- One attempt to run one GitHub runner. -/
structure RunnerAttempt where
  id : AttemptId
  policyId : PolicyId
  githubRunnerId : Option Nat
  state : AttemptState
  outcome : Option AttemptOutcome
  processId : Option Nat
  execution : AttemptExecution
  runtimePath : String
  workspace : AttemptWorkspace
  createdAt : Timestamp
  terminalAt : Option Timestamp
  lastStateChangeAt : Timestamp
deriving DecidableEq

namespace RunnerAttempt

/-- A new native attempt in `workspace`. -/
def allocateIn (id : AttemptId) (policyId : PolicyId) (runtimePath : String)
    (workspace : AttemptWorkspace) (now : Timestamp) : RunnerAttempt where
  id
  policyId
  githubRunnerId := none
  state := .allocated
  outcome := none
  processId := none
  execution := .native none
  runtimePath
  workspace
  createdAt := now
  terminalAt := none
  lastStateChangeAt := now

/-- A new native attempt in a disposable workspace. -/
def allocate (id : AttemptId) (policyId : PolicyId) (runtimePath : String)
    (now : Timestamp) : RunnerAttempt :=
  allocateIn id policyId runtimePath .ephemeral now

/-- A live attempt counts, and so does an isolated one until its environment is gone. -/
def countsAgainstCapacity (attempt : RunnerAttempt) : Bool :=
  attempt.state.countsAgainstCapacity
    || (!attempt.execution.isNative && attempt.state ≠ .cleaned)

def holdsSlotLease (attempt : RunnerAttempt) : Bool :=
  attempt.workspace.kind = .persistent && attempt.state ≠ .cleaned

end RunnerAttempt

/-! ## Operations -/

/-- An in-place operation: an error still carries the record it stopped at. -/
abbrev Mutation := EStateM AttemptError RunnerAttempt Unit

namespace RunnerAttempt

def refuseIdentity : Mutation :=
  throw (.execution .attemptIdentityMismatch)

/-- Take one legal edge. -/
def moveTo (next : AttemptState) (now : Timestamp) : Mutation := do
  let attempt ← get
  if !attempt.state.canTransitionTo next then
    throw (.illegalTransition attempt.state next)
  set { attempt with state := next, lastStateChangeAt := now }

/-- Fix the execution identity before anything is started. -/
def allocateExecution (execution : AttemptExecution) : Mutation := do
  let attempt ← get
  if attempt.state ≠ .allocated || attempt.processId.isSome then refuseIdentity
  match execution.validate with
  | .error e => throw (.execution e)
  | .ok () =>
    match execution with
    | .native (some _) => refuseIdentity
    | _ => set { attempt with execution }

/-- The states in which an environment identity may still be filled in. -/
def mayPrepareEnvironment : AttemptState → Bool
  | .allocated | .preparing | .failed | .orphaned | .destroying | .cleanupDeferred => true
  | _ => false

/-- Fill the environment identity in, and take it back when it does not validate. -/
def preparedEnvironment (environmentId : String) : Mutation := do
  let attempt ← get
  if !mayPrepareEnvironment attempt.state then refuseIdentity
  match attempt.execution with
  | .isolated kind none image generation =>
    set { attempt with execution := .isolated kind (some environmentId) image generation }
    match (AttemptExecution.isolated kind (some environmentId) image generation).validate with
    | .ok () => pure ()
    | .error e =>
      let attempt ← get
      set { attempt with execution := .isolated kind none image generation }
      throw (.execution e)
  | _ => refuseIdentity

/-- Journal that the provider is about to create the environment. -/
def beginPrepare (now : Timestamp) : Mutation := do
  let attempt ← get
  if attempt.execution.isNative then refuseIdentity
  moveTo .preparing now

/-- Journal that the environment exists. -/
def markPrepared (now : Timestamp) : Mutation := do
  let attempt ← get
  if attempt.execution.environmentId.isNone then refuseIdentity
  moveTo .prepared now

/-- Journal that GitHub issued the JIT configuration. -/
def jitReceived (now : Timestamp) : Mutation :=
  moveTo .jitReceived now

/-- Journal the started host process. -/
def started (processId : Nat) (now : Timestamp) : Mutation := do
  let attempt ← get
  if !attempt.execution.isNative then refuseIdentity
  moveTo .starting now
  modify fun attempt ↦
    { attempt with processId := some processId, execution := .native (some processId) }

/-- Journal the started environment. -/
def startedIsolated (now : Timestamp) : Mutation := do
  let attempt ← get
  if attempt.execution.environmentId.isNone then refuseIdentity
  moveTo .starting now

/-- GitHub lists the runner and it has no job. -/
def registeredIdle (githubRunnerId : Nat) (now : Timestamp) : Mutation := do
  moveTo .idle now
  modify fun attempt ↦ { attempt with githubRunnerId := some githubRunnerId }

/-- GitHub lists the runner as assigned. -/
def assignedJob (githubRunnerId : Nat) (now : Timestamp) : Mutation := do
  moveTo .busy now
  modify fun attempt ↦ { attempt with githubRunnerId := some githubRunnerId }

/-- The runner never started the job GitHub had assigned. -/
def assignmentNotTaken (now : Timestamp) : Mutation := do
  let attempt ← get
  if attempt.state ≠ .busy then throw (.illegalTransition attempt.state .idle)
  moveTo .idle now

/-- Conclude with an outcome the current state can reach. -/
def conclude (outcome : AttemptOutcome) (now : Timestamp) : Mutation := do
  let attempt ← get
  if !outcome.requiredFrom.contains attempt.state then
    throw (.outcomeUnreachable attempt.state outcome)
  moveTo outcome.terminalState now
  modify fun attempt ↦ { attempt with terminalAt := some now, outcome := some outcome }

/-- Retire a concluded native attempt. -/
def clean (now : Timestamp) : Mutation := do
  let attempt ← get
  if attempt.state = .busy then throw .busyCannotBeCleaned
  if !attempt.execution.isNative then throw (.execution .isolatedCleanupUnproven)
  if !attempt.state.isConcluded then throw (.illegalTransition attempt.state .cleaned)
  moveTo .cleaned now

/-- Journal that the environment is about to be destroyed. -/
def beginDestroy (now : Timestamp) : Mutation := do
  let attempt ← get
  if attempt.execution.isNative || attempt.outcome.isNone then refuseIdentity
  moveTo .destroying now

/-- Journal that the environment could not be destroyed yet. -/
def deferCleanup (now : Timestamp) : Mutation := do
  let attempt ← get
  if attempt.execution.isNative then refuseIdentity
  moveTo .cleanupDeferred now

/-- Retire an isolated attempt whose environment is gone. -/
def cleanIsolated (now : Timestamp) : Mutation := do
  let attempt ← get
  if attempt.execution.isNative then refuseIdentity
  moveTo .cleaned now

end RunnerAttempt

/-- The public operations of an attempt. -/
inductive AttemptOp where
  | allocateExecution (execution : AttemptExecution)
  | preparedEnvironment (environmentId : String)
  | beginPrepare (now : Timestamp)
  | markPrepared (now : Timestamp)
  | jitReceived (now : Timestamp)
  | started (processId : Nat) (now : Timestamp)
  | startedIsolated (now : Timestamp)
  | registeredIdle (githubRunnerId : Nat) (now : Timestamp)
  | assignedJob (githubRunnerId : Nat) (now : Timestamp)
  | assignmentNotTaken (now : Timestamp)
  | conclude (outcome : AttemptOutcome) (now : Timestamp)
  | clean (now : Timestamp)
  | beginDestroy (now : Timestamp)
  | deferCleanup (now : Timestamp)
  | cleanIsolated (now : Timestamp)
deriving DecidableEq

/-- Fill in the environment of an isolated identity. -/
def AttemptExecution.withEnvironment (environmentId : String) : AttemptExecution → AttemptExecution
  | native processId => native processId
  | isolated kind _ image generation => isolated kind (some environmentId) image generation

namespace AttemptOp

/-- The operation as the source performs it. -/
def run : AttemptOp → Mutation
  | allocateExecution execution => RunnerAttempt.allocateExecution execution
  | preparedEnvironment environmentId => RunnerAttempt.preparedEnvironment environmentId
  | beginPrepare now => RunnerAttempt.beginPrepare now
  | markPrepared now => RunnerAttempt.markPrepared now
  | jitReceived now => RunnerAttempt.jitReceived now
  | started processId now => RunnerAttempt.started processId now
  | startedIsolated now => RunnerAttempt.startedIsolated now
  | registeredIdle githubRunnerId now => RunnerAttempt.registeredIdle githubRunnerId now
  | assignedJob githubRunnerId now => RunnerAttempt.assignedJob githubRunnerId now
  | assignmentNotTaken now => RunnerAttempt.assignmentNotTaken now
  | conclude outcome now => RunnerAttempt.conclude outcome now
  | clean now => RunnerAttempt.clean now
  | beginDestroy now => RunnerAttempt.beginDestroy now
  | deferCleanup now => RunnerAttempt.deferCleanup now
  | cleanIsolated now => RunnerAttempt.cleanIsolated now

/-- The edge an operation takes, if it takes one. -/
def target : AttemptOp → Option AttemptState
  | allocateExecution _ | preparedEnvironment _ => none
  | beginPrepare _ => some .preparing
  | markPrepared _ => some .prepared
  | jitReceived _ => some .jitReceived
  | started .. | startedIsolated _ => some .starting
  | registeredIdle .. | assignmentNotTaken _ => some .idle
  | assignedJob .. => some .busy
  | conclude outcome _ => some outcome.terminalState
  | clean _ | cleanIsolated _ => some .cleaned
  | beginDestroy _ => some .destroying
  | deferCleanup _ => some .cleanupDeferred

/-- What an operation asks of the record beyond the edge being legal. -/
def Guard (attempt : RunnerAttempt) : AttemptOp → Prop
  | allocateExecution execution => attempt.state = .allocated ∧ attempt.processId = none ∧
      execution.validate = .ok () ∧ execution.processId = none
  | preparedEnvironment environmentId => RunnerAttempt.mayPrepareEnvironment attempt.state = true ∧
      attempt.execution.isNative = false ∧ attempt.execution.environmentId = none ∧
      (attempt.execution.withEnvironment environmentId).validate = .ok ()
  | beginPrepare _ | deferCleanup _ | cleanIsolated _ => attempt.execution.isNative = false
  | markPrepared _ | startedIsolated _ => attempt.execution.environmentId.isSome = true
  | jitReceived _ | registeredIdle .. | assignedJob .. => True
  | started .. => attempt.execution.isNative = true
  | assignmentNotTaken _ => attempt.state = .busy
  | conclude outcome _ => attempt.state ∈ outcome.requiredFrom
  | clean _ => attempt.execution.isNative = true ∧ attempt.state.isConcluded = true
  | beginDestroy _ => attempt.execution.isNative = false ∧ attempt.outcome.isSome = true

/-- The record is one the operation accepts. -/
def Permits (op : AttemptOp) (attempt : RunnerAttempt) : Prop :=
  op.Guard attempt ∧ ∀ next, op.target = some next → attempt.state.canTransitionTo next = true

/-- The record an accepted operation leaves. -/
def effect (op : AttemptOp) (attempt : RunnerAttempt) : RunnerAttempt :=
  match op with
  | allocateExecution execution => { attempt with execution }
  | preparedEnvironment environmentId =>
    { attempt with execution := attempt.execution.withEnvironment environmentId }
  | beginPrepare now => { attempt with state := .preparing, lastStateChangeAt := now }
  | markPrepared now => { attempt with state := .prepared, lastStateChangeAt := now }
  | jitReceived now => { attempt with state := .jitReceived, lastStateChangeAt := now }
  | started processId now =>
    { attempt with
      state := .starting, lastStateChangeAt := now, processId := some processId
      execution := .native (some processId) }
  | startedIsolated now => { attempt with state := .starting, lastStateChangeAt := now }
  | registeredIdle githubRunnerId now =>
    { attempt with
      state := .idle, lastStateChangeAt := now, githubRunnerId := some githubRunnerId }
  | assignedJob githubRunnerId now =>
    { attempt with
      state := .busy, lastStateChangeAt := now, githubRunnerId := some githubRunnerId }
  | assignmentNotTaken now => { attempt with state := .idle, lastStateChangeAt := now }
  | conclude outcome now =>
    { attempt with
      state := outcome.terminalState, lastStateChangeAt := now, terminalAt := some now
      outcome := some outcome }
  | clean now | cleanIsolated now => { attempt with state := .cleaned, lastStateChangeAt := now }
  | beginDestroy now => { attempt with state := .destroying, lastStateChangeAt := now }
  | deferCleanup now => { attempt with state := .cleanupDeferred, lastStateChangeAt := now }

/-! ## When an operation is accepted and what it changes -/

variable {attempt : RunnerAttempt} {next : AttemptState} {now : Timestamp}

theorem moveTo_apply : RunnerAttempt.moveTo next now attempt =
    if attempt.state.canTransitionTo next = true then
      .ok () { attempt with state := next, lastStateChangeAt := now }
    else .error (.illegalTransition attempt.state next) attempt := by
  simp only [RunnerAttempt.moveTo, bind_apply, get_apply]
  by_cases hlegal : attempt.state.canTransitionTo next = true <;> simp [hlegal]

theorem guarded_move_applied (refuses : RunnerAttempt → Bool)
    (refusal : RunnerAttempt → AttemptError) :
    AppliedOrRefused
      (do
        let attempt ← get
        if refuses attempt then throw (refusal attempt)
        RunnerAttempt.moveTo next now)
      (refuses attempt = false ∧ attempt.state.canTransitionTo next = true) attempt
      { attempt with state := next, lastStateChangeAt := now } := by
  cases hrefuses : refuses attempt <;>
    by_cases hlegal : attempt.state.canTransitionTo next = true <;>
    simp [AppliedOrRefused, moveTo_apply, hrefuses, hlegal]

theorem move_then_modify_applied (edit : RunnerAttempt → RunnerAttempt) :
    AppliedOrRefused (do RunnerAttempt.moveTo next now; modify edit)
      (attempt.state.canTransitionTo next = true) attempt
      (edit { attempt with state := next, lastStateChangeAt := now }) := by
  by_cases hlegal : attempt.state.canTransitionTo next = true <;>
    simp [AppliedOrRefused, moveTo_apply, hlegal]

theorem allocate_execution_applied (execution : AttemptExecution) :
    AppliedOrRefused (RunnerAttempt.allocateExecution execution)
      ((allocateExecution execution).Guard attempt) attempt { attempt with execution } := by
  by_cases hstate : attempt.state = .allocated
  · cases hpid : attempt.processId with
    | some processId =>
      simp [AppliedOrRefused, RunnerAttempt.allocateExecution, RunnerAttempt.refuseIdentity,
        Guard, hpid]
    | none =>
      cases hvalid : execution.validate with
      | error e =>
        simp [AppliedOrRefused, RunnerAttempt.allocateExecution, Guard, hstate, hpid, hvalid]
      | ok u =>
        rcases execution with (_ | processId) | _
        · simp [AppliedOrRefused, RunnerAttempt.allocateExecution, Guard, hstate, hpid,
            hvalid, AttemptExecution.processId]
        · simp [AppliedOrRefused, RunnerAttempt.allocateExecution,
            RunnerAttempt.refuseIdentity, Guard, hstate, hpid, hvalid,
            AttemptExecution.processId]
        · simp [AppliedOrRefused, RunnerAttempt.allocateExecution, Guard, hstate, hpid,
            hvalid, AttemptExecution.processId]
  · simp [AppliedOrRefused, RunnerAttempt.allocateExecution, RunnerAttempt.refuseIdentity,
      Guard, hstate]

/-- An environment that does not validate is taken back. -/
theorem prepared_environment_applied (environmentId : String) :
    AppliedOrRefused (RunnerAttempt.preparedEnvironment environmentId)
      ((preparedEnvironment environmentId).Guard attempt) attempt
      { attempt with execution := attempt.execution.withEnvironment environmentId } := by
  cases hmay : RunnerAttempt.mayPrepareEnvironment attempt.state with
  | false =>
    simp [AppliedOrRefused, RunnerAttempt.preparedEnvironment, RunnerAttempt.refuseIdentity,
      Guard, hmay]
  | true =>
    rcases hexecution : attempt.execution with processId | ⟨kind, _ | stored, image, generation⟩
    case native =>
      simp [AppliedOrRefused, RunnerAttempt.preparedEnvironment,
        RunnerAttempt.refuseIdentity, Guard, hmay, hexecution, AttemptExecution.isNative]
    case isolated.some =>
      simp [AppliedOrRefused, RunnerAttempt.preparedEnvironment,
        RunnerAttempt.refuseIdentity, Guard, hmay, hexecution,
        AttemptExecution.environmentId]
    case isolated.none =>
      cases hvalid : (AttemptExecution.isolated kind (some environmentId) image
          generation).validate with
      | ok u =>
        simp [AppliedOrRefused, RunnerAttempt.preparedEnvironment, Guard, hmay, hexecution,
          AttemptExecution.isNative, AttemptExecution.environmentId,
          AttemptExecution.withEnvironment, hvalid]
      | error e =>
        refine .inr ⟨?_, .execution e, ?_⟩
        · simp [Guard, hexecution, AttemptExecution.withEnvironment, hvalid]
        · simp only [RunnerAttempt.preparedEnvironment, bind_apply, get_apply, hmay,
            Bool.not_true, Bool.false_eq_true, if_false, hexecution, set_apply, hvalid,
            throw_apply]
          rw [← hexecution]

/-- Every operation is applied exactly where it is permitted, and otherwise changes nothing. -/
theorem run_applied (op : AttemptOp) (attempt : RunnerAttempt) :
    AppliedOrRefused op.run (op.Permits attempt) attempt (op.effect attempt) := by
  cases op with
  | allocateExecution execution =>
    exact (allocate_execution_applied execution).of_iff (by simp [Permits, target])
  | preparedEnvironment environmentId =>
    exact (prepared_environment_applied environmentId).of_iff (by simp [Permits, target])
  | beginPrepare now | deferCleanup now | cleanIsolated now =>
    exact (guarded_move_applied (fun attempt ↦ attempt.execution.isNative)
      fun _ ↦ .execution .attemptIdentityMismatch).of_iff (by simp [Permits, Guard, target])
  | markPrepared now | startedIsolated now =>
    exact (guarded_move_applied (fun attempt ↦ attempt.execution.environmentId.isNone)
      fun _ ↦ .execution .attemptIdentityMismatch).of_iff
      (by simp [Permits, Guard, target, Option.isSome_iff_ne_none])
  | beginDestroy now =>
    exact (guarded_move_applied
      (fun attempt ↦ attempt.execution.isNative || attempt.outcome.isNone)
      fun _ ↦ .execution .attemptIdentityMismatch).of_iff
      (by simp [Permits, Guard, target, Option.isSome_iff_ne_none])
  | assignmentNotTaken now =>
    have hedge : AttemptState.busy.canTransitionTo .idle = true := by decide
    by_cases hbusy : attempt.state = .busy <;>
      simp [AppliedOrRefused, run, RunnerAttempt.assignmentNotTaken, moveTo_apply, Permits,
        Guard, target, effect, hbusy, hedge]
  | jitReceived now =>
    by_cases hlegal : attempt.state.canTransitionTo .jitReceived = true <;>
      simp [AppliedOrRefused, run, RunnerAttempt.jitReceived, moveTo_apply, Permits, Guard,
        target, effect, hlegal]
  | registeredIdle githubRunnerId now | assignedJob githubRunnerId now =>
    exact (move_then_modify_applied fun attempt ↦
      { attempt with githubRunnerId := some githubRunnerId }).of_iff
      (by simp [Permits, Guard, target])
  | started processId now =>
    by_cases hlegal : attempt.state.canTransitionTo .starting = true <;>
      cases hnative : attempt.execution.isNative <;>
      simp [AppliedOrRefused, run, RunnerAttempt.started, RunnerAttempt.refuseIdentity,
        moveTo_apply, Permits, Guard, target, effect, hlegal, hnative]
  | conclude outcome now =>
    by_cases hlegal : attempt.state.canTransitionTo outcome.terminalState = true <;>
      by_cases hfrom : attempt.state ∈ outcome.requiredFrom <;>
      simp [AppliedOrRefused, run, RunnerAttempt.conclude, moveTo_apply, Permits, Guard,
        target, effect, hlegal, hfrom]
  | clean now =>
    by_cases hbusy : attempt.state = .busy
    · simp [AppliedOrRefused, run, RunnerAttempt.clean, Permits, Guard, hbusy,
        AttemptState.isConcluded]
    · by_cases hlegal : attempt.state.canTransitionTo .cleaned = true <;>
        cases hnative : attempt.execution.isNative <;>
        cases hconcluded : attempt.state.isConcluded <;>
        simp [AppliedOrRefused, run, RunnerAttempt.clean, moveTo_apply, Permits, Guard,
          target, effect, hbusy, hlegal, hnative, hconcluded]

end AttemptOp

end RunnerManager.Domain
