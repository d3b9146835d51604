import RunnerManager.Domain.Attempt

/-!
# Histories of an attempt

What holds of an attempt after any sequence of calls, accepted or refused. Read
`WellFormed.effect` first: one accepted call keeps the cross-field rules of the record, and
`exec_all_wellFormed` carries them over a whole history. `attempt_history` collects what the
rest of the program relies on.
-/

namespace RunnerManager.Domain

open RunnerManager.Mutation

/-! ## One call -/

namespace AttemptState

variable {state next : AttemptState}

theorem legal_terminal (hlegal : state.canTransitionTo next = true) :
    state.isTerminal = (next.isTerminal && !next.isConcluded) :=
  legal_induction (P := fun state next ↦
    state.isTerminal = (next.isTerminal && !next.isConcluded)) (by decide) hlegal

theorem cleaned_final : cleaned.canTransitionTo next = false := by
  cases next <;> decide

theorem terminal_cases (hterminal : state.isTerminal = true) :
    state.isConcluded = true ∨ state = destroying ∨ state = cleanupDeferred ∨
      state = cleaned := by
  cases state <;> simp_all [isTerminal, isConcluded]

end AttemptState

namespace AttemptOutcome

variable {outcome : AttemptOutcome} {state : AttemptState}

@[simp]
theorem terminalState_isTerminal : outcome.terminalState.isTerminal = true := by
  cases outcome <;> rfl

@[simp]
theorem terminalState_isIsolatedPhase : outcome.terminalState.isIsolatedPhase = false := by
  cases outcome <;> rfl

theorem required_from_live (h : state ∈ outcome.requiredFrom) : state.isTerminal = false := by
  cases outcome <;> cases state <;> simp_all [requiredFrom, AttemptState.concludableFrom,
    AttemptState.isTerminal]

end AttemptOutcome

/-- The cross-field rules of an attempt. -/
structure WellFormed (attempt : RunnerAttempt) : Prop where
  outcome : attempt.outcome.isSome = attempt.state.isTerminal
  terminalAt : attempt.terminalAt.isSome = attempt.state.isTerminal
  outcomeState : ∀ outcome, attempt.outcome = some outcome →
    attempt.state = outcome.terminalState ∨ attempt.state.isConcluded = false
  phase : attempt.execution.isNative = true → attempt.state.isIsolatedPhase = false
  process : attempt.processId = attempt.execution.processId
  execution : attempt.execution.validate = .ok ()

namespace WellFormed

variable {attempt : RunnerAttempt}

theorem allocateIn (id : AttemptId) (policyId : PolicyId) (runtimePath : String)
    (workspace : AttemptWorkspace) (now : Timestamp) :
    WellFormed (.allocateIn id policyId runtimePath workspace now) where
  outcome := rfl
  terminalAt := rfl
  outcomeState := by simp [RunnerAttempt.allocateIn]
  phase := fun _ ↦ rfl
  process := rfl
  execution := rfl

theorem move (hwf : WellFormed attempt) {next : AttemptState} {now : Timestamp}
    (hlegal : attempt.state.canTransitionTo next = true) (hnext : next.isConcluded = false)
    (hphase : attempt.execution.isNative = true → next.isIsolatedPhase = false) :
    WellFormed { attempt with state := next, lastStateChangeAt := now } := by
  have hterminal := AttemptState.legal_terminal hlegal
  rw [hnext, Bool.not_false, Bool.and_true] at hterminal
  exact {
    outcome := hwf.outcome.trans hterminal
    terminalAt := hwf.terminalAt.trans hterminal
    outcomeState := fun _ _ ↦ .inr hnext
    phase := hphase
    process := hwf.process
    execution := hwf.execution }

theorem withRunner (hwf : WellFormed attempt) (githubRunnerId : Option Nat) :
    WellFormed { attempt with githubRunnerId } where
  outcome := hwf.outcome
  terminalAt := hwf.terminalAt
  outcomeState := hwf.outcomeState
  phase := hwf.phase
  process := hwf.process
  execution := hwf.execution

theorem withExecution (hwf : WellFormed attempt) {execution : AttemptExecution}
    {processId : Option Nat} (hphase : execution.isNative = true →
      attempt.state.isIsolatedPhase = false) (hprocess : processId = execution.processId)
    (hvalid : execution.validate = .ok ()) :
    WellFormed { attempt with execution, processId } where
  outcome := hwf.outcome
  terminalAt := hwf.terminalAt
  outcomeState := hwf.outcomeState
  phase := hphase
  process := hprocess
  execution := hvalid

theorem conclude (hwf : WellFormed attempt) (outcome : AttemptOutcome) (now : Timestamp) :
    WellFormed { attempt with
      state := outcome.terminalState, lastStateChangeAt := now, terminalAt := some now
      outcome := some outcome } where
  outcome := by simp
  terminalAt := by simp
  outcomeState := by
    rintro other ⟨⟩
    exact .inl rfl
  phase := by simp
  process := hwf.process
  execution := hwf.execution

theorem withEnvironment_isolated {execution : AttemptExecution} (environmentId : String)
    (h : execution.isNative = false) :
    (execution.withEnvironment environmentId).isNative = false ∧
      (execution.withEnvironment environmentId).processId = execution.processId := by
  cases execution with
  | native processId => cases h
  | isolated kind environment image generation => exact ⟨rfl, rfl⟩

/-- One accepted call keeps the rules. -/
theorem effect (hwf : WellFormed attempt) {op : AttemptOp} (hop : op.Permits attempt) :
    WellFormed (op.effect attempt) := by
  obtain ⟨hguard, hlegal⟩ := hop
  cases op with
  | allocateExecution execution =>
    obtain ⟨hstate, hpid, hvalid, hfresh⟩ := hguard
    exact hwf.withExecution (by simp [hstate, AttemptState.isIsolatedPhase])
      (by rw [hpid, hfresh]) hvalid
  | preparedEnvironment environmentId =>
    obtain ⟨hmay, hisolated, hnone, hvalid⟩ := hguard
    obtain ⟨hstays, hprocess⟩ := withEnvironment_isolated environmentId hisolated
    exact hwf.withExecution (by simp [hstays]) (by rw [hprocess, hwf.process]) hvalid
  | beginPrepare now | beginDestroy now | deferCleanup now =>
    refine hwf.move (hlegal _ rfl) rfl fun hnative ↦ ?_
    simp [AttemptOp.Guard, hnative] at hguard
  | markPrepared now =>
    refine hwf.move (hlegal _ rfl) rfl fun hnative ↦ ?_
    cases hexecution : attempt.execution <;>
      simp_all [AttemptOp.Guard, AttemptExecution.isNative, AttemptExecution.environmentId]
  | jitReceived now | startedIsolated now | assignmentNotTaken now | clean now
  | cleanIsolated now =>
    exact hwf.move (hlegal _ rfl) rfl fun _ ↦ rfl
  | started processId now =>
    have hmoved : WellFormed { attempt with state := .starting, lastStateChangeAt := now } :=
      hwf.move (hlegal _ rfl) rfl fun _ ↦ rfl
    have hvalid : (AttemptExecution.native (some processId)).validate = .ok () := rfl
    exact hmoved.withExecution (fun _ ↦ rfl) rfl hvalid
  | registeredIdle githubRunnerId now | assignedJob githubRunnerId now =>
    exact (hwf.move (hlegal _ rfl) rfl fun _ ↦ rfl).withRunner (some githubRunnerId)
  | conclude outcome now => exact hwf.conclude outcome now

theorem effect_settled (hwf : WellFormed attempt) {op : AttemptOp} (hop : op.Permits attempt)
    (hsettled : attempt.outcome.isSome = true) :
    (op.effect attempt).outcome = attempt.outcome ∧
      (op.effect attempt).terminalAt = attempt.terminalAt := by
  cases op with
  | conclude outcome now =>
    have hlive := AttemptOutcome.required_from_live hop.1
    rw [← hwf.outcome, hsettled] at hlive
    cases hlive
  | _ => exact ⟨rfl, rfl⟩

end WellFormed

/-- The fields no operation writes. -/
structure SameAllocation (a b : RunnerAttempt) : Prop where
  id : a.id = b.id
  policyId : a.policyId = b.policyId
  runtimePath : a.runtimePath = b.runtimePath
  workspace : a.workspace = b.workspace
  createdAt : a.createdAt = b.createdAt

namespace SameAllocation

variable {a b c : RunnerAttempt}

theorem refl (a : RunnerAttempt) : SameAllocation a a :=
  ⟨rfl, rfl, rfl, rfl, rfl⟩

theorem trans (hab : SameAllocation a b) (hbc : SameAllocation b c) : SameAllocation a c where
  id := hab.id.trans hbc.id
  policyId := hab.policyId.trans hbc.policyId
  runtimePath := hab.runtimePath.trans hbc.runtimePath
  workspace := hab.workspace.trans hbc.workspace
  createdAt := hab.createdAt.trans hbc.createdAt

theorem effect (op : AttemptOp) (attempt : RunnerAttempt) :
    SameAllocation (op.effect attempt) attempt := by
  cases op <;> exact ⟨rfl, rfl, rfl, rfl, rfl⟩

end SameAllocation

/-! ## Sequences of calls -/

namespace AttemptOp

/-- The record after a call, accepted or refused. -/
def exec (op : AttemptOp) (attempt : RunnerAttempt) : RunnerAttempt :=
  Mutation.exec op.run attempt

/-- The record after a sequence of calls. -/
def execAll (ops : List AttemptOp) (attempt : RunnerAttempt) : RunnerAttempt :=
  ops.foldl (fun attempt op ↦ op.exec attempt) attempt

variable {attempt : RunnerAttempt} {op : AttemptOp} {ops : List AttemptOp}

@[simp]
theorem execAll_nil : execAll [] attempt = attempt :=
  rfl

@[simp]
theorem execAll_cons : execAll (op :: ops) attempt = execAll ops (op.exec attempt) :=
  rfl

theorem execAll_append (first second : List AttemptOp) :
    execAll (first ++ second) attempt = execAll second (execAll first attempt) := by
  simp [execAll, List.foldl_append]

theorem exec_cases (op : AttemptOp) (attempt : RunnerAttempt) :
    op.exec attempt = attempt ∨ op.Permits attempt ∧ op.exec attempt = op.effect attempt := by
  obtain ⟨hpermits, hexec⟩ | ⟨-, hexec⟩ := (op.run_applied attempt).exec_eq
  · exact .inr ⟨hpermits, hexec⟩
  · exact .inl hexec

theorem exec_all_induction {P : RunnerAttempt → Prop}
    (hstep : ∀ (op : AttemptOp) attempt, P attempt → op.Permits attempt → P (op.effect attempt))
    (ops : List AttemptOp) {attempt : RunnerAttempt} (hstart : P attempt) :
    P (execAll ops attempt) := by
  induction ops generalizing attempt with
  | nil => exact hstart
  | cons op ops ih =>
    obtain hsame | ⟨hpermits, heffect⟩ := exec_cases op attempt
    · rw [execAll_cons, hsame]
      exact ih hstart
    · rw [execAll_cons, heffect]
      exact ih (hstep op attempt hstart hpermits)

/-- The rules hold after every sequence of calls. -/
theorem exec_all_wellFormed (ops : List AttemptOp) (hwf : WellFormed attempt) :
    WellFormed (execAll ops attempt) :=
  exec_all_induction (fun _ _ hwf hop ↦ hwf.effect hop) ops hwf

theorem exec_all_sameAllocation (ops : List AttemptOp) (attempt : RunnerAttempt) :
    SameAllocation (execAll ops attempt) attempt :=
  exec_all_induction (P := fun current ↦ SameAllocation current attempt)
    (fun op current h _ ↦ (SameAllocation.effect op current).trans h) ops (.refl attempt)

theorem exec_all_settled (ops : List AttemptOp) (hwf : WellFormed attempt)
    (hsettled : attempt.outcome.isSome = true) :
    (execAll ops attempt).outcome = attempt.outcome ∧
      (execAll ops attempt).terminalAt = attempt.terminalAt := by
  have hkept := exec_all_induction (P := fun current ↦ WellFormed current ∧
    current.outcome = attempt.outcome ∧ current.terminalAt = attempt.terminalAt)
    (fun op current ⟨hcurrent, houtcome, hterminal⟩ hop ↦ by
      obtain ⟨hsame, hstamp⟩ := hcurrent.effect_settled hop (by rw [houtcome, hsettled])
      exact ⟨hcurrent.effect hop, hsame.trans houtcome, hstamp.trans hterminal⟩)
    ops ⟨hwf, rfl, rfl⟩
  exact hkept.2

theorem not_permits_cleaned (hcleaned : attempt.state = .cleaned) : ¬ op.Permits attempt := by
  rintro ⟨hguard, hlegal⟩
  cases htarget : op.target with
  | some next =>
    have hedge := hlegal next htarget
    rw [hcleaned, AttemptState.cleaned_final] at hedge
    cases hedge
  | none =>
    -- Only the two identity edits take no edge, and neither accepts a clean attempt.
    cases op <;> simp_all [target, Guard, RunnerAttempt.mayPrepareEnvironment]

theorem exec_all_cleaned (ops : List AttemptOp) (hcleaned : attempt.state = .cleaned) :
    execAll ops attempt = attempt := by
  induction ops with
  | nil => rfl
  | cons op ops ih =>
    obtain hsame | ⟨hpermits, -⟩ := exec_cases op attempt
    · rw [execAll_cons, hsame, ih]
    · exact absurd hpermits (not_permits_cleaned hcleaned)

/-- In the history `ops`, `outcome` was recorded by a call made in `state`. -/
def RecordedFrom (start : RunnerAttempt) (ops : List AttemptOp) (outcome : AttemptOutcome)
    (state : AttemptState) : Prop :=
  ∃ before op after, ops = before ++ op :: after ∧
    (execAll before start).state = state ∧ (execAll before start).outcome = none ∧
    (execAll (before ++ [op]) start).outcome = some outcome

theorem recorded_from_required {start : RunnerAttempt} (hwf : WellFormed start)
    (hstart : start.outcome = none) {outcome : AttemptOutcome}
    (hrecorded : (execAll ops start).outcome = some outcome) :
    ∃ state ∈ outcome.requiredFrom, RecordedFrom start ops outcome state := by
  induction ops using List.reverseRecOn with
  | nil =>
    rw [execAll_nil, hstart] at hrecorded
    cases hrecorded
  | append_singleton ops op ih =>
    have hbefore := exec_all_wellFormed ops hwf
    rw [execAll_append, execAll_cons, execAll_nil] at hrecorded
    cases hprior : (execAll ops start).outcome with
    | some prior =>
      have hkept := (exec_all_settled [op] hbefore (by rw [hprior]; rfl)).1
      rw [execAll_cons, execAll_nil, hrecorded] at hkept
      obtain ⟨state, hstate, before, call, after, rfl, hfacts⟩ := ih hkept.symm
      exact ⟨state, hstate, before, call, after ++ [op], by simp, hfacts⟩
    | none =>
      obtain hsame | ⟨hpermits, heffect⟩ := exec_cases op (execAll ops start)
      · rw [hsame, hprior] at hrecorded
        cases hrecorded
      · refine ⟨(execAll ops start).state, ?_, ops, op, [], rfl, rfl, hprior, ?_⟩
        · rw [heffect] at hrecorded
          cases op <;> simp_all [effect, Permits, Guard]
        · rw [execAll_append, execAll_cons, execAll_nil, hrecorded]

end AttemptOp

/-! ## The history of an attempt -/

open AttemptOp in
/-- What the calls `ops`, accepted or refused, have made of the attempt `start`. -/
structure AttemptHistory (start : RunnerAttempt) (ops : List AttemptOp) : Prop where
  /-- Outcome, conclusion time and terminal state come together. -/
  concluded : ((execAll ops start).outcome.isSome ↔ (execAll ops start).terminalAt.isSome) ∧
    ((execAll ops start).terminalAt.isSome ↔ (execAll ops start).state.isTerminal)
  /-- A recorded outcome never changes again. -/
  outcomeStands : ∀ outcome, (execAll ops start).outcome = some outcome →
    ∀ later, (execAll (ops ++ later) start).outcome = some outcome
  /-- A recorded conclusion time never changes again. -/
  terminalAtStands : ∀ at', (execAll ops start).terminalAt = some at' →
    ∀ later, (execAll (ops ++ later) start).terminalAt = some at'
  /-- Only a busy runner completed a job. -/
  completedFromBusy : (execAll ops start).outcome = some .completedJob →
    RecordedFrom start ops .completedJob .busy
  /-- Only an idle runner exited idle. -/
  exitedFromIdle : (execAll ops start).outcome = some .exitedIdleWithoutWork →
    RecordedFrom start ops .exitedIdleWithoutWork .idle
  /-- Nothing changes a clean attempt. -/
  cleanedAbsorbs : (execAll ops start).state = .cleaned →
    ∀ later, execAll (ops ++ later) start = execAll ops start
  /-- A native attempt is in none of the isolated phases. -/
  nativePhase : (execAll ops start).execution.isNative = true → (execAll ops start).state ∉
    [AttemptState.preparing, .prepared, .destroying, .cleanupDeferred]
  /-- The process column repeats the native identity and is empty for an isolated one. -/
  process : match (execAll ops start).execution with
    | .native processId => (execAll ops start).processId = processId
    | .isolated .. => (execAll ops start).processId = none
  /-- The allocation never changes. -/
  allocation : SameAllocation (execAll ops start) start
  /-- A refused call leaves the attempt exactly as it was. -/
  refused : ∀ (op : AttemptOp) error result,
    op.run (execAll ops start) = .error error result → result = execAll ops start

open AttemptOp in
/-- Every history of an allocated attempt, over every sequence of calls. -/
theorem attempt_history (id : AttemptId) (policyId : PolicyId) (runtimePath : String)
    (workspace : AttemptWorkspace) (now : Timestamp) (ops : List AttemptOp) :
    AttemptHistory (.allocateIn id policyId runtimePath workspace now) ops := by
  have hstart := WellFormed.allocateIn id policyId runtimePath workspace now
  have hwf := exec_all_wellFormed ops hstart
  refine {
    concluded := ?_, outcomeStands := ?_, terminalAtStands := ?_, completedFromBusy := ?_
    exitedFromIdle := ?_, cleanedAbsorbs := ?_, nativePhase := ?_, process := ?_
    allocation := exec_all_sameAllocation ops _
    refused := fun op error result hcall ↦ (op.run_applied _).refused hcall }
  · rw [hwf.outcome, hwf.terminalAt]
    exact ⟨Iff.rfl, Iff.rfl⟩
  · intro outcome houtcome later
    rw [execAll_append, (exec_all_settled later hwf (by rw [houtcome]; rfl)).1, houtcome]
  · intro at' hterminal later
    have hsettled := hwf.outcome.trans hwf.terminalAt.symm
    rw [hterminal] at hsettled
    rw [execAll_append, (exec_all_settled later hwf hsettled).2, hterminal]
  · intro houtcome
    obtain ⟨state, hstate, hrecorded⟩ := recorded_from_required hstart rfl houtcome
    rw [AttemptOutcome.requiredFrom, List.mem_singleton] at hstate
    rwa [hstate] at hrecorded
  · intro houtcome
    obtain ⟨state, hstate, hrecorded⟩ := recorded_from_required hstart rfl houtcome
    rw [AttemptOutcome.requiredFrom, List.mem_singleton] at hstate
    rwa [hstate] at hrecorded
  · intro hcleaned later
    rw [execAll_append, exec_all_cleaned later hcleaned]
  · intro hnative hphase
    have hfree := hwf.phase hnative
    simp only [List.mem_cons, List.not_mem_nil, or_false] at hphase
    rcases hphase with h | h | h | h <;> simp [h, AttemptState.isIsolatedPhase] at hfree
  · have hprocess := hwf.process
    cases hexecution : (execAll ops (.allocateIn id policyId runtimePath workspace
      now)).execution <;> rw [hexecution] at hprocess <;> exact hprocess

end RunnerManager.Domain
