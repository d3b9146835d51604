import RunnerManager.Domain.AttemptHistory
import RunnerManager.Lib.Result

/-!
# The journalled attempt

`RunnerAttempt::to_persisted` and `from_persisted`, and the store's repair of clock values
that precede the allocation. A row that `from_persisted` refuses makes the whole journal
unreadable. Read `reload_iff` first: a well-formed attempt is read back exactly when its state
has the environment it needs. `journal_closure` says which histories keep that.
-/

namespace RunnerManager.Domain

open RunnerManager.Mutation RunnerManager.Result

/-! ## Rows -/

/-- The columns of one journal row; the slot column is a `u16`. -/
structure PersistedAttempt where
  id : AttemptId
  policyId : PolicyId
  githubRunnerId : Option Nat
  state : AttemptState
  outcome : Option AttemptOutcome
  processId : Option Nat
  execution : AttemptExecution
  runtimePath : String
  workspaceKind : WorkspaceKind
  workspaceSlot : Option {n : Nat // n < 2 ^ 16}
  createdAt : Timestamp
  terminalAt : Option Timestamp
  lastStateChangeAt : Timestamp
deriving DecidableEq

namespace RunnerAttempt

/-- The columns an attempt is stored as. -/
def toPersisted (attempt : RunnerAttempt) : PersistedAttempt where
  id := attempt.id
  policyId := attempt.policyId
  githubRunnerId := attempt.githubRunnerId
  state := attempt.state
  outcome := attempt.outcome
  processId := attempt.processId
  execution := attempt.execution
  runtimePath := attempt.runtimePath
  workspaceKind := attempt.workspace.kind
  workspaceSlot := attempt.workspace.slotColumn
  createdAt := attempt.createdAt
  terminalAt := attempt.terminalAt
  lastStateChangeAt := attempt.lastStateChangeAt

end RunnerAttempt

namespace PersistedAttempt

/-- The process column repeats the native identity and is empty for an isolated one. -/
def checkIdentity (fields : PersistedAttempt) : Except AttemptError Unit :=
  match fields.execution with
  | .native identity =>
    if identity = fields.processId then .ok ()
    else .error (.execution .attemptIdentityMismatch)
  | .isolated .. =>
    if fields.processId = none then .ok ()
    else .error (.execution .attemptIdentityMismatch)

/-- A terminal state has an outcome that belongs to it, and no other state has one. -/
def checkOutcome (fields : PersistedAttempt) : Except AttemptError Unit :=
  match fields.outcome, fields.state.isTerminal with
  | none, true => .error (.terminalWithoutOutcome fields.state)
  | some outcome, false => .error (.nonTerminalWithOutcome fields.state outcome)
  | some outcome, true =>
    let allowedIsolatedCleanup := !fields.execution.isNative
      && (fields.state = .destroying || fields.state = .cleanupDeferred)
    if fields.state = outcome.terminalState || fields.state = .cleaned
        || allowedIsolatedCleanup then .ok ()
    else .error (.outcomeStateMismatch fields.state outcome)
  | none, false => .ok ()

/-- A terminal state has a conclusion time, and no other state has one. -/
def checkTerminalAt (fields : PersistedAttempt) : Except AttemptError Unit :=
  match fields.terminalAt, fields.state.isTerminal with
  | none, true => .error (.terminalWithoutTimestamp fields.state)
  | some _, false => .error (.nonTerminalWithTimestamp fields.state)
  | _, _ => .ok ()

/-- The phase fits the execution identity. -/
def checkPhase (fields : PersistedAttempt) : Except AttemptError Unit :=
  if fields.state.isIsolatedPhase && fields.execution.isNative then
    .error (.execution .attemptIdentityMismatch)
  else if fields.state.needsEnvironment && !fields.execution.isNative
      && fields.execution.environmentId.isNone then
    .error (.execution .attemptIdentityMismatch)
  else .ok ()

/-- No other instant precedes the allocation. -/
def checkClock (fields : PersistedAttempt) : Except AttemptError Unit :=
  if fields.lastStateChangeAt < fields.createdAt then
    .error (.timestampsOutOfOrder fields.state "last_state_change_at" fields.createdAt
      fields.lastStateChangeAt)
  else
    match fields.terminalAt with
    | some terminalAt =>
      if terminalAt < fields.createdAt then
        .error (.timestampsOutOfOrder fields.state "terminal_at" fields.createdAt terminalAt)
      else .ok ()
    | none => .ok ()

/-- `RunnerAttempt::from_persisted`: rebuild an attempt, refusing what no operation writes. -/
def fromPersisted (fields : PersistedAttempt) : Except AttemptError RunnerAttempt := do
  let workspace ← (AttemptWorkspace.fromPersisted fields.workspaceKind
    fields.workspaceSlot).mapError .workspace
  fields.execution.validate.mapError .execution
  fields.checkIdentity
  fields.checkOutcome
  fields.checkTerminalAt
  fields.checkPhase
  fields.checkClock
  return {
    id := fields.id
    policyId := fields.policyId
    githubRunnerId := fields.githubRunnerId
    state := fields.state
    outcome := fields.outcome
    processId := fields.processId
    execution := fields.execution
    runtimePath := fields.runtimePath
    workspace
    createdAt := fields.createdAt
    terminalAt := fields.terminalAt
    lastStateChangeAt := fields.lastStateChangeAt }

/-- A clean native row owns no process, so it repeats the process column. -/
def repairedExecution (state : AttemptState) (processId : Option Nat)
    (execution : AttemptExecution) : AttemptExecution :=
  if state = .cleaned ∧ execution = .native none then .native processId else execution

/-- The store's repair of a row: a clean native row repeats its process identity, and no
instant precedes the allocation. -/
def normalise (fields : PersistedAttempt) : PersistedAttempt :=
  { fields with
    execution := repairedExecution fields.state fields.processId fields.execution
    lastStateChangeAt := max fields.lastStateChangeAt fields.createdAt
    terminalAt := fields.terminalAt.map fun terminalAt ↦ max terminalAt fields.createdAt }

end PersistedAttempt

namespace RunnerAttempt

/-- An attempt as the journal gives it back. -/
def reload (attempt : RunnerAttempt) : Except AttemptError RunnerAttempt :=
  attempt.toPersisted.normalise.fromPersisted

/-- The attempt with the store's clock repair applied. -/
def clockNormalised (attempt : RunnerAttempt) : RunnerAttempt :=
  { attempt with
    lastStateChangeAt := max attempt.lastStateChangeAt attempt.createdAt
    terminalAt := attempt.terminalAt.map fun terminalAt ↦ max terminalAt attempt.createdAt }

/-- The attempt has the environment its state needs. -/
def EnvironmentKnown (attempt : RunnerAttempt) : Prop :=
  attempt.state.needsEnvironment = true → attempt.execution.isNative = false →
    attempt.execution.environmentId.isSome = true

end RunnerAttempt

/-! ## What the loader accepts -/

namespace PersistedAttempt

variable {fields : PersistedAttempt}

theorem process_of_checkIdentity (h : fields.checkIdentity = .ok ()) :
    fields.processId = fields.execution.processId := by
  unfold checkIdentity at h
  cases hexecution : fields.execution with
  | native identity =>
    rw [hexecution] at h
    by_cases hidentity : identity = fields.processId
    · exact hidentity.symm
    · simp [hidentity] at h
  | isolated kind environment image generation =>
    rw [hexecution] at h
    by_cases hnone : fields.processId = none
    · exact hnone
    · simp [hnone] at h

theorem outcome_of_checkOutcome (h : fields.checkOutcome = .ok ()) :
    fields.outcome.isSome = fields.state.isTerminal ∧
      ∀ outcome, fields.outcome = some outcome →
        fields.state = outcome.terminalState ∨ fields.state.isConcluded = false := by
  unfold checkOutcome at h
  cases houtcome : fields.outcome with
  | none => cases hterminal : fields.state.isTerminal <;> simp_all
  | some outcome =>
    cases hterminal : fields.state.isTerminal with
    | false => simp_all
    | true =>
      refine ⟨rfl, fun other hother ↦ ?_⟩
      obtain rfl := Option.some.inj hother
      rw [houtcome, hterminal] at h
      by_cases hstate : fields.state = outcome.terminalState
      · exact .inl hstate
      · refine .inr ?_
        cases hname : fields.state <;> simp_all [AttemptState.isConcluded]

theorem terminalAt_of_checkTerminalAt (h : fields.checkTerminalAt = .ok ()) :
    fields.terminalAt.isSome = fields.state.isTerminal := by
  unfold checkTerminalAt at h
  cases hat : fields.terminalAt <;> cases hterminal : fields.state.isTerminal <;> simp_all

theorem phase_of_checkPhase (h : fields.checkPhase = .ok ()) :
    fields.execution.isNative = true → fields.state.isIsolatedPhase = false := by
  intro hnative
  unfold checkPhase at h
  cases hphase : fields.state.isIsolatedPhase with
  | false => rfl
  | true => simp [hphase, hnative] at h

theorem wellFormed_of_fromPersisted {attempt : RunnerAttempt}
    (h : fields.fromPersisted = .ok attempt) : WellFormed attempt := by
  unfold fromPersisted at h
  simp only [bind_eq_ok, pure_eq_ok] at h
  obtain ⟨workspace, -, _, hvalid, _, hidentity, _, houtcome, _, hterminal, _, hphase, _, -, rfl⟩
    := h
  obtain ⟨hended, hstate⟩ := outcome_of_checkOutcome houtcome
  refine ⟨hended, terminalAt_of_checkTerminalAt hterminal, hstate, phase_of_checkPhase hphase,
    process_of_checkIdentity hidentity, ?_⟩
  show fields.execution.validate = .ok ()
  cases hexecution : fields.execution.validate with
  | ok u => rfl
  | error e =>
    rw [hexecution] at hvalid
    cases hvalid
end PersistedAttempt

/-! ## Reading one row back -/

section Reload

variable {attempt : RunnerAttempt}

theorem normalise_toPersisted (hwf : WellFormed attempt) :
    attempt.toPersisted.normalise = attempt.clockNormalised.toPersisted := by
  have hexecution : PersistedAttempt.repairedExecution attempt.state attempt.processId
      attempt.execution = attempt.execution := by
    rw [PersistedAttempt.repairedExecution]
    split_ifs with hlegacy
    · rw [hwf.process, hlegacy.2]
      rfl
    · rfl
  simp only [RunnerAttempt.toPersisted, PersistedAttempt.normalise, RunnerAttempt.clockNormalised,
    hexecution]

theorem checks_pass (hwf : WellFormed attempt) :
    attempt.clockNormalised.toPersisted.checkIdentity = .ok () ∧
      attempt.clockNormalised.toPersisted.checkOutcome = .ok () ∧
      attempt.clockNormalised.toPersisted.checkTerminalAt = .ok () ∧
      attempt.clockNormalised.toPersisted.checkClock = .ok () := by
  refine ⟨?_, ?_, ?_, ?_⟩
  · have hprocess := hwf.process
    cases hexecution : attempt.execution <;> rw [hexecution] at hprocess <;>
      simp_all [PersistedAttempt.checkIdentity, RunnerAttempt.toPersisted,
        RunnerAttempt.clockNormalised, AttemptExecution.processId]
  · have houtcome := hwf.outcome
    cases hrecorded : attempt.outcome with
    | none =>
      rw [hrecorded] at houtcome
      simp [PersistedAttempt.checkOutcome, RunnerAttempt.toPersisted,
        RunnerAttempt.clockNormalised, hrecorded, ← houtcome]
    | some outcome =>
      rw [hrecorded] at houtcome
      simp only [PersistedAttempt.checkOutcome, RunnerAttempt.toPersisted,
        RunnerAttempt.clockNormalised, hrecorded, ← houtcome, Option.isSome_some]
      -- Outside its own state an outcome belongs to a cleanup state, which is isolated.
      obtain hstate | hconcluded := hwf.outcomeState outcome hrecorded
      · simp [hstate]
      · have hphase := hwf.phase
        rcases AttemptState.terminal_cases houtcome.symm with h | h | h | h
        · rw [h] at hconcluded
          cases hconcluded
        · cases hnative : attempt.execution.isNative <;>
            simp_all [AttemptState.isIsolatedPhase]
        · cases hnative : attempt.execution.isNative <;>
            simp_all [AttemptState.isIsolatedPhase]
        · simp [h]
  · have hterminal := hwf.terminalAt
    cases hstamp : attempt.terminalAt <;> rw [hstamp] at hterminal <;>
      simp [PersistedAttempt.checkTerminalAt, RunnerAttempt.toPersisted,
        RunnerAttempt.clockNormalised, hstamp, ← hterminal]
  · have hclock (instant : Timestamp) : ¬ max instant attempt.createdAt < attempt.createdAt :=
      Int.not_lt.mpr (Int.le_max_right instant attempt.createdAt)
    cases hstamp : attempt.terminalAt <;>
      simp only [PersistedAttempt.checkClock, RunnerAttempt.toPersisted,
        RunnerAttempt.clockNormalised, hstamp, if_neg (hclock _), Option.map_some, Option.map_none]

theorem check_phase_iff (hwf : WellFormed attempt) :
    attempt.clockNormalised.toPersisted.checkPhase = .ok () ↔ attempt.EnvironmentKnown := by
  have hphase : (attempt.state.isIsolatedPhase && attempt.execution.isNative) = false := by
    cases hnative : attempt.execution.isNative
    · simp
    · simp [hwf.phase hnative]
  show (if (attempt.state.isIsolatedPhase && attempt.execution.isNative) = true then
      Except.error (AttemptError.execution .attemptIdentityMismatch)
    else if (attempt.state.needsEnvironment && !attempt.execution.isNative
        && attempt.execution.environmentId.isNone) = true then
      Except.error (AttemptError.execution .attemptIdentityMismatch)
    else Except.ok ()) = Except.ok () ↔ attempt.EnvironmentKnown
  rw [hphase, RunnerAttempt.EnvironmentKnown]
  cases hneeds : attempt.state.needsEnvironment <;>
    cases hnative : attempt.execution.isNative <;>
    cases henvironment : attempt.execution.environmentId <;> simp

theorem reload_iff (hwf : WellFormed attempt) :
    attempt.reload = .ok attempt.clockNormalised ↔ attempt.EnvironmentKnown := by
  obtain ⟨hidentity, houtcome, hterminal, hclock⟩ := checks_pass hwf
  have hworkspace : AttemptWorkspace.fromPersisted attempt.clockNormalised.toPersisted.workspaceKind
      attempt.clockNormalised.toPersisted.workspaceSlot = .ok attempt.workspace :=
    AttemptWorkspace.from_persisted_columns attempt.workspace
  have hvalid : attempt.clockNormalised.toPersisted.execution.validate = .ok () := hwf.execution
  rw [← check_phase_iff hwf, RunnerAttempt.reload, normalise_toPersisted hwf,
    PersistedAttempt.fromPersisted]
  simp only [hworkspace, hvalid, hidentity, houtcome, hterminal, hclock, Except.mapError, bind,
    Except.bind]
  cases hcheck : attempt.clockNormalised.toPersisted.checkPhase with
  | error e => simp
  | ok u => exact iff_of_true rfl rfl

end Reload

/-! ## Histories of accepted calls -/

namespace AttemptOp

/-- The answer of one call, with the new record when it was accepted. -/
def answer (op : AttemptOp) (attempt : RunnerAttempt) : Except AttemptError RunnerAttempt :=
  Mutation.answer op.run attempt

/-- Run a sequence of calls, stopping at the first refusal. -/
def answerAll (ops : List AttemptOp) (attempt : RunnerAttempt) :
    Except AttemptError RunnerAttempt :=
  ops.foldlM (fun attempt op ↦ op.answer attempt) attempt

/-- The call that receives a JIT configuration for an environment that does not exist. -/
def JitWithoutEnvironment (op : AttemptOp) (attempt : RunnerAttempt) : Prop :=
  (∃ now, op = .jitReceived now) ∧ attempt.execution.isNative = false ∧
    attempt.execution.environmentId = none

variable {op : AttemptOp} {ops : List AttemptOp} {attempt start final : RunnerAttempt}

theorem answer_iff : op.answer attempt = .ok final ↔
    op.Permits attempt ∧ final = op.effect attempt :=
  (op.run_applied attempt).answer_ok_iff

theorem answerAll_concat : answerAll (ops ++ [op]) start = .ok final ↔
    ∃ middle, answerAll ops start = .ok middle ∧ op.answer middle = .ok final := by
  cases hops : answerAll ops start with
  | error e =>
    have hstop : answerAll (ops ++ [op]) start = .error e := by
      rw [answerAll] at hops ⊢
      rw [List.foldlM_append, hops]
      rfl
    simp [hstop]
  | ok middle =>
    have hnext : answerAll (ops ++ [op]) start = op.answer middle := by
      rw [answerAll] at hops ⊢
      rw [List.foldlM_append, hops]
      exact bind_pure (op.answer middle)
    simp [hnext]

theorem answer_all_call {before after : List AttemptOp} {middle : RunnerAttempt}
    (hbefore : answerAll before start = .ok middle)
    (hrun : answerAll (before ++ op :: after) start = .ok final) :
    ∃ next, op.answer middle = .ok next := by
  rw [answerAll] at hbefore hrun
  rw [List.foldlM_append, hbefore] at hrun
  cases hanswer : op.answer middle with
  | ok next => exact ⟨next, rfl⟩
  | error e => simp [bind, Except.bind, hanswer] at hrun

theorem answer_all_wellFormed (hwf : WellFormed start) (hrun : answerAll ops start = .ok final) :
    WellFormed final := by
  induction ops using List.reverseRecOn generalizing final with
  | nil =>
    cases hrun
    exact hwf
  | append_singleton ops op ih =>
    obtain ⟨middle, hmiddle, hanswer⟩ := answerAll_concat.mp hrun
    obtain ⟨hpermits, rfl⟩ := answer_iff.mp hanswer
    exact (ih hmiddle).effect hpermits

/-- A call loses the environment a state needs only by receiving a JIT configuration for an
environment that does not exist. -/
theorem environment_known_effect (hknown : attempt.EnvironmentKnown) (hop : op.Permits attempt)
    (hjit : ¬ op.JitWithoutEnvironment attempt) : (op.effect attempt).EnvironmentKnown := by
  obtain ⟨hguard, hlegal⟩ := hop
  cases op with
  | allocateExecution execution =>
    intro hneeds
    simp [effect, hguard.1, AttemptState.needsEnvironment] at hneeds
  | preparedEnvironment environmentId =>
    intro _ _
    cases hexecution : attempt.execution <;>
      simp_all [effect, Guard, AttemptExecution.withEnvironment,
        AttemptExecution.environmentId, AttemptExecution.isNative]
  | jitReceived now =>
    intro _ hisolated
    have hsome : attempt.execution.environmentId ≠ none :=
      fun hnone ↦ hjit ⟨⟨now, rfl⟩, hisolated, hnone⟩
    exact Option.isSome_iff_ne_none.mpr hsome
  | started processId now =>
    intro _ hisolated
    cases hisolated
  | markPrepared now | startedIsolated now => exact fun _ _ ↦ hguard
  | registeredIdle githubRunnerId now | assignedJob githubRunnerId now | assignmentNotTaken now =>
    -- The edge leaves a state that needs the environment already.
    have hneeds := AttemptState.legal_induction (P := fun state next ↦
      next = .idle ∨ next = .busy → state.needsEnvironment = true) (by decide) (hlegal _ rfl)
      (by decide)
    exact fun _ hisolated ↦ hknown hneeds hisolated
  | conclude outcome now =>
    intro hneeds
    cases outcome <;> cases hneeds
  | _ =>
    intro hneeds
    cases hneeds

theorem not_environment_known_effect (hjit : op.JitWithoutEnvironment attempt) :
    ¬ (op.effect attempt).EnvironmentKnown := by
  obtain ⟨⟨now, rfl⟩, hisolated, hnone⟩ := hjit
  intro hknown
  have hsome := hknown rfl hisolated
  rw [show ((jitReceived now).effect attempt).execution.environmentId = none from hnone] at hsome
  cases hsome

/-- Along an accepted history every attempt is read back, up to the clock repair, exactly
when no JIT configuration is received for an environment that does not exist. -/
theorem journal_closure (id : AttemptId) (policyId : PolicyId) (runtimePath : String)
    (workspace : AttemptWorkspace) (now : Timestamp) (ops : List AttemptOp)
    (hrun : answerAll ops (.allocateIn id policyId runtimePath workspace now) = .ok final) :
    (∀ before after middle, ops = before ++ after →
        answerAll before (.allocateIn id policyId runtimePath workspace now) = .ok middle →
        middle.reload = .ok middle.clockNormalised) ↔
      ∀ before op after middle, ops = before ++ op :: after →
        answerAll before (.allocateIn id policyId runtimePath workspace now) = .ok middle →
        ¬ op.JitWithoutEnvironment middle := by
  have hstart := WellFormed.allocateIn id policyId runtimePath workspace now
  set start := RunnerAttempt.allocateIn id policyId runtimePath workspace now with hstartdef
  constructor
  · intro hreload before op after middle hops hmiddle hjit
    rw [hops] at hrun
    obtain ⟨next, hnext⟩ := answer_all_call hmiddle hrun
    have hfront := answerAll_concat.mpr ⟨middle, hmiddle, hnext⟩
    have hback := hreload (before ++ [op]) after next (by simp [hops]) hfront
    rw [reload_iff (answer_all_wellFormed hstart hfront), (answer_iff.mp hnext).2] at hback
    exact not_environment_known_effect hjit hback
  · intro hnever before after middle hops hmiddle
    rw [reload_iff (answer_all_wellFormed hstart hmiddle)]
    induction before using List.reverseRecOn generalizing after middle with
    | nil =>
      cases hmiddle
      intro hneeds
      cases hneeds
    | append_singleton before op ih =>
      obtain ⟨previous, hprevious, hanswer⟩ := answerAll_concat.mp hmiddle
      obtain ⟨hpermits, rfl⟩ := answer_iff.mp hanswer
      have hsplit : ops = before ++ op :: after := by simpa using hops
      exact environment_known_effect (ih (op :: after) previous hsplit hprevious) hpermits
        (hnever before op after previous hsplit hprevious)

/-- The calls of an isolated launch up to its JIT configuration. -/
def isolatedLaunch (now : Timestamp) : List AttemptOp :=
  [.allocateExecution (.isolated .virtualMachine none ⟨"vm-version:1"⟩ "g1"), .beginPrepare now,
    .preparedEnvironment "e1", .markPrepared now, .jitReceived now]

/-- An isolated launch in order keeps the journal readable at every step, also when the clock
has stepped back since the allocation. -/
theorem journal_closure_launch : (∃ final, answerAll (isolatedLaunch 5)
      (.allocateIn ⟨1⟩ ⟨2⟩ "/r/1" .ephemeral 9) = .ok final) ∧
    ∀ before after middle, isolatedLaunch 5 = before ++ after →
      answerAll before (.allocateIn ⟨1⟩ ⟨2⟩ "/r/1" .ephemeral 9) = .ok middle →
      middle.reload = .ok middle.clockNormalised := by
  refine ⟨⟨_, rfl⟩, (journal_closure ⟨1⟩ ⟨2⟩ "/r/1" .ephemeral 9 (isolatedLaunch 5) rfl).mpr ?_⟩
  rintro before op after middle hops hmiddle ⟨⟨now, rfl⟩, hisolated, hnone⟩
  -- The one JIT call is the fifth, and the environment is known by then.
  rcases before with _ | ⟨_, _ | ⟨_, _ | ⟨_, _ | ⟨_, _ | ⟨_, rest⟩⟩⟩⟩⟩ <;>
    simp [isolatedLaunch] at hops
  obtain ⟨rfl, rfl, rfl, rfl, rfl, rfl⟩ := hops
  cases hmiddle
  cases hnone

/-- A JIT configuration received before the environment exists leaves a row that is refused. -/
theorem jit_without_environment_unreadable :
    ∃ attempt, answerAll [.allocateExecution (.isolated .virtualMachine none ⟨"vm-version:1"⟩ "g1"),
        .jitReceived 1] (.allocate ⟨1⟩ ⟨2⟩ "/r/1" 0) = .ok attempt ∧
      attempt.reload = .error (.execution .attemptIdentityMismatch) := by
  exact ⟨_, rfl, by decide⟩

end AttemptOp

end RunnerManager.Domain
