import RunnerManager.Domain.Journal
import RunnerManager.Domain.Recovery

/-!
# Recovery decisions can be carried out

`recovery_decision` against the three tables it has to agree with: the legal edges of an attempt,
the states an outcome may be recorded from, and what a failure reason says about the process. The
decision is written once more as the source has it, with the arms the source calls unreachable; no
observation and no clock reaches one. Read `recovery_applicable` first.
-/

namespace RunnerManager.Domain

open RunnerManager.Mutation

namespace RecoveryDecision

/-- The arm of `allocated` and `jit_received`; no answer is an unreachable arm. -/
def checkedBeforeStart (state : AttemptState) (observation : RecoveryObservation)
    (elapsed : Elapsed) (timeouts : RecoveryTimeouts) : Option RecoveryDecision :=
  if observation.processAlive then some adopt
  else
    match observation.github with
    | .registered _ => some (observe (if state = .allocated then .jitReceived else .starting))
    | .notRegistered =>
      if timeouts.jitHandoff ≤ elapsed then
        some (conclude (.failed (if state = .allocated then .jitRequestFailed else .jitExpired)))
      else some wait
    | .unreachable => none

/-- The arm of `starting`. -/
def checkedStarting (observation : RecoveryObservation) (elapsed : Elapsed)
    (timeouts : RecoveryTimeouts) : Option RecoveryDecision :=
  match observation.github with
  | .registered true => some (observe .busy)
  | .registered false => some (observe .idle)
  | .notRegistered =>
    if !observation.processAlive then some (conclude (.failed .processExitedUnexpectedly))
    else if elapsed < timeouts.startup then some adopt
    else some (terminate (.failed .registrationTimedOut))
  | .unreachable => none

/-- The arm of `idle`. -/
def checkedIdle (observation : RecoveryObservation) (elapsed : Elapsed)
    (timeouts : RecoveryTimeouts) : Option RecoveryDecision :=
  match observation.github with
  | .registered true => some (observe .busy)
  | .registered false =>
    if !observation.processAlive then some (conclude .orphaned)
    else if timeouts.idle ≤ elapsed then some (terminate .exitedIdleWithoutWork)
    else some adopt
  | .notRegistered =>
    if observation.processAlive then some adopt
    else if timeouts.idle ≤ elapsed then some (conclude .exitedIdleWithoutWork)
    else some (conclude (.failed .processExitedUnexpectedly))
  | .unreachable => none

end RecoveryDecision

open RecoveryDecision in
/-- `recovery_decision` with its unreachable arms. -/
def checkedDecision (attempt : RunnerAttempt) (observation : RecoveryObservation)
    (timeouts : RecoveryTimeouts) (now : Timestamp) : Option RecoveryDecision :=
  if attempt.state = .cleaned then some nothing
  else if attempt.state.isTerminal then some clean
  else if observation.github = .unreachable then some defer
  else
    let elapsed := now - attempt.lastStateChangeAt
    match attempt.state with
    | .allocated | .jitReceived => checkedBeforeStart attempt.state observation elapsed timeouts
    | .starting => checkedStarting observation elapsed timeouts
    | .idle => checkedIdle observation elapsed timeouts
    | .busy => if observation.processAlive then some adopt else some (conclude .orphaned)
    | .preparing | .prepared => some wait
    | .finished | .failed | .orphaned | .destroying | .cleanupDeferred | .cleaned => none

/-! ## The tables -/

/-- What a failure reason says about the process: that it runs, that it does not, or nothing. -/
def FailureReason.assertsAlive : FailureReason → Option Bool
  | registrationTimedOut => some true
  | processStartFailed | processExitedUnexpectedly | terminatedAfterRegistrationTimeout =>
    some false
  | _ => none

def RecoveryDecision.reason : RecoveryDecision → Option FailureReason
  | conclude (.failed reason) | terminate (.failed reason) => some reason
  | _ => none

/-- The attempt accepts the outcome, whenever it is recorded. -/
def RunnerAttempt.Concludes (attempt : RunnerAttempt) (outcome : AttemptOutcome) : Prop :=
  ∀ now, ∃ next, RunnerAttempt.conclude outcome now attempt = .ok () next

/-- A decision can be carried out on the attempt, and agrees with the process it was made for. -/
def RecoveryDecision.Applicable (attempt : RunnerAttempt) (observation : RecoveryObservation) :
    RecoveryDecision → Prop
  | observe next => attempt.state.canTransitionTo next = true
  | conclude outcome => observation.processAlive = false ∧ attempt.Concludes outcome
  | terminate outcome => observation.processAlive = true ∧ attempt.Concludes outcome
  | _ => True

/-- A reason that says something about the process is only recorded beside it. -/
def RecoveryDecision.Truthful (observation : RecoveryObservation) (decision : RecoveryDecision) :
    Prop :=
  ∀ reason alive, decision.reason = some reason → reason.assertsAlive = some alive →
    observation.processAlive = alive

theorem concludes_of {attempt : RunnerAttempt} {outcome : AttemptOutcome}
    (hfrom : attempt.state ∈ outcome.requiredFrom)
    (hedge : attempt.state.canTransitionTo outcome.terminalState = true) :
    attempt.Concludes outcome := by
  intro now
  have hpermits : (AttemptOp.conclude outcome now).Permits attempt :=
    ⟨hfrom, fun next hnext ↦ by cases hnext; exact hedge⟩
  obtain ⟨-, hcall⟩ | ⟨hrefused, -⟩ := AttemptOp.run_applied (.conclude outcome now) attempt
  · exact ⟨_, hcall⟩
  · exact absurd hpermits hrefused

theorem concludes_failed {attempt : RunnerAttempt} (hlive : attempt.state.isTerminal = false)
    (reason : FailureReason) : attempt.Concludes (.failed reason) := by
  refine concludes_of ?_ ?_
  · show attempt.state ∈ AttemptState.concludableFrom
    cases hstate : attempt.state <;> simp_all [AttemptState.isTerminal] <;> decide
  · show attempt.state.canTransitionTo .failed = true
    cases hstate : attempt.state <;> simp_all [AttemptState.isTerminal] <;> decide

theorem concludes_orphaned {attempt : RunnerAttempt} (hlive : attempt.state.isTerminal = false) :
    attempt.Concludes .orphaned := by
  refine concludes_of ?_ ?_
  · show attempt.state ∈ AttemptState.concludableFrom
    cases hstate : attempt.state <;> simp_all [AttemptState.isTerminal] <;> decide
  · show attempt.state.canTransitionTo .orphaned = true
    cases hstate : attempt.state <;> simp_all [AttemptState.isTerminal] <;> decide

theorem concludes_idle {attempt : RunnerAttempt} (hidle : attempt.state = .idle) :
    attempt.Concludes .exitedIdleWithoutWork :=
  concludes_of (by rw [hidle]; decide) (by rw [hidle]; decide)

theorem checkedDecision_eq (attempt : RunnerAttempt) (observation : RecoveryObservation)
    (timeouts : RecoveryTimeouts) (now : Timestamp) :
    checkedDecision attempt observation timeouts now =
      some (recoveryDecision attempt observation timeouts now) := by
  obtain ⟨alive, github⟩ := observation
  cases github with
  | unreachable =>
    cases hstate : attempt.state <;>
      simp [checkedDecision, recoveryDecision, hstate, AttemptState.isTerminal]
  | notRegistered =>
    cases hstate : attempt.state <;>
      simp only [checkedDecision, recoveryDecision, hstate, AttemptState.isTerminal, reduceCtorEq,
        if_false, if_true, RecoveryDecision.checkedBeforeStart, RecoveryDecision.beforeStart,
        RecoveryDecision.checkedStarting, RecoveryDecision.atStarting,
        RecoveryDecision.checkedIdle, RecoveryDecision.atIdle, Bool.false_eq_true] <;>
      split_ifs <;> rfl
  | registered busy =>
    cases busy <;> cases hstate : attempt.state <;>
      simp only [checkedDecision, recoveryDecision, hstate, AttemptState.isTerminal, reduceCtorEq,
        if_false, if_true, RecoveryDecision.checkedBeforeStart, RecoveryDecision.beforeStart,
        RecoveryDecision.checkedStarting, RecoveryDecision.atStarting,
        RecoveryDecision.checkedIdle, RecoveryDecision.atIdle, Bool.false_eq_true] <;>
      split_ifs <;> rfl

/-! ## The arms -/

namespace RecoveryDecision

variable {attempt : RunnerAttempt} {observation : RecoveryObservation}
  {timeouts : RecoveryTimeouts} {elapsed : Elapsed}

theorem truthful_of_silent {decision : RecoveryDecision} (h : decision.reason = none) :
    decision.Truthful observation := by
  intro reason alive hreason
  rw [h] at hreason
  cases hreason

theorem truthful_of_reason {decision : RecoveryDecision} {reason : FailureReason}
    (h : decision.reason = some reason)
    (htrue : ∀ alive, reason.assertsAlive = some alive → observation.processAlive = alive) :
    decision.Truthful observation := by
  intro other alive hother halive
  rw [h] at hother
  cases hother
  exact htrue alive halive

theorem beforeStart_applicable
    (hstate : attempt.state = .allocated ∨ attempt.state = .jitReceived) :
    (beforeStart attempt.state observation elapsed timeouts).Applicable attempt observation ∧
      (beforeStart attempt.state observation elapsed timeouts).Truthful observation := by
  obtain ⟨alive, github⟩ := observation
  unfold beforeStart
  cases alive with
  | true => exact ⟨trivial, truthful_of_silent rfl⟩
  | false =>
    cases github with
    | unreachable => exact ⟨trivial, truthful_of_silent rfl⟩
    | registered busy =>
      refine ⟨?_, truthful_of_silent rfl⟩
      show attempt.state.canTransitionTo _ = true
      obtain hstate | hstate := hstate <;> rw [hstate] <;> decide
    | notRegistered =>
      by_cases hlate : timeouts.jitHandoff ≤ elapsed
      · simp only [hlate, if_true]
        refine ⟨⟨rfl, ?_⟩, truthful_of_reason rfl fun alive halive ↦ ?_⟩
        · refine concludes_failed ?_ _
          obtain hstate | hstate := hstate <;> rw [hstate] <;> rfl
        · split at halive <;> cases halive
      · simp only [hlate, if_false]
        exact ⟨trivial, truthful_of_silent rfl⟩

theorem atStarting_applicable (hstate : attempt.state = .starting) :
    (atStarting observation elapsed timeouts).Applicable attempt observation ∧
      (atStarting observation elapsed timeouts).Truthful observation := by
  have hfailed : ∀ reason, attempt.Concludes (.failed reason) :=
    concludes_failed (by rw [hstate]; rfl)
  obtain ⟨alive, github⟩ := observation
  unfold atStarting
  cases github with
  | unreachable => exact ⟨trivial, truthful_of_silent rfl⟩
  | registered busy =>
    cases busy <;>
      exact ⟨show attempt.state.canTransitionTo _ = true by rw [hstate]; decide,
        truthful_of_silent rfl⟩
  | notRegistered =>
    cases alive with
    | false =>
      exact ⟨⟨rfl, hfailed _⟩, truthful_of_reason rfl fun alive halive ↦ Option.some.inj halive⟩
    | true =>
      by_cases hyoung : elapsed < timeouts.startup
      · simp only [hyoung, if_true]
        exact ⟨trivial, truthful_of_silent rfl⟩
      · simp only [hyoung, if_false]
        exact ⟨⟨rfl, hfailed _⟩,
          truthful_of_reason rfl fun alive halive ↦ Option.some.inj halive⟩

theorem atIdle_applicable (hstate : attempt.state = .idle) :
    (atIdle observation elapsed timeouts).Applicable attempt observation ∧
      (atIdle observation elapsed timeouts).Truthful observation := by
  have hlive : attempt.state.isTerminal = false := by
    rw [hstate]
    rfl
  obtain ⟨alive, github⟩ := observation
  unfold atIdle
  cases github with
  | unreachable => exact ⟨trivial, truthful_of_silent rfl⟩
  | registered busy =>
    cases busy with
    | true =>
      exact ⟨show attempt.state.canTransitionTo _ = true by rw [hstate]; decide,
        truthful_of_silent rfl⟩
    | false =>
      cases alive with
      | false =>
        exact ⟨⟨rfl, concludes_orphaned hlive⟩, truthful_of_silent rfl⟩
      | true =>
        by_cases hlate : timeouts.idle ≤ elapsed
        · simp only [hlate, if_true]
          exact ⟨⟨rfl, concludes_idle hstate⟩, truthful_of_silent rfl⟩
        · simp only [hlate, if_false]
          exact ⟨trivial, truthful_of_silent rfl⟩
  | notRegistered =>
    cases alive with
    | true => exact ⟨trivial, truthful_of_silent rfl⟩
    | false =>
      by_cases hlate : timeouts.idle ≤ elapsed
      · simp only [hlate, if_true]
        exact ⟨⟨rfl, concludes_idle hstate⟩, truthful_of_silent rfl⟩
      · simp only [hlate, if_false]
        exact ⟨⟨rfl, concludes_failed hlive _⟩,
          truthful_of_reason rfl fun alive halive ↦ Option.some.inj halive⟩

end RecoveryDecision

/-- Every decision can be carried out and says nothing false about the process. -/
theorem decision_applicable (attempt : RunnerAttempt) (observation : RecoveryObservation)
    (timeouts : RecoveryTimeouts) (now : Timestamp) :
    (recoveryDecision attempt observation timeouts now).Applicable attempt observation ∧
      (recoveryDecision attempt observation timeouts now).Truthful observation := by
  unfold recoveryDecision
  by_cases hcleaned : attempt.state = .cleaned
  · rw [if_pos hcleaned]
    exact ⟨trivial, RecoveryDecision.truthful_of_silent rfl⟩
  rw [if_neg hcleaned]
  by_cases hterminal : attempt.state.isTerminal = true
  · rw [if_pos hterminal]
    exact ⟨trivial, RecoveryDecision.truthful_of_silent rfl⟩
  rw [if_neg hterminal]
  by_cases hreached : observation.github = .unreachable
  · rw [if_pos hreached]
    exact ⟨trivial, RecoveryDecision.truthful_of_silent rfl⟩
  rw [if_neg hreached]
  simp only
  split
  · next hstate => exact RecoveryDecision.beforeStart_applicable (.inl hstate)
  · next hstate => exact RecoveryDecision.beforeStart_applicable (.inr hstate)
  · next hstate => exact RecoveryDecision.atStarting_applicable hstate
  · next hstate => exact RecoveryDecision.atIdle_applicable hstate
  · next hstate =>
    cases halive : observation.processAlive with
    | true => exact ⟨trivial, RecoveryDecision.truthful_of_silent rfl⟩
    | false =>
      exact ⟨⟨halive, concludes_orphaned (by rw [hstate]; rfl)⟩,
        RecoveryDecision.truthful_of_silent rfl⟩
  · exact ⟨trivial, RecoveryDecision.truthful_of_silent rfl⟩

theorem decision_unreachable {attempt : RunnerAttempt} {observation : RecoveryObservation}
    (h : observation.github = .unreachable) (timeouts : RecoveryTimeouts) (now : Timestamp) :
    recoveryDecision attempt observation timeouts now = .nothing ∨
      recoveryDecision attempt observation timeouts now = .clean ∨
      recoveryDecision attempt observation timeouts now = .defer := by
  unfold recoveryDecision
  split_ifs
  · exact .inl rfl
  · exact .inr (.inl rfl)
  · exact .inr (.inr rfl)

theorem decision_busy {attempt : RunnerAttempt} {observation : RecoveryObservation}
    (hbusy : attempt.state = .busy) (halive : observation.processAlive = true)
    (timeouts : RecoveryTimeouts) (now : Timestamp) :
    recoveryDecision attempt observation timeouts now =
      if observation.github = .unreachable then .defer else .adopt := by
  simp [recoveryDecision, hbusy, halive, AttemptState.isTerminal]

/-- For every attempt, observation, timeouts and clock: no unreachable arm is reached, the decision
can be carried out and says nothing false about the process, GitHub out of reach leaves, cleans or
defers, and a live busy process is adopted, or deferred while GitHub is out of reach. -/
theorem recovery_applicable (attempt : RunnerAttempt) (observation : RecoveryObservation)
    (timeouts : RecoveryTimeouts) (now : Timestamp) :
    ∃ decision, checkedDecision attempt observation timeouts now = some decision ∧
      decision.Applicable attempt observation ∧ decision.Truthful observation ∧
      (observation.github = .unreachable →
        decision = .nothing ∨ decision = .clean ∨ decision = .defer) ∧
      (attempt.state = .busy → observation.processAlive = true →
        decision = if observation.github = .unreachable then .defer else .adopt) := by
  refine ⟨_, checkedDecision_eq attempt observation timeouts now, ?_, ?_, ?_, ?_⟩
  · exact (decision_applicable attempt observation timeouts now).1
  · exact (decision_applicable attempt observation timeouts now).2
  · exact fun h ↦ decision_unreachable h timeouts now
  · exact fun hbusy halive ↦ decision_busy hbusy halive timeouts now

/-- The journal row of a runner that was assigned a job. -/
def busyRow : PersistedAttempt :=
  (AttemptOp.execAll [.jitReceived 1, .started 41 2, .assignedJob 7 3]
    (.allocate ⟨1⟩ ⟨2⟩ "/r/1" 0)).toPersisted

/-- A live busy process is not adopted while GitHub is out of reach. -/
theorem live_busy_deferred : ∃ attempt, busyRow.fromPersisted = .ok attempt ∧
    attempt.state = .busy ∧
    checkedDecision attempt ⟨true, .unreachable⟩ ⟨60, 120, 300⟩ 4 ≠ some .adopt :=
  ⟨_, rfl, rfl, by decide⟩

end RunnerManager.Domain
