import RunnerManager.Domain.AttemptHistory

/-!
# The recovery decision

`recovery_decision` of `crates/domain/src/attempt.rs`: what to do about one journalled attempt,
from its state, the process, GitHub and the clock. Read `RecoveryDecision.Justified`
first: it says, decision by decision, what must have been seen.
-/

namespace RunnerManager.Domain

structure RecoveryTimeouts where
  jitHandoff : Elapsed
  startup : Elapsed
  idle : Elapsed
deriving DecidableEq

inductive GithubRunnerObservation where
  | unreachable
  | notRegistered
  | registered (busy : Bool)
deriving DecidableEq

/-- Whether GitHub was seen to list the runner. -/
def GithubRunnerObservation.isRegistered : GithubRunnerObservation → Bool
  | registered _ => true
  | _ => false

structure RecoveryObservation where
  processAlive : Bool
  github : GithubRunnerObservation
deriving DecidableEq

inductive RecoveryDecision where
  | nothing
  | clean
  | adopt
  | wait
  | defer
  | observe (state : AttemptState)
  | conclude (outcome : AttemptOutcome)
  | terminate (outcome : AttemptOutcome)
deriving DecidableEq

namespace RecoveryDecision

/-- `allocated` and `jit_received`. -/
def beforeStart (state : AttemptState) (observation : RecoveryObservation) (elapsed : Elapsed)
    (timeouts : RecoveryTimeouts) : RecoveryDecision :=
  if observation.processAlive then adopt
  else
    match observation.github with
    | .registered _ => observe (if state = .allocated then .jitReceived else .starting)
    | .notRegistered =>
      if timeouts.jitHandoff ≤ elapsed then
        conclude (.failed (if state = .allocated then .jitRequestFailed else .jitExpired))
      else wait
    | .unreachable => defer

/-- `starting`. -/
def atStarting (observation : RecoveryObservation) (elapsed : Elapsed)
    (timeouts : RecoveryTimeouts) : RecoveryDecision :=
  match observation.github with
  | .registered true => observe .busy
  | .registered false => observe .idle
  | .notRegistered =>
    if !observation.processAlive then conclude (.failed .processExitedUnexpectedly)
    else if elapsed < timeouts.startup then adopt
    else terminate (.failed .registrationTimedOut)
  | .unreachable => defer

/-- `idle`. -/
def atIdle (observation : RecoveryObservation) (elapsed : Elapsed)
    (timeouts : RecoveryTimeouts) : RecoveryDecision :=
  match observation.github with
  | .registered true => observe .busy
  | .registered false =>
    if !observation.processAlive then conclude .orphaned
    else if timeouts.idle ≤ elapsed then terminate .exitedIdleWithoutWork
    else adopt
  | .notRegistered =>
    if observation.processAlive then adopt
    else if timeouts.idle ≤ elapsed then conclude .exitedIdleWithoutWork
    else conclude (.failed .processExitedUnexpectedly)
  | .unreachable => defer

end RecoveryDecision

open RecoveryDecision in
/-- `recovery_decision`. GitHub out of reach is settled before the states are looked at. -/
def recoveryDecision (attempt : RunnerAttempt) (observation : RecoveryObservation)
    (timeouts : RecoveryTimeouts) (now : Timestamp) : RecoveryDecision :=
  if attempt.state = .cleaned then nothing
  else if attempt.state.isTerminal then clean
  else if observation.github = .unreachable then defer
  else
    let elapsed := now - attempt.lastStateChangeAt
    match attempt.state with
    | .allocated | .jitReceived => beforeStart attempt.state observation elapsed timeouts
    | .starting => atStarting observation elapsed timeouts
    | .idle => atIdle observation elapsed timeouts
    | .busy => if observation.processAlive then adopt else conclude .orphaned
    | _ => wait

/-! ## What a decision says of what was seen -/

/-- What must have been seen for a decision. An attempt is concluded outright only when its
process is gone and GitHub was seen, and never as completed or as stopped by this agent, and a
runner that GitHub lists is concluded so only after it registered; a live
process is ordered to stop when it did not register in time or when it is surplus, and the
outcome carries which; GitHub moves only a runner it lists. -/
def RecoveryDecision.Justified (state : AttemptState) (observation : RecoveryObservation) :
    RecoveryDecision → Prop
  | conclude outcome => observation.processAlive = false ∧ observation.github ≠ .unreachable ∧
      outcome ≠ .completedJob ∧ outcome ≠ .failed .terminatedAfterRegistrationTimeout ∧
      (observation.github = .notRegistered ∨ state = .idle ∨ state = .busy)
  | terminate outcome => observation.processAlive = true ∧
      (state = .starting ∧ observation.github = .notRegistered ∧
          outcome = .failed .registrationTimedOut ∨
        state = .idle ∧ observation.github = .registered false ∧
          outcome = .exitedIdleWithoutWork)
  | observe next => observation.github.isRegistered = true ∧
      (next = .idle ∨ next = .busy ∨
        observation.processAlive = false ∧ (state = .allocated ∨ state = .jitReceived))
  | _ => True

namespace RecoveryDecision

variable {state : AttemptState} {observation : RecoveryObservation} {timeouts : RecoveryTimeouts}
  {elapsed : Elapsed}

theorem beforeStart_justified (hstate : state = .allocated ∨ state = .jitReceived) :
    (beforeStart state observation elapsed timeouts).Justified state observation := by
  obtain ⟨alive, github⟩ := observation
  unfold beforeStart
  cases alive with
  | true => exact trivial
  | false =>
    cases github with
    | unreachable => exact trivial
    | registered busy => exact ⟨rfl, .inr (.inr ⟨rfl, hstate⟩)⟩
    | notRegistered =>
      by_cases hlate : timeouts.jitHandoff ≤ elapsed
      · rcases hstate with rfl | rfl <;> simp [hlate, Justified]
      · simp [hlate, Justified]

theorem atStarting_justified :
    (atStarting observation elapsed timeouts).Justified .starting observation := by
  obtain ⟨alive, github⟩ := observation
  unfold atStarting
  cases github with
  | unreachable => exact trivial
  | registered busy => cases busy <;> simp [Justified, GithubRunnerObservation.isRegistered]
  | notRegistered =>
    cases alive with
    | false => simp [Justified]
    | true => by_cases hyoung : elapsed < timeouts.startup <;> simp [hyoung, Justified]

theorem atIdle_justified : (atIdle observation elapsed timeouts).Justified .idle observation := by
  obtain ⟨alive, github⟩ := observation
  unfold atIdle
  cases github with
  | unreachable => exact trivial
  | registered busy =>
    cases busy with
    | true => exact ⟨rfl, .inr (.inl rfl)⟩
    | false =>
      cases alive <;> by_cases hlate : timeouts.idle ≤ elapsed <;> simp [hlate, Justified]
  | notRegistered =>
    cases alive <;> by_cases hlate : timeouts.idle ≤ elapsed <;> simp [hlate, Justified]

end RecoveryDecision

theorem recoveryDecision_justified (attempt : RunnerAttempt) (observation : RecoveryObservation)
    (timeouts : RecoveryTimeouts) (now : Timestamp) :
    (recoveryDecision attempt observation timeouts now).Justified attempt.state observation := by
  unfold recoveryDecision
  by_cases hreached : observation.github = .unreachable
  · cases attempt.state <;> simp [AttemptState.isTerminal, hreached, RecoveryDecision.Justified]
  · cases attempt.state with
    | allocated => simpa [AttemptState.isTerminal, hreached] using
        RecoveryDecision.beforeStart_justified (.inl rfl)
    | jitReceived => simpa [AttemptState.isTerminal, hreached] using
        RecoveryDecision.beforeStart_justified (.inr rfl)
    | starting => simpa [AttemptState.isTerminal, hreached] using
        RecoveryDecision.atStarting_justified
    | idle => simpa [AttemptState.isTerminal, hreached] using RecoveryDecision.atIdle_justified
    | busy =>
      cases halive : observation.processAlive <;>
        simp [AttemptState.isTerminal, hreached, halive, RecoveryDecision.Justified]
    | _ => simp [AttemptState.isTerminal, hreached, RecoveryDecision.Justified]

theorem terminal_of_decision_clean {attempt : RunnerAttempt} {observation : RecoveryObservation}
    {timeouts : RecoveryTimeouts} {now : Timestamp}
    (h : recoveryDecision attempt observation timeouts now = .clean) :
    attempt.state.isTerminal = true := by
  by_contra hlive
  have hcleaned : attempt.state ≠ .cleaned := by
    intro hcleaned
    exact hlive (congrArg AttemptState.isTerminal hcleaned)
  unfold recoveryDecision at h
  rw [if_neg hcleaned, if_neg hlive] at h
  by_cases hreached : observation.github = .unreachable
  · rw [if_pos hreached] at h
    cases h
  rw [if_neg hreached] at h
  -- No decision about a live state is to clean.
  dsimp only at h
  split at h
  · grind [RecoveryDecision.beforeStart]
  · grind [RecoveryDecision.beforeStart]
  · grind [RecoveryDecision.atStarting]
  · grind [RecoveryDecision.atIdle]
  · split at h <;> cases h
  · cases h

end RunnerManager.Domain
