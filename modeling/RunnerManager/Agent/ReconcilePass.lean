import RunnerManager.Agent.Launch
import RunnerManager.Agent.Reconcile

/-!
# One reconcile pass

`Reconciler::reconcile` of `crates/agent/src/reconcile.rs`: supervise every policy, poll every
target once, clean what has concluded, then allocate for each policy in order. A poll answers
with a reading of the queue or fails; how a reading is routed to the profiles of its target is a
parameter, since a pass only uses the number each profile is given.
-/

namespace RunnerManager.Agent

open RunnerManager.Domain

/-! ## Ports -/

/-- The calls of a whole pass. -/
inductive PassCall where
  | port (c : StartCall)
  | supervise (policy : ScalePolicy)
  | poll (target : ScaleTarget)
  | clean (id : AttemptId)
  | now

/-- What each call answers; a failed poll has no reading, and supervision answers how many
replacements it asks for. -/
abbrev PassCall.Answer (ρ : Type) : PassCall → Type
  | port c => c.Answer
  | supervise _ => Except LaunchFailure Nat
  | poll _ => Option ρ
  | clean _ => Except LaunchFailure Unit
  | now => Timestamp

/-- A part of a pass; it has no failure of its own. -/
abbrev PassProgramOf (ρ : Type) := Program PassCall (PassCall.Answer ρ) Empty

/-- A part that only starts runners. -/
def starting {ρ α : Type} (p : StartProgram α) : PassProgramOf ρ α :=
  p.mapCalls .port fun _ answer ↦ answer

/-! ## The report -/

/-- `ReconcileReport`: what a pass decided and did. -/
structure ReconcileReport extends StartReport where
  monitorOnly : List PolicyId
  replacementIntents : Nat
  targetsRead : Nat
  unreadable : List PolicyId
  cleaned : Nat
  failures : Nat
  idleExits : Nat
  cleanFailures : Nat
deriving DecidableEq

def ReconcileReport.default : ReconcileReport where
  allocations := []
  started := 0
  deferred := 0
  attemptsUnreadable := 0
  hostCapacityUnreadable := 0
  monitorOnly := []
  replacementIntents := 0
  targetsRead := 0
  unreadable := []
  cleaned := 0
  failures := 0
  idleExits := 0
  cleanFailures := 0

/-- `report_unreadable_attempts`. -/
def ReconcileReport.attemptsFailed (report : ReconcileReport) : ReconcileReport :=
  { report with attemptsUnreadable := saturatingAdd report.attemptsUnreadable 1 }

def ownsRunners (policy : ScalePolicy) : Bool :=
  policy.mode.isAutoscale

def isOwnedBy (policy : ScalePolicy) (host : HostId) : Bool :=
  policy.hostId = host

/-! ## Cleaning concluded attempts -/

structure CleanRetry where
  failures : Nat
  notBefore : Timestamp
deriving DecidableEq

/-- `CleanBackoff`: when a failed cleanup may be tried again. -/
abbrev CleanBackoff := AttemptId → Option CleanRetry

namespace CleanBackoff

def second : Elapsed := 1000000000

def schedule : RetryPolicy := ⟨2 ^ 32 - 1, 30 * second, 30 * 60 * second⟩

def isDue (backoff : CleanBackoff) (id : AttemptId) (now : Timestamp) : Bool :=
  (backoff id).all fun retry ↦ retry.notBefore ≤ now

def failed (backoff : CleanBackoff) (id : AttemptId) (now : Timestamp) : CleanBackoff :=
  let failures := (backoff id).elim 1 fun retry ↦ min (retry.failures + 1) (2 ^ 32 - 1)
  Function.update backoff id (some ⟨failures, now + schedule.delay failures⟩)

def succeeded (backoff : CleanBackoff) (id : AttemptId) : CleanBackoff :=
  Function.update backoff id none

def retain (backoff : CleanBackoff) (present : List AttemptId) : CleanBackoff :=
  fun id ↦ if id ∈ present then backoff id else none

end CleanBackoff

def ReconcileReport.countCleaned (report : ReconcileReport) (outcome : AttemptOutcome) :
    ReconcileReport :=
  let report := { report with cleaned := saturatingAdd report.cleaned 1 }
  match outcome with
  | .failed _ | .orphaned => { report with failures := saturatingAdd report.failures 1 }
  | .exitedIdleWithoutWork => { report with idleExits := saturatingAdd report.idleExits 1 }
  | .completedJob => report

section Pass

variable {ρ : Type}

/-- The loop of `clean_terminal_attempts`. -/
def cleanAttempts (now : Timestamp) : List RunnerAttempt → CleanBackoff → ReconcileReport →
    PassProgramOf ρ (CleanBackoff × ReconcileReport)
  | [], backoff, report => return (backoff, report)
  | attempt :: rest, backoff, report =>
    match attempt.state.isConcluded, attempt.outcome with
    | true, some outcome =>
      if !backoff.isDue attempt.id now then cleanAttempts now rest backoff report
      else do
        match ← Program.perform (PassCall.clean attempt.id) with
        | .ok _ =>
          cleanAttempts now rest (backoff.succeeded attempt.id) (report.countCleaned outcome)
        | .error _ =>
          cleanAttempts now rest (backoff.failed attempt.id now)
            { report with cleanFailures := saturatingAdd report.cleanFailures 1 }
    | _, _ => cleanAttempts now rest backoff report

def cleanTerminalAttempts (backoff : CleanBackoff) (report : ReconcileReport) :
    PassProgramOf ρ (CleanBackoff × ReconcileReport) := do
  match ← Program.perform (PassCall.port .attempts) with
  | .error _ => return (backoff, report.attemptsFailed)
  | .ok attempts => do
    let now ← Program.perform PassCall.now
    cleanAttempts now attempts (backoff.retain (attempts.map (·.id))) report

/-! ## Supervising and polling -/

/-- The policies a pass polls for, and those whose supervision failed. -/
structure SupervisedPolicies where
  pollable : List ScalePolicy
  failed : List PolicyId

/-- The first loop of `reconcile`. -/
def supervisePolicies (host : HostId) : List ScalePolicy → SupervisedPolicies → ReconcileReport →
    PassProgramOf ρ (SupervisedPolicies × ReconcileReport)
  | [], seen, report => return (seen, report)
  | policy :: rest, seen, report =>
    if !ownsRunners policy then
      supervisePolicies host rest seen
        { report with monitorOnly := report.monitorOnly ++ [policy.id] }
    else if !isOwnedBy policy host then supervisePolicies host rest seen report
    else do
      match ← Program.perform (PassCall.supervise policy) with
      | .error _ =>
        supervisePolicies host rest { seen with failed := seen.failed ++ [policy.id] }
          report.attemptsFailed
      | .ok intents =>
        let report := { report with
          replacementIntents := saturatingAdd report.replacementIntents (min intents u16Max) }
        if !policy.mayStartRunners then supervisePolicies host rest seen report
        else
          supervisePolicies host rest { seen with pollable := seen.pollable ++ [policy] } report

/-- Each target once, as first spelled. -/
def distinctTargets : List ScalePolicy → List ScaleTarget → List ScaleTarget
  | [], targets => targets
  | policy :: rest, targets =>
    if targets.any fun target ↦ target.same policy.target then distinctTargets rest targets
    else distinctTargets rest (targets ++ [policy.target])

/-- `poll_targets`: one poll for each target. -/
def pollTargets : List ScaleTarget → List (ScaleTarget × Option ρ) →
    PassProgramOf ρ (List (ScaleTarget × Option ρ))
  | [], readings => return readings
  | target :: rest, readings => do
    let outcome ← Program.perform (PassCall.poll target)
    pollTargets rest (readings ++ [(target, outcome)])

def readingOf (readings : List (ScaleTarget × Option ρ)) (target : ScaleTarget) :
    Option (Option ρ) :=
  (readings.find? fun reading ↦ reading.1.same target).map (·.2)

/-! ## Allocating -/

/-- `route_demand`: the matched demand of each profile of a target, given every policy of the
host and the polled profiles of the target. -/
abbrev RouteDemand (ρ : Type) := List ScalePolicy → List ScalePolicy → ρ → PolicyId → Nat

/-- What a decision that starts nothing adds to the report. -/
def ReconcileReport.decided (report : ReconcileReport) :
    Except AllocationFailure Allocation → ReconcileReport
  | .ok allocation => { report with allocations := report.allocations ++ [allocation] }
  | .error failure => { report with toStartReport := report.toStartReport.allocationFailed failure }

/-- What the allocation loop knows. -/
structure Polled (ρ : Type) where
  policies : List ScalePolicy
  supervised : SupervisedPolicies
  readings : List (ScaleTarget × Option ρ)

def Polled.demand (polled : Polled ρ) (route : RouteDemand ρ) (policy : ScalePolicy)
    (reading : ρ) : Nat :=
  route polled.policies (polled.supervised.pollable.filter (·.target.same policy.target)) reading
    policy.id

/-- The allocation loop of `reconcile`. -/
def allocatePolicies (host : Host) (route : RouteDemand ρ) (polled : Polled ρ) :
    List ScalePolicy → ReconcileReport → List RunnerAttempt → PassProgramOf ρ ReconcileReport
  | [], report, _ => return report
  | policy :: rest, report, launched =>
    if !ownsRunners policy then allocatePolicies host route polled rest report launched
    else if !isOwnedBy policy host.id || !policy.mayStartRunners then do
      let decision ← starting (allocateOnly host policy 0 launched)
      allocatePolicies host route polled rest (report.decided decision) launched
    else if polled.supervised.failed.contains policy.id then
      allocatePolicies host route polled rest report launched
    else
      match readingOf polled.readings policy.target with
      | none => allocatePolicies host route polled rest report launched
      | some none =>
        allocatePolicies host route polled rest
          { report with unreadable := report.unreadable ++ [policy.id] } launched
      | some (some reading) => do
        let (started, launched) ← starting (startRunners host policy
          (polled.demand route policy reading) report.toStartReport launched)
        allocatePolicies host route polled rest
          { report with toStartReport := started } launched

/-- `Reconciler::reconcile`, without the schedule of the next poll. -/
def reconcile (host : Host) (route : RouteDemand ρ) (policies : List ScalePolicy)
    (backoff : CleanBackoff) : PassProgramOf ρ (CleanBackoff × ReconcileReport) := do
  let (supervised, report) ← supervisePolicies host.id policies ⟨[], []⟩ .default
  let readings ← pollTargets (distinctTargets supervised.pollable []) []
  let report := { report with
    targetsRead := min (readings.countP fun reading ↦ reading.2.isSome) u16Max }
  let (backoff, report) ← cleanTerminalAttempts backoff report
  let report ← allocatePolicies host route ⟨policies, supervised, readings⟩ policies report []
  return (backoff, report)

/-! ## Parts that launch nothing -/

section

variable {σ : Type} {C : Contract PassCall (PassCall.Answer ρ) σ}

/-- A contract that allows every call but launches. -/
def AllowsOthers (C : Contract PassCall (PassCall.Answer ρ) σ) : Prop :=
  ∀ s c, (∀ policy, c ≠ .port (.launch policy)) → C.requires s c

theorem supervisePolicies_wp (hC : AllowsOthers C) (host : HostId) (policies : List ScalePolicy)
    (seen : SupervisedPolicies) (report : ReconcileReport) (s : σ) :
    C.wp (supervisePolicies host policies seen report) (fun result _ ↦ ∀ seen' report',
      result = .ok (seen', report') → report'.allocations = report.allocations) s := by
  induction policies generalizing seen report s with
  | nil =>
    intro _ _ h
    cases h
    rfl
  | cons policy rest ih =>
    unfold supervisePolicies
    split_ifs
    · exact ih _ _ _
    · exact ih _ _ _
    all_goals
      refine ⟨hC _ _ (fun _ h ↦ by cases h), ?_⟩
      intro answer next _
      cases answer with
      | error failure => exact ih _ _ _
      | ok intents => exact ih _ _ _

theorem pollTargets_wp (hC : AllowsOthers C) (targets : List ScaleTarget)
    (readings : List (ScaleTarget × Option ρ)) (s : σ) :
    C.wp (pollTargets targets readings) (fun _ _ ↦ True) s := by
  induction targets generalizing readings s with
  | nil => trivial
  | cons target rest ih => exact ⟨hC _ _ (fun _ h ↦ by cases h), fun _ _ _ ↦ ih _ _⟩

theorem cleanAttempts_wp (hC : AllowsOthers C) (now : Timestamp) (attempts : List RunnerAttempt)
    (backoff : CleanBackoff) (report : ReconcileReport) (s : σ) :
    C.wp (cleanAttempts now attempts backoff report) (fun result _ ↦ ∀ backoff' report',
      result = .ok (backoff', report') → report'.allocations = report.allocations) s := by
  induction attempts generalizing backoff report s with
  | nil =>
    intro _ _ h
    cases h
    rfl
  | cons attempt rest ih =>
    unfold cleanAttempts
    split
    · next outcome _ _ =>
      split_ifs
      · exact ih _ _ _
      · refine ⟨hC _ _ (fun _ h ↦ by cases h), ?_⟩
        intro answer next _
        cases answer with
        | ok _ =>
          refine Contract.wp_mono (ih _ _ _) fun result _ h backoff' report' hresult ↦ ?_
          rw [h backoff' report' hresult]
          cases outcome <;> rfl
        | error failure => exact ih _ _ _
    · exact ih _ _ _

theorem cleanTerminalAttempts_wp (hC : AllowsOthers C) (backoff : CleanBackoff)
    (report : ReconcileReport) (s : σ) :
    C.wp (cleanTerminalAttempts backoff report) (fun result _ ↦ ∀ backoff' report',
      result = .ok (backoff', report') → report'.allocations = report.allocations) s := by
  refine ⟨hC _ _ (fun _ h ↦ by cases h), ?_⟩
  intro answer next _
  cases answer with
  | error failure =>
    intro _ _ h
    cases h
    rfl
  | ok attempts =>
    refine ⟨hC _ _ (fun _ h ↦ by cases h), ?_⟩
    intro now last _
    exact cleanAttempts_wp hC now attempts _ report last

end

end Pass

end RunnerManager.Agent
