import RunnerManager.Domain.Capacity
import RunnerManager.Lib.Program

/-!
# Starting runners

`Reconciler::start_runners` of `crates/agent/src/reconcile.rs` as a program over the ports it
calls: the allocation lock, the host ceiling, the attempt set and the launcher. Read
`start_runners_wp` first: whatever the ports answer, every launch is made under the lock, within
the pre-check's budget, and below the ceiling read in the same hold.
-/

namespace RunnerManager.Agent

open RunnerManager.Domain
open Contract (wp_bind wp_mono wp_perform wp_pure)

/-! ## Ports -/

inductive HostCapacityError where
  | missingHost
  | journalUnreadable
deriving DecidableEq

structure LaunchFailure where
  reason : FailureReason
deriving DecidableEq

inductive AllocationLockBusy where
  | busy
deriving DecidableEq

inductive AllocationFailure where
  | hostCapacity (error : HostCapacityError)
  | attempts (failure : LaunchFailure)
deriving DecidableEq

/-- The calls of a pass that starts runners; dropping the guard is `release`. -/
inductive StartCall where
  | acquire
  | release
  | hostCapacity
  | attempts
  | launch (policy : ScalePolicy)

abbrev StartCall.Answer : StartCall → Type
  | acquire => Except AllocationLockBusy Unit
  | release => Unit
  | hostCapacity => Except HostCapacityError NonZeroU16
  | attempts => Except LaunchFailure (List RunnerAttempt)
  | launch _ => Except LaunchFailure RunnerAttempt

/-- A part of a pass; it has no failure of its own. -/
abbrev StartProgram := Program StartCall StartCall.Answer Empty

def acquire : StartProgram (Except AllocationLockBusy Unit) :=
  .perform StartCall.acquire

def release : StartProgram Unit :=
  .perform StartCall.release

def hostCapacity : StartProgram (Except HostCapacityError NonZeroU16) :=
  .perform StartCall.hostCapacity

def attempts : StartProgram (Except LaunchFailure (List RunnerAttempt)) :=
  .perform StartCall.attempts

def launch (policy : ScalePolicy) : StartProgram (Except LaunchFailure RunnerAttempt) :=
  .perform (StartCall.launch policy)

/-! ## The pass -/

/-- The parts of `ReconcileReport` that starting runners writes. -/
structure StartReport where
  allocations : List Allocation
  started : Nat
  deferred : Nat
  attemptsUnreadable : Nat
  hostCapacityUnreadable : Nat
deriving DecidableEq

/-- A `u16` counter that saturates. -/
def saturatingAdd (count more : Nat) : Nat :=
  min (count + more) u16Max

/-- `report_allocation_failure`. -/
def StartReport.allocationFailed (report : StartReport) : AllocationFailure → StartReport
  | .hostCapacity _ => { report with
      hostCapacityUnreadable := saturatingAdd report.hostCapacityUnreadable 1 }
  | .attempts _ => { report with attemptsUnreadable := saturatingAdd report.attemptsUnreadable 1 }

/-- What the host reports, with what this pass launched and the host does not report yet. -/
def mergeLaunched (attempts launched : List RunnerAttempt) : List RunnerAttempt :=
  attempts ++ launched.filter fun attempt ↦ !(attempts.map (·.id)).contains attempt.id

def hostAttempts (launched : List RunnerAttempt) :
    StartProgram (Except LaunchFailure (List RunnerAttempt)) := do
  match ← attempts with
  | .error failure => return .error failure
  | .ok attempts => return .ok (mergeLaunched attempts launched)

section Pass

variable (host : Host) (policy : ScalePolicy) (demand : Nat)

/-- The allocation decided from one reading of the ceiling and the attempt set. -/
def allocationFor (capacity : NonZeroU16) (attempts : List RunnerAttempt) : Allocation :=
  ((HostAllocator.fromAttempts { host with hostCapacity := capacity } attempts).allocate
    policy demand).1

def allocateOnly (launched : List RunnerAttempt) :
    StartProgram (Except AllocationFailure Allocation) := do
  match ← hostCapacity with
  | .error error => return .error (.hostCapacity error)
  | .ok capacity =>
    match ← hostAttempts launched with
    | .error failure => return .error (.attempts failure)
    | .ok attempts => return .ok (allocationFor host policy demand capacity attempts)

/-- The first decision under the lock may lower the budget; a later one leaves it. -/
def lowerBudget (budget : Nat) (decided : Option Allocation) (allocation : Allocation) : Nat :=
  match decided with
  | none => min budget allocation.toStart
  | some _ => budget

/-- The decision that is reported is the first one under the lock. -/
def keepDecided (decided : Option Allocation) (allocation : Allocation) : Allocation :=
  decided.getD allocation

theorem lowerBudget_le (budget : Nat) (decided : Option Allocation) (allocation : Allocation) :
    lowerBudget budget decided allocation ≤ budget := by
  cases decided with
  | none => exact Nat.min_le_left _ _
  | some _ => exact Nat.le_refl _

/-- The loop of `start_runners`: one lock hold for each runtime. -/
def startLoop (budget : Nat) (decided : Option Allocation) (report : StartReport)
    (launched : List RunnerAttempt) :
    StartProgram (Option Allocation × StartReport × List RunnerAttempt) :=
  if _h : budget = 0 then return (decided, report, launched)
  else do
    match ← acquire with
    | .error _ =>
      return (decided, { report with deferred := saturatingAdd report.deferred budget }, launched)
    | .ok _ =>
      match ← allocateOnly host policy demand launched with
      | .error failure =>
        release
        return (decided, report.allocationFailed failure, launched)
      | .ok allocation =>
        if allocation.startsNothing || lowerBudget budget decided allocation = 0 then
          release
          return (some (keepDecided decided allocation), report, launched)
        else
          let created ← launch policy
          release
          match created with
          | .error _ => return (some (keepDecided decided allocation), report, launched)
          | .ok attempt =>
            startLoop (lowerBudget budget decided allocation - 1)
              (some (keepDecided decided allocation))
              { report with started := saturatingAdd report.started 1 }
              (launched ++ [attempt])
termination_by budget
decreasing_by
  have := lowerBudget_le budget decided allocation
  omega

/-- `start_runners`: the report and the launched attempts after the pass of one policy. -/
def startRunners (report : StartReport) (launched : List RunnerAttempt) :
    StartProgram (StartReport × List RunnerAttempt) := do
  match ← allocateOnly host policy demand launched with
  | .error failure => return (report.allocationFailed failure, launched)
  | .ok intent =>
    let (decided, report, launched) ←
      startLoop host policy demand intent.toStart none report launched
    return ({ report with allocations := report.allocations ++ [decided.getD intent] }, launched)

end Pass

/-! ## What a pass requires of its history -/

/-- What one call of `start_runners` has done: its readings in the current hold, whether the
hold has launched, the attempts launched so far, and the pre-check's grant. -/
structure StartLog where
  locked : Bool
  spent : Bool
  capacity : Option NonZeroU16
  attempts : Option (List RunnerAttempt)
  launched : List RunnerAttempt
  budget : Option Nat
  launches : Nat
  calls : Nat

namespace StartLog

/-- Before the first call. -/
def start (launched : List RunnerAttempt) : StartLog where
  locked := false
  spent := false
  capacity := none
  attempts := none
  launched := launched
  budget := none
  launches := 0
  calls := 0

/-- How many calls a pass may make: the pre-check reads twice, and each granted runner costs
at most five. -/
def callBound (log : StartLog) : Nat :=
  2 + 5 * log.budget.getD 0

/-- The last readings leave room: the merged attempt set is smaller than the ceiling. -/
def HasRoom (log : StartLog) : Prop :=
  ∃ capacity attempts, log.capacity = some capacity ∧ log.attempts = some attempts ∧
    ((mergeLaunched attempts log.launched).countP fun attempt ↦
      attempt.countsAgainstCapacity) < capacity.val

end StartLog

section Contract

variable (host : Host) (policy : ScalePolicy) (demand : Nat)

/-- The history after one answered call. A reading of the ceiling starts a new pair of
readings, and the first complete pair is the pre-check. -/
def StartLog.after (log : StartLog) (c : StartCall) (answer : c.Answer) : StartLog :=
  let log := { log with calls := log.calls + 1 }
  match c, answer with
  | .acquire, .ok _ => { log with
      locked := true, spent := false, capacity := none, attempts := none }
  | .acquire, .error _ => log
  | .release, _ => { log with locked := false }
  | .hostCapacity, .ok capacity => { log with capacity := some capacity, attempts := none }
  | .hostCapacity, .error _ => { log with capacity := none, attempts := none }
  | .attempts, .ok attempts => { log with
      attempts := some attempts
      budget := log.budget <|> log.capacity.map fun capacity ↦
        (allocationFor host policy demand capacity (mergeLaunched attempts log.launched)).toStart }
  | .attempts, .error _ => log
  | .launch _, .ok attempt => { log with
      spent := true
      capacity := none
      attempts := none
      launched := log.launched ++ [attempt]
      launches := log.launches + 1 }
  | .launch _, .error _ => { log with
      spent := true, capacity := none, attempts := none, launches := log.launches + 1 }

def StartLog.Requires (log : StartLog) : StartCall → Prop
  | .acquire => log.locked = false
  | .release => log.locked = true
  | .hostCapacity | .attempts => True
  | .launch launched => launched = policy ∧ log.locked = true ∧ log.spent = false ∧
      log.HasRoom ∧ ∃ budget, log.budget = some budget ∧ log.launches < budget

/-- The contract of one call of `start_runners`; the ports may answer anything. -/
def startContract : Contract StartCall StartCall.Answer StartLog where
  requires log c := log.calls < log.callBound ∧ log.Requires policy c
  steps log c answer next := next = log.after host policy demand c answer

end Contract

section Proof

variable {host : Host} {policy : ScalePolicy} {demand : Nat}

/-- The second log continues the first within one hold. -/
structure SameHold (log next : StartLog) : Prop where
  locked : next.locked = log.locked
  spent : next.spent = log.spent
  launched : next.launched = log.launched
  launches : next.launches = log.launches
  budget : ∀ budget, log.budget = some budget → next.budget = some budget
  calls : next.calls ≤ log.calls + 2

theorem SameHold.callBound_eq {log next : StartLog} {bound : Nat} (h : SameHold log next)
    (hbudget : log.budget = some bound) : next.callBound = 2 + 5 * bound := by
  rw [StartLog.callBound, h.budget bound hbudget]
  rfl

theorem grant_has_room {capacity : NonZeroU16} {attempts : List RunnerAttempt}
    (hstarts : (allocationFor host policy demand capacity attempts).startsNothing = false) :
    (attempts.countP fun attempt ↦ attempt.countsAgainstCapacity) < capacity.val := by
  have hgrant : (allocationFor host policy demand capacity attempts).toStart ≠ 0 := by
    simpa [Allocation.startsNothing] using hstarts
  exact allocate_grants hgrant

/-- One decision makes two readings, and is the allocation of those readings. -/
theorem allocate_only_wp {log : StartLog} {launched : List RunnerAttempt}
    {Q : Except Empty (Except AllocationFailure Allocation) → StartLog → Prop}
    (hlaunched : log.launched = launched) (hcalls : log.calls + 2 ≤ log.callBound)
    (hfailed : ∀ failure next, SameHold log next → Q (.ok (.error failure)) next)
    (hdecided : ∀ capacity attempts next, SameHold log next → next.capacity = some capacity →
      next.attempts = some attempts →
      next.budget = (log.budget <|> some (allocationFor host policy demand capacity
        (mergeLaunched attempts launched)).toStart) →
      Q (.ok (.ok (allocationFor host policy demand capacity
        (mergeLaunched attempts launched)))) next) :
    (startContract host policy demand).wp (allocateOnly host policy demand launched) Q log := by
  subst hlaunched
  unfold StartLog.callBound at hcalls
  simp only [allocateOnly, hostCapacity, wp_bind, wp_perform]
  refine ⟨⟨by unfold StartLog.callBound; omega, trivial⟩, ?_⟩
  rintro answer _ rfl
  cases answer with
  | error error => exact hfailed _ _ ⟨rfl, rfl, rfl, rfl, fun _ h ↦ h, Nat.le_succ _⟩
  | ok capacity =>
    simp only [hostAttempts, attempts, wp_bind, wp_perform]
    refine ⟨⟨?_, trivial⟩, ?_⟩
    · show log.calls + 1 < 2 + 5 * log.budget.getD 0
      omega
    · rintro answer _ rfl
      cases answer with
      | error failure => exact hfailed _ _ ⟨rfl, rfl, rfl, rfl, fun _ h ↦ h, Nat.le_refl _⟩
      | ok attempts =>
        refine hdecided capacity attempts _
          ⟨rfl, rfl, rfl, rfl, fun budget h ↦ ?_, Nat.le_refl _⟩
          rfl rfl rfl
        show (log.budget <|> _) = some budget
        rw [h]
        rfl

theorem release_wp {log : StartLog} {α : Type} {value : α} {Q : Except Empty α → StartLog → Prop}
    (hlocked : log.locked = true) (hcalls : log.calls < log.callBound)
    (hQ : Q (.ok value) (log.after host policy demand .release ())) :
    (startContract host policy demand).wp (do release; return value) Q log := by
  simp only [release, wp_bind, wp_perform, wp_pure]
  refine ⟨⟨hcalls, hlocked⟩, ?_⟩
  rintro _ _ rfl
  exact hQ

theorem start_loop_wp (bound budget : Nat) (decided : Option Allocation) (report : StartReport)
    (launched : List RunnerAttempt) (log : StartLog) (hlaunched : log.launched = launched)
    (hlocked : log.locked = false) (hbudget : log.budget = some bound)
    (hlaunches : log.launches + budget ≤ bound) (hcalls : log.calls + 5 * budget ≤ 2 + 5 * bound) :
    (startContract host policy demand).wp
      (startLoop host policy demand budget decided report launched)
      (fun _ next ↦ next.locked = false) log := by
  induction budget using Nat.strong_induction_on generalizing decided report launched log with
  | _ budget ih =>
    unfold startLoop
    by_cases hzero : budget = 0
    · rw [dif_pos hzero]
      exact hlocked
    · rw [dif_neg hzero]
      have hroom : log.callBound = 2 + 5 * bound := by rw [StartLog.callBound, hbudget]; rfl
      simp only [acquire, wp_bind, wp_perform]
      refine ⟨⟨by omega, hlocked⟩, ?_⟩
      rintro answer _ rfl
      cases answer with
      | error _ => exact hlocked
      | ok guard =>
        -- The hold: two readings, then at most one launch, then the guard is dropped.
        simp only [wp_bind]
        have hheld : log.calls + 1 + 2 ≤ log.callBound := by omega
        have hafter : (log.after host policy demand .acquire (.ok guard)).launched = launched :=
          hlaunched
        refine allocate_only_wp hafter hheld ?_ ?_
        · intro failure next hsame
          have hbound := hsame.callBound_eq hbudget
          have hcallsNext : next.calls ≤ log.calls + 3 := hsame.calls
          exact release_wp hsame.locked (by omega) rfl
        · intro capacity attempts next hsame hcapacity hattempts _
          have hbound := hsame.callBound_eq hbudget
          have hcallsNext : next.calls ≤ log.calls + 3 := hsame.calls
          have hlaunchesNext : next.launches = log.launches := hsame.launches
          have hlaunchedNext : next.launched = launched := hsame.launched.trans hlaunched
          obtain ⟨allocation, hallocation⟩ : ∃ allocation, allocation =
            allocationFor host policy demand capacity (mergeLaunched attempts launched) :=
          ⟨_, rfl⟩
          simp only
          rw [← hallocation]
          split_ifs with hnothing
          · exact release_wp hsame.locked (by omega) rfl
          · rw [Bool.or_eq_true, not_or, Bool.not_eq_true, decide_eq_true_iff] at hnothing
            obtain ⟨hstarts, hlowered⟩ := hnothing
            have hlower := lowerBudget_le budget decided allocation
            simp only [launch, release, wp_bind, wp_perform]
            refine ⟨⟨by omega, rfl, hsame.locked, hsame.spent,
              ⟨capacity, attempts, hcapacity, hattempts, ?_⟩, bound, hsame.budget _ hbudget,
              by omega⟩,
              ?_⟩
            · rw [hlaunchedNext]
              exact grant_has_room (hallocation ▸ hstarts)
            rintro answer _ rfl
            refine ⟨⟨?_, ?_⟩, ?_⟩
            · have hlast : next.calls + 1 < next.callBound := by omega
              cases answer <;> exact hlast
            · cases answer <;> exact hsame.locked
            · rintro _ _ rfl
              cases answer with
              | error failure => rfl
              | ok attempt =>
                refine ih _ (by omega) _ _ _ _ ?_ rfl (hsame.budget _ hbudget) ?_ ?_
                · show next.launched ++ [attempt] = launched ++ [attempt]
                  rw [hlaunchedNext]
                · show next.launches + 1 + (lowerBudget budget decided allocation - 1) ≤ bound
                  omega
                · show next.calls + 1 + 1 + 5 * (lowerBudget budget decided allocation - 1) ≤
                    2 + 5 * bound
                  omega

theorem start_runners_wp (report : StartReport) (launched : List RunnerAttempt) :
    (startContract host policy demand).wp (startRunners host policy demand report launched)
      (fun _ next ↦ next.locked = false) (.start launched) := by
  simp only [startRunners, wp_bind]
  refine allocate_only_wp rfl (Nat.le_refl 2) ?_ ?_
  · intro failure next hsame
    exact hsame.locked
  · intro capacity attempts next hsame _ _ hbudget
    refine wp_bind _ _ |>.mpr (wp_mono (start_loop_wp _ _ none report launched
      next hsame.launched hsame.locked hbudget ?_ ?_) ?_)
    · rw [hsame.launches]
      exact Nat.le_of_eq (Nat.zero_add _)
    · have hcalls : next.calls ≤ 2 := hsame.calls
      omega
    · intro result final hfinal
      cases result with
      | ok value => exact hfinal
      | error e => exact hfinal

end Proof

end RunnerManager.Agent
