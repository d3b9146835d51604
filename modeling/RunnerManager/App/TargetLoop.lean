import RunnerManager.Agent.ReconcilePass
import RunnerManager.Domain.StoreClosure
import RunnerManager.Platform.Recovery

/-!
# The loop of one target

`run_target_loop` of `crates/app/src/cli/daemon.rs` over a `ManagedTarget`: in every turn the loop
reads its policies from the store, makes one reconcile pass, and tests whether a drain is done.
What the store holds and what every port of the pass answers is free. Read `Sticky` first: what a
drain promises about one turn. The policies a turn reads undo the drain of the ones in memory, and
`Meets` says when that does no harm.
-/

namespace RunnerManager.App

open RunnerManager.Domain RunnerManager.Agent RunnerManager.Platform

/-! ## The managed target -/

def canRequestDisable (policy : ScalePolicy) : Bool :=
  policy.state.canTransitionTo .draining

/-- `begin_drain`: every policy that can is asked to stop. -/
def beginDrain (policies : List ScalePolicy) : List ScalePolicy :=
  policies.map fun policy ↦
    if canRequestDisable policy then PolicyOp.requestDisable.exec policy else policy

/-- Whether the daemon runs a loop for a policy: it may start runners, or its last ones end. -/
def isSupervised (policy : ScalePolicy) : Bool :=
  policy.mayStartRunners || policy.state = .draining

/-- The policies of a target that the daemon runs a loop for. -/
def supervisedOf (target : ScaleTarget) (all : List ScalePolicy) : List ScalePolicy :=
  all.filter fun policy ↦ policy.target.same target && isSupervised policy

/-- `ManagedTarget::refresh_policies`, given what the store answers. -/
def refreshPolicies (policies : List ScalePolicy)
    (stored : Except StoreError (List ScalePolicy)) : List ScalePolicy :=
  match policies with
  | [] => []
  | first :: _ =>
    match stored with
    | .error _ => policies
    | .ok all =>
      let refreshed := supervisedOf first.target all
      if refreshed.isEmpty then policies else refreshed

/-- `active_owned`: what a report says about every policy, if it says something about each. -/
def activeOwned (report : ReconcileReport) : List ScalePolicy → Nat → Option Nat
  | [], total => some total
  | policy :: rest, total =>
    match report.allocations.find? (·.policyId = policy.id) with
    | none => none
    | some allocation => activeOwned report rest (saturatingAdd total allocation.activeOwned)

/-- `ManagedTarget::local_active`, given what the store answers for each policy. -/
def localActive (attemptsFor : PolicyId → Except StoreError (List RunnerAttempt)) :
    List ScalePolicy → Nat → Option Nat
  | [], total => some total
  | policy :: rest, total =>
    match attemptsFor policy.id with
    | .error _ => none
    | .ok attempts =>
      localActive attemptsFor rest (saturatingAdd total (activeCountFor policy.id attempts))

/-! ## The loop -/

inductive DrainKind where
  | shutdown
  | upgrade
deriving DecidableEq

def drainDeadline : Nat := seconds 60

/-- What the loop holds between two turns. Instants are in nanoseconds. -/
structure TargetLoop where
  policies : List ScalePolicy
  cancelled : Bool
  backoff : CleanBackoff
  draining : Option DrainKind
  deadline : Option Nat

namespace TargetLoop

def beginDrain (loop : TargetLoop) : TargetLoop :=
  { loop with policies := App.beginDrain loop.policies, cancelled := true }

def shutdownKind (shutdown upgrade : Bool) : Option DrainKind :=
  if shutdown then some .shutdown else if upgrade then some .upgrade else none

/-- A drain of some kind begins; only a shutdown is bounded. -/
def drain (loop : TargetLoop) (kind : DrainKind) (now : Nat) : TargetLoop :=
  { loop.beginDrain with
    draining := some kind
    deadline := if kind = .shutdown then some (now + drainDeadline) else loop.deadline }

/-- The loop before its first turn. -/
def start (policies : List ScalePolicy) (shutdown upgrade : Bool) (now : Nat) : TargetLoop :=
  let loop : TargetLoop := ⟨policies, false, fun _ ↦ none, none, none⟩
  match shutdownKind shutdown upgrade with
  | none => loop
  | some kind => loop.drain kind now

end TargetLoop

/-- What ends the wait between two turns: the delay, or a change of one of the signals, which
reads as a value or finds its sender gone. -/
inductive Wakeup where
  | elapsed
  | shutdownChanged (value : Option Bool) (now : Nat)
  | upgradeChanged (value : Option Bool) (now : Nat)
deriving DecidableEq

/-- A signal that is set, or whose sender is gone. -/
def signalled (value : Option Bool) : Bool :=
  value.getD true

/-- The wait between two turns. The signal of a shutdown is not looked at once it drains, that of
an upgrade not while anything drains. -/
def TargetLoop.wake (loop : TargetLoop) : Wakeup → TargetLoop
  | .elapsed => loop
  | .shutdownChanged value now =>
    if loop.draining ≠ some .shutdown ∧ signalled value = true then loop.drain .shutdown now
    else loop
  | .upgradeChanged value now =>
    if loop.draining = none ∧ signalled value = true then loop.drain .upgrade now else loop

section Turns

variable (ρ : Type)

/-- What one turn meets: the instant at its top, the answers of the store and of the ports of the
pass, what the pass came to, and what ended the wait after it. -/
structure Turn where
  top : Nat
  stored : Except StoreError (List ScalePolicy)
  log : List (Contract.Answered PassCall (PassCall.Answer ρ))
  backoff : CleanBackoff
  report : ReconcileReport
  contactRecorded : Bool
  attemptsFor : PolicyId → Except StoreError (List RunnerAttempt)
  wakeup : Wakeup

variable {ρ}

/-- Why a loop returned. -/
inductive Exit where
  | deadline
  | contact
  | shutdown
  | upgrade
deriving DecidableEq

/-- What a turn comes to. -/
inductive Turned where
  | returned (exit : Exit)
  | continues (next : TargetLoop)

def reachedGithub (report : ReconcileReport) : Bool :=
  0 < report.targetsRead

namespace TargetLoop

/-- The policies a turn makes its pass over. -/
def given (loop : TargetLoop) (turn : Turn ρ) : List ScalePolicy :=
  refreshPolicies loop.policies turn.stored

/-- The end of a turn whose pass has been made. -/
def conclude (loop : TargetLoop) (turn : Turn ρ) : Turned :=
  match loop.draining with
  | none =>
    if reachedGithub turn.report && !turn.contactRecorded then .returned .contact
    else .continues (loop.wake turn.wakeup)
  | some .shutdown =>
    if activeOwned turn.report loop.policies 0 = some 0 then .returned .shutdown
    else .continues (loop.wake turn.wakeup)
  | some .upgrade =>
    if localActive turn.attemptsFor loop.policies 0 = some 0 then .returned .upgrade
    else .continues (loop.wake turn.wakeup)

/-- One turn of `run_target_loop`. -/
def turn (loop : TargetLoop) (turn : Turn ρ) : Turned :=
  if loop.deadline.any (· ≤ turn.top) then .returned .deadline
  else { loop with policies := loop.given turn, backoff := turn.backoff }.conclude turn

end TargetLoop

/-! ## What a drain promises -/

section

variable (host : Host) (route : RouteDemand ρ)

abbrev TargetLoop.pass (loop : TargetLoop) (turn : Turn ρ) :
    PassProgramOf ρ (CleanBackoff × ReconcileReport) :=
  reconcile host route (loop.given turn) loop.backoff

/-- A turn is one the loop can take: its report is that of its pass, and a poll of a repository
is withdrawn once the token is cancelled. -/
structure TargetLoop.Takes (loop : TargetLoop) (turn : Turn ρ) : Prop where
  runs : Contract.recording.Runs (loop.pass host route turn) []
    (.done (.ok (turn.backoff, turn.report))) turn.log
  withdrawn : loop.cancelled = true → ∀ repository answer,
    ⟨.poll (.repository repository), answer⟩ ∈ turn.log → answer = none

/-- The loops that runs of turns reach, each of which is of a kind. -/
inductive LoopRun (kind : TargetLoop → Turn ρ → Prop) : TargetLoop → Prop
  | start (policies : List ScalePolicy) (shutdown upgrade : Bool) (now : Nat) :
      LoopRun kind (.start policies shutdown upgrade now)
  | turn {loop next : TargetLoop} {turn : Turn ρ} (h : LoopRun kind loop)
      (htakes : loop.Takes host route turn) (hkind : kind loop turn)
      (hnext : loop.turn turn = .continues next) : LoopRun kind next

end

/-- No attempt of a policy occupies a slot. -/
def HoldsNone (policy : PolicyId) (attempts : List RunnerAttempt) : Prop :=
  ∀ attempt ∈ attempts, attempt.policyId = policy → attempt.countsAgainstCapacity = false

/-- The journal is readable in a turn, and holds no active attempt of the policies. -/
structure Idle (policies : List ScalePolicy) (turn : Turn ρ) : Prop where
  attempts : ∀ answer, ⟨.port .attempts, answer⟩ ∈ turn.log →
    ∃ attempts, answer = .ok attempts ∧ ∀ policy ∈ policies, HoldsNone policy.id attempts
  capacity : ∀ answer, ⟨.port .hostCapacity, answer⟩ ∈ turn.log →
    answer ≠ .error .journalUnreadable

/-- The policies that are the target's own: those the loop holds, and those the store lists. -/
def Owned (loop : TargetLoop) (turn : Turn ρ) (policy : ScalePolicy) : Prop :=
  policy ∈ loop.given turn ∨ ∃ all first, turn.stored = .ok all ∧
    loop.policies.head? = some first ∧ policy ∈ supervisedOf first.target all

/-- What a drain promises about a turn. -/
structure Sticky (host : Host) (route : RouteDemand ρ) (loop : TargetLoop) (turn : Turn ρ) :
    Prop where
  /-- Every policy of the pass refuses new runners. -/
  refuses : loop.draining.isSome = true →
    ∀ policy ∈ loop.given turn, policy.mayStartRunners = false
  /-- The pass launches nothing, however far it gets. -/
  launches : loop.draining.isSome = true → ∀ rest log,
    Contract.recording.Runs (loop.pass host route turn) [] rest log →
      ∀ policy answer, ⟨.port (.launch policy), answer⟩ ∉ log
  /-- A shutdown with nothing left to wait for returns at the end of the pass. -/
  shutdown : loop.draining = some .shutdown → Idle (loop.given turn) turn →
    ∃ exit, loop.turn turn = .returned exit
  /-- An upgrade waits for every active attempt of the target. -/
  upgrade : loop.turn turn = .returned .upgrade → ∀ policy, Owned loop turn policy →
    ∃ attempts, turn.attemptsFor policy.id = .ok attempts ∧ HoldsNone policy.id attempts
  /-- A deadline stays as it was set. -/
  deadline : ∀ next instant, loop.turn turn = .continues next → loop.deadline = some instant →
    next.deadline = some instant

/-- What keeps a drain sticky: the store lists no policy of the target that may start runners,
and a shutdown with nothing left to wait for holds no monitor-only policy and finds its host. -/
structure Meets (loop : TargetLoop) (turn : Turn ρ) : Prop where
  stored : loop.draining.isSome = true → ∀ all first, turn.stored = .ok all →
    loop.policies.head? = some first →
      ∀ policy ∈ all, policy.target.same first.target = true → policy.mayStartRunners = false
  owning : loop.draining = some .shutdown → Idle (loop.given turn) turn →
    ∀ policy ∈ loop.given turn, ownsRunners policy = true
  listed : loop.draining = some .shutdown → Idle (loop.given turn) turn →
    ⟨.port .hostCapacity, .error .missingHost⟩ ∉ turn.log

/-! ## Refusing policies -/

theorem beginDrain_refuses {policies : List ScalePolicy} :
    ∀ policy ∈ beginDrain policies, policy.mayStartRunners = false := by
  intro policy hpolicy
  obtain ⟨before, -, rfl⟩ := List.mem_map.mp hpolicy
  cases hcan : canRequestDisable before with
  | true =>
    have hlegal : before.state.canTransitionTo .draining = true := hcan
    simp [PolicyOp.exec, Mutation.exec, PolicyOp.run, ScalePolicy.requestDisable,
      ScalePolicy.transitionTo_apply, hlegal, ScalePolicy.mayStartRunners]
  | false =>
    have hstate : before.state ≠ .active := by
      intro hactive
      rw [canRequestDisable, hactive] at hcan
      cases hcan
    simp [ScalePolicy.mayStartRunners, PolicyState.admitsNewRunners, hstate]

theorem given_cases (loop : TargetLoop) (turn : Turn ρ) :
    loop.given turn = loop.policies ∨ ∃ all first, turn.stored = .ok all ∧
      loop.policies.head? = some first ∧ loop.given turn = supervisedOf first.target all := by
  unfold TargetLoop.given refreshPolicies
  split
  · next hnil => exact .inl hnil.symm
  · next first rest hpolicies =>
    split
    · exact .inl rfl
    · next all hstored =>
      by_cases hempty : (supervisedOf first.target all).isEmpty = true
      · exact .inl (if_pos hempty)
      · exact .inr ⟨all, first, hstored, by rw [hpolicies]; rfl, if_neg hempty⟩

theorem given_refuses {loop : TargetLoop} {turn : Turn ρ} (hmeets : Meets loop turn)
    (hdraining : loop.draining.isSome = true)
    (hloop : ∀ policy ∈ loop.policies, policy.mayStartRunners = false) :
    ∀ policy ∈ loop.given turn, policy.mayStartRunners = false := by
  intro policy hpolicy
  obtain hsame | ⟨all, first, hstored, hfirst, hgiven⟩ := given_cases loop turn
  · exact hloop policy (hsame ▸ hpolicy)
  · rw [hgiven, supervisedOf, List.mem_filter] at hpolicy
    exact hmeets.stored hdraining all first hstored hfirst policy hpolicy.1
      (Bool.and_eq_true_iff.mp hpolicy.2).1

/-! ## A pass over refusing policies -/

/-- Any call but a launch. -/
def IsOther (c : PassCall) : Prop :=
  ∀ policy, c ≠ .port (.launch policy)

/-- The answers of an idle turn that finds its host. -/
def Calm (policies : List ScalePolicy) : (c : PassCall) → c.Answer ρ → Prop
  | .port .attempts, answer =>
    ∃ attempts, answer = .ok attempts ∧ ∀ policy ∈ policies, HoldsNone policy.id attempts
  | .port .hostCapacity, answer => ∃ capacity, answer = .ok capacity
  | _, _ => True

/-- The allocations of some policies were added, and count nothing. -/
structure Accounts (policies : List ScalePolicy) (before after : List Allocation) : Prop where
  kept : ∀ allocation ∈ before, allocation ∈ after
  named : ∀ policy ∈ policies, ∃ allocation ∈ after, allocation.policyId = policy.id
  zero : ∀ allocation ∈ after, allocation ∈ before ∨ allocation.activeOwned = 0

theorem activeCountFor_eq_zero {policy : PolicyId} {attempts : List RunnerAttempt} :
    activeCountFor policy attempts = 0 ↔ HoldsNone policy attempts := by
  have hmax : 0 < u16Max := by decide
  have hcount : activeCountFor policy attempts = 0 ↔
      attempts.countP (fun attempt ↦
        attempt.policyId = policy && attempt.countsAgainstCapacity) = 0 := by
    unfold activeCountFor
    omega
  rw [hcount, List.countP_eq_zero]
  refine forall₂_congr fun attempt _ ↦ ?_
  simp only [Bool.and_eq_true, decide_eq_true_eq, not_and, Bool.not_eq_true]

section

variable {host : Host} {route : RouteDemand ρ} {gives : (c : PassCall) → c.Answer ρ → Prop}
  {owned : List ScalePolicy}

theorem allocateOnly_making (policy : ScalePolicy) (hpolicy : policy ∈ owned) :
    (Contract.making IsOther gives).wp (starting (allocateOnly host policy 0 []))
      (fun result _ ↦ ∀ decision, result = .ok decision →
        (∀ c answer, gives c answer → Calm owned c answer) →
          ∃ allocation, decision = .ok allocation ∧ allocation.policyId = policy.id ∧
            allocation.activeOwned = 0) () := by
  refine ⟨(fun _ h ↦ by cases h), ?_⟩
  intro capacity _ hcapacity
  cases capacity with
  | error error =>
    intro decision _ hcalm
    obtain ⟨_, h⟩ := hcalm _ _ hcapacity
    cases h
  | ok capacity =>
    refine ⟨(fun _ h ↦ by cases h), ?_⟩
    intro attempts _ hattempts
    cases attempts with
    | error failure =>
      intro decision _ hcalm
      obtain ⟨_, h, -⟩ := hcalm _ _ hattempts
      cases h
    | ok attempts =>
      intro decision hdecision hcalm
      cases hdecision
      obtain ⟨_, h, hnone⟩ := hcalm _ _ hattempts
      cases h
      have hmerged : mergeLaunched attempts [] = attempts := List.append_nil attempts
      obtain ⟨hid, hcount⟩ := allocate_counts
        (.fromAttempts { host with hostCapacity := capacity } attempts) policy 0
      refine ⟨_, rfl, ?_, ?_⟩
      · rw [hmerged]
        exact hid
      · rw [hmerged]
        exact hcount.trans (activeCountFor_eq_zero.mpr (hnone policy hpolicy))

theorem allocatePolicies_making {polled : Polled ρ} {policies : List ScalePolicy}
    (hrefuses : ∀ policy ∈ policies, policy.mayStartRunners = false)
    (howned : ∀ policy ∈ policies, policy ∈ owned) (report : ReconcileReport) :
    (Contract.making IsOther gives).wp (allocatePolicies host route polled policies report [])
      (fun result _ ↦ ∀ report', result = .ok report' →
        (∀ c answer, gives c answer → Calm owned c answer) →
          (∀ policy ∈ policies, ownsRunners policy = true) →
            Accounts policies report.allocations report'.allocations) () := by
  induction policies generalizing report with
  | nil =>
    intro report' hreport _ _
    cases hreport
    exact ⟨fun _ h ↦ h, (fun _ h ↦ by cases h), fun _ h ↦ .inl h⟩
  | cons policy rest ih =>
    rw [List.forall_mem_cons] at hrefuses howned
    have hrest := ih hrefuses.2 howned.2
    unfold allocatePolicies
    by_cases howns : ownsRunners policy = true
    case neg =>
      rw [if_pos (by simpa using howns)]
      refine Contract.wp_mono (hrest report) ?_
      intro result _ _ report' _ _ hall
      exact absurd (hall policy List.mem_cons_self) howns
    rw [if_neg (by simpa using howns), if_pos (by simp [hrefuses.1])]
    refine (Contract.wp_bind _ _).mpr (Contract.wp_mono
      (allocateOnly_making policy howned.1) ?_)
    intro result _ hdecision
    cases result with
    | error e => cases e
    | ok decision =>
      refine Contract.wp_mono (hrest _) ?_
      intro result _ haccounts report' hreport hcalm hall
      obtain ⟨allocation, rfl, hid, hzero⟩ := hdecision decision rfl hcalm
      have haccounts := haccounts report' hreport hcalm
        (List.forall_mem_cons.mp hall).2
      have hadded : (report.decided (.ok allocation)).allocations =
          report.allocations ++ [allocation] := rfl
      rw [hadded] at haccounts
      refine ⟨?_, ?_, ?_⟩
      · intro before hbefore
        exact haccounts.kept before (List.mem_append_left _ hbefore)
      · refine List.forall_mem_cons.mpr ⟨⟨allocation, ?_, hid⟩, haccounts.named⟩
        exact haccounts.kept allocation (List.mem_append_right _ (List.mem_singleton_self _))
      · intro after hafter
        rcases haccounts.zero after hafter with hbefore | hzero
        · rcases List.mem_append.mp hbefore with hbefore | hnew
          · exact .inl hbefore
          · exact .inr (List.mem_singleton.mp hnew ▸ hzero)
        · exact .inr hzero

/-- A pass over refusing policies launches nothing, and on calm answers its report accounts for
each of them. -/
theorem reconcile_making (gives : (c : PassCall) → c.Answer ρ → Prop)
    {policies : List ScalePolicy} {backoff : CleanBackoff}
    (hrefuses : ∀ policy ∈ policies, policy.mayStartRunners = false) :
    (Contract.making IsOther gives).wp (reconcile host route policies backoff)
      (fun result _ ↦ ∀ backoff' report', result = .ok (backoff', report') →
        (∀ c answer, gives c answer → Calm policies c answer) →
          (∀ policy ∈ policies, ownsRunners policy = true) →
            Accounts policies [] report'.allocations) () := by
  have hothers : AllowsOthers (Contract.making IsOther gives) := fun _ _ hc ↦ hc
  simp only [reconcile, Contract.wp_bind]
  refine Contract.wp_mono (supervisePolicies_wp hothers _ _ _ _ _) ?_
  intro supervised _ hsupervised
  cases supervised with
  | error e => cases e
  | ok supervised =>
    obtain ⟨seen, report⟩ := supervised
    have hreport : report.allocations = [] := hsupervised seen report rfl
    dsimp only
    refine Contract.wp_mono (pollTargets_wp hothers _ _ _) ?_
    intro readings _ _
    cases readings with
    | error e => cases e
    | ok readings =>
      dsimp only
      refine Contract.wp_mono (cleanTerminalAttempts_wp hothers _ _ _) ?_
      intro cleaned _ hcleaned
      cases cleaned with
      | error e => cases e
      | ok cleaned =>
        obtain ⟨later, cleanReport⟩ := cleaned
        have hcleanReport : cleanReport.allocations = [] :=
          (hcleaned later cleanReport rfl).trans hreport
        dsimp only
        refine Contract.wp_mono (allocatePolicies_making hrefuses (fun _ h ↦ h) _) ?_
        intro result _ haccounts
        cases result with
        | error e => cases e
        | ok report' =>
          intro _ _ hresult hcalm howns
          cases hresult
          rw [← hcleanReport]
          exact haccounts report' rfl hcalm howns

variable {loop next : TargetLoop} {turn : Turn ρ}

theorem launches_none (hrefuses : ∀ policy ∈ loop.given turn, policy.mayStartRunners = false)
    {rest : PassProgramOf ρ (CleanBackoff × ReconcileReport)}
    {log : List (Contract.Answered PassCall (PassCall.Answer ρ))}
    (h : Contract.recording.Runs (loop.pass host route turn) [] rest log) (policy : ScalePolicy)
    (answer : (PassCall.port (.launch policy)).Answer ρ) :
    ⟨.port (.launch policy), answer⟩ ∉ log := by
  intro hmem
  obtain ⟨added, rfl, hadded⟩ := Contract.wp_recorded
    (reconcile_making (fun _ _ ↦ True) hrefuses) h
  exact (hadded fun _ _ ↦ trivial).1 _ hmem policy rfl

theorem activeOwned_eq_zero {report : ReconcileReport} {policies : List ScalePolicy}
    (h : Accounts policies [] report.allocations) : activeOwned report policies 0 = some 0 := by
  obtain ⟨-, hnamed, hzero⟩ := h
  induction policies with
  | nil => rfl
  | cons policy rest ih =>
    rw [List.forall_mem_cons] at hnamed
    obtain ⟨⟨allocation, hmem, hid⟩, hrest⟩ := hnamed
    unfold activeOwned
    cases hfind : report.allocations.find? (·.policyId = policy.id) with
    | none =>
      have hnone := List.find?_eq_none.mp hfind allocation hmem
      exact absurd (decide_eq_true hid) hnone
    | some found =>
      have hfound : found.activeOwned = 0 :=
        (hzero found (List.mem_of_find?_eq_some hfind)).resolve_left List.not_mem_nil
      simp only [hfound]
      exact ih hrest

theorem calm_of_idle (hidle : Idle (loop.given turn) turn)
    (hlisted : ⟨.port .hostCapacity, .error .missingHost⟩ ∉ turn.log) :
    ∀ entry ∈ turn.log, Calm (loop.given turn) entry.1 entry.2 := by
  intro ⟨c, answer⟩ hentry
  match c, answer, hentry with
  | .port .attempts, answer, hentry => exact hidle.attempts answer hentry
  | .port .hostCapacity, .ok capacity, _ => exact ⟨capacity, rfl⟩
  | .port .hostCapacity, .error .missingHost, hentry => exact absurd hentry hlisted
  | .port .hostCapacity, .error .journalUnreadable, hentry =>
    exact absurd rfl (hidle.capacity _ hentry)
  | .port .acquire, _, _ | .port .release, _, _ | .port (.launch _), _, _ | .supervise _, _, _
  | .poll _, _, _ | .clean _, _, _ | .now, _, _ => trivial

theorem shutdown_returns (hrefuses : ∀ policy ∈ loop.given turn, policy.mayStartRunners = false)
    (htakes : loop.Takes host route turn) (hmeets : Meets loop turn)
    (hdraining : loop.draining = some .shutdown) (hidle : Idle (loop.given turn) turn) :
    ∃ exit, loop.turn turn = .returned exit := by
  obtain ⟨added, hlog, hadded⟩ := Contract.wp_recorded
    (reconcile_making (Calm (loop.given turn)) hrefuses) htakes.runs
  obtain rfl : turn.log = added := hlog
  have hcalm := calm_of_idle hidle (hmeets.listed hdraining hidle)
  have haccounts := (hadded hcalm).2 turn.backoff turn.report rfl (fun _ _ h ↦ h)
    (hmeets.owning hdraining hidle)
  unfold TargetLoop.turn
  by_cases hlate : loop.deadline.any (· ≤ turn.top) = true
  · exact ⟨.deadline, if_pos hlate⟩
  · refine ⟨.shutdown, ?_⟩
    rw [if_neg hlate]
    unfold TargetLoop.conclude
    simp only [hdraining]
    exact if_pos (activeOwned_eq_zero haccounts)

theorem holdsNone_of_localActive
    {attemptsFor : PolicyId → Except StoreError (List RunnerAttempt)}
    {policies : List ScalePolicy} {total : Nat}
    (h : localActive attemptsFor policies total = some 0) : total = 0 ∧ ∀ policy ∈ policies,
      ∃ attempts, attemptsFor policy.id = .ok attempts ∧ HoldsNone policy.id attempts := by
  induction policies generalizing total with
  | nil => exact ⟨Option.some.inj h, fun _ h ↦ by cases h⟩
  | cons policy rest ih =>
    unfold localActive at h
    cases hattempts : attemptsFor policy.id with
    | error e =>
      rw [hattempts] at h
      cases h
    | ok attempts =>
      rw [hattempts] at h
      obtain ⟨htotal, hrest⟩ := ih h
      have hmax : 0 < u16Max := by decide
      have hboth : total = 0 ∧ activeCountFor policy.id attempts = 0 := by
        unfold saturatingAdd at htotal
        omega
      exact ⟨hboth.1, List.forall_mem_cons.mpr
        ⟨⟨attempts, hattempts, activeCountFor_eq_zero.mp hboth.2⟩, hrest⟩⟩

theorem mem_given_of_owned {policy : ScalePolicy} (h : Owned loop turn policy) :
    policy ∈ loop.given turn := by
  obtain h | ⟨all, first, hstored, hfirst, hmem⟩ := h
  · exact h
  · obtain ⟨rest, hpolicies⟩ : ∃ rest, loop.policies = first :: rest :=
      List.head?_eq_some_iff.mp hfirst
    have hne : (supervisedOf first.target all).isEmpty = false := by
      cases hsupervised : supervisedOf first.target all with
      | nil =>
        rw [hsupervised] at hmem
        cases hmem
      | cons _ _ => rfl
    unfold TargetLoop.given refreshPolicies
    rw [hpolicies, hstored]
    simp only [hne]
    exact hmem

theorem upgrade_waits (h : loop.turn turn = .returned .upgrade) (policy : ScalePolicy)
    (hpolicy : Owned loop turn policy) :
    ∃ attempts, turn.attemptsFor policy.id = .ok attempts ∧ HoldsNone policy.id attempts := by
  have hcount : localActive turn.attemptsFor (loop.given turn) 0 = some 0 := by
    unfold TargetLoop.turn at h
    split_ifs at h
    · cases h
    unfold TargetLoop.conclude at h
    split at h
    · split_ifs at h
      cases h
    · split_ifs at h
      cases h
    · split_ifs at h with hcount
      exact hcount
  exact (holdsNone_of_localActive hcount).2 policy (mem_given_of_owned hpolicy)

theorem turn_continues (h : loop.turn turn = .continues next) :
    next = TargetLoop.wake { loop with policies := loop.given turn, backoff := turn.backoff }
      turn.wakeup := by
  unfold TargetLoop.turn at h
  split_ifs at h
  unfold TargetLoop.conclude at h
  split at h
  all_goals
    split_ifs at h
    exact (Turned.continues.inj h).symm

/-! ## Runs -/

/-- What holds between the turns of a run: a drain keeps its policies from starting runners, and
only a shutdown has a deadline. -/
structure TargetLoop.Drained (loop : TargetLoop) : Prop where
  refuses : loop.draining.isSome = true →
    ∀ policy ∈ loop.policies, policy.mayStartRunners = false
  deadline : loop.deadline.isSome = true → loop.draining = some .shutdown

theorem drained_drain (h : loop.Drained) (kind : DrainKind) (now : Nat)
    (hkind : kind = .upgrade → loop.draining = none) : (loop.drain kind now).Drained where
  refuses _ := beginDrain_refuses
  deadline hdeadline := by
    cases kind with
    | shutdown => rfl
    | upgrade =>
      -- Nothing drained before, so there is no deadline to inherit.
      have hnone := h.deadline hdeadline
      rw [hkind rfl] at hnone
      cases hnone

theorem drained_start (policies : List ScalePolicy) (shutdown upgrade : Bool) (now : Nat) :
    (TargetLoop.start policies shutdown upgrade now).Drained := by
  have hfresh : TargetLoop.Drained ⟨policies, false, fun _ ↦ none, none, none⟩ :=
    ⟨(fun h ↦ by cases h), fun h ↦ by cases h⟩
  unfold TargetLoop.start
  split
  · exact hfresh
  · exact drained_drain hfresh _ now fun _ ↦ rfl

theorem drained_wake (h : loop.Drained) (wakeup : Wakeup) : (loop.wake wakeup).Drained := by
  cases wakeup with
  | elapsed => exact h
  | shutdownChanged value now =>
    simp only [TargetLoop.wake]
    split_ifs
    · exact drained_drain h .shutdown now fun hkind ↦ by cases hkind
    · exact h
  | upgradeChanged value now =>
    simp only [TargetLoop.wake]
    split_ifs with hsignal
    · exact drained_drain h .upgrade now fun _ ↦ hsignal.1
    · exact h

theorem drained_turn (h : loop.Drained) (hmeets : Meets loop turn)
    (hnext : loop.turn turn = .continues next) : next.Drained := by
  rw [turn_continues hnext]
  refine drained_wake ?_ turn.wakeup
  exact ⟨fun hdraining ↦ given_refuses hmeets hdraining (h.refuses hdraining), h.deadline⟩

theorem drained_run (h : LoopRun host route Meets loop) : loop.Drained := by
  induction h with
  | start policies shutdown upgrade now => exact drained_start policies shutdown upgrade now
  | turn _ _ hmeets hnext ih => exact drained_turn ih hmeets hnext

theorem deadline_kept (h : loop.Drained) (hnext : loop.turn turn = .continues next) {instant : Nat}
    (hdeadline : loop.deadline = some instant) : next.deadline = some instant := by
  have hshutdown : loop.draining = some .shutdown := by
    apply h.deadline
    rw [hdeadline]
    rfl
  rw [turn_continues hnext]
  cases turn.wakeup with
  | elapsed => exact hdeadline
  | shutdownChanged value now =>
    simp only [TargetLoop.wake]
    rw [if_neg fun hsignal ↦ hsignal.1 hshutdown]
    exact hdeadline
  | upgradeChanged value now =>
    have hdraining : loop.draining ≠ none := by
      rw [hshutdown]
      exact Option.some_ne_none _
    simp only [TargetLoop.wake]
    rw [if_neg fun hsignal ↦ hdraining hsignal.1]
    exact hdeadline

end

end Turns

/-! ### A drain that the store undoes -/

/-- A loop over one active profile that is told to shut down at once. -/
def stoppedLoop : TargetLoop := .start [linuxProfile] true false 0

def noDemand : RouteDemand Unit := fun _ _ _ _ ↦ 0

def drainingProfile : ScalePolicy := PolicyOp.requestDisable.exec linuxProfile

/-- The store lists the profile as draining, and the journal is empty. -/
def drainedTurn : Turn Unit where
  top := 0
  stored := .ok [drainingProfile]
  log := [⟨.supervise drainingProfile, .ok 0⟩, ⟨.port .attempts, .ok []⟩, ⟨.now, (0 : Int)⟩,
    ⟨.port .hostCapacity, .ok ⟨2, two_nonZero⟩⟩, ⟨.port .attempts, .ok []⟩]
  backoff := fun _ ↦ none
  report := { ReconcileReport.default with
    allocations := [allocationFor (hostOf .linux) drainingProfile 0 ⟨2, two_nonZero⟩ []] }
  contactRecorded := true
  attemptsFor := fun _ ↦ .ok []
  wakeup := .elapsed

theorem drained_takes : stoppedLoop.Takes (hostOf .linux) noDemand drainedTurn where
  runs := by
    refine .of_ask (.supervise drainingProfile) (.ok 0) rfl rfl ?_
    refine .of_ask (.port .attempts) (.ok []) rfl rfl ?_
    refine .of_ask .now (0 : Int) rfl rfl ?_
    refine .of_ask (.port .hostCapacity) (.ok ⟨2, by decide⟩) rfl rfl ?_
    refine .of_ask (.port .attempts) (.ok []) rfl rfl ?_
    exact .cut _ _
  withdrawn := by
    intro _ repository answer hpoll
    simp [drainedTurn] at hpoll

theorem drained_meets : Meets stoppedLoop drainedTurn where
  stored := by
    intro _ all first hstored _ policy hpolicy _
    cases hstored
    rw [List.mem_singleton.mp hpolicy]
    rfl
  owning := by
    intro _ _ policy hpolicy
    rw [show stoppedLoop.given drainedTurn = [drainingProfile] from rfl] at hpolicy
    rw [List.mem_singleton.mp hpolicy]
    rfl
  listed := by
    intro _ _ hmissing
    simp [drainedTurn] at hmissing

/-- The store still lists the profile as active; the withdrawn poll leaves nothing to report. -/
def undoneTurn : Turn Unit where
  top := 0
  stored := .ok [linuxProfile]
  log := [⟨.supervise linuxProfile, .ok 0⟩, ⟨.poll linuxProfile.target, none⟩,
    ⟨.port .attempts, .ok []⟩, ⟨.now, (0 : Int)⟩]
  backoff := fun _ ↦ none
  report := { ReconcileReport.default with unreadable := [linuxProfile.id] }
  contactRecorded := true
  attemptsFor := fun _ ↦ .ok []
  wakeup := .elapsed

theorem undone_takes : stoppedLoop.Takes (hostOf .linux) noDemand undoneTurn where
  runs := by
    refine .of_ask (.supervise linuxProfile) (.ok 0) rfl rfl ?_
    refine .of_ask (.poll linuxProfile.target) none rfl rfl ?_
    refine .of_ask (.port .attempts) (.ok []) rfl rfl ?_
    refine .of_ask .now (0 : Int) rfl rfl ?_
    exact .cut _ _
  withdrawn := by
    intro _ repository answer hpoll
    simp only [undoneTurn, List.mem_cons, List.not_mem_nil, or_false] at hpoll
    cases answer with
    | none => rfl
    | some reading => simp at hpoll

end RunnerManager.App
