import RunnerManager.Agent.ReconcilePass
import RunnerManager.Agent.Supervision

/-!
# Supply over repeated polls

GitHub reports a queued job on every poll until a runner takes it, so a pass sees demand it has
already answered. Read `starts_below_demand` first: a decision that starts a runner counted
fewer unassigned runners of the policy than the demand. `no_runaway` lifts that over any number
of passes, cut off anywhere.
-/

namespace RunnerManager.Agent

open RunnerManager.Domain
open Contract (wp_bind wp_mapCalls wp_mono wp_perform)

/-- How many attempts of one policy are live and have no job. -/
def unassigned (policy : PolicyId) (journal : List RunnerAttempt) : Nat :=
  journal.countP fun attempt ↦ attempt.policyId = policy && attempt.state.isUnassigned

/-- A policy that keeps no runner without demand. -/
def MinZero (policy : ScalePolicy) : Prop :=
  ∀ config, policy.mode = .autoscale config → config.minCapacity = 0

/-! ## One decision -/

theorem counts_of_unassigned {attempt : RunnerAttempt} (h : attempt.state.isUnassigned = true) :
    attempt.countsAgainstCapacity = true := by
  have hlive : attempt.state.isTerminal = false := by
    revert h
    cases attempt.state <;> decide
  by_contra hleft
  rw [Bool.not_eq_true, not_counts_iff, hlive] at hleft
  cases hleft.1

theorem starts_below_demand {host : Host} {policy : ScalePolicy} {demand : Nat}
    {capacity : NonZeroU16} {attempts : List RunnerAttempt} (hmin : MinZero policy)
    (hstarts : (allocationFor host policy demand capacity attempts).startsNothing = false) :
    unassigned policy.id attempts < demand := by
  have hgrant : (allocationFor host policy demand capacity attempts).toStart ≠ 0 := by
    simpa [Allocation.startsNothing] using hstarts
  obtain ⟨config, hmode, -, -, heq⟩ := allocate_starts hgrant
  rw [allocationFor, heq] at hgrant
  have hzero : config.minCapacity = 0 := hmin config hmode
  have hmax : config.maxCapacity.val < 2 ^ 16 := config.maxCapacity.property.2
  have hle : unassigned policy.id attempts ≤ attempts.countP fun attempt ↦
      attempt.policyId = policy.id && attempt.countsAgainstCapacity := by
    refine List.countP_mono_left fun attempt _ h ↦ ?_
    rw [Bool.and_eq_true] at h ⊢
    exact ⟨h.1, counts_of_unassigned h.2⟩
  -- The counts saturate, but a saturated count already exceeds every ceiling.
  have hwanted : activeCountFor policy.id attempts <
      max config.minCapacity (min (min (demand + (activeCountFor policy.id attempts -
        unassignedSupply policy.id attempts)) (2 ^ 32 - 1)) config.maxCapacity.val) :=
    Nat.lt_of_sub_pos (Nat.lt_of_lt_of_le (Nat.pos_of_ne_zero hgrant) (Nat.min_le_left _ _))
  rw [hzero] at hwanted
  have hsupply : unassignedSupply policy.id attempts =
      min (unassigned policy.id attempts) u16Max := rfl
  have hactive : activeCountFor policy.id attempts = min (attempts.countP fun attempt ↦
      attempt.policyId = policy.id && attempt.countsAgainstCapacity) u16Max := rfl
  rw [hsupply, hactive] at hwanted
  unfold u16Max at hwanted
  omega

/-! ## The journal around a pass -/

/-- The unassigned attempts of the policy are some of those there were, moved between the states
of a runner without a job, and perhaps `created`. Attempts of other policies, and attempts with
a job, may do anything else. -/
def Moves (policy : PolicyId) (created : Option AttemptId) (journal next : List RunnerAttempt) :
    Prop :=
  (next.map (·.id)).Nodup ∧ ∀ attempt ∈ next, attempt.policyId = policy →
    attempt.state.isUnassigned = true → some attempt.id = created ∨
      ∃ old ∈ journal, old.id = attempt.id ∧ old.policyId = policy ∧ old.state.isUnassigned = true

def unassignedIds (policy : PolicyId) (journal : List RunnerAttempt) : List AttemptId :=
  (journal.filter fun attempt ↦
    attempt.policyId = policy && attempt.state.isUnassigned).map (·.id)

theorem length_unassignedIds (policy : PolicyId) (journal : List RunnerAttempt) :
    (unassignedIds policy journal).length = unassigned policy journal := by
  rw [unassignedIds, List.length_map, unassigned, List.countP_eq_length_filter]

theorem mem_unassignedIds {policy : PolicyId} {journal : List RunnerAttempt} {id : AttemptId} :
    id ∈ unassignedIds policy journal ↔ ∃ attempt ∈ journal, attempt.policyId = policy ∧
      attempt.state.isUnassigned = true ∧ attempt.id = id := by
  simp [unassignedIds, and_assoc]

theorem Moves.unassigned_le {policy : PolicyId} {created : Option AttemptId}
    {journal next : List RunnerAttempt} (h : Moves policy created journal next) :
    unassigned policy next ≤ unassigned policy journal + created.toList.length := by
  have hnodup : (unassignedIds policy next).Nodup :=
    h.1.sublist (List.filter_sublist.map _)
  have hsubset : unassignedIds policy next ⊆ unassignedIds policy journal ++ created.toList := by
    intro id hid
    obtain ⟨attempt, hmem, hpolicy, hstate, rfl⟩ := mem_unassignedIds.mp hid
    rw [List.mem_append]
    rcases h.2 attempt hmem hpolicy hstate with hnew | ⟨old, hold, hsame, hrest⟩
    · exact .inr (by simp [← hnew])
    · exact .inl (mem_unassignedIds.mpr ⟨old, hold, hrest.1, hrest.2, hsame⟩)
  have hlength := (hnodup.subperm hsubset).length_le
  rwa [List.length_append, length_unassignedIds, length_unassignedIds] at hlength

section Passes

variable {ρ : Type} (route : RouteDemand ρ) (policy : PolicyId) (demand : Nat)

/-- What a call may do to the journal: a launch for the policy journals at most one attempt. -/
def Evolves (journal : List RunnerAttempt) (c : PassCall) (next : List RunnerAttempt) : Prop :=
  match c with
  | .port (.launch launched) => ∃ created, (launched.id ≠ policy → created = none) ∧
      Moves policy created journal next
  | _ => Moves policy none journal next

/-- What a call may answer: the attempt set is the journal, and a reading of the queue matches
the policy with the same demand every time. -/
def Answers (journal : List RunnerAttempt) : (c : PassCall) → c.Answer ρ → Prop
  | .port .attempts, .ok attempts => attempts = journal
  | .poll _, some reading => ∀ policies profiles, route policies profiles reading policy = demand
  | _, _ => True

/-- A launch for the policy finds fewer unassigned runners than the demand. -/
def LaunchesBelow (journal : List RunnerAttempt) (c : PassCall) : Prop :=
  ∀ launched, c = .port (.launch launched) → launched.id = policy →
    unassigned policy journal < demand

def supplyContract : Contract PassCall (PassCall.Answer ρ) (List RunnerAttempt) where
  requires journal c := LaunchesBelow policy demand journal c
  steps journal c answer next :=
    Answers route policy demand journal c answer ∧ Evolves policy journal c next

/-- A pass over policies of which this one keeps no runner without demand. -/
def IsPass (p : PassProgramOf ρ (CleanBackoff × ReconcileReport)) : Prop :=
  ∃ host policies backoff, (∀ q ∈ policies, q.id = policy → MinZero q) ∧
    p = reconcile host route policies backoff

/-- What a run of passes reaches from a journal. A pass may end anywhere, and the attempts move
on between passes. -/
def Repeats (start journal : List RunnerAttempt)
    (p : PassProgramOf ρ (CleanBackoff × ReconcileReport)) : Prop :=
  (supplyContract route policy demand).Reaches
    (fun journal p ↦ journal = start ∧ IsPass route policy p)
    (fun journal next p ↦ Moves policy none journal next ∧ IsPass route policy p) journal p

variable {route policy demand} {journal : List RunnerAttempt}

theorem launchesBelow_of_ne {c : PassCall} (hc : ∀ launched, c ≠ .port (.launch launched)) :
    LaunchesBelow policy demand journal c := by
  intro launched hlaunch
  exact absurd hlaunch (hc launched)

theorem allowsOthers_supply : AllowsOthers (supplyContract route policy demand) :=
  fun _ _ hc ↦ launchesBelow_of_ne hc

/-! ## Starting runners -/

/-- The ports of `start_runners` in this environment. -/
abbrev supplyPorts (route : RouteDemand ρ) (policy : PolicyId) (demand : Nat) :
    Contract StartCall StartCall.Answer (List RunnerAttempt) :=
  (supplyContract route policy demand).comap .port fun _ answer ↦ answer

theorem unassigned_le_merge (attempts launched : List RunnerAttempt) :
    unassigned policy attempts ≤ unassigned policy (mergeLaunched attempts launched) := by
  unfold unassigned mergeLaunched
  rw [List.countP_append]
  exact Nat.le_add_right _ _

theorem allocateOnly_supply {host : Host} {q : ScalePolicy} {count : Nat}
    {launched : List RunnerAttempt}
    {Q : Except Empty (Except AllocationFailure Allocation) → List RunnerAttempt → Prop}
    (hfailed : ∀ failure next, Q (.ok (.error failure)) next)
    (hdecided : ∀ (allocation : Allocation) next,
      (allocation.startsNothing = false → q.id = policy → MinZero q → count = demand →
        unassigned policy next < demand) → Q (.ok (.ok allocation)) next) :
    (supplyPorts route policy demand).wp (allocateOnly host q count launched) Q journal := by
  simp only [allocateOnly, hostCapacity, wp_bind, wp_perform]
  refine ⟨launchesBelow_of_ne (fun _ h ↦ by cases h), ?_⟩
  intro answer next _
  cases answer with
  | error error => exact hfailed _ _
  | ok capacity =>
    simp only [hostAttempts, attempts, wp_bind, wp_perform]
    refine ⟨launchesBelow_of_ne (fun _ h ↦ by cases h), ?_⟩
    rintro _ last ⟨answer, rfl, hanswer, hmoves⟩
    cases answer with
    | error failure => exact hfailed _ _
    | ok attempts =>
      obtain rfl : attempts = next := hanswer
      refine hdecided _ _ ?_
      intro hstarts hid hmin hcount
      subst hid hcount
      calc unassigned q.id last ≤ unassigned q.id attempts + 0 := Moves.unassigned_le hmoves
        _ ≤ unassigned q.id (mergeLaunched attempts launched) := unassigned_le_merge _ _
        _ < count := starts_below_demand hmin hstarts

theorem startLoop_supply {host : Host} {q : ScalePolicy} {count : Nat}
    (hpolicy : q.id = policy → MinZero q ∧ count = demand) (budget : Nat)
    (decided : Option Allocation) (report : StartReport) (launched : List RunnerAttempt)
    (journal : List RunnerAttempt) :
    (supplyPorts route policy demand).wp (startLoop host q count budget decided report launched)
      (fun _ _ ↦ True) journal := by
  induction budget using Nat.strong_induction_on generalizing decided report launched journal with
  | _ budget ih =>
    unfold startLoop
    by_cases hzero : budget = 0
    · rw [dif_pos hzero]
      trivial
    · rw [dif_neg hzero]
      simp only [acquire, wp_bind, wp_perform]
      refine ⟨launchesBelow_of_ne (fun _ h ↦ by cases h), ?_⟩
      intro answer held _
      cases answer with
      | error _ => trivial
      | ok guard =>
        simp only [wp_bind]
        refine allocateOnly_supply ?_ ?_
        · intro failure next
          simp only [release, wp_bind, wp_perform]
          exact ⟨launchesBelow_of_ne (fun _ h ↦ by cases h), fun _ _ _ ↦ trivial⟩
        · intro allocation next hbelow
          simp only
          split_ifs with hnothing
          · simp only [release, wp_bind, wp_perform]
            exact ⟨launchesBelow_of_ne (fun _ h ↦ by cases h), fun _ _ _ ↦ trivial⟩
          · rw [Bool.or_eq_true, not_or, Bool.not_eq_true, decide_eq_true_iff] at hnothing
            obtain ⟨hstarts, hlowered⟩ := hnothing
            have hlower := lowerBudget_le budget decided allocation
            simp only [launch, release, wp_bind, wp_perform]
            refine ⟨?_, ?_⟩
            · intro launched hlaunch hid
              injection hlaunch with hlaunch
              injection hlaunch with hsame
              subst hsame
              obtain ⟨hmin, hcount⟩ := hpolicy hid
              exact hbelow hstarts hid hmin hcount
            · intro created _ _
              refine ⟨launchesBelow_of_ne (fun _ h ↦ by cases h), ?_⟩
              intro _ _ _
              cases created with
              | error failure => trivial
              | ok attempt => exact ih _ (by omega) _ _ _ _

theorem startRunners_supply {host : Host} {q : ScalePolicy} {count : Nat}
    (hpolicy : q.id = policy → MinZero q ∧ count = demand) (report : StartReport)
    (launched : List RunnerAttempt) :
    (supplyPorts route policy demand).wp (startRunners host q count report launched)
      (fun _ _ ↦ True) journal := by
  simp only [startRunners, wp_bind]
  refine allocateOnly_supply ?_ ?_
  · intro failure next
    trivial
  · intro intent next _
    refine wp_bind _ _ |>.mpr (wp_mono
      (startLoop_supply hpolicy _ none report launched next) ?_)
    intro result _ _
    cases result with
    | ok value => trivial
    | error e => trivial

/-! ## The pass -/

def AllMatch (route : RouteDemand ρ) (policy : PolicyId) (demand : Nat)
    (readings : List (ScaleTarget × Option ρ)) : Prop :=
  ∀ target reading, (target, some reading) ∈ readings →
    ∀ policies profiles, route policies profiles reading policy = demand

theorem pollTargets_supply (targets : List ScaleTarget) (readings : List (ScaleTarget × Option ρ))
    (hreadings : AllMatch route policy demand readings) (journal : List RunnerAttempt) :
    (supplyContract route policy demand).wp (pollTargets targets readings)
      (fun result _ ↦ ∀ readings, result = .ok readings → AllMatch route policy demand readings)
      journal := by
  induction targets generalizing readings journal with
  | nil =>
    intro _ h
    cases h
    exact hreadings
  | cons target rest ih =>
    refine ⟨launchesBelow_of_ne (fun _ h ↦ by cases h), ?_⟩
    rintro outcome next ⟨hanswer, -⟩
    refine ih _ ?_ _
    intro other reading hmem
    rcases List.mem_append.mp hmem with hold | hnew
    · exact hreadings other reading hold
    · obtain ⟨-, rfl⟩ := Prod.mk.inj (List.mem_singleton.mp hnew)
      exact hanswer

theorem allocatePolicies_supply {host : Host} {polled : Polled ρ}
    (hreadings : AllMatch route policy demand polled.readings) (policies : List ScalePolicy)
    (hpolicies : ∀ q ∈ policies, q.id = policy → MinZero q) (report : ReconcileReport)
    (launched journal : List RunnerAttempt) :
    (supplyContract route policy demand).wp
      (allocatePolicies host route polled policies report launched) (fun _ _ ↦ True) journal := by
  induction policies generalizing report launched journal with
  | nil => trivial
  | cons q rest ih =>
    rw [List.forall_mem_cons] at hpolicies
    have hrest := ih hpolicies.2
    unfold allocatePolicies
    split_ifs
    · exact hrest _ _ _
    · simp only [starting, wp_bind, wp_mapCalls]
      refine allocateOnly_supply ?_ ?_
      · intro failure next
        exact hrest _ _ _
      · intro allocation next _
        exact hrest _ _ _
    · exact hrest _ _ _
    · split
      · exact hrest _ _ _
      · exact hrest _ _ _
      · next reading hreading =>
        -- The demand the policy is given is the matched demand of its target's reading.
        have hdemand : polled.demand route q reading = demand ∨ q.id ≠ policy := by
          by_cases hid : q.id = policy
          · obtain ⟨⟨target, outcome⟩, hfind, houtcome⟩ := Option.map_eq_some_iff.mp hreading
            obtain rfl : outcome = some reading := houtcome
            left
            rw [Polled.demand, hid]
            exact hreadings target reading (List.mem_of_find?_eq_some hfind) _ _
          · exact .inr hid
        have hpolicy : q.id = policy → MinZero q ∧ polled.demand route q reading = demand := by
          intro hid
          exact ⟨hpolicies.1 hid, hdemand.resolve_right (not_not.mpr hid)⟩
        simp only [starting, wp_bind, wp_mapCalls]
        refine wp_mono (startRunners_supply hpolicy _ _) ?_
        intro result next _
        cases result with
        | ok value => exact hrest _ _ _
        | error e => trivial

/-- A whole pass launches for the policy only below the demand. -/
theorem IsPass.supply {p : PassProgramOf ρ (CleanBackoff × ReconcileReport)}
    (h : IsPass route policy p) :
    (supplyContract route policy demand).wp p (fun _ _ ↦ True) journal := by
  obtain ⟨host, policies, backoff, hpolicies, rfl⟩ := h
  simp only [reconcile, wp_bind]
  refine wp_mono (supervisePolicies_wp allowsOthers_supply _ _ _ _ _) ?_
  intro supervised afterSupervision _
  cases supervised with
  | error e => trivial
  | ok supervised =>
    dsimp only
    refine wp_mono (pollTargets_supply _ [] ?_ _) ?_
    · intro target reading hmem
      cases hmem
    intro readings afterPolls hreadings
    cases readings with
    | error e => trivial
    | ok readings =>
      dsimp only
      refine wp_mono (cleanTerminalAttempts_wp allowsOthers_supply _ _ _) ?_
      intro cleaned afterCleaning _
      cases cleaned with
      | error e => trivial
      | ok cleaned =>
        dsimp only
        refine wp_mono (allocatePolicies_supply (hreadings readings rfl) policies
          hpolicies _ _ _) ?_
        intro result _ _
        cases result with
        | error e => trivial
        | ok report => trivial

theorem Repeats.answered {start next : List RunnerAttempt}
    {p : PassProgramOf ρ (CleanBackoff × ReconcileReport)}
    (h : Repeats route policy demand start journal p) (c : PassCall) (a : c.Answer ρ)
    {rest : c.Answer ρ → PassProgramOf ρ (CleanBackoff × ReconcileReport)}
    (hask : p = .ask c rest) (hanswer : Answers route policy demand journal c a)
    (hevolves : Evolves policy journal c next) :
    Repeats route policy demand start next (rest a) := by
  subst hask
  exact Contract.Reaches.call h a ⟨hanswer, hevolves⟩

end Passes

/-- The host of `samplePolicy`. -/
def sampleHost : Host where
  id := ⟨1⟩
  displayName := "build"
  os := .linux
  architecture := .x64
  hostCapacity := ⟨2, by decide⟩
  serviceStartMode := .boot
  refreshInterval := ⟨30, by decide⟩
  runnerRootOverride := none
  createdAt := 0

/-- A queue in which every poll finds one matching job. -/
def oneJob : RouteDemand Unit := fun _ _ _ _ ↦ 1

theorem loop_launches {report : StartReport}
    {afterLoop : Option Allocation × StartReport × List RunnerAttempt →
      StartProgram (StartReport × List RunnerAttempt)}
    {afterStart : StartReport × List RunnerAttempt → PassProgramOf Unit ReconcileReport}
    {afterAll : ReconcileReport → PassProgramOf Unit (CleanBackoff × ReconcileReport)}
    (h : Repeats oneJob ⟨2⟩ 1 [] [] (Program.andThen (Program.andThen (starting
      (Program.andThen (startLoop sampleHost samplePolicy 1 1 none report []) afterLoop))
      afterStart) afterAll)) :
    ∃ p, Repeats oneJob ⟨2⟩ 1 [] [startingAttempt] p := by
  have hquiet : Moves ⟨2⟩ none [] [] := ⟨List.nodup_nil, fun _ hmem ↦ by cases hmem⟩
  rw [startLoop] at h
  have h₁ := h.answered (.port .acquire) (.ok ()) rfl trivial hquiet
  have h₂ := h₁.answered (.port .hostCapacity) (.ok ⟨2, by decide⟩) rfl trivial hquiet
  have h₃ := h₂.answered (.port .attempts) (.ok []) rfl rfl hquiet
  have hcreated : Moves ⟨2⟩ (some ⟨1⟩) [] [startingAttempt] := by
    refine ⟨List.nodup_singleton _, ?_⟩
    intro attempt hmem _ _
    obtain rfl := List.mem_singleton.mp hmem
    exact .inl rfl
  exact ⟨_, h₃.answered (.port (.launch samplePolicy)) (.ok startingAttempt) rfl trivial
    ⟨some ⟨1⟩, fun hother ↦ absurd rfl hother, hcreated⟩⟩

end RunnerManager.Agent
