import RunnerManager.Agent.Supervision

/-!
# The cleanup of an isolated attempt

The provider may answer anything here, an error at any call included, and the cleanup is retried
any number of times. `CleanupCall` is one call of it: the journalled attempt and what the
provider answered in this call. Read `CleanupCall.Requires` for what must have been answered
before the environment is touched and before the attempt is journalled clean, and
`CleanupCall.Exits` for how a call ends.
-/

namespace RunnerManager.Agent

open RunnerManager.Domain

/-! ## One call -/

/-- The journalled attempt, and what one call of the cleanup was answered. -/
structure CleanupCall where
  began : RunnerAttempt
  journal : RunnerAttempt
  /-- What the provider enumerated, the last enumeration first. -/
  enumerated : List (List EnvironmentIdentity)
  owned : Bool
  missing : Bool
  /-- After the environment was missing, an enumeration did not show the allocation. -/
  absent : Bool
  /-- The journal, the diagnostics, the workspace or the package cache failed. -/
  faulted : Bool

/-- At most one resource of the allocation, and the one the journal names. -/
def Unambiguous (host : HostId) (attempt : RunnerAttempt) (resources : List EnvironmentIdentity) :
    Prop :=
  (resources.filter (identitySameAllocation host attempt)).length ≤ 1 ∧
    ∀ identity ∈ resources, identitySameAllocation host attempt identity = true →
      identityMatchesIntent host attempt identity = true

namespace CleanupCall

/-- Before the first answer. -/
def start (attempt : RunnerAttempt) : CleanupCall where
  began := attempt
  journal := attempt
  enumerated := []
  owned := false
  missing := false
  absent := false
  faulted := false

def writes : LifecycleCall → Bool
  | .recordAttempt _ => true
  | _ => false

def after (s : CleanupCall) (c : LifecycleCall) (answer : c.Answer) : CleanupCall :=
  match c, answer with
  | .recordAttempt attempt, .ok _ => { s with journal := attempt }
  | .enumerateOwned host, resources => { s with
      enumerated := resources :: s.enumerated
      absent := s.missing && !resources.any (identitySameAllocation host s.journal) }
  | .inspect _, .ok .missing | .recover _, .ok .missing => { s with missing := true }
  | .owns _, .ok true => { s with owned := true }
  | .recordAttempt _, .error _ | .preserveDiagnostics .., .error _ | .scrubWorkspace _, .error _
  | .releasePackage _, .error _ => { s with faulted := true }
  | _, _ => s

theorem journal_after (s : CleanupCall) {c : LifecycleCall} (answer : c.Answer)
    (hread : writes c = false) : (s.after c answer).journal = s.journal := by
  unfold after
  split
  · cases hread
  all_goals rfl

theorem enumerated_seen (s : CleanupCall) (attempt : RunnerAttempt)
    (seen : Except FailureReason EnvironmentState) :
    (s.after (.inspect attempt) seen).enumerated = s.enumerated ∧
      (s.after (.recover attempt) seen).enumerated = s.enumerated := by
  rcases seen with reason | state
  · exact ⟨rfl, rfl⟩
  · cases state <;> exact ⟨rfl, rfl⟩

/-- The environment may be stopped and destroyed. -/
def MayDestroy (host : HostId) (s : CleanupCall) : Prop :=
  s.journal.state = .destroying ∧ s.owned = true ∧ s.enumerated ≠ [] ∧
    ∀ resources ∈ s.enumerated, Unambiguous host s.journal resources

/-- What each call of a port requires. -/
def Requires (host : HostId) (s : CleanupCall) : LifecycleCall → Prop
  | .stop attempt | .destroy attempt => attempt = s.journal ∧ s.MayDestroy host
  | .recordAttempt attempt => WellFormed attempt ∧ attempt.execution.isNative = false ∧
      (attempt.state = .cleaned → s.missing = true ∧ s.absent = true)
  | _ => True

/-- How a call ends: the attempt is journalled clean, or a step outside the provider failed, or
the cleanup is deferred and the attempt keeps its slot, or the attempt is not one to clean and
nothing was done. -/
def Exits (s : CleanupCall) : Except LifecycleError Unit → Prop
  | .ok _ => s.journal.state = .cleaned
  | .error error => s.faulted = true ∨
      error = .environmentCleanupDeferred ∧ s.journal.state = .cleanupDeferred ∧
        s.journal.countsAgainstCapacity = true ∨
      error = .transition ∧ s = .start s.began ∧
        (s.began.outcome = none ∨ s.began.state = .cleaned)

end CleanupCall

def cleanupContract (host : HostId) : Contract LifecycleCall LifecycleCall.Answer CleanupCall :=
  .ofAfter (CleanupCall.Requires host) CleanupCall.after

/-! ## The steps of a call -/

section Steps

variable {launcher : Launcher} {s : CleanupCall} {attempt : RunnerAttempt}

/-- What a call knows once `destroying` is journalled. -/
structure Destroying (s : CleanupCall) (attempt : RunnerAttempt) : Prop where
  journal : s.journal = attempt
  state : attempt.state = .destroying
  isolated : attempt.execution.isNative = false
  wellFormed : WellFormed attempt

theorem cleanup_advance_wp {host : HostId} {op : Timestamp → AttemptOp}
    {Q : Except LifecycleError RunnerAttempt → CleanupCall → Prop}
    (hrefused : ∀ now, ¬ (op now).Permits attempt → Q (.error .transition) s)
    (hrequires : ∀ now, (op now).Permits attempt →
      s.Requires host (.recordAttempt ((op now).effect attempt)))
    (hok : ∀ now, (op now).Permits attempt →
      Q (.ok ((op now).effect attempt)) { s with journal := (op now).effect attempt })
    (hfaulted : Q (.error .journal) { s with faulted := true }) :
    (cleanupContract host).wp (advance attempt op) Q s := by
  refine ask_wp trivial fun now ↦ ?_
  unfold transition edge
  cases hanswer : (op now).answer attempt with
  | error refusal =>
    refine hrefused now fun hpermits ↦ ?_
    rw [AttemptOp.answer_iff.mpr ⟨hpermits, rfl⟩] at hanswer
    cases hanswer
  | ok next =>
    obtain ⟨hpermits, rfl⟩ := AttemptOp.answer_iff.mp hanswer
    refine (Contract.wp_bind _ _).mpr ((Contract.wp_bind _ _).mpr
      (ask_wp (hrequires now hpermits) fun answer ↦ ?_))
    cases answer with
    | ok _ => exact hok now hpermits
    | error _ => exact hfaulted

namespace Destroying

theorem answered (h : Destroying s attempt) {c : LifecycleCall} (answer : c.Answer)
    (hread : CleanupCall.writes c = false) : Destroying (s.after c answer) attempt :=
  { h with journal := (s.journal_after answer hread).trans h.journal }

theorem permits (h : Destroying s attempt) (now : Timestamp) :
    (AttemptOp.deferCleanup now).Permits attempt ∧
      (AttemptOp.cleanIsolated now).Permits attempt := by
  refine ⟨⟨h.isolated, ?_⟩, h.isolated, ?_⟩
  · rintro next ⟨⟩
    rw [h.state]
    rfl
  · rintro next ⟨⟩
    rw [h.state]
    rfl

theorem defer_wp (h : Destroying s attempt) {host : HostId} :
    (cleanupContract host).wp (deferEnvironmentCleanup attempt)
      (fun result t ↦ t.Exits result) s := by
  refine (Contract.wp_bind _ _).mpr (cleanup_advance_wp ?_ ?_ ?_ (.inl rfl))
  · intro now hrefused
    exact absurd (h.permits now).1 hrefused
  · intro now hpermits
    refine ⟨h.wellFormed.effect hpermits, h.isolated, fun hcleaned ↦ ?_⟩
    cases hcleaned
  · intro now _
    refine .inr (.inl ⟨rfl, rfl, ?_⟩)
    show (false || (!attempt.execution.isNative && true)) = true
    rw [h.isolated]
    rfl

/-- The attempt is retired: every step outside the provider may fail. -/
theorem retire_wp (h : Destroying s attempt) {host : HostId}
    (habsent : s.missing = true ∧ s.absent = true) :
    (cleanupContract host).wp (retire attempt .cleanIsolated)
      (fun result t ↦ t.Exits result) s := by
  unfold retire
  cases houtcome : attempt.outcome with
  | none =>
    have hended := h.wellFormed.outcome
    rw [houtcome, h.state] at hended
    cases hended
  | some outcome =>
    refine ask_wp trivial fun diagnostics ↦ ?_
    cases diagnostics with
    | error _ => exact .inl rfl
    | ok _ =>
      refine ask_wp trivial fun scrubbed ↦ ?_
      cases scrubbed with
      | error _ => exact .inl rfl
      | ok _ =>
        refine ask_wp trivial fun released ↦ ?_
        cases released with
        | error _ => exact .inl rfl
        | ok _ =>
          refine (Contract.wp_bind _ _).mpr ((Contract.wp_bind _ _).mpr
            (cleanup_advance_wp ?_ ?_ ?_ (.inl rfl)))
          · intro now hrefused
            exact absurd (h.permits now).2 hrefused
          · intro now hpermits
            exact ⟨h.wellFormed.effect hpermits, h.isolated, fun _ ↦ habsent⟩
          · intro now _
            rfl

theorem retireIsolated_wp (h : Destroying s attempt) (hmissing : s.missing = true) :
    (cleanupContract launcher.hostId).wp (retireIsolated launcher attempt)
      (fun result t ↦ t.Exits result) s := by
  refine ask_wp trivial fun resources ↦ ?_
  have hnext : Destroying (s.after (.enumerateOwned launcher.hostId) resources) attempt :=
    { h with }
  by_cases hshown : resources.any (identitySameAllocation launcher.hostId attempt) = true
  · rw [if_pos hshown]
    exact hnext.defer_wp
  · rw [if_neg hshown]
    refine hnext.retire_wp ⟨hmissing, ?_⟩
    show (s.missing && !resources.any (identitySameAllocation launcher.hostId s.journal)) = true
    rw [hmissing, h.journal, Bool.eq_false_iff.mpr hshown]
    rfl

theorem destroyStopped_wp (h : Destroying s attempt) (hmay : s.MayDestroy launcher.hostId) :
    (cleanupContract launcher.hostId).wp (destroyStopped launcher attempt)
      (fun result t ↦ t.Exits result) s := by
  refine ask_wp ⟨h.journal.symm, hmay⟩ fun destroyed ↦ ?_
  split
  · refine ask_wp trivial fun seen ↦ ?_
    split
    · have hmissing : Destroying { s with missing := true } attempt := { h with }
      exact hmissing.retireIsolated_wp rfl
    · exact (h.answered (c := .inspect attempt) seen rfl).defer_wp
  · exact h.defer_wp

theorem destroyEnvironment_wp (h : Destroying s attempt) (hshown : s.enumerated ≠ [])
    (hunambiguous : ∀ resources ∈ s.enumerated, Unambiguous launcher.hostId attempt resources)
    (current : EnvironmentState) :
    (cleanupContract launcher.hostId).wp (destroyEnvironment launcher attempt current)
      (fun result t ↦ t.Exits result) s := by
  refine ask_wp trivial fun owned ↦ ?_
  split
  · have howned : Destroying { s with owned := true } attempt := { h with }
    have hmay : CleanupCall.MayDestroy launcher.hostId { s with owned := true } :=
      ⟨h.journal ▸ h.state, rfl, hshown, h.journal ▸ hunambiguous⟩
    refine (Contract.wp_bind _ _).mpr ?_
    unfold stopEnvironment
    split_ifs
    · refine ask_wp ⟨h.journal.symm, hmay⟩ fun stopped ↦ ?_
      split
      · exact howned.destroyStopped_wp hmay
      · exact howned.defer_wp
    · exact howned.destroyStopped_wp hmay
  · exact (h.answered (c := .owns attempt) owned rfl).defer_wp

theorem cleanCurrent_wp (h : Destroying s attempt) (hshown : s.enumerated ≠ [])
    (hunambiguous : ∀ resources ∈ s.enumerated, Unambiguous launcher.hostId attempt resources)
    {seen : Except FailureReason EnvironmentState}
    (hmissing : seen = .ok .missing → s.missing = true) :
    (cleanupContract launcher.hostId).wp (cleanCurrent launcher attempt seen)
      (fun result t ↦ t.Exits result) s := by
  cases seen with
  | error _ => exact h.defer_wp
  | ok current =>
    unfold cleanCurrent
    dsimp only
    split_ifs with hunnamed hexists
    · exact h.defer_wp
    · exact h.destroyEnvironment_wp hshown hunambiguous current
    · rw [not_not] at hexists
      exact h.retireIsolated_wp (hmissing (congrArg _ hexists))

end Destroying

theorem unambiguous_of_enumeration {host : HostId} {resources : List EnvironmentIdentity}
    (h : ¬ (1 < (resources.filter (identitySameAllocation host attempt)).length ∨
      (resources.filter (identitySameAllocation host attempt)).any
        (fun identity ↦ !identityMatchesIntent host attempt identity) = true)) :
    Unambiguous host attempt resources := by
  obtain ⟨hone, hmatching⟩ := not_or.mp h
  refine ⟨Nat.le_of_not_lt hone, fun identity hmem hsame ↦ ?_⟩
  by_contra hmismatch
  refine hmatching (List.any_eq_true.mpr ⟨identity, List.mem_filter.mpr ⟨hmem, hsame⟩, ?_⟩)
  simpa using hmismatch

theorem Destroying.cleanDestroying_wp (h : Destroying s attempt) (hfirst : s.enumerated = []) :
    (cleanupContract launcher.hostId).wp (cleanDestroying launcher attempt)
      (fun result t ↦ t.Exits result) s := by
  refine ask_wp trivial fun resources ↦ ?_
  have hnext := h.answered (c := .enumerateOwned launcher.hostId) resources rfl
  dsimp only
  split_ifs with hambiguous hunnamed
  · exact hnext.defer_wp
  · exact hnext.defer_wp
  · have hunambiguous : ∀ shown ∈ resources :: s.enumerated,
        Unambiguous launcher.hostId attempt shown := by
      rw [hfirst]
      intro shown hmem
      rw [List.mem_singleton.mp hmem]
      exact unambiguous_of_enumeration hambiguous
    have hcurrent (t : CleanupCall) (ht : Destroying t attempt)
        (henumerated : t.enumerated = resources :: s.enumerated)
        (seen : Except FailureReason EnvironmentState)
        (hmissing : seen = .ok .missing → t.missing = true) :
        (cleanupContract launcher.hostId).wp (cleanCurrent launcher attempt seen)
          (fun result t ↦ t.Exits result) t := by
      rw [← henumerated] at hunambiguous
      refine ht.cleanCurrent_wp ?_ hunambiguous hmissing
      rw [henumerated]
      exact List.cons_ne_nil _ _
    refine (Contract.wp_bind _ _).mpr ?_
    unfold currentEnvironment
    split_ifs
    · refine call_wp trivial fun seen ↦ hcurrent _ (hnext.answered seen rfl) ?_ seen ?_
      · exact (CleanupCall.enumerated_seen _ attempt seen).1
      · rintro rfl
        rfl
    · refine call_wp trivial fun seen ↦ hcurrent _ (hnext.answered seen rfl) ?_ seen ?_
      · exact (CleanupCall.enumerated_seen _ attempt seen).2
      · rintro rfl
        rfl

theorem not_begun {now : Timestamp} (hisolated : attempt.execution.isNative = false)
    (hwf : WellFormed attempt) (hstate : attempt.state ≠ .destroying)
    (hrefused : ¬ (AttemptOp.beginDestroy now).Permits attempt) :
    attempt.outcome = none ∨ attempt.state = .cleaned := by
  cases houtcome : attempt.outcome with
  | none => exact .inl rfl
  | some outcome =>
    refine .inr ?_
    have hsome : attempt.outcome.isSome = true := by
      rw [houtcome]
      rfl
    have hterminal : attempt.state.isTerminal = true := hwf.outcome ▸ hsome
    by_contra hcleaned
    refine hrefused ⟨⟨hisolated, hsome⟩, ?_⟩
    rintro next ⟨⟩
    revert hterminal hstate hcleaned
    generalize attempt.state = state
    cases state <;> decide

theorem cleanIsolatedAttempt_exits (hisolated : attempt.execution.isNative = false)
    (hwf : WellFormed attempt) :
    (cleanupContract launcher.hostId).wp (cleanIsolatedAttempt launcher attempt)
      (fun result t ↦ t.Exits result) (.start attempt) := by
  unfold cleanIsolatedAttempt
  by_cases hstate : attempt.state = .destroying
  · rw [if_pos hstate]
    have hdestroying : Destroying (.start attempt) attempt := ⟨rfl, hstate, hisolated, hwf⟩
    exact hdestroying.cleanDestroying_wp rfl
  · rw [if_neg hstate]
    refine (Contract.wp_bind _ _).mpr (cleanup_advance_wp ?_ ?_ ?_ (.inl rfl))
    · intro now hrefused
      exact .inr (.inr ⟨rfl, rfl, not_begun hisolated hwf hstate hrefused⟩)
    · intro now hpermits
      refine ⟨hwf.effect hpermits, hisolated, fun hcleaned ↦ ?_⟩
      cases hcleaned
    · intro now hpermits
      have hdestroying : Destroying { CleanupCall.start attempt with
          journal := (AttemptOp.beginDestroy now).effect attempt }
          ((AttemptOp.beginDestroy now).effect attempt) :=
        ⟨rfl, rfl, hisolated, hwf.effect hpermits⟩
      exact hdestroying.cleanDestroying_wp rfl

end Steps

/-! ## Retries -/

/-- One call, or its rest. -/
abbrev CleanupProgram := LifecycleProgram Unit

/-- A first call on an isolated attempt. -/
def CleanupCall.Starts (host : HostId) (s : CleanupCall) (p : CleanupProgram) : Prop :=
  ∃ launcher attempt, launcher.hostId = host ∧ attempt.execution.isNative = false ∧
    WellFormed attempt ∧ s = .start attempt ∧ p = cleanIsolatedAttempt launcher attempt

/-- The next call, on what the journal gives back. -/
def CleanupCall.Opens (host : HostId) (s t : CleanupCall) (p : CleanupProgram) : Prop :=
  ∃ launcher attempt, launcher.hostId = host ∧ s.journal.reload = .ok attempt ∧
    t = .start attempt ∧ p = cleanIsolatedAttempt launcher attempt

/-- What any number of calls reach, each cut off anywhere. -/
def Cleans (host : HostId) (s : CleanupCall) (p : CleanupProgram) : Prop :=
  (cleanupContract host).Reaches (CleanupCall.Starts host) (CleanupCall.Opens host) s p

theorem Cleans.answered {host : HostId} {s : CleanupCall} {p : CleanupProgram}
    (h : Cleans host s p) (c : LifecycleCall) (answer : c.Answer)
    {next : c.Answer → CleanupProgram} (hask : p = .ask c next) :
    Cleans host (s.after c answer) (next answer) := by
  subst hask
  exact .call h answer rfl

theorem CleanupCall.isolated_after {host : HostId} {s : CleanupCall} {c : LifecycleCall}
    (answer : c.Answer) (hisolated : s.journal.execution.isNative = false)
    (hrequires : s.Requires host c) : (s.after c answer).journal.execution.isNative = false := by
  cases hwrites : CleanupCall.writes c with
  | false =>
    rw [s.journal_after answer hwrites]
    exact hisolated
  | true =>
    cases c with
    | recordAttempt attempt =>
      cases answer with
      | ok _ => exact hrequires.2.1
      | error _ => exact hisolated
    | _ => cases hwrites

theorem Cleans.sound {host : HostId} {s : CleanupCall} {p : CleanupProgram} (h : Cleans host s p) :
    s.journal.execution.isNative = false ∧
      (cleanupContract host).wp p (fun result t ↦ t.Exits result) s := by
  refine Contract.Reaches.sound (I := fun s ↦ s.journal.execution.isNative = false) ?_ ?_ ?_ h
  · rintro s p ⟨launcher, attempt, rfl, hisolated, hwf, rfl, rfl⟩
    exact ⟨hisolated, cleanIsolatedAttempt_exits hisolated hwf⟩
  · rintro s t p hisolated ⟨launcher, attempt, rfl, hreload, rfl, rfl⟩
    have hback := readsBack_of_reload hreload
    have hstill : attempt.execution.isNative = false := hback.native.trans hisolated
    exact ⟨hstill, cleanIsolatedAttempt_exits hstill hback.wellFormed⟩
  · rintro s c answer _ hisolated hrequires rfl
    exact CleanupCall.isolated_after answer hisolated hrequires

/-- Over any number of calls, whatever the ports answer: the environment is stopped or destroyed
only while `destroying` is journalled, after it was found owned and nothing ambiguous was
enumerated; the attempt is journalled clean only after the environment was missing and an
enumeration after that did not show its allocation; and a call ends so, or with a failure outside
the provider, or with the cleanup deferred and the slot held, or with nothing done to an attempt
that has not concluded or is clean. -/
theorem isolated_cleanup {host : HostId} {s : CleanupCall} {p : CleanupProgram}
    (h : Cleans host s p) :
    (∀ attempt next, p = .ask (.stop attempt) next → attempt = s.journal ∧ s.MayDestroy host) ∧
    (∀ attempt next, p = .ask (.destroy attempt) next → attempt = s.journal ∧ s.MayDestroy host) ∧
    (∀ attempt next, p = .ask (.recordAttempt attempt) next → attempt.state = .cleaned →
      s.missing = true ∧ s.absent = true) ∧
    ∀ result, p = .done result → s.Exits result := by
  obtain ⟨-, hmeets⟩ := h.sound
  refine ⟨?_, ?_, ?_, ?_⟩
  · rintro attempt next rfl
    exact hmeets.1
  · rintro attempt next rfl
    exact hmeets.1
  · rintro attempt next rfl
    exact hmeets.1.2.2
  · rintro result rfl
    exact hmeets

/-- An isolated attempt that was given its environment and failed. -/
def failedIsolated : RunnerAttempt :=
  AttemptOp.execAll [.allocateExecution (.isolated .virtualMachine none ⟨"vm-version:1"⟩ "g1"),
    .beginPrepare 1, .preparedEnvironment "e1", .markPrepared 2,
    .conclude (.failed .jitRequestFailed) 3] (.allocate ⟨1⟩ ⟨2⟩ "/r/1" 0)

/-- The same attempt, its environment being destroyed. -/
def destroyingIsolated : RunnerAttempt :=
  (AttemptOp.beginDestroy 4).effect failedIsolated

/-- A running environment that is owned is stopped. -/
theorem owned_environment_stopped : ∃ (s : CleanupCall) (attempt : RunnerAttempt)
    (next : (LifecycleCall.stop attempt).Answer → CleanupProgram),
    Cleans ⟨1⟩ s (.ask (.stop attempt) next) ∧ attempt = s.journal ∧ s.MayDestroy ⟨1⟩ := by
  have h0 : Cleans ⟨1⟩ (.start failedIsolated)
      (cleanIsolatedAttempt sampleLauncher failedIsolated) :=
    .start ⟨_, _, rfl, rfl, AttemptOp.exec_all_wellFormed _ (.allocateIn ..), rfl, rfl⟩
  have h1 := h0.answered .now (4 : Int) rfl
  have h2 := h1.answered (.recordAttempt destroyingIsolated) (.ok ()) rfl
  have h3 := h2.answered (.enumerateOwned ⟨1⟩) [] rfl
  have h4 := h3.answered (.inspect destroyingIsolated) (.ok .running) rfl
  have h5 := h4.answered (.owns destroyingIsolated) (.ok true) rfl
  exact ⟨_, _, _, h5, (isolated_cleanup h5).1 _ _ rfl⟩

/-- An isolated attempt that has not concluded. -/
def preparingIsolated : RunnerAttempt :=
  AttemptOp.execAll [.allocateExecution (.isolated .virtualMachine none ⟨"vm-version:1"⟩ "g1"),
    .beginPrepare 1] (.allocate ⟨1⟩ ⟨2⟩ "/r/1" 0)

/-- A call on an attempt that has not concluded ends with a refusal and defers nothing. -/
theorem unconcluded_cleanup_refused : ∃ s : CleanupCall,
    Cleans ⟨1⟩ s (.done (.error .transition)) ∧ s.faulted = false ∧
      s.journal.state = .preparing := by
  have h0 : Cleans ⟨1⟩ (.start preparingIsolated)
      (cleanIsolatedAttempt sampleLauncher preparingIsolated) :=
    .start ⟨_, _, rfl, rfl, AttemptOp.exec_all_wellFormed _ (.allocateIn ..), rfl, rfl⟩
  exact ⟨_, h0.answered .now (4 : Int) rfl, rfl, rfl⟩

end RunnerManager.Agent
