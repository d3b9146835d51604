import RunnerManager.Agent.Lifecycle

/-!
# Histories of an operation

The history of one operation on one attempt, and what every journal write of the operation must
have seen before. The ports may answer anything here. Read `History.Allows` first: it lists, for
each operation on the record, what the history says when it is journalled. The rules for the
calls and the cleanups follow.
-/

namespace RunnerManager.Agent

open RunnerManager.Domain

/-! ## Histories -/

/-- What is working on the attempt. -/
inductive Operation where
  | launch
  | pass
deriving DecidableEq

/-- What an operation knows of the stored runner id: the last reading, unless a write failed
since, and every id it read or wrote. -/
structure RunnerFile where
  last : Option (Option Nat)
  ids : List Nat

def RunnerFile.read (file : RunnerFile) (stored : Option Nat) : RunnerFile where
  last := some stored
  ids := stored.toList ++ file.ids

/-- The journalled attempt and what one operation on it has seen and done. -/
structure History where
  operation : Operation
  began : RunnerAttempt
  journal : RunnerAttempt
  /-- The last observation of the process. -/
  process : Option EnvironmentState
  github : Option LifecycleGithubObservation
  file : RunnerFile
  registered : Option Nat
  deregistered : List Nat
  /-- The terminate mark, once it was read. -/
  mark : Option Bool
  /-- The mark was read set while the process was not running. -/
  condemned : Bool
  /-- The journalled state when the operation ordered a termination. -/
  ordered : Option AttemptState
  completed : Bool
  evidence : Option JobEvidence

namespace History

/-- Before the first call of an operation. -/
def start (operation : Operation) (attempt : RunnerAttempt) : History where
  operation := operation
  began := attempt
  journal := attempt
  process := none
  github := none
  file := ⟨none, []⟩
  registered := none
  deregistered := []
  mark := none
  condemned := false
  ordered := none
  completed := false
  evidence := none

def after (s : History) (c : LifecycleCall) (answer : c.Answer) : History :=
  match c, answer with
  | .recordAttempt attempt, .ok _ => { s with journal := attempt }
  | .inspect _, .ok state => { s with process := some state }
  | .observe .., github => { s with github := some github }
  | .readRunnerId _, stored => { s with file := s.file.read stored }
  | .storeRunnerId _ runnerId, .ok _ => { s with file := s.file.read (some runnerId) }
  | .storeRunnerId .., .error _ => { s with file := ⟨none, s.file.ids⟩ }
  | .register .., .ok registration => { s with registered := some registration.runnerId }
  | .deregister _ runnerId, _ => { s with deregistered := runnerId :: s.deregistered }
  | .hasTerminateIntent _, marked => { s with
      mark := some marked
      condemned := marked && s.process ≠ some .running }
  | .recordTerminateIntent _, _ => { s with ordered := some s.journal.state }
  | .completedSuccessfully _, completed => { s with completed }
  | .jobEvidence _, evidence => { s with evidence := some evidence }
  | _, _ => s

@[simp]
theorem journal_inspect (s : History) (attempt : RunnerAttempt)
    (seen : Except FailureReason EnvironmentState) :
    (s.after (.inspect attempt) seen).journal = s.journal := by
  cases seen <;> rfl

/-- The runner id an operation goes by: the journalled one, or else the stored one. -/
def KnownAs (s : History) (runnerId : Option Nat) : Prop :=
  s.journal.githubRunnerId = runnerId ∧ runnerId.isSome = true ∨
    s.journal.githubRunnerId = none ∧ s.file.last = some runnerId

/-- The registration was seen gone, or the runner that the operation goes by was deregistered.
An operation without an id found none stored, for a runner that should have had one. -/
def Cleared (s : History) : Prop :=
  (∃ github, s.github = some github ∧ github.status = .notRegistered) ∨
    (∃ runnerId, s.KnownAs (some runnerId) ∧ runnerId ∈ s.deregistered) ∨
    s.KnownAs none ∧ (s.mark = some true ∨ s.journal.state ≠ .allocated)

/-- What was seen of how the attempt ended. -/
def Attributed (s : History) : AttemptOutcome → Prop
  | .completedJob => s.completed = true ∧ s.evidence ≠ some .noJob
  | .exitedIdleWithoutWork => True
  | .failed .terminatedAfterRegistrationTimeout =>
    s.ordered = some .starting ∧ s.journal.state = .starting ∨ s.condemned = true
  | .failed _ | .orphaned => s.mark = some false ∧ s.ordered = none

/-- The states in which an isolated attempt has no configuration yet. -/
def beforeJit : AttemptState → Bool
  | .allocated | .preparing | .prepared => true
  | _ => false

/-- When an attempt may be concluded. A launch concludes what it could not start; a pass
concludes a native attempt whose process was last seen not running, and an isolated one that
was interrupted before its configuration or whose registration was cleared. -/
def MayConclude (s : History) (outcome : AttemptOutcome) : Prop :=
  match s.operation with
  | .launch => s.deregistered = []
  | .pass =>
    if s.journal.execution.isNative then
      (∃ state, s.process = some state ∧ state ≠ .running) ∧
        (outcome = .completedJob ∨ s.Cleared) ∧ s.Attributed outcome
    else if beforeJit s.journal.state then s.deregistered = []
    else outcome = .completedJob ∨ s.Cleared

/-- The id was journalled, seen at GitHub, or stored. -/
def Sourced (s : History) (runnerId : Nat) : Prop :=
  s.journal.githubRunnerId = some runnerId ∨
    (∃ github, s.github = some github ∧ github.runnerId = some runnerId) ∨
    runnerId ∈ s.file.ids

theorem Sourced.mono {s : History} {runnerId : Nat} (h : s.Sourced runnerId) {file : RunnerFile}
    {ids : List Nat} (hfile : s.file.ids ⊆ file.ids) :
    { s with file, deregistered := ids }.Sourced runnerId :=
  h.imp id (Or.imp id fun hid ↦ hfile hid)

/-- What the history says when an operation on the record is journalled. -/
def Allows (s : History) : AttemptOp → Prop
  | .allocateExecution _ => False
  | .preparedEnvironment _ | .beginPrepare _ | .markPrepared _ => s.operation = .launch
  | .jitReceived _ => s.file.ids ≠ [] ∨ ∃ github, s.github = some github ∧
      github.status.isRegistered = true ∧ github.runnerId = none
  | .registeredIdle runnerId _ | .assignedJob runnerId _ => s.Sourced runnerId ∧
      s.condemned = false
  | .assignmentNotTaken _ => s.condemned = false
  | .conclude outcome _ => s.MayConclude outcome
  | _ => True

/-- A launch journals the prepared environment and its phase in one write. -/
def Prepares (s : History) (attempt : RunnerAttempt) : Prop :=
  s.operation = .launch ∧ ∃ environmentId now middle,
    (AttemptOp.preparedEnvironment environmentId).answer s.journal = .ok middle ∧
      (AttemptOp.markPrepared now).answer middle = .ok attempt

def Requires (s : History) : LifecycleCall → Prop
  | .recordAttempt attempt =>
    (∃ op : AttemptOp, op.answer s.journal = .ok attempt ∧ s.Allows op) ∨ s.Prepares attempt
  | .inspect _ => s.journal.execution.isNative = true → s.journal.state.isTerminal = false
  | .storeRunnerId _ runnerId => s.file.last = some none ∧
      (s.registered = some runnerId ∨
        ∃ github, s.github = some github ∧ github.runnerId = some runnerId)
  | .observe .. => s.operation = .pass
  | .scrubWorkspace _ => s.journal.outcome.isSome = true ∨ s.journal.state.isTerminal = true
  | .recordTerminateIntent _ => s.journal.state = .starting ∨ s.journal.state = .idle
  | .deregister .. => s.operation = .pass ∧
      (s.journal.execution.isNative = true ∨ beforeJit s.journal.state = false)
  | .register .. => s.operation = .launch ∧ s.registered = none
  | _ => True

end History

/-- The contract of an operation whose ports may answer anything. -/
def historyContract : Contract LifecycleCall LifecycleCall.Answer History :=
  .ofAfter History.Requires History.after

/-! ## Rules -/

section Rules

variable {s : History} {attempt : RunnerAttempt}

theorem transition_wp {op : AttemptOp}
    {Q : Except LifecycleError RunnerAttempt → History → Prop} (hjournal : s.journal = attempt)
    (hallows : op.Permits attempt → s.Allows op)
    (hok : op.Permits attempt → Q (.ok (op.effect attempt)) { s with journal := op.effect attempt })
    (hfailed : ∀ error, Q (.error error) s) :
    historyContract.wp (transition attempt op) Q s := by
  subst hjournal
  unfold transition edge
  cases hanswer : op.answer s.journal with
  | error refusal => exact hfailed .transition
  | ok next =>
    obtain ⟨hpermits, rfl⟩ := AttemptOp.answer_iff.mp hanswer
    refine (Contract.wp_bind _ _).mpr ((Contract.wp_bind _ _).mpr (ask_wp
      (.inl ⟨op, hanswer, hallows hpermits⟩) fun answer ↦ ?_))
    cases answer with
    | ok _ => exact hok hpermits
    | error _ => exact hfailed .journal

theorem advance_wp {op : Timestamp → AttemptOp}
    {Q : Except LifecycleError RunnerAttempt → History → Prop} (hjournal : s.journal = attempt)
    (hallows : ∀ now, (op now).Permits attempt → s.Allows (op now))
    (hok : ∀ now, (op now).Permits attempt →
      Q (.ok ((op now).effect attempt)) { s with journal := (op now).effect attempt })
    (hfailed : ∀ error, Q (.error error) s) :
    historyContract.wp (advance attempt op) Q s :=
  ask_wp trivial fun now ↦ transition_wp hjournal (hallows now) (hok now) hfailed

end Rules

/-! ## Cleanup -/

section Cleanup

variable {s : History} {attempt : RunnerAttempt} {launcher : Launcher}

/-- What a cleanup keeps, however it ends: how the attempt ended. -/
def KeepsOutcome {α : Type} (attempt : RunnerAttempt) (_ : Except LifecycleError α)
    (t : History) : Prop :=
  t.journal.outcome = attempt.outcome

theorem keepsOutcome_of_journal {α : Type} (hjournal : s.journal = attempt)
    (result : Except LifecycleError α) : KeepsOutcome attempt result s :=
  congrArg RunnerAttempt.outcome hjournal

theorem retire_wp {op : Timestamp → AttemptOp} (hjournal : s.journal = attempt)
    (hallows : ∀ s : History, ∀ now, s.Allows (op now))
    (hkeeps : ∀ now, ((op now).effect attempt).outcome = attempt.outcome) :
    historyContract.wp (retire attempt op) (KeepsOutcome attempt) s := by
  have hfailed (error : LifecycleError) : KeepsOutcome attempt (.error error : Except _ Unit) s :=
    keepsOutcome_of_journal hjournal _
  unfold retire
  cases houtcome : attempt.outcome with
  | none => exact hfailed .transition
  | some outcome =>
    have hended : s.journal.outcome.isSome = true := by
      rw [hjournal, houtcome]
      rfl
    refine ask_wp trivial fun answer ↦ ?_
    refine orRaise_bind_wp (fun _ _ ↦ ?_) hfailed
    refine ask_wp (.inl hended) fun answer ↦ ?_
    refine orRaise_bind_wp (fun _ _ ↦ ?_) hfailed
    refine ask_wp trivial fun answer ↦ ?_
    refine orFail_bind_wp (fun _ _ ↦ ?_) hfailed
    exact (Contract.wp_bind _ _).mpr
      (advance_wp hjournal (fun now _ ↦ hallows _ now) (fun now _ ↦ hkeeps now) hfailed)

theorem deferEnvironmentCleanup_wp {α : Type} (hjournal : s.journal = attempt) :
    historyContract.wp (deferEnvironmentCleanup attempt : LifecycleProgram α)
      (KeepsOutcome attempt) s :=
  (Contract.wp_bind _ _).mpr (advance_wp hjournal (fun _ _ ↦ trivial) (fun _ _ ↦ rfl)
    fun _ ↦ keepsOutcome_of_journal hjournal _)

theorem retireIsolated_wp (hjournal : s.journal = attempt) :
    historyContract.wp (retireIsolated launcher attempt) (KeepsOutcome attempt) s := by
  refine ask_wp trivial fun resources ↦ ?_
  split_ifs
  · exact deferEnvironmentCleanup_wp hjournal
  · exact retire_wp hjournal (fun _ _ ↦ trivial) fun _ ↦ rfl

theorem requires_inspect (hjournal : s.journal = attempt)
    (hisolated : attempt.execution.isNative = false) : s.Requires (.inspect attempt) := by
  intro hnative
  rw [hjournal, hisolated] at hnative
  cases hnative

theorem destroyStopped_wp (hjournal : s.journal = attempt)
    (hisolated : attempt.execution.isNative = false) :
    historyContract.wp (destroyStopped launcher attempt) (KeepsOutcome attempt) s := by
  refine ask_wp trivial fun destroyed ↦ ?_
  split
  · refine ask_wp (requires_inspect hjournal hisolated) fun seen ↦ ?_
    have hseen : (s.after (.inspect attempt) seen).journal = attempt :=
      (s.journal_inspect attempt seen).trans hjournal
    split
    · exact retireIsolated_wp hseen
    · exact deferEnvironmentCleanup_wp hseen
  · exact deferEnvironmentCleanup_wp hjournal

theorem destroyEnvironment_wp (hjournal : s.journal = attempt)
    (hisolated : attempt.execution.isNative = false) (current : EnvironmentState) :
    historyContract.wp (destroyEnvironment launcher attempt current) (KeepsOutcome attempt) s := by
  have hstopped (stopped : Bool) : historyContract.wp
      (if stopped then destroyStopped launcher attempt else deferEnvironmentCleanup attempt)
      (KeepsOutcome attempt) s := by
    cases stopped with
    | true => exact destroyStopped_wp hjournal hisolated
    | false => exact deferEnvironmentCleanup_wp hjournal
  refine ask_wp trivial fun owned ↦ ?_
  split
  · refine (Contract.wp_bind _ _).mpr ?_
    unfold stopEnvironment
    split_ifs
    · refine ask_wp trivial fun answer ↦ ?_
      split
      · exact hstopped true
      · exact hstopped false
    · exact hstopped true
  · exact deferEnvironmentCleanup_wp hjournal

theorem cleanDestroying_wp (hjournal : s.journal = attempt)
    (hisolated : attempt.execution.isNative = false) :
    historyContract.wp (cleanDestroying launcher attempt) (KeepsOutcome attempt) s := by
  have hcurrent (t : History) (ht : t.journal = attempt)
      (current : Except FailureReason EnvironmentState) : historyContract.wp
      (cleanCurrent launcher attempt current) (KeepsOutcome attempt) t := by
    cases current with
    | error _ => exact deferEnvironmentCleanup_wp ht
    | ok current =>
      unfold cleanCurrent
      dsimp only
      split_ifs
      · exact deferEnvironmentCleanup_wp ht
      · exact destroyEnvironment_wp ht hisolated current
      · exact retireIsolated_wp ht
  refine ask_wp trivial fun resources ↦ ?_
  dsimp only
  split_ifs
  · exact deferEnvironmentCleanup_wp hjournal
  · exact deferEnvironmentCleanup_wp hjournal
  · refine (Contract.wp_bind _ _).mpr ?_
    unfold currentEnvironment
    split_ifs
    · refine call_wp (requires_inspect hjournal hisolated) fun seen ↦ hcurrent _ ?_ seen
      exact (s.journal_inspect attempt seen).trans hjournal
    · exact call_wp trivial fun seen ↦ hcurrent _ hjournal seen

theorem cleanIsolatedAttempt_wp (hjournal : s.journal = attempt)
    (hisolated : attempt.execution.isNative = false) :
    historyContract.wp (cleanIsolatedAttempt launcher attempt) (KeepsOutcome attempt) s := by
  unfold cleanIsolatedAttempt
  split_ifs
  · exact cleanDestroying_wp hjournal hisolated
  · refine (Contract.wp_bind _ _).mpr (advance_wp hjournal (fun _ _ ↦ trivial) (fun now _ ↦ ?_)
      fun _ ↦ keepsOutcome_of_journal hjournal _)
    exact cleanDestroying_wp rfl hisolated

theorem cleanAttempt_wp (hjournal : s.journal = attempt) :
    historyContract.wp (cleanAttempt launcher attempt) (KeepsOutcome attempt) s := by
  have hfailed (error : LifecycleError) : KeepsOutcome attempt (.error error : Except _ Unit) s :=
    keepsOutcome_of_journal hjournal _
  unfold cleanAttempt
  cases hnative : attempt.execution.isNative with
  | false => exact cleanIsolatedAttempt_wp hjournal hnative
  | true =>
    refine ask_wp trivial fun answer ↦ ?_
    refine orFail_bind_wp (fun result _ ↦ ?_) hfailed
    cases result with
    | deferred reason => exact hfailed _
    | destroyed => exact retire_wp hjournal (fun _ _ ↦ trivial) fun _ ↦ rfl

theorem cleanOrQuarantine_wp (hjournal : s.journal = attempt) :
    historyContract.wp (cleanOrQuarantine launcher attempt) (KeepsOutcome attempt) s := by
  refine ask_wp trivial fun now ↦ ask_wp trivial fun due ↦ ?_
  cases due with
  | false => exact keepsOutcome_of_journal hjournal _
  | true =>
    refine (Contract.wp_bind _ _).mpr ((Contract.wp_outcome _).mpr
      (Contract.wp_mono (cleanAttempt_wp hjournal) fun result t ht ↦ ?_))
    have hkept {α : Type} (result : Except LifecycleError α) : KeepsOutcome attempt result t := ht
    dsimp only
    split
    · exact call_wp trivial fun _ ↦ hkept _
    · exact call_wp trivial fun _ ↦ hkept _
    · exact call_wp trivial fun _ ↦ hkept _
    · exact hkept _
    · exact call_wp trivial fun _ ↦ hkept _

end Cleanup

end RunnerManager.Agent
