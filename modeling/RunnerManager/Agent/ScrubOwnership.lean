import RunnerManager.Agent.Launch
import RunnerManager.Agent.Registrations
import RunnerManager.Agent.Slots

/-!
# Who owns what a cleanup scrubs

Launches, cleanups and passes over one journal, in any order and each cut off anywhere. A pass
works on a snapshot of any age; a cleanup reads the journal first. The other ports may answer
anything. Read `OwnsScrub` for what a scrub should be able to rely on and `CleanupOp.Fresh` for
when an operation keeps to it. `scrubs_owned` then covers every run of such operations, and
`cleaned_slot_scrubbed` is the run that is not one.
-/

namespace RunnerManager.Agent

open RunnerManager.Domain RunnerManager.Result
open Contract (wp_bind wp_mono wp_outcome)

/-! ## The journal -/

/-- The journal, and every attempt that was read from it so far. -/
structure Snapshots where
  db : Database
  read : List RunnerAttempt

def stateOf (db : Database) (id : AttemptId) : Option AttemptState :=
  (db.attempts.find? id).map (·.state)

/-- The journal has the attempt with its own allocation. -/
def Listed (db : Database) (attempt : RunnerAttempt) : Prop :=
  ∃ row, db.attempts.find? attempt.id = some row ∧ row.policyId = attempt.policyId ∧
    row.workspaceKind = attempt.workspace.kind ∧
    row.workspaceSlot = attempt.workspace.slotColumn ∧ row.runtimePath = attempt.runtimePath

/-- The attempt is concluded and not yet cleaned. -/
def AwaitsCleanup (db : Database) (id : AttemptId) : Prop :=
  ∃ state, stateOf db id = some state ∧ state.isTerminal = true ∧ state ≠ .cleaned

/-- No other uncleaned attempt has the directory. -/
def SoleOwner (db : Database) (attempt : RunnerAttempt) : Prop :=
  ∀ row ∈ db.attempts.rows, row.id ≠ attempt.id → row.state ≠ .cleaned →
    row.runtimePath ≠ attempt.runtimePath

/-- The directory may be scrubbed on behalf of the attempt. -/
def MayScrub (db : Database) (attempt : RunnerAttempt) : Prop :=
  AwaitsCleanup db attempt.id ∨ attempt.workspace = .ephemeral ∧ SoleOwner db attempt

/-- A scrub on behalf of the attempt is of its own directory, and no other attempt leases the
slot. -/
structure OwnsScrub (db : Database) (attempt : RunnerAttempt) : Prop where
  due : MayScrub db attempt
  slot : ∀ slot, attempt.workspace = .persistentSlot slot →
    ∀ row ∈ db.attempts.rows, row.id ≠ attempt.id → row.policyId = attempt.policyId →
      row.leases = true → row.workspaceSlot ≠ attempt.workspace.slotColumn

/-- What each call requires: a write is of a listed attempt or a new one, and a scrub is
owned. -/
def Snapshots.Requires (s : Snapshots) : LifecycleCall → Prop
  | .recordAttempt attempt => Listed s.db attempt ∨ s.db.attempts.find? attempt.id = none
  | .scrubWorkspace attempt => Listed s.db attempt ∧ MayScrub s.db attempt
  | _ => True

/-- What an answered call does to the journal. A new identifier is one the journal does not
have, and a refused write is rolled back. -/
def Snapshots.Steps (s : Snapshots) (c : LifecycleCall) (answer : c.Answer) (t : Snapshots) :
    Prop :=
  match c, answer with
  | .recordAttempt attempt, .ok _ =>
    Store.recordAttempt s.db attempt = .ok t.db ∧ t.read = s.read
  | .newAttemptId, id => s.db.attempts.find? id = none ∧ t = s
  | _, _ => t = s

/-- The contract of an operation over the journal. -/
def snapshotContract : Contract LifecycleCall LifecycleCall.Answer Snapshots where
  requires := Snapshots.Requires
  steps := Snapshots.Steps

/-! ## Operations -/

/-- An error of the launcher as the reconciler sees it. -/
def launchFailure (text : String) : LifecycleError :=
  .failed (.other text)

/-- `RunnerLauncher::clean`, on what the journal has at its start. -/
def clean (launcher : Launcher) (db : Database) (id : AttemptId) : LifecycleProgram Unit :=
  match (db.attempts.find? id).mapM attemptFromRow with
  | .error _ => .fail (launchFailure "attempt journal could not be read")
  | .ok none => .fail (launchFailure "attempt disappeared from the journal")
  | .ok (some attempt) => do
    match ← (cleanAttempt launcher attempt).outcome with
    | .error error => .fail (.failed error.reason)
    | .ok _ => call (.cleanupSucceeded id)

/-- An operation of the launcher. -/
inductive CleanupOp where
  | launch (policy : ScalePolicy)
  | clean (id : AttemptId)
  | reconcileOne (policy : ScalePolicy) (attempt : RunnerAttempt)

namespace CleanupOp

def program (launcher : Launcher) (db : Database) : CleanupOp → OperationProgram
  | launch policy => operation (launchAttempt launcher policy)
  | clean id => Agent.clean launcher db id
  | reconcileOne policy attempt => operation (Agent.reconcileOne launcher policy attempt)

/-- A pass works on an attempt that was read before, or on what recovery made of it. -/
def Given (read : List RunnerAttempt) : CleanupOp → Prop
  | reconcileOne _ attempt => ∃ earlier ∈ read, SameAllocation attempt earlier
  | _ => True

/-- A pass over the attempt scrubs before it writes the journal. -/
def scrubsFirst (attempt : RunnerAttempt) : Bool :=
  if attempt.execution.isNative then
    attempt.state.isTerminal && (attempt.state ≠ .cleaned || attempt.workspace = .ephemeral)
  else attempt.state = .destroying

/-- The operation does not clean what was cleaned before: a cleanup is not of a native attempt
that the journal has as cleaned, and a pass that scrubs first is not over an attempt that no
longer awaits its cleanup. The exception is a disposable directory without another owner. -/
def Fresh (db : Database) : CleanupOp → Prop
  | launch _ => True
  | clean id => ∀ row attempt, db.attempts.find? id = some row →
      attemptFromRow row = .ok attempt → attempt.execution.isNative = true →
      attempt.state = .cleaned → attempt.workspace = .ephemeral ∧ SoleOwner db attempt
  | reconcileOne _ attempt => scrubsFirst attempt = true →
      AwaitsCleanup db attempt.id ∨ attempt.workspace = .ephemeral ∧ SoleOwner db attempt

end CleanupOp

/-! ## Runs -/

namespace Snapshots

/-- Before the first operation, over any journal its unique index accepts. -/
def Starts (s : Snapshots) (p : OperationProgram) : Prop :=
  LeasesExclusive s.db ∧ s.read = [] ∧ p = pure ()

/-- The journal is read, or an operation that meets the condition begins. -/
def Opens (launcher : Launcher) (meets : Database → CleanupOp → Prop) (s t : Snapshots)
    (p : OperationProgram) : Prop :=
  (∃ row ∈ s.db.attempts.rows, ∃ attempt, attemptFromRow row = .ok attempt ∧
    t = { s with read := attempt :: s.read } ∧ p = pure ()) ∨
  ∃ op : CleanupOp, op.Given s.read ∧ meets s.db op ∧ t = s ∧ p = op.program launcher s.db

/-- What a run of operations that meet the condition reaches. -/
def Operated (launcher : Launcher) (meets : Database → CleanupOp → Prop) (s : Snapshots)
    (p : OperationProgram) : Prop :=
  snapshotContract.Reaches Starts (Opens launcher meets) s p

end Snapshots

/-! ## The journal under a write -/

section Journal

variable {db next : Database} {attempt later : RunnerAttempt}

theorem Listed.of_same (h : Listed db attempt) (hsame : SameAllocation later attempt) :
    Listed db later := by
  obtain ⟨row, hrow, hpolicy, hkind, hslot, hpath⟩ := h
  refine ⟨row, ?_, ?_, ?_, ?_, ?_⟩
  · rw [hsame.id, hrow]
  · rw [hsame.policyId, hpolicy]
  · rw [hsame.workspace, hkind]
  · rw [hsame.workspace, hslot]
  · rw [hsame.runtimePath, hpath]

theorem recorded_row (hrun : Store.recordAttempt db attempt = .ok next)
    (hfits : Listed db attempt ∨ db.attempts.find? attempt.id = none) :
    Listed next attempt ∧ stateOf next attempt.id = some attempt.state ∧
      ∀ id, id ≠ attempt.id → next.attempts.find? id = db.attempts.find? id := by
  obtain ⟨row, hwritten, -, -, rfl⟩ := Store.recordAttempt_ok hrun
  have hid : row.id = attempt.id := by
    rw [hwritten]
    unfold Store.upsertAttempt
    cases db.attempts.find? attempt.id <;> rfl
  have hstored : (db.attempts.put row).find? attempt.id = some row :=
    (Table.find?_put row attempt.id).trans (if_pos hid.symm)
  refine ⟨?_, ?_, fun id hne ↦ (Table.find?_put row id).trans (if_neg (by rwa [hid]))⟩
  · refine ⟨row, hstored, ?_⟩
    rcases hfits with ⟨stored, hfound, -, hkind, hslot, -⟩ | hnone
    · rw [hfound] at hwritten
      rw [hwritten]
      exact ⟨rfl, hkind, hslot, rfl⟩
    · rw [hnone] at hwritten
      rw [hwritten]
      exact ⟨rfl, rfl, rfl, rfl⟩
  · unfold stateOf
    rw [hstored, hwritten]
    unfold Store.upsertAttempt
    cases db.attempts.find? attempt.id <;> rfl

theorem Listed.recorded (h : Listed db later) (hrun : Store.recordAttempt db attempt = .ok next)
    (hfits : Listed db attempt ∨ db.attempts.find? attempt.id = none) : Listed next later := by
  obtain ⟨hlisted, -, hothers⟩ := recorded_row hrun hfits
  obtain ⟨row, hrow, hpolicy, hkind, hslot, hpath⟩ := h
  by_cases hid : later.id = attempt.id
  · -- Both are listed under one identifier, so they have one allocation.
    obtain ⟨old, hold, holdPolicy, holdKind, holdSlot, holdPath⟩ :=
      hfits.resolve_right fun hnone ↦ by
        rw [← hid, hrow] at hnone
        cases hnone
    rw [← hid, hrow, Option.some.injEq] at hold
    subst hold
    obtain ⟨written, hwritten, hnew⟩ := hlisted
    refine ⟨written, hid ▸ hwritten, ?_⟩
    rw [← hpolicy, ← hkind, ← hslot, ← hpath, holdPolicy, holdKind, holdSlot, holdPath]
    exact hnew
  · exact ⟨row, (hothers later.id hid).trans hrow, hpolicy, hkind, hslot, hpath⟩

theorem listed_of_read {row : PersistedAttempt} (hrow : row ∈ db.attempts.rows)
    (hread : attemptFromRow row = .ok attempt) :
    Listed db attempt ∧ stateOf db attempt.id = some attempt.state ∧ WellFormed attempt := by
  rw [attemptFromRow, mapError_eq_ok] at hread
  have hwf := PersistedAttempt.wellFormed_of_fromPersisted hread
  simp only [PersistedAttempt.fromPersisted, bind_eq_ok, pure_eq_ok] at hread
  obtain ⟨workspace, hworkspace, _, _, _, _, _, _, _, _, _, _, _, _, rfl⟩ := hread
  have hfound : db.attempts.find? row.id = some row := Table.mem_iff_find?.mp hrow
  obtain ⟨hkind, hslot⟩ := AttemptWorkspace.columns_of_from_persisted
    (mapError_eq_ok.mp hworkspace)
  refine ⟨⟨row, hfound, rfl, hkind.symm, hslot.symm, rfl⟩, ?_, hwf⟩
  show (db.attempts.find? row.id).map (·.state) = some row.state
  rw [hfound]
  rfl

end Journal

/-! ## Rules -/

/-- The call writes the journal, scrubs, or takes a new identifier. -/
def touches : LifecycleCall → Bool
  | .recordAttempt _ | .scrubWorkspace _ | .newAttemptId => true
  | _ => false

/-- An operation that does none of these. -/
def Quiet {α : Type} (p : LifecycleProgram α) : Prop :=
  (Contract.making (fun c ↦ touches c = false) fun _ _ ↦ True).wp p (fun _ _ ↦ True) ()

namespace Snapshots

section Rules

variable {α : Type} {s : Snapshots}

theorem requires_quiet {c : LifecycleCall} (hquiet : touches c = false) : s.Requires c := by
  cases c <;> trivial

theorem steps_quiet {c : LifecycleCall} (hquiet : touches c = false) {answer : c.Answer}
    {t : Snapshots} (hstep : s.Steps c answer t) : t = s := by
  unfold Snapshots.Steps at hstep
  split at hstep
  · cases hquiet
  · cases hquiet
  · exact hstep

theorem steps_self {c : LifecycleCall} (hquiet : touches c = false) {answer : c.Answer} :
    s.Steps c answer s := by
  unfold Snapshots.Steps
  split
  · cases hquiet
  · cases hquiet
  · rfl

theorem quiet_ask {c : LifecycleCall} {f : c.Answer → LifecycleProgram α}
    {Q : Except LifecycleError α → Snapshots → Prop} (hquiet : touches c = false)
    (hnext : ∀ answer, snapshotContract.wp (f answer) Q s) :
    snapshotContract.wp (call c >>= f) Q s := by
  refine (wp_bind _ _).mpr ⟨requires_quiet hquiet, fun answer t hstep ↦ ?_⟩
  rw [steps_quiet hquiet hstep]
  exact hnext answer

end Rules

end Snapshots

namespace Quiet

variable {α β : Type} {s : Snapshots}

theorem call {c : LifecycleCall} (hquiet : touches c = false) : Quiet (call c) :=
  ⟨hquiet, fun _ _ _ ↦ trivial⟩

theorem pure (value : α) : Quiet (Pure.pure value : LifecycleProgram α) :=
  trivial

theorem fail (error : LifecycleError) : Quiet (.fail error : LifecycleProgram α) :=
  trivial

theorem bind {p : LifecycleProgram α} {f : α → LifecycleProgram β} (hp : Quiet p)
    (hf : ∀ value, Quiet (f value)) : Quiet (p >>= f) := by
  refine (wp_bind _ _).mpr (wp_mono hp fun result _ _ ↦ ?_)
  cases result with
  | ok value => exact hf value
  | error error => trivial

theorem ofExcept {δ : Type} (wrap : δ → LifecycleError) (result : Except δ α) :
    Quiet (.ofExcept wrap result : LifecycleProgram α) := by
  cases result <;> trivial

theorem wp {p : LifecycleProgram α} (h : Quiet p)
    {Q : Except LifecycleError α → Snapshots → Prop} (hQ : ∀ result, Q result s) :
    snapshotContract.wp p Q s := by
  induction p with
  | done result => exact hQ result
  | ask c next ih =>
    refine ⟨Snapshots.requires_quiet h.1, fun answer t hstep ↦ ?_⟩
    rw [Snapshots.steps_quiet h.1 hstep]
    exact ih answer (h.2 answer () trivial)

theorem bind_wp {p : LifecycleProgram α} {f : α → LifecycleProgram β} (h : Quiet p)
    {Q : Except LifecycleError β → Snapshots → Prop}
    (hok : ∀ value, snapshotContract.wp (f value) Q s) (hfailed : ∀ error, Q (.error error) s) :
    snapshotContract.wp (p >>= f) Q s := by
  refine (wp_bind _ _).mpr (h.wp fun result ↦ ?_)
  cases result with
  | ok value => exact hok value
  | error error => exact hfailed error

end Quiet

namespace Snapshots

section Rules

variable {α β : Type} {s : Snapshots} {attempt : RunnerAttempt}

def Yields (result : Except LifecycleError RunnerAttempt) (t : Snapshots) : Prop :=
  ∀ attempt, result = .ok attempt → Listed t.db attempt

/-- Nothing is asked of the end. -/
def Ends {α : Type} (_ : Except LifecycleError α) (_ : Snapshots) : Prop :=
  True

theorem yields_bind_wp {p : LifecycleProgram RunnerAttempt}
    {f : RunnerAttempt → LifecycleProgram α} (hp : snapshotContract.wp p Yields s)
    (hf : ∀ attempt t, Listed t.db attempt → snapshotContract.wp (f attempt) Ends t) :
    snapshotContract.wp (p >>= f) Ends s := by
  refine (wp_bind _ _).mpr (wp_mono hp fun result t hresult ↦ ?_)
  cases result with
  | ok attempt => exact hf attempt t (hresult attempt rfl)
  | error error => trivial

theorem ends_bind_wp {p : LifecycleProgram α} {f : α → LifecycleProgram β}
    (hp : snapshotContract.wp p Ends s)
    (hf : ∀ value t, snapshotContract.wp (f value) Ends t) :
    snapshotContract.wp (p >>= f) Ends s := by
  refine (wp_bind _ _).mpr (wp_mono hp fun result t _ ↦ ?_)
  cases result with
  | ok value => exact hf value t
  | error error => trivial

theorem record_wp {Q : Except LifecycleError Unit → Snapshots → Prop}
    (hfits : Listed s.db attempt ∨ s.db.attempts.find? attempt.id = none)
    (hok : ∀ t : Snapshots, Listed t.db attempt →
      stateOf t.db attempt.id = some attempt.state → Q (.ok ()) t)
    (hfailed : ∀ error, Q (.error error) s) : snapshotContract.wp (record attempt) Q s := by
  refine (wp_bind _ _).mpr ⟨hfits, fun answer t hstep ↦ ?_⟩
  cases answer with
  | ok _ =>
    obtain ⟨hlisted, hstate, -⟩ := recorded_row hstep.1 hfits
    exact hok t hlisted hstate
  | error _ =>
    obtain rfl : t = s := hstep
    exact hfailed .journal

theorem edge_wp {op : AttemptOp} {Q : Except LifecycleError RunnerAttempt → Snapshots → Prop}
    (hok : op.Permits attempt → Q (.ok (op.effect attempt)) s)
    (hfailed : ∀ error, Q (.error error) s) : snapshotContract.wp (edge attempt op) Q s := by
  unfold edge
  cases hanswer : op.answer attempt with
  | error refusal => exact hfailed .transition
  | ok next =>
    obtain ⟨hpermits, rfl⟩ := AttemptOp.answer_iff.mp hanswer
    exact hok hpermits

theorem transition_wp {op : AttemptOp}
    {Q : Except LifecycleError RunnerAttempt → Snapshots → Prop} (hlisted : Listed s.db attempt)
    (hok : ∀ t : Snapshots, op.Permits attempt → Listed t.db (op.effect attempt) →
      stateOf t.db (op.effect attempt).id = some (op.effect attempt).state →
        Q (.ok (op.effect attempt)) t)
    (hfailed : ∀ error, Q (.error error) s) :
    snapshotContract.wp (transition attempt op) Q s := by
  have hnext : Listed s.db (op.effect attempt) := hlisted.of_same (.effect op attempt)
  refine (wp_bind _ _).mpr (edge_wp (fun hpermits ↦ ?_) hfailed)
  exact (wp_bind _ _).mpr (record_wp (.inl hnext) (fun t ↦ hok t hpermits) hfailed)

theorem advance_wp {op : Timestamp → AttemptOp}
    {Q : Except LifecycleError RunnerAttempt → Snapshots → Prop} (hlisted : Listed s.db attempt)
    (hok : ∀ now (t : Snapshots), (op now).Permits attempt →
      Listed t.db ((op now).effect attempt) →
      stateOf t.db ((op now).effect attempt).id = some ((op now).effect attempt).state →
      Q (.ok ((op now).effect attempt)) t)
    (hfailed : ∀ error, Q (.error error) s) :
    snapshotContract.wp (advance attempt op) Q s :=
  quiet_ask rfl fun now ↦ transition_wp hlisted (hok now) hfailed

end Rules

/-! ## Cleanup -/

section Cleanup

variable {s : Snapshots} {attempt : RunnerAttempt} {launcher : Launcher}

/-- A cleanup of the attempt may begin: what it scrubs before it writes the journal is its
own. -/
structure Cleanable (db : Database) (attempt : RunnerAttempt) : Prop where
  listed : Listed db attempt
  native : attempt.execution.isNative = true → attempt.outcome.isSome = true →
    MayScrub db attempt
  destroying : attempt.state = .destroying → MayScrub db attempt

theorem Cleanable.of_awaits {db : Database} (hlisted : Listed db attempt)
    (hawaits : AwaitsCleanup db attempt.id) : Cleanable db attempt where
  listed := hlisted
  native _ _ := .inl hawaits
  destroying _ := .inl hawaits

theorem scrub_ask {α : Type} {f : Except LifecycleError Unit → LifecycleProgram α}
    (hlisted : Listed s.db attempt) (hmay : MayScrub s.db attempt)
    (hnext : ∀ answer, snapshotContract.wp (f answer) Ends s) :
    snapshotContract.wp (call (.scrubWorkspace attempt) >>= f) Ends s := by
  refine (wp_bind _ _).mpr ⟨⟨hlisted, hmay⟩, fun answer t hstep ↦ ?_⟩
  obtain rfl : t = s := hstep
  exact hnext answer

theorem retire_wp {op : Timestamp → AttemptOp} (hlisted : Listed s.db attempt)
    (hmay : attempt.outcome.isSome = true → MayScrub s.db attempt) :
    snapshotContract.wp (retire attempt op) Ends s := by
  unfold retire
  cases houtcome : attempt.outcome with
  | none => trivial
  | some outcome =>
    have hscrub : MayScrub s.db attempt := hmay (by rw [houtcome]; rfl)
    refine quiet_ask rfl fun answer ↦ orRaise_bind_wp (fun _ _ ↦ ?_) fun _ ↦ trivial
    refine scrub_ask hlisted hscrub fun answer ↦ orRaise_bind_wp (fun _ _ ↦ ?_) fun _ ↦ trivial
    refine quiet_ask rfl fun answer ↦ orFail_bind_wp (fun _ _ ↦ ?_) fun _ ↦ trivial
    exact (wp_bind _ _).mpr
      (advance_wp hlisted (fun _ _ _ _ _ ↦ trivial) fun _ ↦ trivial)

theorem deferEnvironmentCleanup_wp {α : Type} (hlisted : Listed s.db attempt) :
    snapshotContract.wp (deferEnvironmentCleanup attempt : LifecycleProgram α) Ends s :=
  (wp_bind _ _).mpr (advance_wp hlisted (fun _ _ _ _ _ ↦ trivial) fun _ ↦ trivial)

theorem retireIsolated_wp (hlisted : Listed s.db attempt) (hmay : MayScrub s.db attempt) :
    snapshotContract.wp (retireIsolated launcher attempt) Ends s := by
  refine quiet_ask rfl fun resources ↦ ?_
  split_ifs
  · exact deferEnvironmentCleanup_wp hlisted
  · exact retire_wp hlisted fun _ ↦ hmay

theorem destroyStopped_wp (hlisted : Listed s.db attempt) (hmay : MayScrub s.db attempt) :
    snapshotContract.wp (destroyStopped launcher attempt) Ends s := by
  refine quiet_ask rfl fun destroyed ↦ ?_
  split
  · refine quiet_ask rfl fun seen ↦ ?_
    split
    · exact retireIsolated_wp hlisted hmay
    · exact deferEnvironmentCleanup_wp hlisted
  · exact deferEnvironmentCleanup_wp hlisted

theorem quiet_stopEnvironment (current : EnvironmentState) :
    Quiet (stopEnvironment attempt current) := by
  unfold stopEnvironment
  split_ifs
  · refine .bind (.call rfl) fun answer ↦ ?_
    split <;> exact .pure _
  · exact .pure _

theorem destroyEnvironment_wp (hlisted : Listed s.db attempt) (hmay : MayScrub s.db attempt)
    (current : EnvironmentState) :
    snapshotContract.wp (destroyEnvironment launcher attempt current) Ends s := by
  refine quiet_ask rfl fun owned ↦ ?_
  split
  · refine (quiet_stopEnvironment current).bind_wp (fun stopped ↦ ?_) fun _ ↦ trivial
    split_ifs
    · exact destroyStopped_wp hlisted hmay
    · exact deferEnvironmentCleanup_wp hlisted
  · exact deferEnvironmentCleanup_wp hlisted

theorem cleanCurrent_wp (hlisted : Listed s.db attempt) (hmay : MayScrub s.db attempt)
    (current : Except FailureReason EnvironmentState) :
    snapshotContract.wp (cleanCurrent launcher attempt current) Ends s := by
  cases current with
  | error _ => exact deferEnvironmentCleanup_wp hlisted
  | ok current =>
    unfold cleanCurrent
    dsimp only
    split_ifs
    · exact deferEnvironmentCleanup_wp hlisted
    · exact destroyEnvironment_wp hlisted hmay current
    · exact retireIsolated_wp hlisted hmay

theorem cleanDestroying_wp (hlisted : Listed s.db attempt) (hmay : MayScrub s.db attempt) :
    snapshotContract.wp (cleanDestroying launcher attempt) Ends s := by
  refine quiet_ask rfl fun resources ↦ ?_
  dsimp only
  split_ifs
  · exact deferEnvironmentCleanup_wp hlisted
  · exact deferEnvironmentCleanup_wp hlisted
  · have hquiet : Quiet (currentEnvironment attempt) := by
      unfold currentEnvironment
      split_ifs <;> exact .call rfl
    exact hquiet.bind_wp (cleanCurrent_wp hlisted hmay) fun _ ↦ trivial

theorem cleanIsolatedAttempt_wp (h : Cleanable s.db attempt) :
    snapshotContract.wp (cleanIsolatedAttempt launcher attempt) Ends s := by
  unfold cleanIsolatedAttempt
  split_ifs with hstate
  · exact cleanDestroying_wp h.listed (h.destroying hstate)
  · refine (wp_bind _ _).mpr (advance_wp h.listed (fun now t _ hlisted hwritten ↦ ?_)
      fun _ ↦ trivial)
    exact cleanDestroying_wp hlisted (.inl ⟨.destroying, hwritten, rfl, by decide⟩)

theorem cleanAttempt_wp (h : Cleanable s.db attempt) :
    snapshotContract.wp (cleanAttempt launcher attempt) Ends s := by
  unfold cleanAttempt
  cases hnative : attempt.execution.isNative with
  | false => exact cleanIsolatedAttempt_wp h
  | true =>
    refine quiet_ask rfl fun answer ↦ orFail_bind_wp (fun result _ ↦ ?_) fun _ ↦ trivial
    cases result with
    | deferred reason => trivial
    | destroyed => exact retire_wp h.listed (h.native hnative)

theorem cleanOrQuarantine_wp (h : Cleanable s.db attempt) :
    snapshotContract.wp (cleanOrQuarantine launcher attempt) Ends s := by
  refine quiet_ask rfl fun now ↦ quiet_ask rfl fun due ↦ ?_
  cases due with
  | false => trivial
  | true =>
    refine (wp_bind _ _).mpr ((wp_outcome _).mpr
      (wp_mono (cleanAttempt_wp h) fun result t _ ↦ ?_))
    dsimp only
    split
    · exact (Quiet.call rfl).wp fun _ ↦ trivial
    · exact (Quiet.call rfl).wp fun _ ↦ trivial
    · exact (Quiet.call rfl).wp fun _ ↦ trivial
    · trivial
    · exact (Quiet.call rfl).wp fun _ ↦ trivial

theorem concludeAndClean_wp (hlisted : Listed s.db attempt) (outcome : AttemptOutcome)
    (operation : Option String) :
    snapshotContract.wp (concludeAndClean launcher attempt outcome operation) Ends s := by
  refine (wp_bind _ _).mpr (advance_wp hlisted (fun now t _ hnext hwritten ↦ ?_)
    fun _ ↦ trivial)
  have hawaits : AwaitsCleanup t.db ((AttemptOp.conclude outcome now).effect attempt).id := by
    refine ⟨_, hwritten, AttemptOutcome.terminalState_isTerminal, ?_⟩
    show outcome.terminalState ≠ .cleaned
    cases outcome <;> exact AttemptState.noConfusion
  exact ends_bind_wp (cleanOrQuarantine_wp (.of_awaits hnext hawaits)) fun _ _ ↦ trivial

theorem reconcileCleaned_wp (hlisted : Listed s.db attempt)
    (hmay : attempt.workspace = .ephemeral → MayScrub s.db attempt) :
    snapshotContract.wp (reconcileCleaned attempt) Ends s := by
  unfold reconcileCleaned
  split_ifs with hworkspace
  · trivial
  · refine quiet_ask rfl fun present ↦ ?_
    split_ifs
    · trivial
    · refine quiet_ask rfl fun now ↦ quiet_ask rfl fun due ↦ ?_
      split_ifs
      · trivial
      · refine scrub_ask hlisted (hmay (not_not.mp hworkspace)) fun answer ↦ ?_
        split
        · exact quiet_ask rfl fun _ ↦ trivial
        · exact quiet_ask rfl fun _ ↦ trivial
        · trivial

end Cleanup

/-! ## Passes -/

section Passes

variable {s : Snapshots} {attempt : RunnerAttempt} {launcher : Launcher} {policy : ScalePolicy}

theorem quiet_knownRunnerId (observed : Option Nat) : Quiet (knownRunnerId attempt observed) := by
  unfold knownRunnerId
  split
  · exact .pure _
  · exact .call rfl

theorem quiet_writeRunnerId (runtime : String) (runnerId : Nat) :
    Quiet (writeRunnerId runtime runnerId) := by
  refine .bind (.call rfl) fun stored ↦ ?_
  split
  · split_ifs
    · exact .pure _
    · exact .fail _
  · exact .bind (.call rfl) fun answer ↦ .ofExcept _ answer

theorem quiet_deregisterRunner : Quiet (deregisterRunner policy attempt) := by
  refine .bind (quiet_knownRunnerId none) fun known ↦ ?_
  split
  · exact .pure _
  · exact .bind (.call rfl) fun _ ↦ .pure _

theorem quiet_deregisterListed (github : LifecycleGithubObservation) :
    Quiet (deregisterListed policy attempt github) := by
  unfold deregisterListed
  split_ifs
  · exact quiet_deregisterRunner
  · exact .pure _

theorem quiet_recoverRunnerId (github : LifecycleGithubObservation) :
    Quiet (recoverRunnerId attempt github) := by
  unfold recoverRunnerId
  split
  · exact .pure _
  · refine .bind (.call rfl) fun stored ↦ ?_
    split
    · exact .pure _
    · exact quiet_writeRunnerId _ _

theorem quiet_exitOutcome (alive : Bool) (github : LifecycleGithubObservation) :
    Quiet (exitOutcome attempt alive github) := by
  unfold exitOutcome
  split_ifs
  · exact .pure _
  · refine .bind (.call rfl) fun completed ↦ ?_
    split_ifs
    · exact .pure _
    · refine .bind (.call rfl) fun evidence ↦ ?_
      unfold exitEvidence
      split
      · exact .bind (quiet_knownRunnerId _) fun _ ↦ .pure _
      · exact .bind (quiet_knownRunnerId _) fun _ ↦ .pure _
      all_goals exact .pure _

theorem quiet_assignmentDropped (alive : Bool) (github : LifecycleGithubObservation) :
    Quiet (assignmentDropped attempt alive github) := by
  unfold assignmentDropped
  split_ifs
  · refine .bind (.call rfl) fun evidence ↦ ?_
    split <;> exact .pure _
  · exact .pure _

theorem quiet_observedRunnerId (github : LifecycleGithubObservation) :
    Quiet (observedRunnerId attempt github) := by
  unfold observedRunnerId
  split
  · exact .pure _
  · exact .call rfl

theorem quiet_completedUnlisted (live : Bool) (github : LifecycleGithubObservation) :
    Quiet (completedUnlisted attempt live github) := by
  unfold completedUnlisted
  split_ifs
  · exact .call rfl
  · exact .pure _

theorem transition_yields (hlisted : Listed s.db attempt) (op : AttemptOp) :
    snapshotContract.wp (transition attempt op) Yields s := by
  refine transition_wp hlisted (fun t _ hnext _ ↦ ?_) fun _ _ h ↦ nomatch h
  rintro _ ⟨⟩
  exact hnext

theorem advance_yields (hlisted : Listed s.db attempt) (op : Timestamp → AttemptOp) :
    snapshotContract.wp (advance attempt op) Yields s :=
  quiet_ask rfl fun now ↦ transition_yields hlisted (op now)

theorem pure_yields (hlisted : Listed s.db attempt) :
    snapshotContract.wp (pure attempt : LifecycleProgram RunnerAttempt) Yields s := by
  rintro _ ⟨⟩
  exact hlisted

theorem advanceIf_yields {condition : Prop} [Decidable condition] (hlisted : Listed s.db attempt)
    (op : Timestamp → AttemptOp) :
    snapshotContract.wp (advanceIf condition attempt op) Yields s := by
  unfold advanceIf
  split_ifs
  · exact advance_yields hlisted op
  · exact pure_yields hlisted

theorem advance_ends {α : Type} (hlisted : Listed s.db attempt) (op : Timestamp → AttemptOp)
    (value : α) : snapshotContract.wp (advance attempt op >>= fun _ ↦ pure value) Ends s :=
  yields_bind_wp (advance_yields hlisted op) fun _ _ _ ↦ trivial

theorem walkExited_yields (hlisted : Listed s.db attempt) (walkToBusy : Option Nat)
    (outcome : AttemptOutcome) (now : Timestamp) :
    snapshotContract.wp (walkExited attempt walkToBusy outcome now) Yields s := by
  unfold walkExited
  split
  · exact transition_yields hlisted _
  · split_ifs
    · exact transition_yields hlisted _
    · exact pure_yields hlisted

theorem concludeExited_wp (hlisted : Listed s.db attempt) (github : LifecycleGithubObservation)
    (walkToBusy : Option Nat) (outcome : AttemptOutcome) :
    snapshotContract.wp (concludeExited launcher policy attempt github walkToBusy outcome) Ends
      s := by
  refine (quiet_deregisterListed github).bind_wp (fun _ ↦ ?_) fun _ ↦ trivial
  refine quiet_ask rfl fun now ↦ ?_
  exact yields_bind_wp (walkExited_yields hlisted walkToBusy outcome now) fun _ _ hnext ↦
    concludeAndClean_wp hnext outcome none

theorem concludeLostJit_wp (hlisted : Listed s.db attempt) :
    snapshotContract.wp (concludeLostJit launcher policy attempt) Ends s := by
  refine yields_bind_wp (advanceIf_yields hlisted _) fun next t hnext ↦ ?_
  exact quiet_deregisterRunner.bind_wp (fun _ ↦ concludeAndClean_wp hnext _ _) fun _ ↦ trivial

theorem observeState_wp (hlisted : Listed s.db attempt) (github : LifecycleGithubObservation)
    (state : AttemptState) :
    snapshotContract.wp (observeState attempt github state) Ends s := by
  refine (quiet_knownRunnerId _).bind_wp (fun known ↦ ?_) fun _ ↦ trivial
  cases known with
  | none => trivial
  | some runnerId =>
    cases state with
    | jitReceived | idle | busy => exact advance_ends hlisted _ _
    | starting =>
      dsimp only
      split
      · trivial
      · exact advance_ends hlisted _ _
    | _ => trivial

theorem terminate_wp (hlisted : Listed s.db attempt) (payload : AttemptOutcome) :
    snapshotContract.wp (terminate launcher policy attempt payload) Ends s := by
  refine quiet_ask rfl fun answer ↦ orFail_bind_wp (fun _ _ ↦ ?_) fun _ ↦ trivial
  refine quiet_ask rfl fun answer ↦ orFail_bind_wp (fun ending _ ↦ ?_) fun _ ↦ trivial
  by_cases hending : ending = .stillRunning
  · rw [if_pos hending]
    trivial
  rw [if_neg hending]
  refine quiet_ask rfl fun answer ↦ orFail_bind_wp (fun seen _ ↦ ?_) fun _ ↦ trivial
  by_cases hseen : seen = .running
  · rw [if_pos hseen]
    trivial
  rw [if_neg hseen]
  refine quiet_deregisterRunner.bind_wp (fun _ ↦ ?_) fun _ ↦ trivial
  split_ifs
  · exact concludeAndClean_wp hlisted _ _
  · exact concludeAndClean_wp hlisted _ _

/-- The attempt is listed and was not concluded when the pass began. -/
structure Live (db : Database) (attempt : RunnerAttempt) : Prop where
  listed : Listed db attempt
  state : attempt.state.isTerminal = false

theorem Live.not_clean {db : Database} (h : Live db attempt) {observation : RecoveryObservation}
    {timeouts : RecoveryTimeouts} {now : Timestamp} :
    recoveryDecision attempt observation timeouts now ≠ .clean := by
  intro hclean
  have hterminal := terminal_of_decision_clean hclean
  rw [h.state] at hterminal
  cases hterminal

theorem settle_wp (h : Live s.db attempt) (alive : Bool) (github : LifecycleGithubObservation) :
    snapshotContract.wp (settle launcher policy attempt alive github) Ends s := by
  refine quiet_ask rfl fun now ↦ ?_
  split
  · trivial
  · trivial
  · trivial
  · trivial
  · exact absurd ‹_› h.not_clean
  · exact observeState_wp h.listed github _
  · refine (quiet_deregisterListed github).bind_wp (fun _ ↦ ?_) fun _ ↦ trivial
    exact concludeAndClean_wp h.listed _ _
  · exact terminate_wp h.listed _

theorem decideMarked_wp (h : Live s.db attempt) (alive : Bool)
    (github : LifecycleGithubObservation) (marked : Bool) :
    snapshotContract.wp (decideMarked launcher policy attempt alive github marked) Ends s := by
  unfold decideMarked
  split_ifs
  · refine quiet_deregisterRunner.bind_wp (fun _ ↦ ?_) fun _ ↦ trivial
    exact concludeAndClean_wp h.listed _ _
  · exact concludeLostJit_wp h.listed
  · exact settle_wp h alive github

theorem decideNative_wp (h : Live s.db attempt) (alive : Bool)
    (github : LifecycleGithubObservation) :
    snapshotContract.wp (decideNative launcher policy attempt alive github) Ends s := by
  refine (quiet_exitOutcome alive github).bind_wp (fun ended ↦ ?_) fun _ ↦ trivial
  split
  · exact concludeExited_wp h.listed github _ _
  · refine (quiet_assignmentDropped alive github).bind_wp (fun dropped ↦ ?_) fun _ ↦ trivial
    split_ifs
    · exact advance_ends h.listed _ _
    · exact quiet_ask rfl fun marked ↦ decideMarked_wp h alive github marked

theorem reconcileNative_wp (h : Live s.db attempt) :
    snapshotContract.wp (reconcileNative launcher policy attempt) Ends s := by
  refine quiet_ask rfl fun answer ↦ orFail_bind_wp (fun seen _ ↦ ?_) fun _ ↦ trivial
  refine quiet_ask rfl fun github ↦ ?_
  refine (quiet_recoverRunnerId github).bind_wp (fun _ ↦ ?_) fun _ ↦ trivial
  refine (wp_bind _ _).mpr ?_
  unfold recoverStarted
  split_ifs
  · refine quiet_ask rfl fun answer ↦ orFail_bind_wp (fun pid _ ↦ ?_) fun _ ↦ trivial
    cases pid with
    | none => exact decideNative_wp h _ github
    | some pid =>
      refine advance_wp h.listed (fun now t _ hnext _ ↦ ?_) fun _ ↦ trivial
      exact decideNative_wp ⟨hnext, rfl⟩ _ github
  · exact decideNative_wp h _ github

theorem settleIsolated_wp (h : Live s.db attempt) (live : Bool)
    (github : LifecycleGithubObservation) :
    snapshotContract.wp (settleIsolated launcher policy attempt live github) Ends s := by
  have hconclude (outcome : AttemptOutcome) : snapshotContract.wp (do
      deregisterListed policy attempt github
      concludeAndClean launcher attempt outcome (replacementOperation outcome)) Ends s := by
    refine (quiet_deregisterListed github).bind_wp (fun _ ↦ ?_) fun _ ↦ trivial
    exact concludeAndClean_wp h.listed _ _
  refine quiet_ask rfl fun now ↦ ?_
  split
  · trivial
  · trivial
  · trivial
  · trivial
  · exact absurd ‹_› h.not_clean
  · refine (quiet_observedRunnerId github).bind_wp (fun runnerId ↦ ?_) fun _ ↦ trivial
    split
    · trivial
    · unfold observeIsolated
      split
      · exact advance_ends h.listed _ _
      · exact advance_ends h.listed _ _
      · trivial
  · exact hconclude _
  · exact hconclude _

theorem decideIsolated_wp (h : Live s.db attempt) (live : Bool) :
    snapshotContract.wp (decideIsolated launcher policy attempt live) Ends s := by
  have hrecovered (next : RunnerAttempt) (t : Snapshots) (hnext : Live t.db next) :
      snapshotContract.wp (decideRecovered launcher policy next live) Ends t := by
    refine quiet_ask rfl fun github ↦ ?_
    refine (quiet_recoverRunnerId github).bind_wp (fun _ ↦ ?_) fun _ ↦ trivial
    refine (quiet_completedUnlisted live github).bind_wp (fun completed ↦ ?_) fun _ ↦ trivial
    split_ifs
    · exact concludeAndClean_wp hnext.listed _ _
    · exact settleIsolated_wp hnext live github
  refine (wp_bind _ _).mpr ?_
  unfold advanceIf
  split_ifs
  · refine advance_wp h.listed (fun now t _ hnext _ ↦ ?_) fun _ ↦ trivial
    exact hrecovered _ t ⟨hnext, rfl⟩
  · exact hrecovered attempt s h

theorem recoverIsolated_wp (h : Live s.db attempt) :
    snapshotContract.wp (recoverIsolated launcher policy attempt) Ends s := by
  refine quiet_ask rfl fun answer ↦ ?_
  split
  · trivial
  · dsimp only
    split_ifs
    · exact decideIsolated_wp h _
    · refine quiet_ask rfl fun owned ↦ ?_
      split
      · exact decideIsolated_wp h _
      · trivial

theorem reconcileOne_wp (hlisted : Listed s.db attempt)
    (hfresh : CleanupOp.scrubsFirst attempt = true → MayScrub s.db attempt) :
    snapshotContract.wp (reconcileOne launcher policy attempt) Ends s := by
  have hlive (hstate : ¬attempt.state.isTerminal = true) : Live s.db attempt :=
    ⟨hlisted, Bool.eq_false_iff.mpr hstate⟩
  unfold reconcileOne
  cases hnative : attempt.execution.isNative with
  | false =>
    show snapshotContract.wp (reconcileIsolatedOne launcher policy attempt) Ends s
    have hcleanable : Cleanable s.db attempt := by
      refine ⟨hlisted, fun h ↦ ?_, fun hstate ↦ hfresh ?_⟩
      · rw [hnative] at h
        cases h
      · simp [CleanupOp.scrubsFirst, hnative, hstate]
    unfold reconcileIsolatedOne
    split_ifs with hcleaned hterminal hearly
    · trivial
    · exact ends_bind_wp (cleanOrQuarantine_wp hcleanable) fun _ _ ↦ trivial
    · exact concludeAndClean_wp hlisted _ _
    · exact recoverIsolated_wp (hlive hterminal)
  | true =>
    rw [if_neg (by rw [Bool.not_true]; exact Bool.false_ne_true)]
    split_ifs with hcleaned hterminal
    · refine reconcileCleaned_wp hlisted fun hephemeral ↦ hfresh ?_
      simp [CleanupOp.scrubsFirst, hnative, hcleaned, hephemeral, AttemptState.isTerminal]
    · have hmay : MayScrub s.db attempt := by
        apply hfresh
        simp [CleanupOp.scrubsFirst, hnative, hterminal, hcleaned]
      exact ends_bind_wp (cleanOrQuarantine_wp ⟨hlisted, fun _ _ ↦ hmay, fun _ ↦ hmay⟩)
        fun _ _ ↦ trivial
    · exact reconcileNative_wp (hlive hterminal)

end Passes

/-! ## Launches -/

section Launch

variable {s : Snapshots} {attempt : RunnerAttempt} {launcher : Launcher} {policy : ScalePolicy}

theorem quiet_retryLoop {δ α : Type} {id : PolicyId} {body : LifecycleProgram (Except δ α)}
    {final : δ → Bool} {delay : δ → Nat → Elapsed} (hbody : Quiet body) (issued left : Nat) :
    Quiet (retryLoop id body final delay issued left) := by
  induction left generalizing issued with
  | zero => exact hbody
  | succ left ih =>
    refine .bind hbody fun answer ↦ ?_
    split
    · exact .pure _
    · split_ifs
      · exact .pure _
      · refine .bind (.call rfl) fun persists ↦ ?_
        split_ifs
        · exact .pure _
        · refine .bind (.call rfl) fun _ ↦ .bind (.call rfl) fun still ↦ ?_
          split_ifs
          · exact .pure _
          · exact ih (issued + 1)

theorem quiet_resolveEnvironment : Quiet (resolveEnvironment policy) := by
  refine .bind (.call rfl) fun answer ↦ ?_
  split
  · exact .fail _
  · split_ifs
    · exact .fail _
    · refine .bind ?_ fun _ ↦ .pure _
      unfold checkResolution
      split
      · exact .pure _
      · split_ifs
        · exact .fail _
        · exact .ofExcept _ _

/-- An attempt that is answered with something else is listed. -/
def YieldsWith {β : Type} (result : Except LifecycleError (RunnerAttempt × β)) (t : Snapshots) :
    Prop :=
  ∀ value, result = .ok value → Listed t.db value.1

theorem yieldsWith_error {β : Type} (error : LifecycleError) :
    YieldsWith (.error error : Except LifecycleError (RunnerAttempt × β)) s :=
  fun _ h ↦ nomatch h

theorem yieldsWith_pure {β : Type} {value : β} (hlisted : Listed s.db attempt) :
    YieldsWith (.ok (attempt, value)) s := by
  rintro _ ⟨⟩
  exact hlisted

theorem yieldsWith_bind_wp {α β : Type} {p : LifecycleProgram (RunnerAttempt × β)}
    {f : RunnerAttempt × β → LifecycleProgram α} (hp : snapshotContract.wp p YieldsWith s)
    (hf : ∀ attempt value t, Listed t.db attempt →
      snapshotContract.wp (f (attempt, value)) Ends t) :
    snapshotContract.wp (p >>= f) Ends s := by
  refine (wp_bind _ _).mpr (wp_mono hp fun result t hresult ↦ ?_)
  cases result with
  | ok value => exact hf value.1 value.2 t (hresult value rfl)
  | error error => trivial

theorem recordAllocation_wp (hnew : s.db.attempts.find? attempt.id = none)
    (labels : RoutingLabels) : snapshotContract.wp
      (recordAllocation attempt >>= fun _ ↦ pure (attempt, labels)) YieldsWith s := by
  refine (wp_bind _ _).mpr ((wp_bind _ _).mpr
    ⟨.inr hnew, fun answer t hstep ↦ ?_⟩)
  cases answer with
  | ok _ =>
    exact yieldsWith_pure (recorded_row hstep.1 (.inr hnew)).1
  | error refusal => cases refusal <;> exact yieldsWith_error _

theorem allocateAttempt_wp : snapshotContract.wp (allocateAttempt policy) YieldsWith s := by
  refine quiet_ask rfl fun answer ↦ orRaise_bind_wp (fun complete _ ↦ ?_) yieldsWith_error
  split_ifs
  · exact yieldsWith_error _
  · refine quiet_ask rfl fun capability ↦ ?_
    split_ifs
    · exact yieldsWith_error _
    · refine quiet_resolveEnvironment.bind_wp (fun resolved ↦ ?_) yieldsWith_error
      cases policy.routingLabels with
      | none => exact yieldsWith_error _
      | some labels =>
        refine (wp_bind _ _).mpr ⟨trivial, fun id t hstep ↦ ?_⟩
        obtain ⟨hnew, rfl⟩ : s.db.attempts.find? id = none ∧ t = s := hstep
        refine quiet_ask rfl fun answer ↦ orRaise_bind_wp (fun placement _ ↦ ?_) yieldsWith_error
        refine quiet_ask rfl fun now ↦ ?_
        cases resolved with
        | none => exact recordAllocation_wp hnew labels
        | some resolution =>
          refine (wp_bind _ _).mpr (quiet_ask rfl fun generation ↦ ?_)
          refine edge_wp (fun _ ↦ ?_) yieldsWith_error
          exact recordAllocation_wp hnew labels

theorem failLaunch_wp {α : Type} {Q : Except LifecycleError α → Snapshots → Prop}
    (hlisted : Listed s.db attempt) (reason : FailureReason)
    (hfailed : ∀ error t, Q (.error error) t) :
    snapshotContract.wp (failLaunch attempt reason : LifecycleProgram α) Q s :=
  (wp_bind _ _).mpr
    (advance_wp hlisted (fun _ t _ _ _ ↦ hfailed _ t) fun error ↦ hfailed error s)

theorem takePrepared_yields (hlisted : Listed s.db attempt) (prepared : PreparedEnvironment) :
    snapshotContract.wp (takePrepared launcher attempt prepared) Yields s := by
  have hfailed (error : LifecycleError) : Yields (.error error) s := fun _ h ↦ nomatch h
  unfold takePrepared
  split
  · split_ifs
    · exact hfailed _
    · refine (wp_bind _ _).mpr (edge_wp (fun _ ↦ ?_) hfailed)
      exact advance_yields (hlisted.of_same (.effect _ attempt)) .markPrepared
  · exact hfailed _

theorem prepareAttempt_wp (hlisted : Listed s.db attempt) :
    snapshotContract.wp (prepareAttempt launcher policy attempt) YieldsWith s := by
  refine (wp_bind _ _).mpr
    (wp_mono (advanceIf_yields hlisted _) fun result t hresult ↦ ?_)
  cases result with
  | error error => exact yieldsWith_error error
  | ok begun =>
    have hbegun : Listed t.db begun := hresult begun rfl
    refine quiet_ask rfl fun answer ↦ ?_
    split
    · exact failLaunch_wp hbegun _ fun error _ ↦ yieldsWith_error error
    · split_ifs
      · exact yieldsWith_pure hbegun
      · refine (wp_bind _ _).mpr
          (wp_mono (takePrepared_yields hbegun _) fun result u hresult ↦ ?_)
        cases result with
        | error error => exact yieldsWith_error error
        | ok named => exact yieldsWith_pure (hresult named rfl)

theorem registerAttempt_wp (hlisted : Listed s.db attempt) (labels : RoutingLabels) :
    snapshotContract.wp (registerAttempt launcher policy attempt labels) YieldsWith s := by
  refine (quiet_retryLoop (.call rfl) _ _).bind_wp (fun answer ↦ ?_) yieldsWith_error
  split
  · exact failLaunch_wp hlisted _ fun error _ ↦ yieldsWith_error error
  · refine (quiet_writeRunnerId _ _).bind_wp (fun _ ↦ ?_) yieldsWith_error
    exact (wp_bind _ _).mpr
      (advance_wp hlisted (fun _ _ _ hnext _ ↦ yieldsWith_pure hnext) yieldsWith_error)

theorem startNative_wp (hlisted : Listed s.db attempt) (prepared : PreparedEnvironment)
    (config : String) :
    snapshotContract.wp (startNative launcher policy prepared attempt config) Ends s := by
  refine (quiet_retryLoop (.call rfl) _ _).bind_wp (fun answer ↦ ?_) fun _ ↦ trivial
  split
  · exact wp_mono (advance_yields hlisted _) fun _ _ _ ↦ trivial
  · trivial
  · split
    · exact yields_bind_wp (advance_yields hlisted _) fun _ _ _ ↦ trivial
    · exact failLaunch_wp hlisted _ fun _ _ ↦ trivial

theorem startIsolated_wp (hlisted : Listed s.db attempt) (prepared : PreparedEnvironment)
    (config : String) :
    snapshotContract.wp (startIsolated launcher prepared attempt config) Ends s := by
  refine quiet_ask rfl fun answer ↦ ?_
  split
  · trivial
  · split_ifs
    · trivial
    · exact wp_mono (advance_yields hlisted _) fun _ _ _ ↦ trivial

theorem launchAttempt_wp : snapshotContract.wp (launchAttempt launcher policy) Ends s := by
  refine yieldsWith_bind_wp allocateAttempt_wp fun attempt labels t hlisted ↦ ?_
  refine (quiet_retryLoop (.call rfl) _ _).bind_wp (fun answer ↦ ?_) fun _ ↦ trivial
  split
  · exact failLaunch_wp hlisted _ fun _ _ ↦ trivial
  · refine quiet_ask rfl fun answer ↦ orRaise_bind_wp (fun _ _ ↦ ?_) fun _ ↦ trivial
    refine quiet_ask rfl fun answer ↦ orRaise_bind_wp (fun _ _ ↦ ?_) fun _ ↦ trivial
    refine yieldsWith_bind_wp (prepareAttempt_wp hlisted) fun readied prepared u hreadied ↦ ?_
    refine yieldsWith_bind_wp (registerAttempt_wp hreadied labels) fun ready config v hready ↦ ?_
    dsimp only
    split_ifs
    · exact startNative_wp hready prepared config
    · exact startIsolated_wp hready prepared config

end Launch

/-! ## Every run -/

/-- The unique index holds, and what was read is still listed. -/
structure Sound (s : Snapshots) : Prop where
  exclusive : LeasesExclusive s.db
  read : ∀ attempt ∈ s.read, Listed s.db attempt

theorem Sound.step {s t : Snapshots} (h : Sound s) {c : LifecycleCall} {answer : c.Answer}
    (hrequires : s.Requires c) (hstep : s.Steps c answer t) : Sound t := by
  unfold Snapshots.Steps at hstep
  split at hstep
  · obtain ⟨hrun, hread⟩ := hstep
    refine ⟨?_, fun earlier hearlier ↦ ?_⟩
    · obtain ⟨row, -, -, hfree, hnext⟩ := Store.recordAttempt_ok hrun
      rw [hnext]
      exact leases_exclusive_put h.exclusive hfree
    · rw [hread] at hearlier
      exact (h.read earlier hearlier).recorded hrun hrequires
  · rw [hstep.2]
    exact h
  · rw [hstep]
    exact h

theorem clean_wp {launcher : Launcher} {s : Snapshots} {id : AttemptId}
    (hfresh : (CleanupOp.clean id).Fresh s.db) :
    snapshotContract.wp (clean launcher s.db id) Ends s := by
  unfold clean
  cases hrow : s.db.attempts.find? id with
  | none => trivial
  | some row =>
    simp only [Option.mapM_some]
    cases hread : attemptFromRow row with
    | error error => trivial
    | ok attempt =>
      have hmem : row ∈ s.db.attempts.rows := (Table.find?_eq_some_iff.mp hrow).1
      obtain ⟨hlisted, hstate, hwf⟩ := listed_of_read hmem hread
      -- The journal has the state that was read.
      have hmay (hterminal : attempt.state.isTerminal = true)
          (hcleaned : attempt.state ≠ .cleaned) : MayScrub s.db attempt :=
        .inl ⟨attempt.state, hstate, hterminal, hcleaned⟩
      have hcleanable : Cleanable s.db attempt := by
        refine ⟨hlisted, fun hnative houtcome ↦ ?_, fun hdestroying ↦ ?_⟩
        · by_cases hcleaned : attempt.state = .cleaned
          · exact .inr (hfresh row attempt hrow hread hnative hcleaned)
          · exact hmay (hwf.outcome ▸ houtcome) hcleaned
        · refine hmay ?_ ?_
          · rw [hdestroying]
            rfl
          · rw [hdestroying]
            exact AttemptState.noConfusion
      refine (wp_bind _ _).mpr ((wp_outcome _).mpr
        (wp_mono (cleanAttempt_wp hcleanable) fun result t _ ↦ ?_))
      cases result with
      | error error => trivial
      | ok _ => exact (Quiet.call rfl).wp fun _ ↦ trivial

theorem program_wp {launcher : Launcher} {s : Snapshots} {op : CleanupOp} (h : Sound s)
    (hgiven : op.Given s.read) (hfresh : op.Fresh s.db) :
    snapshotContract.wp (op.program launcher s.db) Ends s := by
  cases op with
  | launch policy => exact ends_bind_wp launchAttempt_wp fun _ _ ↦ trivial
  | clean id => exact clean_wp hfresh
  | reconcileOne policy attempt =>
    obtain ⟨earlier, hearlier, hsame⟩ := hgiven
    have hlisted : Listed s.db attempt := (h.read earlier hearlier).of_same hsame
    exact ends_bind_wp (reconcileOne_wp hlisted hfresh) fun _ _ ↦ trivial

theorem Operated.sound {launcher : Launcher} {s : Snapshots} {p : OperationProgram}
    (h : Operated launcher (fun db op ↦ op.Fresh db) s p) :
    Sound s ∧ snapshotContract.wp p Ends s := by
  refine Contract.Reaches.sound ?_ ?_ (fun _ _ _ _ hs ↦ hs.step) h
  · rintro s _ ⟨hexclusive, hread, rfl⟩
    refine ⟨⟨hexclusive, fun attempt hattempt ↦ ?_⟩, trivial⟩
    rw [hread] at hattempt
    cases hattempt
  · rintro s t p hs (⟨row, hrow, attempt, hattempt, rfl, rfl⟩ | ⟨op, hgiven, hfresh, rfl, rfl⟩)
    · refine ⟨⟨hs.exclusive, ?_⟩, trivial⟩
      exact List.forall_mem_cons.mpr ⟨(listed_of_read hrow hattempt).1, hs.read⟩
    · exact ⟨hs, program_wp hs hgiven hfresh⟩

theorem Sound.owns {s : Snapshots} {attempt : RunnerAttempt} (h : Sound s)
    (hlisted : Listed s.db attempt) (hmay : MayScrub s.db attempt) : OwnsScrub s.db attempt where
  due := hmay
  slot := by
    intro slot hworkspace other hother hid hpolicy hlease hslot
    rcases hmay with ⟨state, hstate, -, hstill⟩ | ⟨hephemeral, -⟩
    · obtain ⟨row, hrow, hrowPolicy, hkind, hrowSlot, -⟩ := hlisted
      have hrowLease : row.leases = true := by
        unfold stateOf at hstate
        rw [hrow] at hstate
        cases hstate
        simp [PersistedAttempt.leases, hkind, hworkspace, AttemptWorkspace.kind, hstill]
      obtain ⟨hmem, hkey⟩ := Table.find?_eq_some_iff.mp hrow
      have hsame : other = row := h.exclusive other hother row hmem hlease hrowLease
        (hpolicy.trans hrowPolicy.symm) (hslot.trans hrowSlot.symm)
        (by rw [hslot, hworkspace]; rfl)
      exact hid (hsame ▸ hkey)
    · rw [hworkspace] at hephemeral
      cases hephemeral

end Snapshots

theorem Snapshots.Operated.answered {launcher : Launcher} {meets : Database → CleanupOp → Prop}
    {s : Snapshots} {p : OperationProgram} (h : Operated launcher meets s p) (c : LifecycleCall)
    (answer : c.Answer) {next : c.Answer → OperationProgram} (hask : p = .ask c next)
    (hquiet : touches c = false) : Operated launcher meets s (next answer) := by
  subst hask
  exact .call h answer (steps_self hquiet)

/-- A native attempt that completed a job in slot `s1` of policy 2. -/
def completedInSlot : RunnerAttempt :=
  AttemptOp.execAll [.jitReceived 1, .started 41 2, .assignedJob 7 3, .conclude .completedJob 4]
    (.allocateIn ⟨1⟩ ⟨2⟩ "/r/s1" (.persistentSlot ⟨1, one_nonZero⟩) 0)

def completedJournal : Database :=
  StoreOp.execAll .unix [.recordAttempt completedInSlot] Database.empty

def cleanedInSlot : RunnerAttempt :=
  (AttemptOp.clean 5).effect completedInSlot

def nextInSlot : RunnerAttempt :=
  .allocateIn ⟨3⟩ ⟨2⟩ "/r/s1" (.persistentSlot ⟨1, one_nonZero⟩) 6

def slotLeasedAgain : Database :=
  StoreOp.execAll .unix [.recordAttempt cleanedInSlot, .recordAttempt nextInSlot] Database.empty

end RunnerManager.Agent
