import RunnerManager.Agent.Launches
import RunnerManager.Agent.IsolatedCleanup

/-!
# Retiring an interrupted launch

A launch of an isolated attempt may be cut off, or fail, between any two of its effects, and its
preparation may leave a resource whose identity no journal row names. `Remnant` is the state
that such a launch leaves: the row and what exists of the allocation. `Interrupted` is what every
launch keeps of it, `reconcileIsolatedOne_wp` what one pass makes of it while every port answers,
and `recoverListed_wp` what the recovery at the start of the agent makes of it. Read
`interrupted_launch_retired` last.
-/

namespace RunnerManager.Agent

open RunnerManager.Domain
open Contract (wp_bind wp_mono wp_outcome_seq wp_runs wp_seq)

/-! ## Recovery at the start of the agent -/

inductive OwnershipError where
  | policyMismatch (attempt : AttemptId) (attemptPolicy policy : PolicyId)
  | foreignHost (policy : PolicyId) (owner agent : HostId)
deriving DecidableEq

/-- `authorize`: the attempt belongs to the policy, and the policy to this host. -/
def authorize (agentHost : HostId) (policy : ScalePolicy) (attempt : RunnerAttempt) :
    Except OwnershipError Unit :=
  if attempt.policyId ≠ policy.id then
    .error (.policyMismatch attempt.id attempt.policyId policy.id)
  else if policy.hostId ≠ agentHost then
    .error (.foreignHost policy.id policy.hostId agentHost)
  else .ok ()

section Startup

variable (launcher : Launcher) (policy : ScalePolicy)

/-- The environment that recovery fills in: the row names none, and exactly one resource carries
its allocation. -/
def recoveredEnvironment (owned : List EnvironmentIdentity) (attempt : RunnerAttempt) :
    Option String :=
  match attempt.execution, owned.filter (identitySameAllocation launcher.hostId attempt) with
  | .isolated _ none _ _, [.isolated _ _ _ environmentId _ _] =>
    if attempt.state = .cleaned then none else some environmentId
  | _, _ => none

/-- A preparation whose environment was found is complete. -/
def markRecovered (attempt : RunnerAttempt) : LifecycleProgram RunnerAttempt := do
  if attempt.state = .preparing then
    let now ← call .now
    edge attempt (.markPrepared now)
  else return attempt

/-- Journal the environment that was found for a row that names none. -/
def recoverIdentity (owned : List EnvironmentIdentity) (attempt : RunnerAttempt) :
    LifecycleProgram RunnerAttempt :=
  match recoveredEnvironment launcher owned attempt with
  | none => return attempt
  | some environmentId => do
    let named ← edge attempt (.preparedEnvironment environmentId)
    let marked ← markRecovered named
    record marked
    return marked

/-- One round of the loop of `recover_startup`, over an attempt whose policy is known. -/
def recoverAttempt (owned : List EnvironmentIdentity) (attempt : RunnerAttempt) :
    LifecycleProgram ReconcileProgress := do
  .ofExcept (fun _ ↦ .journal) (authorize launcher.hostId policy attempt)
  let attempt ← recoverIdentity launcher owned attempt
  reconcileOne launcher policy attempt

/-- `recover_startup` as far as it concerns one listed attempt: what the host owns is enumerated
before the loop. -/
def recoverListed (attempt : RunnerAttempt) : LifecycleProgram ReconcileProgress := do
  let owned ← call (.enumerateOwned launcher.hostId)
  recoverAttempt launcher policy owned attempt

end Startup

/-! ## The row and the resource -/

/-- What exists of an allocation. Its id is one that the journal may hold. -/
structure Resource where
  environmentId : String
  valid : nonSecretId environmentId = true
deriving DecidableEq

/-- The journal's row of an isolated attempt, and the resource of its allocation if there is
one. -/
structure Remnant where
  journal : RunnerAttempt
  resource : Option Resource

def Resource.listed (host : HostId) (attempt : RunnerAttempt) (resource : Resource) :
    List EnvironmentIdentity :=
  match attempt.execution with
  | .isolated kind _ image generation =>
    [.isolated host attempt.id kind resource.environmentId image generation]
  | .native _ => []

namespace Remnant

/-- An enumeration shows the resource of the allocation, and nothing else of it. -/
def Shows (host : HostId) (s : Remnant) (resources : List EnvironmentIdentity) : Prop :=
  resources.filter (identitySameAllocation host s.journal) =
    s.resource.elim [] (Resource.listed host s.journal)

/-- The resource, if there is one, is the one of that id. -/
def Names (s : Remnant) (environmentId : String) : Prop :=
  ∀ resource, s.resource = some resource → resource.environmentId = environmentId

/-- Nothing exists that the row does not name. -/
def Identified (s : Remnant) : Prop :=
  s.resource = none ∨ hasIdentity s.journal = true

/-- The slot is free again and nothing is left of the environment. -/
structure Retired (s : Remnant) : Prop where
  cleaned : s.journal.state = .cleaned
  removed : s.resource = none
  isolated : s.journal.execution.isNative = false
  wellFormed : WellFormed s.journal

theorem Retired.released {s : Remnant} (h : s.Retired) :
    s.journal.countsAgainstCapacity = false := by
  unfold RunnerAttempt.countsAgainstCapacity
  rw [h.cleaned, h.isolated]
  rfl

end Remnant

/-- The states of a launch and of the cleanup of a failed one. -/
def interruptible : AttemptState → Bool
  | .allocated | .preparing | .prepared | .jitReceived | .starting | .failed | .destroying
  | .cleanupDeferred => true
  | _ => false

theorem concludable {state : AttemptState} (hphase : interruptible state = true)
    (hlive : state.isTerminal = false) :
    state ∈ AttemptState.concludableFrom ∧ state.canTransitionTo .failed = true := by
  revert hphase hlive
  cases state <;> decide

/-- What a launch leaves wherever it ends: a readable row of the policy whose environment, if it
names one, is the resource. -/
structure Interrupted (owner : PolicyId) (s : Remnant) : Prop where
  owned : s.journal.policyId = owner
  isolated : s.journal.execution.isNative = false
  wellFormed : WellFormed s.journal
  known : s.journal.EnvironmentKnown
  phase : interruptible s.journal.state = true
  named : ∀ environmentId, s.journal.execution.environmentId = some environmentId →
    s.Names environmentId

/-! ## Launching -/

def preparedId : Except FailureReason PreparedEnvironment → Option String
  | .ok ⟨_, some (.isolated _ _ _ environmentId _ _)⟩ => some environmentId
  | _ => none

/-- What a port may do to the allocation during a launch. A write that is refused may have
happened. A preparation may leave a resource whatever it answers, but one that answers an
environment leaves no other. The environment may disappear at any time. -/
def LaunchStep (s : Remnant) (c : LifecycleCall) (answer : c.Answer) (t : Remnant) : Prop :=
  match c, answer with
  | .recordAttempt attempt, .ok _ => t = { s with journal := attempt }
  | .recordAttempt attempt, .error _ => t = s ∨ t = { s with journal := attempt }
  | .prepare _ _, answer => t.journal = s.journal ∧
      ∀ environmentId, preparedId answer = some environmentId → t.Names environmentId
  | _, _ => t.journal = s.journal ∧ (t.resource = s.resource ∨ t.resource = none)

/-- A launch under one policy. What it writes is a row that can be retired, and it prepares only
where no environment is named. -/
def remnantContract (owner : PolicyId) : Contract LifecycleCall LifecycleCall.Answer Remnant where
  requires s c :=
    match c with
    | .recordAttempt attempt => Interrupted owner { s with journal := attempt }
    | .prepare _ _ => s.journal.execution.environmentId = none
    | _ => True
  steps := LaunchStep

theorem environmentId_withEnvironment {execution : AttemptExecution} (environmentId : String)
    (h : execution.isNative = false) :
    (execution.withEnvironment environmentId).environmentId = some environmentId := by
  cases execution with
  | native pid => cases h
  | isolated kind id image generation => rfl

namespace Interrupted

variable {owner : PolicyId} {s t : Remnant}

theorem not_cleaned (h : Interrupted owner s) : s.journal.state ≠ .cleaned := by
  intro hcleaned
  have hphase := h.phase
  rw [hcleaned] at hphase
  cases hphase

theorem holds (h : Interrupted owner s) : s.journal.countsAgainstCapacity = true := by
  unfold RunnerAttempt.countsAgainstCapacity
  rw [h.isolated]
  simp [h.not_cleaned]

theorem lost (h : Interrupted owner s) (hjournal : t.journal = s.journal)
    (hresource : t.resource = s.resource ∨ t.resource = none) : Interrupted owner t := by
  obtain ⟨howned, hisolated, hwf, hknown, hphase, hnamed⟩ := h
  rw [← hjournal] at howned hisolated hwf hknown hphase hnamed
  refine ⟨howned, hisolated, hwf, hknown, hphase, fun environmentId hid resource hexists ↦ ?_⟩
  rcases hresource with hsame | hgone
  · exact hnamed environmentId hid resource (hsame ▸ hexists)
  · rw [hgone] at hexists
    cases hexists

theorem unnamed (h : Interrupted owner s) (hjournal : t.journal = s.journal)
    (hnone : s.journal.execution.environmentId = none) : Interrupted owner t := by
  obtain ⟨howned, hisolated, hwf, hknown, hphase, -⟩ := h
  rw [← hjournal] at howned hisolated hwf hknown hphase hnone
  refine ⟨howned, hisolated, hwf, hknown, hphase, fun environmentId hid ↦ ?_⟩
  rw [hnone] at hid
  cases hid

theorem moved (h : Interrupted owner s) {op : AttemptOp} (hop : op.Permits s.journal)
    (hjit : ¬ op.JitWithoutEnvironment s.journal)
    (hsame : (op.effect s.journal).execution = s.journal.execution)
    (hphase : interruptible (op.effect s.journal).state = true) :
    Interrupted owner { s with journal := op.effect s.journal } where
  owned := (SameAllocation.effect op s.journal).policyId.trans h.owned
  isolated := (congrArg AttemptExecution.isNative hsame).trans h.isolated
  wellFormed := h.wellFormed.effect hop
  known := AttemptOp.environment_known_effect h.known hop hjit
  phase := hphase
  named := by
    intro environmentId hid
    exact h.named environmentId ((congrArg AttemptExecution.environmentId hsame).symm.trans hid)

theorem identified (h : Interrupted owner s) {environmentId : String}
    (hnames : s.Names environmentId)
    (hop : (AttemptOp.preparedEnvironment environmentId).Permits s.journal) :
    Interrupted owner
      { s with journal := (AttemptOp.preparedEnvironment environmentId).effect s.journal } where
  owned := h.owned
  isolated := (WellFormed.withEnvironment_isolated environmentId h.isolated).1
  wellFormed := h.wellFormed.effect hop
  known := by
    refine AttemptOp.environment_known_effect h.known hop ?_
    rintro ⟨⟨now, hjit⟩, -⟩
    cases hjit
  phase := h.phase
  named := by
    intro found hfound
    have hid := (environmentId_withEnvironment environmentId h.isolated).symm.trans hfound
    obtain rfl : environmentId = found := Option.some.inj hid
    exact hnames

end Interrupted

/-- A launch works on the journalled row. -/
structure Working (owner : PolicyId) (s : Remnant) (attempt : RunnerAttempt) : Prop where
  journal : s.journal = attempt
  interrupted : Interrupted owner s

section Launching

variable {owner : PolicyId} {s t : Remnant} {attempt : RunnerAttempt} {launcher : Launcher}
  {policy : ScalePolicy}

namespace Working

theorem quiet (h : Working owner s attempt)
    (hstep : t.journal = s.journal ∧ (t.resource = s.resource ∨ t.resource = none)) :
    Working owner t attempt :=
  ⟨hstep.1.trans h.journal, h.interrupted.lost hstep.1 hstep.2⟩

theorem advance_wp (h : Working owner s attempt) {op : Timestamp → AttemptOp}
    {Q : Except LifecycleError RunnerAttempt → Remnant → Prop}
    (hjit : ∀ now, ¬ (op now).JitWithoutEnvironment attempt)
    (hsame : ∀ now, ((op now).effect attempt).execution = attempt.execution)
    (hphase : ∀ now, interruptible ((op now).effect attempt).state = true)
    (hok : ∀ t now, Working owner t ((op now).effect attempt) →
      Q (.ok ((op now).effect attempt)) t)
    (hfailed : ∀ error t, Q (.error error) t) :
    (remnantContract owner).wp (advance attempt op) Q s := by
  refine ⟨trivial, fun now t hstep ↦ ?_⟩
  obtain ⟨rfl, hinterrupted⟩ := h.quiet hstep
  show (remnantContract owner).wp (transition t.journal (op now)) Q t
  unfold transition edge
  cases hanswer : (op now).answer t.journal with
  | error refusal => exact hfailed _ _
  | ok next =>
    obtain ⟨hpermits, rfl⟩ := AttemptOp.answer_iff.mp hanswer
    have hnext := hinterrupted.moved hpermits (hjit now) (hsame now) (hphase now)
    refine ⟨hnext, fun answer u hwritten ↦ ?_⟩
    cases answer with
    | error _ => exact hfailed _ _
    | ok _ =>
      obtain rfl : u = _ := hwritten
      exact hok _ now ⟨rfl, hnext⟩

theorem failLaunch_wp (h : Working owner s attempt) {α : Type} {reason : FailureReason}
    {Q : Except LifecycleError α → Remnant → Prop} (hfailed : ∀ error t, Q (.error error) t) :
    (remnantContract owner).wp (failLaunch attempt reason) Q s := by
  refine (wp_bind _ _).mpr (h.advance_wp ?_ (fun _ ↦ rfl) (fun _ ↦ rfl) ?_ ?_)
  · rintro now ⟨⟨_, hjit⟩, _⟩
    cases hjit
  · intro t now _
    exact hfailed _ _
  · exact hfailed

/-- The tries of a call that keeps the row keep it. -/
theorem retrying_wp (h : Working owner s attempt) {δ α : Type}
    {tried : LifecycleProgram (Except δ α)} {final : δ → Bool} {delay : δ → Option Elapsed}
    (htried : ∀ t, Working owner t attempt →
      (remnantContract owner).wp tried (fun _ u ↦ Working owner u attempt) t) :
    (remnantContract owner).wp (retrying launcher policy tried final delay)
      (fun _ t ↦ Working owner t attempt) s := by
  unfold retrying
  generalize launcher.retry.limit - 1 = left
  generalize 1 = issued
  induction left generalizing issued s with
  | zero => exact htried s h
  | succ left ih =>
    refine wp_seq (htried s h) (fun result t ht ↦ ?_) fun _ _ ht ↦ ht
    cases result with
    | ok value => exact ht
    | error failure =>
      show (remnantContract owner).wp (if _ then _ else _) _ t
      split_ifs
      · exact ht
      refine ⟨trivial, fun persists u hstep ↦ ?_⟩
      have hu := ht.quiet hstep
      cases persists with
      | false => exact hu
      | true =>
        refine ⟨trivial, fun _ v hstep ↦ ⟨trivial, fun still w hstep' ↦ ?_⟩⟩
        have hw := (hu.quiet hstep).quiet hstep'
        cases still with
        | false => exact hw
        | true => exact ih hw (issued + 1)

theorem writeRunnerId_wp (h : Working owner s attempt) {runtime : String} {runnerId : Nat} :
    (remnantContract owner).wp (writeRunnerId runtime runnerId)
      (fun _ t ↦ Working owner t attempt) s := by
  refine ⟨trivial, fun stored t hstep ↦ ?_⟩
  have ht := h.quiet hstep
  cases stored with
  | some existing =>
    show (remnantContract owner).wp (if _ then _ else _) _ t
    split_ifs
    · exact ht
    · exact ht
  | none =>
    refine ⟨trivial, fun answer u hstep ↦ ?_⟩
    have hu := ht.quiet hstep
    cases answer <;> exact hu

theorem prepared (h : Working owner s attempt) {environmentId : String} {now : Timestamp}
    {named next : RunnerAttempt} (hnames : s.Names environmentId)
    (hnamed : (AttemptOp.preparedEnvironment environmentId).answer attempt = .ok named)
    (hnext : (AttemptOp.markPrepared now).answer named = .ok next) :
    Interrupted owner { s with journal := next } ∧ next.execution.environmentId.isSome = true := by
  obtain ⟨rfl, hinterrupted⟩ := h
  obtain ⟨hpermits, rfl⟩ := AttemptOp.answer_iff.mp hnamed
  obtain ⟨hmark, rfl⟩ := AttemptOp.answer_iff.mp hnext
  refine ⟨(hinterrupted.identified hnames hpermits).moved hmark ?_ rfl rfl, hmark.1⟩
  rintro ⟨⟨_, hjit⟩, _⟩
  cases hjit

theorem takePrepared_wp (h : Working owner s attempt) {prepared : PreparedEnvironment}
    (hnames : ∀ environmentId, preparedId (.ok prepared) = some environmentId →
      s.Names environmentId)
    {Q : Except LifecycleError RunnerAttempt → Remnant → Prop}
    (hok : ∀ t next, Working owner t next → next.execution.environmentId.isSome = true →
      Q (.ok next) t)
    (hfailed : ∀ error t, Q (.error error) t) :
    (remnantContract owner).wp (takePrepared launcher attempt prepared) Q s := by
  obtain ⟨id, identity⟩ := prepared
  unfold takePrepared
  split
  · next host ownerAttempt kind environmentId image generation hidentity =>
    obtain rfl : identity = _ := hidentity
    split_ifs
    · exact hfailed _ _
    · unfold edge
      cases hnamed : (AttemptOp.preparedEnvironment environmentId).answer attempt with
      | error _ => exact hfailed _ _
      | ok named =>
        refine ⟨trivial, fun now t hstep ↦ ?_⟩
        have ht := h.quiet hstep
        have htnames : t.Names environmentId := by
          intro resource hexists
          rcases hstep.2 with hkept | hgone
          · exact hnames environmentId rfl resource (hkept ▸ hexists)
          · rw [hgone] at hexists
            cases hexists
        show (remnantContract owner).wp (transition named (.markPrepared now)) Q t
        unfold transition edge
        cases hprepared : (AttemptOp.markPrepared now).answer named with
        | error _ => exact hfailed _ _
        | ok next =>
          have hnext := ht.prepared htnames hnamed hprepared
          refine ⟨hnext.1, fun answer u hwritten ↦ ?_⟩
          cases answer with
          | error _ => exact hfailed _ _
          | ok _ =>
            obtain rfl : u = _ := hwritten
            exact hok _ _ ⟨rfl, hnext.1⟩ hnext.2
  · exact hfailed _ _

theorem prepareAttempt_wp (h : Working owner s attempt)
    (hunnamed : attempt.execution.environmentId = none)
    {Q : Except LifecycleError (RunnerAttempt × PreparedEnvironment) → Remnant → Prop}
    (hok : ∀ t next prepared, Working owner t next →
      next.execution.environmentId.isSome = true → Q (.ok (next, prepared)) t)
    (hfailed : ∀ error t, Q (.error error) t) :
    (remnantContract owner).wp (prepareAttempt launcher policy attempt) Q s := by
  have hisolated : attempt.execution.isNative = false := h.journal ▸ h.interrupted.isolated
  unfold prepareAttempt advanceIf
  rw [hisolated]
  refine (wp_bind _ _).mpr (h.advance_wp ?_ (fun _ ↦ rfl) (fun _ ↦ rfl) ?_ hfailed)
  · rintro now ⟨⟨_, hjit⟩, _⟩
    cases hjit
  intro t now ht
  have hnone : t.journal.execution.environmentId = none := by
    rw [ht.journal]
    exact hunnamed
  refine ⟨hnone, ?_⟩
  rintro answer u ⟨hjournal, hnames⟩
  have hu : Working owner u ((AttemptOp.beginPrepare now).effect attempt) :=
    ⟨hjournal.trans ht.journal, ht.interrupted.unnamed hjournal hnone⟩
  cases answer with
  | error reason => exact hu.failLaunch_wp hfailed
  | ok prepared =>
    show (remnantContract owner).wp (takePrepared launcher _ prepared >>= _) Q u
    exact (wp_bind _ _).mpr (hu.takePrepared_wp hnames
      (fun v last hv hid ↦ hok v last prepared hv hid) hfailed)

theorem registerAttempt_wp (h : Working owner s attempt)
    (hnamed : attempt.execution.environmentId.isSome = true) {labels : RoutingLabels}
    {Q : Except LifecycleError (RunnerAttempt × String) → Remnant → Prop}
    (hok : ∀ t next config, Working owner t next → Q (.ok (next, config)) t)
    (hfailed : ∀ error t, Q (.error error) t) :
    (remnantContract owner).wp (registerAttempt launcher policy attempt labels) Q s := by
  unfold registerAttempt
  refine wp_seq (h.retrying_wp fun t ht ↦ ?_) ?_ fun error t _ ↦ hfailed error t
  · exact ⟨trivial, fun answer u hstep ↦ ht.quiet hstep⟩
  rintro (failure | registration) t ht
  · exact ht.failLaunch_wp hfailed
  show (remnantContract owner).wp (writeRunnerId _ _ >>= _) Q t
  refine wp_seq ht.writeRunnerId_wp (fun _ u hu ↦ ?_) fun error u _ ↦ hfailed error u
  refine (wp_bind _ _).mpr (hu.advance_wp ?_ (fun _ ↦ rfl) (fun _ ↦ rfl)
    (fun v now hv ↦ hok v _ _ hv) hfailed)
  rintro now ⟨_, _, hnone⟩
  rw [hnone] at hnamed
  cases hnamed

theorem startIsolated_wp (h : Working owner s attempt) {prepared : PreparedEnvironment}
    {config : String} : (remnantContract owner).wp
      (startIsolated launcher prepared attempt config) (fun _ _ ↦ True) s := by
  refine ⟨trivial, fun answer t hstep ↦ ?_⟩
  have ht := h.quiet hstep
  cases answer with
  | error _ => trivial
  | ok started =>
    show (remnantContract owner).wp (if _ then _ else _) _ t
    split_ifs
    · trivial
    · refine ht.advance_wp ?_ (fun _ ↦ rfl) (fun _ ↦ rfl) (fun _ _ _ ↦ trivial)
        fun _ _ ↦ trivial
      rintro now ⟨⟨_, hjit⟩, _⟩
      cases hjit

end Working

/-- An isolated attempt as its allocation leaves it. -/
structure Allocated (attempt : RunnerAttempt) : Prop extends Fresh attempt where
  isolated : attempt.execution.isNative = false
  unnamed : attempt.execution.environmentId = none

theorem Allocated.interrupted (h : Allocated attempt) :
    Interrupted attempt.policyId ⟨attempt, none⟩ where
  owned := rfl
  isolated := h.isolated
  wellFormed := h.wellFormed
  known := by
    intro hneeds
    rw [h.state] at hneeds
    cases hneeds
  phase := by
    show interruptible attempt.state = true
    rw [h.state]
    rfl
  named := by
    intro environmentId hid
    cases h.unnamed.symm.trans hid

theorem launchSteps_interruptible (h : Allocated attempt) (labels : RoutingLabels) :
    (remnantContract attempt.policyId).wp (launchSteps launcher policy attempt labels)
      (fun _ _ ↦ True) ⟨attempt, none⟩ := by
  have hstart : Working attempt.policyId ⟨attempt, none⟩ attempt := ⟨rfl, h.interrupted⟩
  unfold launchSteps
  refine wp_seq (hstart.retrying_wp fun t ht ↦ ?_) ?_ fun _ _ _ ↦ trivial
  · exact ⟨trivial, fun answer u hstep ↦ ht.quiet hstep⟩
  rintro (reason | version) t ht
  · exact ht.failLaunch_wp fun _ _ ↦ trivial
  refine ⟨trivial, fun pruned u hstep ↦ ?_⟩
  have hu := ht.quiet hstep
  refine orRaise_bind_wp (fun _ _ ↦ ⟨trivial, fun remembered v hstep ↦ ?_⟩) fun _ ↦ trivial
  have hv := hu.quiet hstep
  refine orRaise_bind_wp (fun _ _ ↦ ?_) fun _ ↦ trivial
  refine (wp_bind _ _).mpr (hv.prepareAttempt_wp h.unnamed ?_ fun _ _ ↦ trivial)
  intro w next prepared hw hnamed
  refine (wp_bind _ _).mpr (hw.registerAttempt_wp hnamed ?_ fun _ _ ↦ trivial)
  intro x last config hx
  have hisolated : last.execution.isNative = false := hx.journal ▸ hx.interrupted.isolated
  show (remnantContract attempt.policyId).wp (if last.execution.isNative then _ else _) _ x
  rw [hisolated]
  exact hx.startIsolated_wp

theorem Interrupted.kept (h : Interrupted owner s) {c : LifecycleCall} {answer : c.Answer}
    (hrequires : (remnantContract owner).requires s c) (hstep : LaunchStep s c answer t) :
    Interrupted owner t := by
  cases c with
  | recordAttempt attempt =>
    cases answer with
    | ok _ =>
      obtain rfl : t = _ := hstep
      exact hrequires
    | error _ =>
      obtain rfl | rfl : t = s ∨ t = _ := hstep
      · exact h
      · exact hrequires
  | prepare attempt policy =>
    obtain ⟨hjournal, -⟩ : t.journal = s.journal ∧ _ := hstep
    exact h.unnamed hjournal hrequires
  | _ => exact h.lost hstep.1 hstep.2

theorem Allocated.interrupted_of_runs (h : Allocated attempt) {labels : RoutingLabels}
    {rest : LifecycleProgram RunnerAttempt}
    (hruns : (remnantContract attempt.policyId).Runs (launchSteps launcher policy attempt labels)
      ⟨attempt, none⟩ rest s) : Interrupted attempt.policyId s :=
  Contract.invariant_of_runs (fun _ _ _ _ hkept hrequires hstep ↦ hkept.kept hrequires hstep)
    (launchSteps_interruptible h labels) h.interrupted hruns

end Launching

/-! ## Passes while every port answers -/

/-- The deadlines of a state that was entered at `since` have passed. -/
def Late (timeouts : RecoveryTimeouts) (since now : Timestamp) : Prop :=
  timeouts.jitHandoff ≤ now - since ∧ timeouts.startup ≤ now - since

/-- What the ports answer once they answer: the provider says of the resource what is so and does
what it is asked to, GitHub answers `github`, and nothing else fails. -/
def PassStep (launcher : Launcher) (github : LifecycleGithubObservation) (since : Timestamp)
    (s : Remnant) (c : LifecycleCall) (answer : c.Answer) (t : Remnant) : Prop :=
  match c, answer with
  | .now, now => t = s ∧ Late launcher.timeouts since now
  | .recordAttempt attempt, answer => t = { s with journal := attempt } ∧ answer = .ok ()
  | .inspect _, answer | .recover _, answer => t = s ∧
      ∃ state, answer = .ok state ∧ (state = .missing ↔ s.resource = none)
  | .owns attempt, answer => t = s ∧
      answer = .ok ((s.resource.elim [] (Resource.listed launcher.hostId attempt)).any
        (identityMatchesIntent launcher.hostId attempt))
  | .stop _, answer => t = s ∧ answer = .ok .stopped
  | .destroy _, answer => t = { s with resource := none } ∧ answer = .ok .destroyed
  | .enumerateOwned host, resources => t = s ∧ s.Shows host resources
  | .observe .., answer => t = s ∧ answer = github
  | .cleanupDue .., due => t = s ∧ due = true
  | .preserveDiagnostics .., answer | .scrubWorkspace _, answer => t = s ∧ answer = .ok ()
  | .releasePackage _, answer => t = s ∧ answer = .ok ()
  | _, _ => t = s

/-- A pass asks the provider about the journalled row. -/
def passContract (launcher : Launcher) (github : LifecycleGithubObservation) (since : Timestamp) :
    Contract LifecycleCall LifecycleCall.Answer Remnant where
  requires s c :=
    match c with
    | .inspect attempt | .recover attempt | .owns attempt | .stop attempt | .destroy attempt =>
      attempt = s.journal
    | _ => True
  steps := PassStep launcher github since

theorem Resource.listed_same (resource : Resource) (host : HostId) (attempt : RunnerAttempt) :
    (resource.listed host attempt).filter (identitySameAllocation host attempt) =
      resource.listed host attempt := by
  unfold Resource.listed
  cases hexecution : attempt.execution with
  | native pid => rfl
  | isolated kind id image generation => simp [identitySameAllocation, hexecution]

theorem passContract_answers {launcher : Launcher} {github : LifecycleGithubObservation}
    {since : Timestamp} (s : Remnant) (c : LifecycleCall) :
    ∃ answer t, (passContract launcher github since).steps s c answer t := by
  have hseen : ∃ state : EnvironmentState, state = .missing ↔ s.resource = none := by
    cases s.resource with
    | none => exact ⟨.missing, by simp⟩
    | some resource => exact ⟨.running, by simp⟩
  obtain ⟨seen, hseen⟩ := hseen
  cases c with
  | now =>
    have hlate (a b i : Int) : a ≤ i + max a b - i ∧ b ≤ i + max a b - i := by omega
    exact ⟨since + max launcher.timeouts.jitHandoff launcher.timeouts.startup, s, rfl,
      hlate _ _ _⟩
  | recordAttempt attempt => exact ⟨.ok (), _, rfl, rfl⟩
  | inspect attempt | recover attempt => exact ⟨.ok seen, s, rfl, seen, rfl, hseen⟩
  | owns attempt => exact ⟨_, s, rfl, rfl⟩
  | stop attempt => exact ⟨_, s, rfl, rfl⟩
  | destroy attempt => exact ⟨_, _, rfl, rfl⟩
  | enumerateOwned host =>
    refine ⟨s.resource.elim [] (Resource.listed host s.journal), s, rfl, ?_⟩
    unfold Remnant.Shows
    cases s.resource with
    | none => rfl
    | some resource => exact resource.listed_same host s.journal
  | observe target id => exact ⟨_, s, rfl, rfl⟩
  | cleanupDue id now => exact ⟨_, s, rfl, rfl⟩
  | preserveDiagnostics attempt outcome | scrubWorkspace attempt | releasePackage attempt =>
    exact ⟨_, s, rfl, rfl⟩
  | recoveredPid attempt => exact ⟨.ok none, s, rfl⟩
  | completedSuccessfully attempt | hasTerminateIntent attempt | deregister target id
  | runtimeExists runtime | demandPersists policy => exact ⟨true, s, rfl⟩
  | recordTerminateIntent attempt | storeRunnerId runtime id | prune version
  | rememberVersion id version | wait delay | cleanupSucceeded id | cleanupFailed id now =>
    first | exact ⟨.ok (), s, rfl⟩ | exact ⟨(), s, rfl⟩
  | readRunnerId runtime => exact ⟨none, s, rfl⟩
  | jobEvidence runtime => exact ⟨.unknown, s, rfl⟩
  | recoveryComplete => exact ⟨.ok true, s, rfl⟩
  | probe policy => exact ⟨.ready, s, rfl⟩
  | resolve policy => exact ⟨.ok none, s, rfl⟩
  | newAttemptId => exact ⟨⟨0⟩, s, rfl⟩
  | newGeneration => exact ⟨"", s, rfl⟩
  | allocateWorkspace policy id => exact ⟨.error .journal, s, rfl⟩
  | materialize attempt => exact ⟨.ok "", s, rfl⟩
  | prepare attempt policy => exact ⟨.error .hostUnfit, s, rfl⟩
  | register target request => exact ⟨.error ⟨true, .hostUnfit, none⟩, s, rfl⟩
  | start prepared attempt config => exact ⟨.error ⟨.hostUnfit, false, none⟩, s, rfl⟩

/-! ## Cleanup -/

/-- A cleanup that leaves a resource: the row keeps its slot and still does not name it. -/
structure Stranded (owner : PolicyId) (s t : Remnant) : Prop where
  interrupted : Interrupted owner t
  deferred : t.journal.state = .cleanupDeferred
  resource : t.resource = s.resource
  execution : t.journal.execution = s.journal.execution

def CleansUp (owner : PolicyId) (s t : Remnant) : Prop :=
  (s.Identified → t.Retired) ∧ (¬ s.Identified → Stranded owner s t)

/-- A runner that was found started and did not register. -/
def Unregistering (owner : PolicyId) (s : Remnant) : Prop :=
  s.journal.state = .starting ∧ Interrupted owner s ∧ s.Identified

/-- What one pass makes of a row: it is cleaned up, or a runner that was found started is waited
for. -/
def PassEnds (owner : PolicyId) (s t : Remnant) : Prop :=
  CleansUp owner s t ∨ s.journal.state = .jitReceived ∧ Unregistering owner t

/-- How the cleanup itself ends: only a resource that the row does not name defers it. -/
def CleanupEnds (owner : PolicyId) (s : Remnant) (result : Except LifecycleError Unit)
    (t : Remnant) : Prop :=
  (s.Identified → result = .ok () ∧ t.Retired) ∧
    (¬ s.Identified → result = .error .environmentCleanupDeferred ∧ Stranded owner s t)

section Passes

variable {launcher : Launcher} {policy : ScalePolicy} {github : LifecycleGithubObservation}
  {since : Timestamp} {owner : PolicyId} {s : Remnant}

theorem pass_advance_wp {attempt : RunnerAttempt} {op : Timestamp → AttemptOp}
    {Q : Except LifecycleError RunnerAttempt → Remnant → Prop}
    (hpermits : ∀ now, (op now).Permits attempt)
    (hok : ∀ now, Q (.ok ((op now).effect attempt))
      { s with journal := (op now).effect attempt }) :
    (passContract launcher github since).wp (advance attempt op) Q s := by
  refine ⟨trivial, ?_⟩
  rintro now _ ⟨rfl, -⟩
  show (passContract launcher github since).wp (transition attempt (op now)) Q _
  unfold transition edge
  rw [AttemptOp.answer_iff.mpr ⟨hpermits now, rfl⟩]
  refine ⟨trivial, ?_⟩
  rintro answer _ ⟨rfl, rfl⟩
  exact hok now

namespace Interrupted

theorem listed (h : Interrupted owner s) (host : HostId) {resource : Resource}
    (hexists : s.resource = some resource) : ∃ identity,
      resource.listed host s.journal = [identity] ∧
        identityMatchesIntent host s.journal identity = true := by
  have hnamed := h.named
  have hisolated := h.isolated
  unfold Resource.listed
  cases hexecution : s.journal.execution with
  | native pid =>
    rw [hexecution] at hisolated
    cases hisolated
  | isolated kind id image generation =>
    refine ⟨_, rfl, ?_⟩
    rw [hexecution] at hnamed
    cases id with
    | none => simp [identityMatchesIntent, identitySameAllocation, hexecution]
    | some environmentId =>
      have hid := hnamed environmentId rfl resource hexists
      simp [identityMatchesIntent, identitySameAllocation, hexecution, hid]

theorem shown (h : Interrupted owner s) {host : HostId} {resources : List EnvironmentIdentity}
    (hshows : s.Shows host resources) :
    ¬ (1 < (resources.filter (identitySameAllocation host s.journal)).length ∨
      (resources.filter (identitySameAllocation host s.journal)).any
        (fun identity ↦ !identityMatchesIntent host s.journal identity) = true) ∧
      resources.any (identityMatchesIntent host s.journal) = s.resource.isSome ∧
      resources.any (identitySameAllocation host s.journal) = s.resource.isSome := by
  have hany : resources.any (identityMatchesIntent host s.journal) =
      (resources.filter (identitySameAllocation host s.journal)).any
        (identityMatchesIntent host s.journal) := by
    rw [List.any_filter]
    refine congrArg resources.any (funext fun identity ↦ ?_)
    unfold identityMatchesIntent
    cases identitySameAllocation host s.journal identity <;> rfl
  have hsame : resources.any (identitySameAllocation host s.journal) =
      (resources.filter (identitySameAllocation host s.journal)).any fun _ ↦ true := by
    rw [List.any_filter]
    simp
  rw [hany, hsame, hshows]
  cases hexists : s.resource with
  | none => simp
  | some resource =>
    obtain ⟨identity, hlisted, hmatches⟩ := h.listed host hexists
    simp [hlisted, hmatches]

theorem owns (h : Interrupted owner s) (host : HostId) :
    (s.resource.elim [] (Resource.listed host s.journal)).any
      (identityMatchesIntent host s.journal) = s.resource.isSome := by
  cases hexists : s.resource with
  | none => rfl
  | some resource =>
    obtain ⟨identity, hlisted, hmatches⟩ := h.listed host hexists
    simp [hlisted, hmatches]

theorem permits (h : Interrupted owner s) (hstate : s.journal.state = .destroying)
    (now : Timestamp) : (AttemptOp.deferCleanup now).Permits s.journal ∧
      (AttemptOp.cleanIsolated now).Permits s.journal := by
  refine ⟨⟨h.isolated, ?_⟩, h.isolated, ?_⟩
  · rintro next ⟨⟩
    rw [hstate]
    rfl
  · rintro next ⟨⟩
    rw [hstate]
    rfl

theorem defer_wp (h : Interrupted owner s) (hstate : s.journal.state = .destroying) :
    (passContract launcher github since).wp (deferEnvironmentCleanup s.journal : CleanupProgram)
      (fun result t ↦ result = .error .environmentCleanupDeferred ∧ Stranded owner s t) s := by
  refine (wp_bind _ _).mpr (pass_advance_wp (fun now ↦ (h.permits hstate now).1) ?_)
  intro now
  have hdeferred : Interrupted owner
      { s with journal := (AttemptOp.deferCleanup now).effect s.journal } := by
    refine h.moved (h.permits hstate now).1 ?_ rfl rfl
    rintro ⟨⟨_, hjit⟩, _⟩
    cases hjit
  exact ⟨rfl, hdeferred, rfl, rfl, rfl⟩

theorem retireIsolated_wp (h : Interrupted owner s) (hstate : s.journal.state = .destroying)
    (hgone : s.resource = none) :
    (passContract launcher github since).wp (retireIsolated launcher s.journal)
      (fun result t ↦ result = .ok () ∧ t.Retired) s := by
  refine ⟨trivial, ?_⟩
  rintro resources s ⟨rfl, hshows⟩
  have habsent := (h.shown hshows).2.2
  rw [hgone] at habsent
  show (passContract launcher github since).wp (if _ then _ else _) _ _
  rw [if_neg (by simpa using habsent)]
  unfold retire
  cases houtcome : s.journal.outcome with
  | none =>
    have hended := h.wellFormed.outcome
    rw [houtcome, hstate] at hended
    cases hended
  | some outcome =>
    refine ⟨trivial, ?_⟩
    rintro _ s ⟨rfl, rfl⟩
    refine ⟨trivial, ?_⟩
    rintro _ s ⟨rfl, rfl⟩
    refine ⟨trivial, ?_⟩
    rintro _ s ⟨rfl, rfl⟩
    show (passContract launcher github since).wp
      (advance s.journal .cleanIsolated >>= _) _ s
    refine (wp_bind _ _).mpr (pass_advance_wp (fun now ↦ (h.permits hstate now).2) ?_)
    intro now
    exact ⟨rfl, rfl, hgone, h.isolated, h.wellFormed.effect (h.permits hstate now).2⟩

theorem destroyEnvironment_wp (h : Interrupted owner s) (hstate : s.journal.state = .destroying)
    (hexists : s.resource.isSome = true) (current : EnvironmentState) :
    (passContract launcher github since).wp (destroyEnvironment launcher s.journal current)
      (fun result t ↦ result = .ok () ∧ t.Retired) s := by
  have hdestroy : (passContract launcher github since).wp (destroyStopped launcher s.journal)
      (fun result t ↦ result = .ok () ∧ t.Retired) s := by
    refine ⟨rfl, ?_⟩
    rintro _ _ ⟨rfl, rfl⟩
    refine ⟨rfl, ?_⟩
    rintro _ t ⟨rfl, state, rfl, hseen⟩
    obtain rfl : state = .missing := hseen.mpr rfl
    have hgone : Interrupted owner { s with resource := none } := h.lost rfl (.inr rfl)
    exact hgone.retireIsolated_wp hstate rfl
  refine ⟨rfl, ?_⟩
  rintro _ s ⟨rfl, rfl⟩
  rw [h.owns launcher.hostId, hexists]
  show (passContract launcher github since).wp (stopEnvironment s.journal current >>= _) _ s
  unfold stopEnvironment
  split_ifs
  · refine ⟨rfl, ?_⟩
    rintro _ s ⟨rfl, rfl⟩
    exact hdestroy
  · exact hdestroy

theorem currentEnvironment_wp {Q : Except LifecycleError Unit → Remnant → Prop}
    (hcurrent : ∀ state, (state = .missing ↔ s.resource = none) →
      (passContract launcher github since).wp (cleanCurrent launcher s.journal (.ok state)) Q s) :
    (passContract launcher github since).wp
      (currentEnvironment s.journal >>= cleanCurrent launcher s.journal) Q s := by
  unfold currentEnvironment
  split_ifs
  · refine ⟨rfl, ?_⟩
    rintro _ s ⟨rfl, state, rfl, hseen⟩
    exact hcurrent state hseen
  · refine ⟨rfl, ?_⟩
    rintro _ s ⟨rfl, state, rfl, hseen⟩
    exact hcurrent state hseen

theorem cleanDestroying_retires (h : Interrupted owner s)
    (hstate : s.journal.state = .destroying) (hidentified : s.Identified) :
    (passContract launcher github since).wp (cleanDestroying launcher s.journal)
      (fun result t ↦ result = .ok () ∧ t.Retired) s := by
  have hnamed (hexists : s.resource.isSome = true) : (!hasIdentity s.journal) = false := by
    rcases hidentified with hgone | hnamed
    · rw [hgone] at hexists
      cases hexists
    · rw [hnamed]
      rfl
  refine ⟨trivial, ?_⟩
  rintro resources s ⟨rfl, hshows⟩
  obtain ⟨hcertain, hintended, -⟩ := h.shown hshows
  show (passContract launcher github since).wp (if _ then _ else _) _ s
  rw [if_neg hcertain, hintended, if_neg]
  · refine currentEnvironment_wp fun state hseen ↦ ?_
    unfold cleanCurrent
    dsimp only
    by_cases hmissing : state = .missing
    · rw [if_neg fun hleft ↦ hleft.2 hmissing, if_neg (not_not.mpr hmissing)]
      exact h.retireIsolated_wp hstate (hseen.mp hmissing)
    · have hexists : s.resource.isSome = true :=
        Option.isSome_iff_ne_none.mpr fun hgone ↦ hmissing (hseen.mpr hgone)
      rw [hnamed hexists, if_neg fun hleft ↦ Bool.false_ne_true hleft.1, if_pos hmissing]
      exact h.destroyEnvironment_wp hstate hexists state
  · rintro ⟨hunnamed, hexists⟩
    rw [hnamed hexists] at hunnamed
    cases hunnamed

theorem cleanDestroying_defers (h : Interrupted owner s)
    (hstate : s.journal.state = .destroying) (hunidentified : ¬ s.Identified) :
    (passContract launcher github since).wp (cleanDestroying launcher s.journal)
      (fun result t ↦ result = .error .environmentCleanupDeferred ∧ Stranded owner s t) s := by
  obtain ⟨hexists, hunnamed⟩ := not_or.mp hunidentified
  refine ⟨trivial, ?_⟩
  rintro resources s ⟨rfl, hshows⟩
  obtain ⟨hcertain, hintended, -⟩ := h.shown hshows
  show (passContract launcher github since).wp (if _ then _ else _) _ s
  rw [if_neg hcertain, hintended, if_pos]
  · exact h.defer_wp hstate
  · exact ⟨by simpa using hunnamed, Option.isSome_iff_ne_none.mpr hexists⟩

/-- The cleanup of a concluded row. -/
theorem cleanAttempt_wp (h : Interrupted owner s)
    (hconcluded : s.journal.state.isTerminal = true) :
    (passContract launcher github since).wp (cleanAttempt launcher s.journal)
      (CleanupEnds owner s) s := by
  have hdestroying (t : Remnant) (ht : Interrupted owner t)
      (hstate : t.journal.state = .destroying) (hresource : t.resource = s.resource)
      (hexecution : t.journal.execution = s.journal.execution) :
      (passContract launcher github since).wp (cleanDestroying launcher t.journal)
        (CleanupEnds owner s) t := by
    have hsame : t.Identified ↔ s.Identified := by
      unfold Remnant.Identified hasIdentity
      rw [hresource, hexecution]
    by_cases hidentified : s.Identified
    · refine wp_mono (ht.cleanDestroying_retires hstate (hsame.mpr hidentified)) ?_
      exact fun _ _ hretired ↦ ⟨fun _ ↦ hretired, (absurd hidentified ·)⟩
    · refine wp_mono (ht.cleanDestroying_defers hstate (mt hsame.mp hidentified)) ?_
      rintro _ u ⟨hresult, hstranded⟩
      refine ⟨(absurd · hidentified), fun _ ↦ ⟨hresult, hstranded.interrupted, ?_, ?_, ?_⟩⟩
      · exact hstranded.deferred
      · exact hstranded.resource.trans hresource
      · exact hstranded.execution.trans hexecution
  unfold cleanAttempt
  rw [h.isolated]
  show (passContract launcher github since).wp (cleanIsolatedAttempt launcher s.journal) _ s
  unfold cleanIsolatedAttempt
  by_cases hstate : s.journal.state = .destroying
  · rw [if_pos hstate]
    exact hdestroying s h hstate rfl rfl
  · rw [if_neg hstate]
    have hpermits (now : Timestamp) : (AttemptOp.beginDestroy now).Permits s.journal := by
      refine ⟨⟨h.isolated, h.wellFormed.outcome.trans hconcluded⟩, ?_⟩
      rintro next ⟨⟩
      have hphase := h.phase
      revert hstate hconcluded hphase
      generalize s.journal.state = state
      cases state <;> decide
    refine (wp_bind _ _).mpr (pass_advance_wp hpermits fun now ↦ ?_)
    refine hdestroying _ (h.moved (hpermits now) ?_ rfl rfl) rfl rfl rfl
    rintro ⟨⟨_, hjit⟩, _⟩
    cases hjit

theorem cleanOrQuarantine_wp (h : Interrupted owner s)
    (hconcluded : s.journal.state.isTerminal = true) :
    (passContract launcher github since).wp (cleanOrQuarantine launcher s.journal)
      (fun result t ↦ result = .ok () ∧ CleansUp owner s t) s := by
  refine ⟨trivial, ?_⟩
  rintro now s ⟨rfl, -⟩
  refine ⟨trivial, ?_⟩
  rintro _ s ⟨rfl, rfl⟩
  show (passContract launcher github since).wp ((cleanAttempt launcher s.journal).outcome >>= _) _ s
  refine wp_outcome_seq (h.cleanAttempt_wp hconcluded) fun result t hends ↦ ?_
  by_cases hidentified : s.Identified
  · obtain ⟨rfl, hretired⟩ := hends.1 hidentified
    refine ⟨trivial, ?_⟩
    rintro _ t rfl
    exact ⟨rfl, fun _ ↦ hretired, (absurd hidentified ·)⟩
  · obtain ⟨rfl, hstranded⟩ := hends.2 hidentified
    refine ⟨trivial, ?_⟩
    rintro _ t rfl
    exact ⟨rfl, (absurd · hidentified), fun _ ↦ hstranded⟩

theorem concludeAndClean_wp (h : Interrupted owner s)
    (hlive : s.journal.state.isTerminal = false) (reason : FailureReason)
    (operation : Option String) :
    (passContract launcher github since).wp
      (concludeAndClean launcher s.journal (.failed reason) operation)
      (fun _ t ↦ CleansUp owner s t) s := by
  have hpermits (now : Timestamp) :
      (AttemptOp.conclude (.failed reason) now).Permits s.journal := by
    obtain ⟨hrequired, hedge⟩ := concludable h.phase hlive
    refine ⟨hrequired, ?_⟩
    rintro next ⟨⟩
    exact hedge
  refine (wp_bind _ _).mpr (pass_advance_wp hpermits fun now ↦ ?_)
  have hconcluded : Interrupted owner
      { s with journal := (AttemptOp.conclude (.failed reason) now).effect s.journal } := by
    refine h.moved (hpermits now) ?_ rfl rfl
    rintro ⟨⟨_, hjit⟩, _⟩
    cases hjit
  refine wp_seq (hconcluded.cleanOrQuarantine_wp rfl) ?_ ?_
  · rintro _ t ⟨-, hretires, hstrands⟩
    exact ⟨hretires, fun hunidentified ↦ { hstrands hunidentified with }⟩
  · rintro error t ⟨hok, -⟩
    cases hok

end Interrupted

theorem late_decision {attempt : RunnerAttempt} {timeouts : RecoveryTimeouts} {now : Timestamp}
    {live : Bool} {decision : RecoveryDecision} (hlate : Late timeouts since now)
    (hstate : attempt.state = .jitReceived ∧ live = false ∧ attempt.lastStateChangeAt = since ∨
      attempt.state = .starting)
    (hdecision : recoveryDecision attempt ⟨live, .notRegistered⟩ timeouts now = decision) :
    (∃ reason, decision = .conclude (.failed reason) ∨ decision = .terminate (.failed reason)) ∨
      decision = .adopt ∧ attempt.state = .starting ∧ attempt.lastStateChangeAt ≠ since := by
  subst hdecision
  unfold recoveryDecision
  rcases hstate with ⟨hstate, rfl, rfl⟩ | hstate
  · refine .inl ⟨.jitExpired, .inl ?_⟩
    have hexpired := hlate.1
    simp [hstate, AttemptState.isTerminal, RecoveryDecision.beforeStart, hexpired]
  · rw [hstate]
    cases live with
    | false => exact .inl ⟨.processExitedUnexpectedly, .inl rfl⟩
    | true =>
      show (∃ reason, (if now - attempt.lastStateChangeAt < timeouts.startup then
          RecoveryDecision.adopt else .terminate (.failed .registrationTimedOut)) = _ ∨ _) ∨ _
      by_cases hyoung : now - attempt.lastStateChangeAt < timeouts.startup
      · refine .inr ⟨if_pos hyoung, rfl, ?_⟩
        rintro rfl
        exact absurd hyoung (Int.not_lt.mpr hlate.2)
      · exact .inl ⟨.registrationTimedOut, .inr (if_neg hyoung)⟩

theorem validate_withEnvironment {execution : AttemptExecution} {environmentId : String}
    (hvalid : execution.validate = .ok ()) (hunnamed : execution.environmentId = none)
    (hid : nonSecretId environmentId = true) :
    (execution.withEnvironment environmentId).validate = .ok () := by
  cases execution with
  | native pid => exact hvalid
  | isolated kind id image generation =>
    obtain rfl : id = none := hunnamed
    unfold AttemptExecution.validate at hvalid
    unfold AttemptExecution.withEnvironment AttemptExecution.validate
    simpa [hid] using hvalid

namespace Interrupted

theorem identified_of_needs (h : Interrupted owner s)
    (hneeds : s.journal.state.needsEnvironment = true) : s.Identified :=
  .inr (h.known hneeds h.isolated)

/-- The part of a pass after GitHub was asked, while it does not list the runner. -/
theorem decideRecovered_wp (h : Interrupted owner s) {live : Bool}
    (hstate : s.journal.state = .jitReceived ∧ live = false ∧
        s.journal.lastStateChangeAt = since ∨ s.journal.state = .starting) :
    (passContract launcher .notRegistered since).wp
      (decideRecovered launcher policy s.journal live)
      (fun _ t ↦ CleansUp owner s t ∨
        t = s ∧ s.journal.state = .starting ∧ s.journal.lastStateChangeAt ≠ since) s := by
  have hlive : s.journal.state.isTerminal = false := by
    rcases hstate with ⟨hstate, -⟩ | hstate <;> rw [hstate] <;> rfl
  have hbusy : s.journal.state ≠ .busy := by
    rcases hstate with ⟨hstate, -⟩ | hstate <;> rw [hstate] <;> decide
  refine ⟨trivial, ?_⟩
  rintro _ s ⟨rfl, rfl⟩
  show (passContract launcher _ since).wp
    (completedUnlisted s.journal live .notRegistered >>= _) _ s
  unfold completedUnlisted
  rw [if_neg fun hcompleted ↦ hbusy hcompleted.1]
  show (passContract launcher _ since).wp
    (settleIsolated launcher policy s.journal live .notRegistered) _ s
  refine ⟨trivial, ?_⟩
  rintro now s ⟨rfl, hlate⟩
  dsimp only [Program.andThen]
  generalize hdecision : recoveryDecision s.journal
    ⟨live, LifecycleGithubObservation.notRegistered.status⟩ launcher.timeouts now = decision
  obtain ⟨reason, rfl | rfl⟩ | ⟨rfl, hstarting, hyoung⟩ := late_decision hlate hstate hdecision
  · refine wp_mono (h.concludeAndClean_wp hlive reason _) ?_
    exact fun _ _ hends ↦ .inl hends
  · refine wp_mono (h.concludeAndClean_wp hlive reason _) ?_
    exact fun _ _ hends ↦ .inl hends
  · exact .inr ⟨rfl, hstarting, hyoung⟩

theorem startable (h : Interrupted owner s) (hjit : s.journal.state = .jitReceived)
    (now : Timestamp) : (AttemptOp.startedIsolated now).Permits s.journal := by
  refine ⟨h.known (congrArg AttemptState.needsEnvironment hjit) h.isolated, ?_⟩
  rintro next ⟨⟩
  rw [hjit]
  rfl

theorem started (h : Interrupted owner s) (hjit : s.journal.state = .jitReceived)
    (now : Timestamp) :
    Interrupted owner { s with journal := (AttemptOp.startedIsolated now).effect s.journal } := by
  refine h.moved (h.startable hjit now) ?_ rfl rfl
  rintro ⟨⟨_, hreceived⟩, _⟩
  cases hreceived

/-- The provider is asked before GitHub, and a start that was not journalled is. -/
theorem recoverIsolated_wp (h : Interrupted owner s)
    {Q : Except LifecycleError ReconcileProgress → Remnant → Prop}
    (hdecide : ∀ live, (s.journal.state = .jitReceived → live = false) →
      (passContract launcher github since).wp
        (decideRecovered launcher policy s.journal live) Q s)
    (hstarted : s.journal.state = .jitReceived → ∀ now,
      (passContract launcher github since).wp
        (decideRecovered launcher policy ((AttemptOp.startedIsolated now).effect s.journal) true) Q
        { s with journal := (AttemptOp.startedIsolated now).effect s.journal }) :
    (passContract launcher github since).wp (recoverIsolated launcher policy s.journal) Q s := by
  have hisolated (live : Bool) : (passContract launcher github since).wp
      (decideIsolated launcher policy s.journal live) Q s := by
    unfold decideIsolated advanceIf
    split_ifs with hstart
    · obtain ⟨hjit, rfl⟩ := hstart
      exact (wp_bind _ _).mpr (pass_advance_wp (h.startable hjit) (hstarted hjit))
    · refine hdecide live fun hjit ↦ ?_
      exact Bool.eq_false_iff.mpr fun hlive ↦ hstart ⟨hjit, hlive⟩
  refine ⟨rfl, ?_⟩
  rintro _ s ⟨rfl, provider, rfl, hseen⟩
  show (passContract launcher github since).wp (if _ then _ else _) Q s
  by_cases hmissing : provider = .missing
  · rw [if_pos hmissing]
    exact hisolated _
  · rw [if_neg hmissing]
    have hexists : s.resource.isSome = true :=
      Option.isSome_iff_ne_none.mpr fun hgone ↦ hmissing (hseen.mpr hgone)
    refine ⟨rfl, ?_⟩
    rintro _ s ⟨rfl, rfl⟩
    rw [h.owns launcher.hostId, hexists]
    exact hisolated _

/-- One pass while every port answers and GitHub does not list the runner. -/
theorem reconcileIsolatedOne_wp (h : Interrupted owner s)
    (hsince : s.journal.state = .jitReceived ∨ s.journal.state = .starting →
      s.journal.lastStateChangeAt = since) :
    (passContract launcher .notRegistered since).wp
      (reconcileIsolatedOne launcher policy s.journal) (fun _ t ↦ PassEnds owner s t) s := by
  unfold reconcileIsolatedOne
  rw [if_neg h.not_cleaned]
  split_ifs with hconcluded hprepares
  · refine wp_seq (h.cleanOrQuarantine_wp hconcluded) ?_ ?_
    · exact fun _ _ hends ↦ .inl hends.2
    · exact fun _ _ hends ↦ .inl hends.2
  · refine wp_mono (h.concludeAndClean_wp (Bool.eq_false_iff.mpr hconcluded) _ _) ?_
    exact fun _ _ hends ↦ .inl hends
  · have hstate : s.journal.state = .jitReceived ∨ s.journal.state = .starting := by
      have hphase := h.phase
      revert hphase hconcluded hprepares
      generalize s.journal.state = state
      cases state <;> decide
    refine h.recoverIsolated_wp (fun live hlive ↦ ?_) fun hjit now ↦ ?_
    · refine wp_mono (h.decideRecovered_wp (hstate.imp_left fun hjit ↦
        ⟨hjit, hlive hjit, hsince hstate⟩)) ?_
      rintro _ t (hends | ⟨-, -, hyoung⟩)
      · exact .inl hends
      · exact absurd (hsince hstate) hyoung
    · have hidentified := h.identified_of_needs (congrArg AttemptState.needsEnvironment hjit)
      have hstarted := h.started hjit now
      refine wp_mono (hstarted.decideRecovered_wp (.inr rfl)) ?_
      rintro _ t (⟨hretires, -⟩ | ⟨rfl, -, -⟩)
      · exact .inl ⟨fun _ ↦ hretires hidentified, (absurd hidentified ·)⟩
      · exact .inr ⟨hjit, rfl, hstarted, hidentified⟩

theorem nameable (h : Interrupted owner s) (hunnamed : s.journal.execution.environmentId = none)
    (resource : Resource) :
    (AttemptOp.preparedEnvironment resource.environmentId).Permits s.journal := by
  have hneeds : s.journal.state.needsEnvironment = false := by
    refine Bool.eq_false_iff.mpr fun hneeds ↦ ?_
    have hknown := h.known hneeds h.isolated
    rw [hunnamed] at hknown
    cases hknown
  refine ⟨⟨?_, h.isolated, hunnamed, ?_⟩, fun next htarget ↦ by cases htarget⟩
  · have hphase := h.phase
    revert hneeds hphase
    generalize s.journal.state = state
    cases state <;> decide
  · exact validate_withEnvironment h.wellFormed.execution hunnamed resource.valid

theorem recoveredEnvironment_shown (h : Interrupted owner s) {owned : List EnvironmentIdentity}
    (hshows : s.Shows launcher.hostId owned) : recoveredEnvironment launcher owned s.journal =
      if hasIdentity s.journal then none else s.resource.map (·.environmentId) := by
  have hlast : s.journal.state ≠ .cleaned := h.not_cleaned
  have hisolated := h.isolated
  unfold recoveredEnvironment hasIdentity
  rw [hshows]
  cases hexecution : s.journal.execution with
  | native pid =>
    rw [hexecution] at hisolated
    cases hisolated
  | isolated kind id image generation =>
    cases id <;> cases s.resource <;>
      simp [AttemptExecution.environmentId, Resource.listed, hexecution, hlast]

/-- Recovery names the one resource of a row that names none. -/
theorem recoverIdentity_wp (h : Interrupted owner s) {owned : List EnvironmentIdentity}
    (hshows : s.Shows launcher.hostId owned) :
    (passContract launcher github since).wp (recoverIdentity launcher owned s.journal)
      (fun result t ↦ result = .ok t.journal ∧ Interrupted owner t ∧ t.Identified ∧
        (t = s ∨ ¬ (t.journal.state = .jitReceived ∨ t.journal.state = .starting))) s := by
  unfold recoverIdentity
  rw [h.recoveredEnvironment_shown hshows]
  by_cases hnamed : hasIdentity s.journal = true
  · rw [if_pos hnamed]
    exact ⟨rfl, h, .inr hnamed, .inl rfl⟩
  rw [if_neg hnamed]
  cases hexists : s.resource with
  | none => exact ⟨rfl, h, .inl hexists, .inl rfl⟩
  | some resource =>
    have hunnamed : s.journal.execution.environmentId = none := by
      simpa [hasIdentity] using hnamed
    have hpermits := h.nameable hunnamed resource
    have hnames : s.Names resource.environmentId := by
      intro found hfound
      rw [Option.some.inj (hexists.symm.trans hfound)]
    have hnext := h.identified hnames hpermits
    have hid : hasIdentity ((AttemptOp.preparedEnvironment resource.environmentId).effect
        s.journal) = true := by
      unfold hasIdentity
      exact Option.isSome_iff_exists.mpr
        ⟨_, environmentId_withEnvironment resource.environmentId h.isolated⟩
    show (passContract launcher github since).wp (edge _ _ >>= _) _ s
    unfold edge
    rw [AttemptOp.answer_iff.mpr ⟨hpermits, rfl⟩]
    show (passContract launcher github since).wp (markRecovered _ >>= _) _ s
    unfold markRecovered
    split_ifs with hpreparing
    · refine ⟨trivial, ?_⟩
      rintro now s ⟨rfl, -⟩
      have hmark : (AttemptOp.markPrepared now).Permits
          ((AttemptOp.preparedEnvironment resource.environmentId).effect s.journal) := by
        refine ⟨hid, ?_⟩
        rintro next ⟨⟩
        rw [hpreparing]
        rfl
      show (passContract launcher github since).wp (edge _ _ >>= _) _ s
      unfold edge
      rw [AttemptOp.answer_iff.mpr ⟨hmark, rfl⟩]
      refine ⟨trivial, ?_⟩
      rintro _ t ⟨rfl, rfl⟩
      refine ⟨rfl, hnext.moved hmark ?_ rfl rfl, .inr hid, .inr ?_⟩
      · rintro ⟨⟨_, hjit⟩, _⟩
        cases hjit
      · rintro (hstate | hstate) <;> cases hstate
    · refine ⟨trivial, ?_⟩
      rintro _ t ⟨rfl, rfl⟩
      refine ⟨rfl, hnext, .inr hid, .inr ?_⟩
      -- A row in either state names its environment.
      have hmay := hpermits.1.1
      rintro (hstate | hstate)
      · rw [show s.journal.state = _ from hstate] at hmay
        cases hmay
      · rw [show s.journal.state = _ from hstate] at hmay
        cases hmay

/-- Recovery at the start of the agent retires a row, or a runner that was found started is waited
for. -/
theorem recoverListed_wp (h : Interrupted policy.id s) (hhost : policy.hostId = launcher.hostId)
    (hsince : s.journal.lastStateChangeAt = since) :
    (passContract launcher .notRegistered since).wp (recoverListed launcher policy s.journal)
      (fun _ t ↦ t.Retired ∨ Unregistering policy.id t) s := by
  have hauthorized : authorize launcher.hostId policy s.journal = .ok () := by
    unfold authorize
    rw [if_neg (not_not.mpr h.owned), if_neg (not_not.mpr hhost)]
  refine ⟨trivial, ?_⟩
  rintro owned s ⟨rfl, hshows⟩
  show (passContract launcher _ since).wp (recoverAttempt launcher policy owned s.journal) _ s
  unfold recoverAttempt
  rw [hauthorized]
  show (passContract launcher _ since).wp (recoverIdentity launcher owned s.journal >>= _) _ s
  refine wp_seq (h.recoverIdentity_wp hshows) ?_ ?_
  · rintro _ t ⟨hvalue, ht, hidentified, hkept⟩
    obtain rfl : _ = t.journal := Except.ok.inj hvalue
    show (passContract launcher _ since).wp (reconcileOne launcher policy t.journal) _ t
    unfold reconcileOne
    rw [ht.isolated]
    refine wp_mono (ht.reconcileIsolatedOne_wp fun hstate ↦ ?_) ?_
    · rcases hkept with rfl | hother
      · exact hsince
      · exact absurd hstate hother
    · rintro _ u (⟨hretires, -⟩ | ⟨-, hstarted⟩)
      · exact .inl (hretires hidentified)
      · exact .inr hstarted
  · rintro error t ⟨hvalue, -⟩
    cases hvalue

/-- While GitHub is out of reach a runner that may have been started is left alone. -/
theorem reconcileIsolatedOne_unreachable (h : Interrupted owner s)
    (hstate : s.journal.state = .jitReceived ∨ s.journal.state = .starting) :
    (passContract launcher .unreachable since).wp (reconcileIsolatedOne launcher policy s.journal)
      (fun _ t ↦ Interrupted owner t ∧ t.resource = s.resource ∧
        (t.journal.state = .jitReceived ∨ t.journal.state = .starting)) s := by
  have hdecide (t : Remnant) (ht : t.journal.state = .jitReceived ∨ t.journal.state = .starting)
      (live : Bool) : (passContract launcher .unreachable since).wp
        (decideRecovered launcher policy t.journal live) (fun _ u ↦ u = t) t := by
    have hbusy : t.journal.state ≠ .busy := by
      rcases ht with ht | ht <;> rw [ht] <;> decide
    refine ⟨trivial, ?_⟩
    rintro _ t ⟨rfl, rfl⟩
    show (passContract launcher _ since).wp
      (completedUnlisted t.journal live .unreachable >>= _) _ t
    unfold completedUnlisted
    rw [if_neg fun hcompleted ↦ hbusy hcompleted.1]
    refine ⟨trivial, ?_⟩
    rintro now t ⟨rfl, -⟩
    dsimp only [Program.andThen]
    have hdefers : recoveryDecision t.journal
        ⟨live, LifecycleGithubObservation.unreachable.status⟩ launcher.timeouts now = .defer := by
      unfold recoveryDecision
      rcases ht with ht | ht <;> rw [ht] <;> rfl
    rw [hdefers]
    rfl
  have hopen : ¬ s.journal.state.isTerminal = true ∧ ¬ (s.journal.state = .allocated ∨
      s.journal.state = .preparing ∨ s.journal.state = .prepared) := by
    rcases hstate with hstate | hstate <;> rw [hstate] <;> decide
  unfold reconcileIsolatedOne
  rw [if_neg h.not_cleaned, if_neg hopen.1, if_neg hopen.2]
  refine h.recoverIsolated_wp (fun live _ ↦ ?_) fun hjit now ↦ ?_
  · refine wp_mono (hdecide s hstate live) ?_
    rintro _ t rfl
    exact ⟨h, rfl, hstate⟩
  · refine wp_mono (hdecide _ (.inr rfl) true) ?_
    rintro _ t rfl
    exact ⟨h.started hjit now, rfl, .inr rfl⟩

end Interrupted

/-! ## Passes in sequence -/

/-- The row is read back, and one visit to it runs to its end. -/
def Visited (launcher : Launcher) (github : LifecycleGithubObservation)
    (visit : RunnerAttempt → LifecycleProgram ReconcileProgress) (s t : Remnant) : Prop :=
  ∃ attempt result, s.journal.reload = .ok attempt ∧
    (passContract launcher github attempt.lastStateChangeAt).Runs (visit attempt)
      { s with journal := attempt } (.done result) t

def PassedOver (launcher : Launcher) (policy : ScalePolicy) (github : LifecycleGithubObservation) :
    Nat → Remnant → Remnant → Prop
  | 0, s, t => t = s
  | n + 1, s, t => ∃ u, Visited launcher github (reconcileIsolatedOne launcher policy) s u ∧
      PassedOver launcher policy github n u t

/-- The recovery at the start of the agent comes to the row. -/
def RecoveredAtStart (launcher : Launcher) (policy : ScalePolicy)
    (github : LifecycleGithubObservation) (s t : Remnant) : Prop :=
  Visited launcher github (recoverListed launcher policy) s t

theorem visited_of_wp {visit : RunnerAttempt → LifecycleProgram ReconcileProgress}
    {attempt : RunnerAttempt} {P : Remnant → Prop} (hreload : s.journal.reload = .ok attempt)
    (hmeets : (passContract launcher github attempt.lastStateChangeAt).wp (visit attempt)
      (fun _ t ↦ P t) { s with journal := attempt }) :
    (∃ t, Visited launcher github visit s t) ∧ ∀ t, Visited launcher github visit s t → P t := by
  constructor
  · obtain ⟨result, t, hruns⟩ :=
      Contract.ends_of_wp (fun s c _ ↦ passContract_answers s c) hmeets
    exact ⟨t, attempt, result, hreload, hruns⟩
  · rintro t ⟨again, result, hagain, hruns⟩
    obtain rfl : attempt = again := Except.ok.inj (hreload.symm.trans hagain)
    exact wp_runs hmeets hruns

theorem Interrupted.reloaded (h : Interrupted owner s) :
    s.journal.reload = .ok s.journal.clockNormalised ∧
      Interrupted owner { s with journal := s.journal.clockNormalised } := by
  have hreload := (reload_iff h.wellFormed).mpr h.known
  exact ⟨hreload, h.owned, h.isolated, (readsBack_of_reload hreload).wellFormed, h.known, h.phase,
    h.named⟩

theorem Interrupted.passed (h : Interrupted owner s) :
    (∃ t, Visited launcher .notRegistered (reconcileIsolatedOne launcher policy) s t) ∧
      ∀ t, Visited launcher .notRegistered (reconcileIsolatedOne launcher policy) s t →
        PassEnds owner s t := by
  obtain ⟨hreload, hrow⟩ := h.reloaded
  refine visited_of_wp hreload (wp_mono (hrow.reconcileIsolatedOne_wp fun _ ↦ rfl) ?_)
  rintro _ t (⟨hretires, hstrands⟩ | hstarted)
  · exact .inl ⟨hretires, fun hunidentified ↦ { hstrands hunidentified with }⟩
  · exact .inr hstarted

theorem Remnant.Retired.visited (h : s.Retired)
    {visit : RunnerAttempt → LifecycleProgram ReconcileProgress}
    (hvisit : ∀ attempt since t, attempt.state = .cleaned → attempt.execution.isNative = false →
      (passContract launcher github since).wp (visit attempt) (fun _ u ↦ u = t) t) :
    (∃ t, Visited launcher github visit s t) ∧
      ∀ t, Visited launcher github visit s t → t.Retired := by
  have hknown : s.journal.EnvironmentKnown := by
    intro hneeds
    rw [h.cleaned] at hneeds
    cases hneeds
  have hreload := (reload_iff h.wellFormed).mpr hknown
  refine visited_of_wp hreload (wp_mono (hvisit _ _ _ h.cleaned h.isolated) ?_)
  rintro _ t rfl
  exact ⟨h.cleaned, h.removed, h.isolated, (readsBack_of_reload hreload).wellFormed⟩

theorem reconcileIsolatedOne_cleaned {attempt : RunnerAttempt} (since : Timestamp) (t : Remnant)
    (hcleaned : attempt.state = .cleaned) : (passContract launcher github since).wp
      (reconcileIsolatedOne launcher policy attempt) (fun _ u ↦ u = t) t := by
  unfold reconcileIsolatedOne
  rw [if_pos hcleaned]
  rfl

theorem recoverListed_cleaned {attempt : RunnerAttempt} (since : Timestamp) (t : Remnant)
    (hcleaned : attempt.state = .cleaned) (hisolated : attempt.execution.isNative = false) :
    (passContract launcher github since).wp (recoverListed launcher policy attempt)
      (fun _ u ↦ u = t) t := by
  have hnone (owned : List EnvironmentIdentity) :
      recoveredEnvironment launcher owned attempt = none := by
    unfold recoveredEnvironment
    split
    · exact if_pos hcleaned
    · rfl
  refine ⟨trivial, ?_⟩
  rintro owned t ⟨rfl, -⟩
  show (passContract launcher github since).wp (recoverAttempt launcher policy owned attempt) _ t
  unfold recoverAttempt recoverIdentity
  rw [hnone]
  cases authorize launcher.hostId policy attempt with
  | error refusal => rfl
  | ok _ =>
    show (passContract launcher github since).wp (reconcileOne launcher policy attempt) _ t
    unfold reconcileOne
    rw [hisolated]
    exact reconcileIsolatedOne_cleaned since t hcleaned

/-! ## Retirement -/

/-- What passes and recoveries make of a launch. -/
def Recoverable (owner : PolicyId) (s : Remnant) : Prop :=
  s.Retired ∨ Interrupted owner s

namespace Recoverable

theorem passed (h : Recoverable owner s) :
    (∃ t, Visited launcher .notRegistered (reconcileIsolatedOne launcher policy) s t) ∧
      ∀ t, Visited launcher .notRegistered (reconcileIsolatedOne launcher policy) s t →
        Recoverable owner t := by
  rcases h with hretired | hinterrupted
  · obtain ⟨hexists, hall⟩ := hretired.visited (fun _ since t hcleaned _ ↦
      reconcileIsolatedOne_cleaned since t hcleaned)
    exact ⟨hexists, fun t hvisited ↦ .inl (hall t hvisited)⟩
  · obtain ⟨hexists, hall⟩ := hinterrupted.passed
    refine ⟨hexists, fun t hvisited ↦ ?_⟩
    rcases hall t hvisited with ⟨hretires, hstrands⟩ | ⟨-, -, hstarted, -⟩
    · by_cases hidentified : s.Identified
      · exact .inl (hretires hidentified)
      · exact .inr (hstrands hidentified).interrupted
    · exact .inr hstarted

theorem passes (h : Recoverable owner s) (n : Nat) :
    (∃ t, PassedOver launcher policy .notRegistered n s t) ∧
      ∀ t, PassedOver launcher policy .notRegistered n s t → Recoverable owner t := by
  induction n generalizing s with
  | zero =>
    refine ⟨⟨s, rfl⟩, ?_⟩
    rintro t rfl
    exact h
  | succ n ih =>
    obtain ⟨⟨u, hvisited⟩, hall⟩ :
        (∃ u, Visited launcher .notRegistered (reconcileIsolatedOne launcher policy) s u) ∧ _ :=
      h.passed
    obtain ⟨⟨t, hpasses⟩, -⟩ := ih (hall u hvisited)
    refine ⟨⟨t, u, hvisited, hpasses⟩, ?_⟩
    rintro t ⟨v, hvisited, hpasses⟩
    exact (ih (hall v hvisited)).2 t hpasses

end Recoverable

theorem Remnant.Retired.passes (h : s.Retired) {n : Nat} {t : Remnant}
    (hpasses : PassedOver launcher policy github n s t) : t.Retired := by
  induction n generalizing s with
  | zero =>
    obtain rfl : t = s := hpasses
    exact h
  | succ n ih =>
    obtain ⟨u, hvisited, hpasses⟩ := hpasses
    refine ih ((h.visited fun _ since t hcleaned _ ↦ ?_).2 u hvisited) hpasses
    exact reconcileIsolatedOne_cleaned since t hcleaned

theorem Unregistering.passes (h : Unregistering owner s) {n : Nat} {t : Remnant}
    (hpasses : PassedOver launcher policy .notRegistered (n + 1) s t) : t.Retired := by
  obtain ⟨hstarting, hinterrupted, hidentified⟩ := h
  obtain ⟨u, hvisited, hpasses⟩ := hpasses
  rcases hinterrupted.passed.2 u hvisited with ⟨hretires, -⟩ | ⟨hjit, -⟩
  · exact (hretires hidentified).passes hpasses
  · cases hstarting.symm.trans hjit

theorem Interrupted.passes (h : Interrupted owner s) (hidentified : s.Identified) {n : Nat}
    {t : Remnant} (hpasses : PassedOver launcher policy .notRegistered (n + 2) s t) :
    t.Retired := by
  obtain ⟨u, hvisited, hpasses⟩ := hpasses
  rcases h.passed.2 u hvisited with ⟨hretires, -⟩ | ⟨-, hstarting, hstarted, hnamed⟩
  · exact (hretires hidentified).passes hpasses
  · exact Unregistering.passes ⟨hstarting, hstarted, hnamed⟩ hpasses

theorem Interrupted.stranded (h : Interrupted owner s) (hunidentified : ¬ s.Identified) {n : Nat}
    {t : Remnant} (hpasses : PassedOver launcher policy .notRegistered n s t) :
    Interrupted owner t ∧ ¬ t.Identified := by
  induction n generalizing s with
  | zero =>
    obtain rfl : t = s := hpasses
    exact ⟨h, hunidentified⟩
  | succ n ih =>
    obtain ⟨u, hvisited, hpasses⟩ := hpasses
    rcases h.passed.2 u hvisited with ⟨-, hstrands⟩ | ⟨hjit, -⟩
    · have hstranded := hstrands hunidentified
      refine ih hstranded.interrupted (fun hidentified ↦ hunidentified ?_) hpasses
      unfold Remnant.Identified hasIdentity at hidentified ⊢
      rwa [hstranded.resource, hstranded.execution] at hidentified
    · refine absurd (h.identified_of_needs ?_) hunidentified
      rw [hjit]
      rfl

theorem Interrupted.unreachable (h : Interrupted owner s)
    (hstate : s.journal.state = .jitReceived ∨ s.journal.state = .starting) (n : Nat) :
    (∃ t, PassedOver launcher policy .unreachable n s t) ∧
      ∀ t, PassedOver launcher policy .unreachable n s t →
        Interrupted owner t ∧ t.resource = s.resource := by
  induction n generalizing s with
  | zero =>
    refine ⟨⟨s, rfl⟩, ?_⟩
    rintro t rfl
    exact ⟨h, rfl⟩
  | succ n ih =>
    obtain ⟨hreload, hrow⟩ := h.reloaded
    obtain ⟨⟨u, hvisited⟩, hall⟩ :
        (∃ u, Visited launcher .unreachable (reconcileIsolatedOne launcher policy) s u) ∧ _ :=
      visited_of_wp hreload (hrow.reconcileIsolatedOne_unreachable hstate)
    constructor
    · obtain ⟨hu, -, hstill⟩ := hall u hvisited
      obtain ⟨t, hpasses⟩ := (ih hu hstill).1
      exact ⟨t, u, hvisited, hpasses⟩
    · rintro t ⟨v, hvisited, hpasses⟩
      obtain ⟨hv, hresource, hstill⟩ := hall v hvisited
      obtain ⟨ht, hkept⟩ := (ih hv hstill).2 t hpasses
      exact ⟨ht, hkept.trans hresource⟩

theorem Recoverable.recovered (h : Recoverable policy.id s)
    (hhost : policy.hostId = launcher.hostId) :
    (∃ t, RecoveredAtStart launcher policy .notRegistered s t) ∧
      ∀ t, RecoveredAtStart launcher policy .notRegistered s t →
        t.Retired ∨ Unregistering policy.id t := by
  rcases h with hretired | hinterrupted
  · obtain ⟨hexists, hall⟩ := hretired.visited (fun _ since t hcleaned hisolated ↦
      recoverListed_cleaned since t hcleaned hisolated)
    exact ⟨hexists, fun t hvisited ↦ .inl (hall t hvisited)⟩
  · obtain ⟨hreload, hrow⟩ := hinterrupted.reloaded
    exact visited_of_wp hreload (hrow.recoverListed_wp hhost rfl)

end Passes

/-- Wherever a launch of an isolated attempt is cut off or fails, while every port answers and
GitHub does not list the runner: if nothing exists that the row does not name, two passes retire
the attempt; and in every case, after any number of passes, the recovery at the start of the agent
and one more pass do. Retired, the attempt is cleaned, its resource is gone and it holds no
capacity. -/
theorem interrupted_launch_retired {launcher : Launcher} {policy : ScalePolicy}
    {attempt : RunnerAttempt} {labels : RoutingLabels} {rest : LifecycleProgram RunnerAttempt}
    {s : Remnant} (hallocated : Allocated attempt) (hpolicy : attempt.policyId = policy.id)
    (hhost : policy.hostId = launcher.hostId)
    (hlaunch : (remnantContract attempt.policyId).Runs (launchSteps launcher policy attempt labels)
      ⟨attempt, none⟩ rest s) :
    (s.Identified →
      (∀ n, ∃ t, PassedOver launcher policy .notRegistered n s t) ∧
      ∀ n t, PassedOver launcher policy .notRegistered (n + 2) s t →
        t.journal.state = .cleaned ∧ t.resource = none ∧
          t.journal.countsAgainstCapacity = false) ∧
    ∀ before u, PassedOver launcher policy .notRegistered before s u →
      (∃ t, RecoveredAtStart launcher policy .notRegistered u t) ∧
      ∀ t, RecoveredAtStart launcher policy .notRegistered u t →
        (∀ n, ∃ v, PassedOver launcher policy .notRegistered n t v) ∧
        ∀ n v, PassedOver launcher policy .notRegistered (n + 1) t v →
          v.journal.state = .cleaned ∧ v.resource = none ∧
            v.journal.countsAgainstCapacity = false := by
  have hinterrupted : Interrupted policy.id s := hpolicy ▸ hallocated.interrupted_of_runs hlaunch
  have hrecoverable : Recoverable policy.id s := .inr hinterrupted
  have hends (t : Remnant) (ht : t.Retired) : t.journal.state = .cleaned ∧ t.resource = none ∧
      t.journal.countsAgainstCapacity = false :=
    ⟨ht.cleaned, ht.removed, ht.released⟩
  refine ⟨fun hidentified ↦ ⟨fun n ↦ (hrecoverable.passes n).1, fun n t hpasses ↦ ?_⟩, ?_⟩
  · exact hends t (hinterrupted.passes hidentified hpasses)
  · intro before u hbefore
    obtain ⟨hexists, hall⟩ := ((hrecoverable.passes before).2 u hbefore).recovered hhost
    refine ⟨hexists, fun t hrecovered ↦ ?_⟩
    rcases hall t hrecovered with hretired | hstarted
    · refine ⟨fun n ↦ ?_, fun n v hpasses ↦ hends v (hretired.passes hpasses)⟩
      have hstill : Recoverable policy.id t := .inl hretired
      exact (hstill.passes n).1
    · refine ⟨fun n ↦ ?_, fun n v hpasses ↦ hends v (hstarted.passes hpasses)⟩
      have hstill : Recoverable policy.id t := .inr hstarted.2.1
      exact (hstill.passes n).1

/-- An isolated attempt before its launch. -/
def allocatedIsolated : RunnerAttempt :=
  AttemptOp.execAll [.allocateExecution (.isolated .virtualMachine none ⟨"vm-version:1"⟩ "g1")]
    (.allocate ⟨1⟩ ⟨2⟩ "/r/1" 0)

theorem allocatedIsolated_allocated : Allocated allocatedIsolated where
  state := rfl
  githubRunnerId := rfl
  wellFormed := AttemptOp.exec_all_wellFormed _ (.allocateIn ..)
  isolated := rfl
  unnamed := rfl

def isolatedPolicy : ScalePolicy :=
  { samplePolicy with
    executionPolicy := .isolated .virtualMachine ⟨"vm-version:1"⟩ ⟨1000, 1024, 2048⟩ }

def preparedResource : Resource := ⟨"e1", by decide⟩

def isolatedLabels : RoutingLabels :=
  .deriveForProfile ⟨"build", build_label⟩ .linux .x64 ⟨"gpu", gpu_profile⟩

/-- What a launch of it may leave. -/
def Leaves (s : Remnant) : Prop :=
  ∃ rest, (remnantContract allocatedIsolated.policyId).Runs
    (launchSteps sampleLauncher isolatedPolicy allocatedIsolated isolatedLabels)
    ⟨allocatedIsolated, none⟩ rest s

theorem preparation_cut_off : Leaves ⟨preparingIsolated, some preparedResource⟩ := by
  have h0 := Contract.Runs.cut (C := remnantContract allocatedIsolated.policyId)
    (launchSteps sampleLauncher isolatedPolicy allocatedIsolated isolatedLabels)
    ⟨allocatedIsolated, none⟩
  have h1 := h0.advance (.materialize allocatedIsolated) (.ok "2.330.0") _ rfl ⟨rfl, .inl rfl⟩
  have h2 := h1.advance (.prune "2.330.0") (.ok ()) _ rfl ⟨rfl, .inl rfl⟩
  have h3 := h2.advance (.rememberVersion ⟨1⟩ "2.330.0") (.ok ()) _ rfl ⟨rfl, .inl rfl⟩
  have h4 := h3.advance .now (1 : Int) _ rfl ⟨rfl, .inl rfl⟩
  have h5 := h4.advance (.recordAttempt preparingIsolated) (.ok ()) _ rfl rfl
  have h6 := h5.advance (.prepare preparingIsolated isolatedPolicy) (.error .hostUnfit)
    ⟨preparingIsolated, some preparedResource⟩ rfl ⟨rfl, fun _ hid ↦ by cases hid⟩
  exact ⟨_, h6⟩

/-- The row of the attempt once its configuration was received. -/
def receivedIsolated : RunnerAttempt :=
  AttemptOp.execAll [.preparedEnvironment "e1", .markPrepared 2, .jitReceived 3] preparingIsolated

theorem start_cut_off : Leaves ⟨receivedIsolated, some preparedResource⟩ := by
  have h0 := Contract.Runs.cut (C := remnantContract allocatedIsolated.policyId)
    (launchSteps sampleLauncher isolatedPolicy allocatedIsolated isolatedLabels)
    ⟨allocatedIsolated, none⟩
  have h1 := h0.advance (.materialize allocatedIsolated) (.ok "2.330.0") _ rfl ⟨rfl, .inl rfl⟩
  have h2 := h1.advance (.prune "2.330.0") (.ok ()) _ rfl ⟨rfl, .inl rfl⟩
  have h3 := h2.advance (.rememberVersion ⟨1⟩ "2.330.0") (.ok ()) _ rfl ⟨rfl, .inl rfl⟩
  have h4 := h3.advance .now (1 : Int) _ rfl ⟨rfl, .inl rfl⟩
  have h5 := h4.advance (.recordAttempt preparingIsolated) (.ok ()) _ rfl rfl
  have h6 := h5.advance (.prepare preparingIsolated isolatedPolicy)
    (.ok ⟨⟨1⟩, some (.isolated ⟨1⟩ ⟨1⟩ .virtualMachine "e1" ⟨"vm-version:1"⟩ "g1")⟩)
    ⟨preparingIsolated, some preparedResource⟩ rfl ⟨rfl, ?_⟩
  · have h7 := h6.advance .now (2 : Int) _ rfl ⟨rfl, .inl rfl⟩
    have h8 := h7.advance (.recordAttempt (AttemptOp.execAll
      [.preparedEnvironment "e1", .markPrepared 2] preparingIsolated)) (.ok ()) _ rfl rfl
    have h9 := h8.advance (.register isolatedPolicy.target _) (.ok ⟨7, "jit"⟩) _ rfl
      ⟨rfl, .inl rfl⟩
    have h10 := h9.advance (.readRunnerId "/r/1") none _ rfl ⟨rfl, .inl rfl⟩
    have h11 := h10.advance (.storeRunnerId "/r/1" 7) (.ok ()) _ rfl ⟨rfl, .inl rfl⟩
    have h12 := h11.advance .now (3 : Int) _ rfl ⟨rfl, .inl rfl⟩
    have h13 := h12.advance (.recordAttempt receivedIsolated) (.ok ()) _ rfl rfl
    exact ⟨_, h13⟩
  · rintro _ ⟨⟩ _ ⟨⟩
    rfl

/-- After either, the attempt is retired: by two passes where the row names the resource, and by the
recovery at the start of the agent and a pass where it does not. -/
theorem cut_off_launches_retired :
    (∃ t, PassedOver sampleLauncher isolatedPolicy .notRegistered 2
        ⟨receivedIsolated, some preparedResource⟩ t ∧
      t.journal.state = .cleaned ∧ t.resource = none ∧
        t.journal.countsAgainstCapacity = false) ∧
    ∃ t v, RecoveredAtStart sampleLauncher isolatedPolicy .notRegistered
        ⟨preparingIsolated, some preparedResource⟩ t ∧
      PassedOver sampleLauncher isolatedPolicy .notRegistered 1 t v ∧
      v.journal.state = .cleaned ∧ v.resource = none ∧
        v.journal.countsAgainstCapacity = false := by
  constructor
  · obtain ⟨rest, hruns⟩ := start_cut_off
    obtain ⟨hexists, hends⟩ :=
      (interrupted_launch_retired allocatedIsolated_allocated rfl rfl hruns).1 (.inr rfl)
    obtain ⟨t, hpasses⟩ := hexists 2
    exact ⟨t, hpasses, hends 0 t hpasses⟩
  · obtain ⟨rest, hruns⟩ := preparation_cut_off
    obtain ⟨⟨t, hrecovered⟩, hall⟩ :=
      (interrupted_launch_retired allocatedIsolated_allocated rfl rfl hruns).2 0 _ rfl
    obtain ⟨hexists, hends⟩ := hall t hrecovered
    obtain ⟨v, hpasses⟩ := hexists 1
    exact ⟨t, v, hrecovered, hpasses, hends 0 v hpasses⟩

/-- A resource that no row names is left by any number of passes, and so is one whose runner may
have been started while GitHub is out of reach; every pass comes to its end. -/
theorem passes_alone_insufficient :
    (∃ s, Leaves s ∧ ∀ n,
      (∃ t, PassedOver sampleLauncher isolatedPolicy .notRegistered n s t) ∧
      ∀ t, PassedOver sampleLauncher isolatedPolicy .notRegistered n s t →
        t.journal.state ≠ .cleaned ∧ t.resource ≠ none ∧
          t.journal.countsAgainstCapacity = true) ∧
    ∃ s, Leaves s ∧ s.Identified ∧ ∀ n,
      (∃ t, PassedOver sampleLauncher isolatedPolicy .unreachable n s t) ∧
      ∀ t, PassedOver sampleLauncher isolatedPolicy .unreachable n s t →
        t.journal.state ≠ .cleaned ∧ t.resource ≠ none ∧
          t.journal.countsAgainstCapacity = true := by
  constructor
  · refine ⟨_, preparation_cut_off, fun n ↦ ?_⟩
    obtain ⟨rest, hruns⟩ := preparation_cut_off
    have h := allocatedIsolated_allocated.interrupted_of_runs hruns
    have hrecoverable : Recoverable _ _ := .inr h
    refine ⟨(hrecoverable.passes n).1, fun t hpasses ↦ ?_⟩
    have hunidentified : ¬ Remnant.Identified ⟨preparingIsolated, some preparedResource⟩ := by
      rintro (hgone | hnamed)
      · cases hgone
      · cases hnamed
    obtain ⟨ht, hleft⟩ := h.stranded hunidentified hpasses
    exact ⟨ht.not_cleaned, fun hgone ↦ hleft (.inl hgone), ht.holds⟩
  · refine ⟨_, start_cut_off, .inr rfl, fun n ↦ ?_⟩
    obtain ⟨rest, hruns⟩ := start_cut_off
    have h := allocatedIsolated_allocated.interrupted_of_runs hruns
    obtain ⟨hexists, hall⟩ := h.unreachable (.inl rfl) n
    refine ⟨hexists, fun t hpasses ↦ ?_⟩
    obtain ⟨ht, hresource⟩ := hall t hpasses
    refine ⟨ht.not_cleaned, fun hgone ↦ ?_, ht.holds⟩
    cases hgone.symm.trans hresource

end RunnerManager.Agent
