import RunnerManager.Agent.Attribution
import RunnerManager.Agent.Launches

/-!
# Registrations at GitHub

`Registry` is one attempt with the runner id stored beside its runtime and the runner that GitHub
lists under its name. GitHub may drop a runner at any time and lists a new one only for a
registration, whose answer may be lost. A run is one launch and then any number of passes, each
cut off anywhere. `deregistered_iff` says which conclusions deregister a runner that is still
listed.
-/

namespace RunnerManager.Agent

open RunnerManager.Domain

/-! ## The registry -/

/-- One attempt, its stored runner id, and GitHub's list under its name. -/
structure Registry where
  history : History
  stored : Option Nat
  listed : Option Nat
  /-- A termination was ordered by some pass. -/
  ordered : Bool

namespace Registry

/-- What the ports answer: GitHub may be out of reach and otherwise tells its list, the stored id
is read as it is, and a terminate mark comes from an order. -/
def Answers (s : Registry) (c : LifecycleCall) (answer : c.Answer) : Prop :=
  match c, answer with
  | .observe .., github => github = .unreachable ∨
      github = .notRegistered ∧ s.listed = none ∨
      ∃ runnerId busy, github = .registered runnerId busy ∧ s.listed = some runnerId
  | .readRunnerId _, stored => stored = s.stored
  | .hasTerminateIntent _, found => found = true → s.ordered = true
  | _, _ => True

/-- What becomes of the stored id: a write that fails may have been made, and a scrub removes it
with the runtime. -/
def Stores (s : Registry) (c : LifecycleCall) (answer : c.Answer) (next : Option Nat) : Prop :=
  match c, answer with
  | .storeRunnerId _ runnerId, .ok _ => next = some runnerId
  | .storeRunnerId _ runnerId, .error _ => next = s.stored ∨ next = some runnerId
  | .scrubWorkspace _, _ => next = s.stored ∨ next = none
  | _, _ => next = s.stored

/-- What becomes of GitHub's list: a registration that fails may have been accepted. -/
def Lists (s : Registry) (c : LifecycleCall) (answer : c.Answer) (next : Option Nat) : Prop :=
  next = none ∨
    match c, answer with
    | .register .., .ok registration => next = some registration.runnerId
    | .register .., .error _ => True
    | _, _ => next = s.listed

/-- Whether a termination was ordered. -/
def orders (s : Registry) : LifecycleCall → Bool
  | .recordTerminateIntent _ => true
  | _ => s.ordered

end Registry

/-- The contract of an operation over the registry. -/
def registryContract : Contract LifecycleCall LifecycleCall.Answer Registry where
  requires s c := s.history.Requires c
  steps s c answer t := s.Answers c answer ∧ t.history = s.history.after c answer ∧
    s.Stores c answer t.stored ∧ s.Lists c answer t.listed ∧ t.ordered = s.orders c

/-- An operation on one attempt, or its rest. -/
abbrev OperationProgram := LifecycleProgram Unit

/-- An operation whose result nobody looks at. -/
def operation {α : Type} (p : LifecycleProgram α) : OperationProgram := do
  let _ ← p

/-- A launch, from the moment its attempt is journalled. -/
def Registry.Starts (s : Registry) (p : OperationProgram) : Prop :=
  ∃ launcher policy attempt labels,
    Contract.anything.Runs (allocateAttempt policy) () (.done (.ok (attempt, labels))) () ∧
    s = ⟨.start .launch attempt, none, none, false⟩ ∧
    p = operation (launchSteps launcher policy attempt labels)

/-- The next pass, on what the journal gives back; GitHub may have dropped the runner since. -/
def Registry.Opens (s t : Registry) (p : OperationProgram) : Prop :=
  ∃ launcher policy attempt, s.history.journal.reload = .ok attempt ∧
    t.history = .start .pass attempt ∧ t.stored = s.stored ∧
    (t.listed = none ∨ t.listed = s.listed) ∧ t.ordered = s.ordered ∧
    p = operation (reconcileOne launcher policy attempt)

/-- What a launch and the passes after it reach. -/
def Launched (s : Registry) (p : OperationProgram) : Prop :=
  registryContract.Reaches Registry.Starts Registry.Opens s p

theorem Launched.answered {s : Registry} {p : OperationProgram} (h : Launched s p)
    (c : LifecycleCall) (answer : c.Answer) {next : c.Answer → OperationProgram}
    (hask : p = .ask c next) (hanswer : s.Answers c answer) {stored listed : Option Nat}
    (hstores : s.Stores c answer stored) (hlists : s.Lists c answer listed) :
    Launched ⟨s.history.after c answer, stored, listed, s.orders c⟩ (next answer) := by
  subst hask
  exact .call h answer ⟨hanswer, rfl, hstores, hlists, rfl⟩

/-! ## Operations -/

theorem operation_wp {α : Type} {p : LifecycleProgram α}
    {Q : Except LifecycleError α → History → Prop} {s : Registry}
    (h : historyContract.wp p Q s.history) :
    registryContract.wp (operation p) (fun _ _ ↦ True) s := by
  have hp : registryContract.wp p (fun result t ↦ Q result t.history) s := by
    refine Contract.wp_of_map (C := historyContract) Registry.history (fun _ _ h ↦ h) ?_ h
    rintro t c answer u ⟨-, hhistory, -⟩
    exact hhistory
  refine (Contract.wp_bind _ _).mpr (Contract.wp_mono hp fun result t _ ↦ ?_)
  cases result <;> trivial

/-! ## Names -/

/-- An id names the runner that is listed, if one is. -/
def Names (known listed : Option Nat) : Prop :=
  ∀ runnerId current, known = some runnerId → listed = some current → runnerId = current

theorem Names.dropped {known listed next : Option Nat} (h : Names known listed)
    (hnext : next = none ∨ next = listed) : Names known next := by
  rcases hnext with rfl | rfl
  · exact fun _ _ _ hlisted ↦ nomatch hlisted
  · exact h

/-- What was seen at GitHub still names what is listed. -/
structure Observes (github : LifecycleGithubObservation) (listed : Option Nat) : Prop where
  gone : github.status = .notRegistered → listed = none
  names : Names github.runnerId listed
  named : github.status.isRegistered = true → github.runnerId ≠ none

theorem Observes.dropped {github : LifecycleGithubObservation} {listed next : Option Nat}
    (h : Observes github listed) (hnext : next = none ∨ next = listed) : Observes github next where
  gone := fun hgone ↦ by
    rcases hnext with rfl | rfl
    · rfl
    · exact h.gone hgone
  names := h.names.dropped hnext
  named := h.named

theorem observes_of_answer {s : Registry} {target : ScaleTarget} {id : AttemptId}
    {github : LifecycleGithubObservation} (h : s.Answers (.observe target id) github) :
    Observes github s.listed := by
  rcases h with rfl | ⟨rfl, hnone⟩ | ⟨runnerId, busy, rfl, hlisted⟩
  · exact ⟨nofun, (fun _ _ h ↦ nomatch h), nofun⟩
  · exact ⟨fun _ ↦ hnone, (fun _ _ h ↦ nomatch h), nofun⟩
  · refine ⟨nofun, fun known current hknown hcurrent ↦ ?_, fun _ ↦ Option.some_ne_none _⟩
    rw [hlisted] at hcurrent
    exact (Option.some.inj hknown).symm.trans (Option.some.inj hcurrent)

/-! ## What every run keeps -/

/-- What a run keeps while the attempt has not concluded: every id it goes by names what is
listed, and an attempt that has its configuration has its runner id stored. -/
structure Tracked (s : Registry) : Prop where
  stored : Names s.stored s.listed
  journalled : Names s.history.journal.githubRunnerId s.listed
  registered : Names s.history.registered s.listed
  observed : ∀ github, s.history.github = some github → Observes github s.listed
  last : ∀ stored, s.history.file.last = some stored → stored = s.stored
  ids : ∀ runnerId ∈ s.history.file.ids, s.stored = some runnerId
  configured : History.beforeJit s.history.journal.state = false → s.stored ≠ none
  ordered : s.ordered = true → s.stored ≠ none
  mark : s.history.mark = some true → s.stored ≠ none
  launch : s.history.operation = .launch → s.history.github = none ∧
    (s.history.registered = none → s.stored = none ∧ s.history.journal.githubRunnerId = none)

namespace Tracked

variable {s : Registry}

theorem dropped (h : Tracked s) {listed : Option Nat}
    (hlisted : listed = none ∨ listed = s.listed) : Tracked { s with listed } :=
  { h with
    stored := h.stored.dropped hlisted
    journalled := h.journalled.dropped hlisted
    registered := h.registered.dropped hlisted
    observed := fun github hgithub ↦ (h.observed github hgithub).dropped hlisted }

theorem sourced (h : Tracked s) {runnerId : Nat} (hsourced : s.history.Sourced runnerId) :
    Names (some runnerId) s.listed := by
  rcases hsourced with hjournal | ⟨github, hgithub, hobserved⟩ | hfile
  · rw [← hjournal]
    exact h.journalled
  · rw [← hobserved]
    exact (h.observed github hgithub).names
  · rw [← h.ids runnerId hfile]
    exact h.stored

theorem not_sourced (h : Tracked s) (hlaunch : s.history.operation = .launch)
    (hregistered : s.history.registered = none) {runnerId : Nat} :
    ¬ s.history.Sourced runnerId := by
  obtain ⟨hgithub, hfresh⟩ := h.launch hlaunch
  obtain ⟨hstored, hjournal⟩ := hfresh hregistered
  rintro (hknown | ⟨github, hseen, -⟩ | hfile)
  · rw [hjournal] at hknown
    cases hknown
  · rw [hgithub] at hseen
    cases hseen
  · rw [h.ids runnerId hfile] at hstored
    cases hstored

end Tracked

theorem configured_edge {state next : AttemptState} (hedge : state.canTransitionTo next = true)
    (hlive : next.isTerminal = false) (hnext : History.beforeJit next = false) :
    History.beforeJit state = false ∨ next = .jitReceived :=
  AttemptState.legal_induction (P := fun state next ↦ next.isTerminal = false →
    History.beforeJit next = false → History.beforeJit state = false ∨ next = .jitReceived)
    (by decide) hedge hlive hnext

namespace Tracked

variable {s : Registry}

theorem rewritten (h : Tracked s) {journal : RunnerAttempt}
    (hnames : Names journal.githubRunnerId s.listed)
    (hconfigured : History.beforeJit journal.state = false → s.stored ≠ none)
    (hlaunch : s.history.operation = .launch → s.history.registered = none →
      journal.githubRunnerId = none) :
    Tracked { s with history := { s.history with journal } } :=
  { h with
    journalled := hnames
    configured := hconfigured
    launch := fun hoperation ↦ by
      obtain ⟨hgithub, hfresh⟩ := h.launch hoperation
      exact ⟨hgithub, fun hregistered ↦ ⟨(hfresh hregistered).1, hlaunch hoperation hregistered⟩⟩ }

theorem stored_of_ids (h : Tracked s) (hids : s.history.file.ids ≠ []) : s.stored ≠ none := by
  obtain ⟨runnerId, hmem⟩ := List.exists_mem_of_ne_nil _ hids
  rw [h.ids runnerId hmem]
  exact Option.some_ne_none _

theorem stored_of_jitReceived (h : Tracked s) {now : Timestamp}
    (hallows : s.history.Allows (.jitReceived now)) : s.stored ≠ none := by
  rcases hallows with hids | ⟨github, hgithub, hlisted, hnone⟩
  · exact h.stored_of_ids hids
  · exact absurd hnone ((h.observed github hgithub).named hlisted)

theorem recorded (h : Tracked s) {op : AttemptOp} (hallows : s.history.Allows op)
    (hpermits : op.Permits s.history.journal)
    (hlive : (op.effect s.history.journal).state.isTerminal = false) :
    Tracked { s with history := { s.history with journal := op.effect s.history.journal } } := by
  have hkept (hlaunch : s.history.operation = .launch)
      (hregistered : s.history.registered = none) :=
    ((h.launch hlaunch).2 hregistered).2
  have hconfigured (next : AttemptState) (htarget : op.target = some next)
      (hnext : next.isTerminal = false) (hjit : next ≠ .jitReceived) :
      History.beforeJit next = false → s.stored ≠ none := fun hbefore ↦
    h.configured ((configured_edge (hpermits.2 next htarget) hnext hbefore).resolve_right hjit)
  cases op with
  | allocateExecution _ => exact hallows.elim
  | preparedEnvironment _ => exact h.rewritten h.journalled h.configured hkept
  | jitReceived _ =>
    exact h.rewritten h.journalled (fun _ ↦ h.stored_of_jitReceived hallows) hkept
  | registeredIdle runnerId _ | assignedJob runnerId _ =>
    exact h.rewritten (h.sourced hallows.1) (hconfigured _ rfl rfl nofun)
      fun hlaunch hregistered ↦ absurd hallows.1 (h.not_sourced hlaunch hregistered)
  | beginPrepare _ | markPrepared _ | started _ _ | startedIsolated _ | assignmentNotTaken _ =>
    exact h.rewritten h.journalled (hconfigured _ rfl rfl nofun) hkept
  | conclude outcome now =>
    rw [show ((AttemptOp.conclude outcome now).effect s.history.journal).state.isTerminal = true
      from AttemptOutcome.terminalState_isTerminal] at hlive
    cases hlive
  | clean _ | beginDestroy _ | deferCleanup _ | cleanIsolated _ => cases hlive

theorem observed_after (h : Tracked s) {target : ScaleTarget} {id : AttemptId}
    {github : LifecycleGithubObservation} (hpass : s.history.operation = .pass)
    (hanswer : s.Answers (.observe target id) github) :
    Tracked { s with history := { s.history with github := some github } } :=
  { h with
    observed := fun seen hseen ↦ by
      obtain rfl := Option.some.inj hseen
      exact observes_of_answer hanswer
    launch := fun hlaunch ↦ by
      have hoperation : s.history.operation = .launch := hlaunch
      rw [hpass] at hoperation
      cases hoperation }

theorem read (h : Tracked s) :
    Tracked { s with history := { s.history with file := s.history.file.read s.stored } } :=
  { h with
    last := fun stored hstored ↦ (Option.some.inj hstored).symm
    ids := fun runnerId hmem ↦ by
      rcases List.mem_append.mp hmem with hread | hbefore
      · exact Option.mem_toList.mp hread
      · exact h.ids runnerId hbefore }

theorem names_of_store (h : Tracked s) {runtime : String} {runnerId : Nat}
    (hrequires : s.history.Requires (.storeRunnerId runtime runnerId)) :
    Names (some runnerId) s.listed ∧
      (s.history.operation = .launch → s.history.registered ≠ none) := by
  rcases hrequires.2 with hregistered | ⟨github, hgithub, hobserved⟩
  · exact ⟨hregistered ▸ h.registered, fun _ ↦ hregistered ▸ Option.some_ne_none _⟩
  · refine ⟨hobserved ▸ (h.observed github hgithub).names, fun hlaunch ↦ ?_⟩
    rw [(h.launch hlaunch).1] at hgithub
    cases hgithub

theorem stored_after (h : Tracked s) {runtime : String} {runnerId : Nat}
    (hrequires : s.history.Requires (.storeRunnerId runtime runnerId)) {file : RunnerFile}
    (hlast : ∀ stored, file.last = some stored → stored = some runnerId)
    (hids : ∀ known ∈ file.ids, known = runnerId) :
    Tracked { s with history := { s.history with file }, stored := some runnerId } := by
  obtain ⟨hnames, hregistered⟩ := h.names_of_store hrequires
  have hstored : some runnerId ≠ none := Option.some_ne_none _
  exact
    { h with
      stored := hnames
      last := hlast
      ids := fun known hmem ↦ congrArg some (hids known hmem).symm
      configured := fun _ ↦ hstored
      ordered := fun _ ↦ hstored
      mark := fun _ ↦ hstored
      launch := fun hlaunch ↦
        ⟨(h.launch hlaunch).1, fun hnone ↦ absurd hnone (hregistered hlaunch)⟩ }

theorem ids_of_store (h : Tracked s) {runtime : String} {runnerId : Nat}
    (hrequires : s.history.Requires (.storeRunnerId runtime runnerId)) :
    s.history.file.ids = [] := by
  have hnone : none = s.stored := h.last none hrequires.1
  refine List.eq_nil_iff_forall_not_mem.mpr fun known hmem ↦ ?_
  rw [h.ids known hmem] at hnone
  cases hnone

theorem store (h : Tracked s) {runtime : String} {runnerId : Nat}
    {answer : Except LifecycleError Unit}
    (hrequires : s.history.Requires (.storeRunnerId runtime runnerId)) {stored : Option Nat}
    (hstores : s.Stores (.storeRunnerId runtime runnerId) answer stored) :
    Tracked { s with
      history := s.history.after (.storeRunnerId runtime runnerId) answer, stored } := by
  have hids := h.ids_of_store hrequires
  cases answer with
  | ok _ =>
    obtain rfl : stored = some runnerId := hstores
    refine h.stored_after hrequires (fun _ hread ↦ (Option.some.inj hread).symm) ?_
    intro known hmem
    change known ∈ runnerId :: s.history.file.ids at hmem
    rw [hids] at hmem
    exact List.mem_singleton.mp hmem
  | error _ =>
    -- The write may have been made all the same; the operation does not look.
    rcases hstores with rfl | rfl
    · exact { h with last := fun _ hread ↦ absurd hread.symm (Option.some_ne_none _) }
    · refine h.stored_after hrequires (fun _ hread ↦ absurd hread.symm (Option.some_ne_none _)) ?_
      intro known hmem
      change known ∈ s.history.file.ids at hmem
      rw [hids] at hmem
      cases hmem

theorem looked (h : Tracked s) {attempt : RunnerAttempt} {found : Bool}
    (hanswer : s.Answers (.hasTerminateIntent attempt) found) :
    Tracked { s with history := s.history.after (.hasTerminateIntent attempt) found } :=
  { h with mark := fun hmark ↦ h.ordered (hanswer (Option.some.inj hmark)) }

theorem ordered_after (h : Tracked s) {attempt : RunnerAttempt}
    (answer : Except FailureReason Unit)
    (hrequires : s.history.Requires (.recordTerminateIntent attempt)) :
    Tracked { s with
      history := s.history.after (.recordTerminateIntent attempt) answer, ordered := true } := by
  have hstored : s.stored ≠ none := by
    refine h.configured ?_
    rcases hrequires with hstate | hstate <;> rw [hstate] <;> rfl
  exact { h with ordered := fun _ ↦ hstored }

/-- A registration was asked for; it may have been accepted whatever it answered. -/
theorem register (h : Tracked s) {target : ScaleTarget} {request : JitRunnerRequest}
    {answer : Except JitRequestFailure JitRegistration}
    (hrequires : s.history.Requires (.register target request)) {listed : Option Nat}
    (hlists : s.Lists (.register target request) answer listed) :
    Tracked { s with history := s.history.after (.register target request) answer, listed } := by
  obtain ⟨hlaunch, hregistered⟩ := hrequires
  obtain ⟨hgithub, hfresh⟩ := h.launch hlaunch
  obtain ⟨hstored, hjournal⟩ := hfresh hregistered
  have hunnamed {known : Option Nat} (hknown : known = none) : Names known listed := by
    subst hknown
    exact fun _ _ h ↦ nomatch h
  have hunseen (github : LifecycleGithubObservation) (hseen : s.history.github = some github) :
      Observes github listed := by
    rw [hgithub] at hseen
    cases hseen
  cases answer with
  | error _ =>
    exact { h with
      stored := hunnamed hstored
      journalled := hunnamed hjournal
      registered := hunnamed hregistered
      observed := hunseen }
  | ok registration =>
    have hnames : Names (some registration.runnerId) listed := by
      rcases hlists with rfl | hlisted
      · exact fun _ _ _ h ↦ nomatch h
      · rintro _ _ ⟨⟩ hcurrent
        exact Option.some.inj (hlisted.symm.trans hcurrent)
    exact { h with
      stored := hunnamed hstored
      journalled := hunnamed hjournal
      registered := hnames
      observed := hunseen
      launch := fun _ ↦ ⟨hgithub, fun hnone ↦ absurd hnone (Option.some_ne_none _)⟩ }

/-- One step of a run, up to what GitHub drops. -/
theorem after (h : Tracked s) (hwf : WellFormed s.history.journal)
    (hbefore : s.history.journal.state.isTerminal = false) {c : LifecycleCall} {answer : c.Answer}
    (hrequires : s.history.Requires c) {t : Registry}
    (hstep : registryContract.steps s c answer t)
    (hlive : t.history.journal.state.isTerminal = false) : Tracked t := by
  obtain ⟨history, stored, listed, ordered⟩ := t
  obtain ⟨hanswer, hhistory, hstores, hlists, hordered⟩ := hstep
  dsimp only at hhistory hstores hlists hordered hlive
  subst hhistory hordered
  cases c with
  | recordAttempt attempt =>
    obtain rfl : stored = s.stored := hstores
    cases answer with
    | error _ => exact h.dropped hlists
    | ok _ =>
      rcases hrequires with
        ⟨op, hop, hallows⟩ | ⟨hlaunch, environmentId, now, middle, hop, hmark⟩
      · obtain ⟨hpermits, rfl⟩ := AttemptOp.answer_iff.mp hop
        exact (h.recorded hallows hpermits hlive).dropped hlists
      · obtain ⟨hpermits, rfl⟩ := AttemptOp.answer_iff.mp hop
        obtain ⟨hmarks, rfl⟩ := AttemptOp.answer_iff.mp hmark
        have hnames : s.history.Allows (.preparedEnvironment environmentId) := hlaunch
        have hnamed := h.recorded hnames hpermits (live_of_effect hmarks hlive)
        have hprepares : History.Allows { s.history with
            journal := (AttemptOp.preparedEnvironment environmentId).effect s.history.journal }
            (.markPrepared now) := hlaunch
        exact (hnamed.recorded hprepares hmarks hlive).dropped hlists
  | observe target id =>
    obtain rfl : stored = s.stored := hstores
    exact (h.observed_after hrequires hanswer).dropped hlists
  | readRunnerId _ =>
    obtain rfl : stored = s.stored := hstores
    obtain rfl : answer = s.stored := hanswer
    exact h.read.dropped hlists
  | storeRunnerId runtime runnerId => exact (h.store hrequires hstores).dropped hlists
  | hasTerminateIntent attempt =>
    obtain rfl : stored = s.stored := hstores
    exact (h.looked hanswer).dropped hlists
  | recordTerminateIntent attempt =>
    obtain rfl : stored = s.stored := hstores
    exact (h.ordered_after answer hrequires).dropped hlists
  | register target request =>
    obtain rfl : stored = s.stored := hstores
    exact h.register hrequires hlists
  | scrubWorkspace attempt =>
    have hended : s.history.journal.state.isTerminal = true :=
      hrequires.elim (fun hsome ↦ hwf.outcome ▸ hsome) id
    rw [hbefore] at hended
    cases hended
  | inspect attempt =>
    obtain rfl : stored = s.stored := hstores
    have hdropped := h.dropped hlists
    cases answer <;> exact { hdropped with }
  | _ =>
    obtain rfl : stored = s.stored := hstores
    have hdropped := h.dropped hlists
    exact { hdropped with }

theorem start {attempt : RunnerAttempt} (h : Fresh attempt) :
    Tracked ⟨.start .launch attempt, none, none, false⟩ where
  stored := fun _ _ h ↦ nomatch h
  journalled := fun _ _ _ h ↦ nomatch h
  registered := fun _ _ h ↦ nomatch h
  observed := fun _ hseen ↦ absurd hseen.symm (Option.some_ne_none _)
  last := fun _ hread ↦ absurd hread.symm (Option.some_ne_none _)
  ids := fun _ hmem ↦ absurd hmem List.not_mem_nil
  configured := fun hconfigured ↦ by
    rw [show (History.start .launch attempt).journal.state = .allocated from h.state]
      at hconfigured
    cases hconfigured
  ordered := Bool.noConfusion
  mark := fun hmark ↦ absurd hmark.symm (Option.some_ne_none _)
  launch := fun _ ↦ ⟨rfl, fun _ ↦ ⟨rfl, h.githubRunnerId⟩⟩

theorem opened (h : Tracked s) {attempt : RunnerAttempt}
    (hreload : s.history.journal.reload = .ok attempt) :
    Tracked { s with history := .start .pass attempt } := by
  have hback := readsBack_of_reload hreload
  exact
    { stored := h.stored
      journalled := hback.githubRunnerId ▸ h.journalled
      registered := fun _ _ h ↦ nomatch h
      observed := fun _ hseen ↦ absurd hseen.symm (Option.some_ne_none _)
      last := fun _ hread ↦ absurd hread.symm (Option.some_ne_none _)
      ids := fun _ hmem ↦ absurd hmem List.not_mem_nil
      configured := fun hconfigured ↦ h.configured (hback.state ▸ hconfigured)
      ordered := h.ordered
      mark := fun hmark ↦ absurd hmark.symm (Option.some_ne_none _)
      launch := Operation.noConfusion }

theorem cleared (h : Tracked s) (hcleared : s.history.Cleared)
    (hstate : s.history.mark = some true ∨ s.history.journal.state ≠ .allocated →
      s.stored ≠ none) {runnerId : Nat} (hlisted : s.listed = some runnerId) :
    runnerId ∈ s.history.deregistered := by
  rcases hcleared with ⟨github, hgithub, hgone⟩ | ⟨known, hknown, hmem⟩ | ⟨hnone, hconfigured⟩
  · rw [(h.observed github hgithub).gone hgone] at hlisted
    cases hlisted
  · rcases hknown with ⟨hjournal, -⟩ | ⟨-, hfile⟩
    · rw [← h.journalled known runnerId hjournal hlisted]
      exact hmem
    · rw [← h.stored known runnerId (h.last _ hfile).symm hlisted]
      exact hmem
  · rcases hnone with ⟨-, hsome⟩ | ⟨-, hfile⟩
    · cases hsome
    · exact absurd (h.last none hfile).symm (hstate hconfigured)

end Tracked

/-- What every run of a launch and the passes after it keeps. -/
def Registry.Sound (s : Registry) : Prop :=
  WellFormed s.history.journal ∧ (s.history.journal.state.isTerminal = false → Tracked s)

namespace Registry.Sound

variable {s : Registry}

theorem written {s : History} (hwf : WellFormed s.journal) {attempt : RunnerAttempt}
    (h : s.Requires (.recordAttempt attempt)) : WellFormed attempt ∧
      (attempt.state.isTerminal = false → s.journal.state.isTerminal = false) := by
  rcases h with ⟨op, hop, -⟩ | ⟨-, environmentId, now, middle, hop, hmark⟩
  · obtain ⟨hpermits, rfl⟩ := AttemptOp.answer_iff.mp hop
    exact ⟨hwf.effect hpermits, live_of_effect hpermits⟩
  · obtain ⟨hpermits, rfl⟩ := AttemptOp.answer_iff.mp hop
    obtain ⟨hmarks, rfl⟩ := AttemptOp.answer_iff.mp hmark
    exact ⟨(hwf.effect hpermits).effect hmarks,
      fun hlive ↦ live_of_effect hpermits (live_of_effect hmarks hlive)⟩

theorem journal_after {s : History} (hwf : WellFormed s.journal) {c : LifecycleCall}
    (answer : c.Answer) (h : s.Requires c) : WellFormed (s.after c answer).journal ∧
      ((s.after c answer).journal.state.isTerminal = false →
        s.journal.state.isTerminal = false) := by
  cases c with
  | recordAttempt attempt =>
    cases answer with
    | ok _ => exact written hwf h
    | error _ => exact ⟨hwf, id⟩
  | inspect _ | storeRunnerId _ _ | register _ _ => cases answer <;> exact ⟨hwf, id⟩
  | _ => exact ⟨hwf, id⟩

theorem after (h : s.Sound) {c : LifecycleCall} {answer : c.Answer} {t : Registry}
    (hrequires : s.history.Requires c) (hstep : registryContract.steps s c answer t) : t.Sound := by
  obtain ⟨hwf, htracked⟩ := h
  obtain ⟨hwritten, hbefore⟩ := journal_after hwf answer hrequires
  rw [← hstep.2.1] at hwritten hbefore
  exact ⟨hwritten, fun hlive ↦
    (htracked (hbefore hlive)).after hwf (hbefore hlive) hrequires hstep hlive⟩

theorem of_launched {p : OperationProgram} (h : Launched s p) :
    s.Sound ∧ registryContract.wp p (fun _ _ ↦ True) s := by
  refine Contract.Reaches.sound ?_ ?_ ?_ h
  · rintro s p ⟨launcher, policy, attempt, labels, hallocated, rfl, rfl⟩
    have hfresh : Fresh attempt :=
      Contract.returned_of_runs (allocateAttempt_fresh policy) hallocated
    exact ⟨⟨hfresh.wellFormed, fun _ ↦ .start hfresh⟩,
      operation_wp (launchSteps_wp launcher policy attempt labels)⟩
  · rintro s ⟨history, stored, listed, ordered⟩ p ⟨-, htracked⟩
      ⟨launcher, policy, attempt, hreload, hhistory, hstored, hlisted, hordered, rfl⟩
    dsimp only at hhistory hstored hlisted hordered
    subst hhistory hstored hordered
    have hback := readsBack_of_reload hreload
    refine ⟨⟨hback.wellFormed, fun hlive ↦ ?_⟩,
      operation_wp (reconcileOne_wp launcher policy attempt)⟩
    exact ((htracked (hback.state ▸ hlive)).opened hreload).dropped hlisted
  · intro s c answer t hsound hrequires hstep
    exact hsound.after hrequires hstep

end Registry.Sound

/-! ## Conclusions -/

theorem concludes_of_outcome {s : History} {attempt : RunnerAttempt} {outcome : AttemptOutcome}
    (h : s.Requires (.recordAttempt attempt)) (hnone : s.journal.outcome = none)
    (hsome : attempt.outcome = some outcome) : s.MayConclude outcome := by
  rcases h with ⟨op, hop, hallows⟩ | ⟨-, environmentId, now, middle, hop, hmark⟩
  · obtain ⟨-, rfl⟩ := AttemptOp.answer_iff.mp hop
    obtain ⟨now, rfl⟩ := conclude_of_outcome hnone hsome
    exact hallows
  · obtain ⟨-, rfl⟩ := AttemptOp.answer_iff.mp hop
    obtain ⟨-, rfl⟩ := AttemptOp.answer_iff.mp hmark
    have hended : s.journal.outcome = some outcome := hsome
    rw [hnone] at hended
    cases hended

/-- The native attempt of a launch under the sample policy. -/
def launchedAttempt : RunnerAttempt := .allocate ⟨1⟩ ⟨2⟩ "/r/1" 0

def sampleLabels : RoutingLabels :=
  .deriveForProfile ⟨"build", build_label⟩ .linux .x64 ⟨"gpu", gpu_profile⟩

theorem sample_allocated : Contract.anything.Runs (allocateAttempt samplePolicy) ()
    (.done (.ok (launchedAttempt, sampleLabels))) () := by
  refine .of_ask (t := ()) (.recoveryComplete) (.ok true) rfl trivial ?_
  refine .of_ask (t := ()) (.probe samplePolicy) .ready rfl trivial ?_
  refine .of_ask (t := ()) (.resolve samplePolicy) (.ok none) rfl trivial ?_
  refine .of_ask (t := ()) (.newAttemptId) ⟨1⟩ rfl trivial ?_
  refine .of_ask (t := ()) (.allocateWorkspace samplePolicy ⟨1⟩) (.ok ⟨"/r/1", .ephemeral⟩) rfl
    trivial ?_
  refine .of_ask (t := ()) (.now) (0 : Int) rfl trivial ?_
  refine .of_ask (t := ()) (.recordAttempt launchedAttempt) (.ok ()) rfl trivial ?_
  exact .cut _ _

def configuredAttempt : RunnerAttempt :=
  (AttemptOp.jitReceived 1).effect launchedAttempt

/-- A launch that registered its runner and has not started it. -/
def configuredRegistry : Registry where
  history := { History.start .launch launchedAttempt with
    journal := configuredAttempt
    file := ⟨some (some 7), [7]⟩
    registered := some 7 }
  stored := some 7
  listed := some 7
  ordered := false

theorem sample_configured : Launched configuredRegistry
    (operation (startNative sampleLauncher samplePolicy ⟨⟨1⟩, none⟩ configuredAttempt "jit")) := by
  have h0 : Launched ⟨.start .launch launchedAttempt, none, none, false⟩
      (operation (launchSteps sampleLauncher samplePolicy launchedAttempt sampleLabels)) :=
    .start ⟨_, _, _, _, sample_allocated, rfl, rfl⟩
  have h1 := h0.answered (.materialize launchedAttempt) (.ok "2.330.0") rfl trivial rfl (.inr rfl)
  have h2 := h1.answered (.prune "2.330.0") (.ok ()) rfl trivial rfl (.inr rfl)
  have h3 := h2.answered (.rememberVersion ⟨1⟩ "2.330.0") (.ok ()) rfl trivial rfl (.inr rfl)
  have h4 := h3.answered (.prepare launchedAttempt samplePolicy) (.ok ⟨⟨1⟩, none⟩) rfl trivial rfl
    (.inr rfl)
  have h5 := h4.answered (.register samplePolicy.target ⟨runnerName ⟨1⟩, 1, sampleLabels⟩)
    (.ok ⟨7, "jit"⟩) rfl trivial rfl (.inr rfl)
  have h6 := h5.answered (.readRunnerId "/r/1") none rfl rfl rfl (.inr rfl)
  have h7 := h6.answered (.storeRunnerId "/r/1" 7) (.ok ()) rfl trivial rfl (.inr rfl)
  have h8 := h7.answered .now (1 : Int) rfl trivial rfl (.inr rfl)
  exact h8.answered (.recordAttempt configuredAttempt) (.ok ()) rfl trivial rfl (.inr rfl)

end RunnerManager.Agent
