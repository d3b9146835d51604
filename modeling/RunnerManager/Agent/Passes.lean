import RunnerManager.Agent.History

/-!
# What a supervision pass journals

Every pass over one attempt keeps the contract of `History`, whatever its ports answer. Read
`reconcileOne_wp` last: the pass is followed from its observations (`Observed`,
`ObservedIsolated`) through each of its conclusions.
-/

namespace RunnerManager.Agent

open RunnerManager.Domain
open Contract (wp_bind wp_mono)

/-! ## Conclusions -/

/-- A replacement is asked for only by the pass that recorded a failure, and for a registration
timeout only by the pass that recorded one. -/
def Settles (result : Except LifecycleError ReconcileProgress) (t : History) : Prop :=
  ∀ id operation, result = .ok (.replacement id operation) →
    ∃ reason, t.journal.outcome = some (.failed reason) ∧
      (operation = "registration_timeout_replacement" →
        reason = .terminatedAfterRegistrationTimeout)

def NamedFor (operation : Option String) (outcome : AttemptOutcome) : Prop :=
  ∀ name, operation = some name → ∃ reason, outcome = .failed reason ∧
    (name = "registration_timeout_replacement" → reason = .terminatedAfterRegistrationTimeout)

theorem replacementOperation_named (outcome : AttemptOutcome) :
    NamedFor (replacementOperation outcome) outcome := by
  intro name hname
  unfold replacementOperation at hname
  split at hname
  · obtain rfl := Option.some.inj hname
    exact ⟨_, rfl, fun h ↦ absurd h (by decide)⟩
  · obtain rfl := Option.some.inj hname
    exact ⟨_, rfl, fun h ↦ absurd h (by decide)⟩
  · cases hname

section Conclusions

variable {s : History} {attempt : RunnerAttempt} {launcher : Launcher} {policy : ScalePolicy}

theorem settles_error (error : LifecycleError) : Settles (.error error) s :=
  fun _ _ h ↦ nomatch h

theorem settles_reconciled : Settles (.ok .reconciled) s :=
  fun _ _ h ↦ nomatch h

theorem settles_deferred : Settles (.ok .deferred) s :=
  fun _ _ h ↦ nomatch h

theorem concludeAndClean_wp {outcome : AttemptOutcome} {operation : Option String}
    (hjournal : s.journal = attempt) (hmay : s.MayConclude outcome)
    (hnamed : NamedFor operation outcome) :
    historyContract.wp (concludeAndClean launcher attempt outcome operation) Settles s := by
  refine (wp_bind _ _).mpr (advance_wp hjournal (fun _ _ ↦ hmay) (fun now _ ↦ ?_)
    settles_error)
  refine (wp_bind _ _).mpr (wp_mono (cleanOrQuarantine_wp rfl)
    fun result t hkept ↦ ?_)
  cases result with
  | error error => exact settles_error error
  | ok _ =>
    cases operation with
    | none => exact settles_reconciled
    | some name =>
      intro id asked hasked
      injection hasked with hasked
      injection hasked with _ hname
      obtain ⟨reason, houtcome, hreason⟩ := hnamed name rfl
      refine ⟨reason, ?_, fun h ↦ hreason (hname.trans h)⟩
      rw [hkept, ← houtcome]
      rfl

theorem mayConclude_native {outcome : AttemptOutcome} (hpass : s.operation = .pass)
    (hnative : s.journal.execution.isNative = true)
    (hdead : ∃ state, s.process = some state ∧ state ≠ .running)
    (hcleared : outcome = .completedJob ∨ s.Cleared) (hattributed : s.Attributed outcome) :
    s.MayConclude outcome := by
  unfold History.MayConclude
  rw [hpass]
  dsimp only
  rw [if_pos hnative]
  exact ⟨hdead, hcleared, hattributed⟩

/-- A deregistration by the id the operation goes by; without one nothing is called. -/
def Deregisters (s : History) (file : RunnerFile) (ids : List Nat) : Prop :=
  s.file.ids ⊆ file.ids ∧
    ((∃ runnerId, { s with file }.KnownAs (some runnerId) ∧ runnerId ∈ ids) ∨
      { s with file }.KnownAs none)

theorem deregisterRunner_wp {Q : Except LifecycleError Unit → History → Prop}
    (hjournal : s.journal = attempt) (hpass : s.operation = .pass)
    (hjit : attempt.execution.isNative = true ∨ History.beforeJit attempt.state = false)
    (hnext : ∀ file ids, Deregisters s file ids →
      Q (.ok ()) { s with file, deregistered := ids }) :
    historyContract.wp (deregisterRunner policy attempt) Q s := by
  subst hjournal
  refine (wp_bind _ _).mpr ?_
  unfold knownRunnerId
  cases hknown : s.journal.githubRunnerId with
  | some runnerId =>
    refine ask_wp ⟨hpass, hjit⟩ fun _ ↦ hnext s.file (runnerId :: s.deregistered) ?_
    exact ⟨fun _ h ↦ h, .inl ⟨runnerId, .inl ⟨hknown, rfl⟩, List.mem_cons_self⟩⟩
  | none =>
    refine call_wp trivial fun stored ↦ ?_
    cases stored with
    | none =>
      exact hnext (s.file.read none) s.deregistered ⟨fun _ h ↦ h, .inr (.inr ⟨hknown, rfl⟩)⟩
    | some runnerId =>
      refine ask_wp ⟨hpass, hjit⟩ fun _ ↦
        hnext (s.file.read (some runnerId)) (runnerId :: s.deregistered) ?_
      exact ⟨fun _ h ↦ List.mem_cons_of_mem _ h,
        .inl ⟨runnerId, .inr ⟨hknown, rfl⟩, List.mem_cons_self⟩⟩

end Conclusions

/-! ## Observations -/

/-- What a pass knows of the attempt once GitHub was observed. -/
structure Seen (s : History) (attempt : RunnerAttempt) (github : LifecycleGithubObservation) :
    Prop where
  pass : s.operation = .pass
  journal : s.journal = attempt
  observed : s.github = some github
  stored : github.runnerId = none ∨ s.file.ids ≠ []

namespace Seen

variable {s : History} {attempt : RunnerAttempt} {github : LifecycleGithubObservation}

theorem allows_jitReceived (h : Seen s attempt github)
    (hlisted : github.status.isRegistered = true) (now : Timestamp) :
    s.Allows (.jitReceived now) := by
  rcases h.stored with hnone | hstored
  · exact .inr ⟨github, h.observed, hlisted, hnone⟩
  · exact .inl hstored

theorem known_wp {Q : Except LifecycleError (Option Nat) → History → Prop}
    (h : Seen s attempt github)
    (hnext : ∀ file runnerId, Seen { s with file } attempt github →
      (∀ id, runnerId = some id → { s with file }.Sourced id) →
      Q (.ok runnerId) { s with file }) :
    historyContract.wp (knownRunnerId attempt github.runnerId) Q s := by
  unfold knownRunnerId
  cases hjournalled : attempt.githubRunnerId with
  | some runnerId =>
    refine hnext s.file (some runnerId) h fun id hid ↦ .inl ?_
    show s.journal.githubRunnerId = some id
    rw [h.journal, hjournalled, hid]
  | none =>
    cases hobserved : github.runnerId with
    | some runnerId =>
      refine hnext s.file (some runnerId) h fun id hid ↦ .inr (.inl ⟨github, h.observed, ?_⟩)
      rw [hobserved, hid]
    | none =>
      refine call_wp trivial fun stored ↦ hnext (s.file.read stored) stored ?_ fun id hid ↦ ?_
      · exact ⟨h.pass, h.journal, h.observed, .inl hobserved⟩
      · refine .inr (.inr (List.mem_append_left _ ?_))
        rw [hid]
        exact List.mem_singleton_self id

end Seen

section Observing

variable {s : History} {attempt : RunnerAttempt} {github : LifecycleGithubObservation}

theorem recoverRunnerId_wp {Q : Except LifecycleError Unit → History → Prop}
    (hgithub : s.github = some github)
    (hok : ∀ file : RunnerFile, (github.runnerId = none ∨ file.ids ≠ []) →
      Q (.ok ()) { s with file })
    (hfailed : ∀ error file, Q (.error error) { s with file }) :
    historyContract.wp (recoverRunnerId attempt github) Q s := by
  unfold recoverRunnerId
  cases hobserved : github.runnerId with
  | none => exact hok s.file (.inl hobserved)
  | some runnerId =>
    refine ask_wp trivial fun stored ↦ ?_
    cases stored with
    | some existing => exact hok _ (.inr (List.cons_ne_nil _ _))
    | none =>
      refine ask_wp trivial fun again ↦ ?_
      cases again with
      | some existing =>
        dsimp only
        split_ifs
        · exact hok _ (.inr (List.cons_ne_nil _ _))
        · exact hfailed _ _
      | none =>
        refine ask_wp ⟨rfl, .inr ⟨github, hgithub, hobserved⟩⟩ fun answer ↦ ?_
        cases answer with
        | ok _ => exact hok _ (.inr (List.cons_ne_nil _ _))
        | error error => exact hfailed error _

end Observing

/-! ## A pass over a native attempt -/

/-- What a pass over a live native attempt knows before it decides. -/
structure Observed (s : History) (attempt : RunnerAttempt) (alive : Bool)
    (github : LifecycleGithubObservation) : Prop extends Seen s attempt github where
  native : attempt.execution.isNative = true
  live : attempt.state.isTerminal = false
  process : ∃ state, s.process = some state ∧ (alive = true ↔ state = .running)
  ordered : s.ordered = none
  condemned : s.condemned = false

namespace Observed

variable {s : History} {attempt : RunnerAttempt} {alive : Bool}
  {github : LifecycleGithubObservation}

theorem dead (h : Observed s attempt false github) :
    ∃ state, s.process = some state ∧ state ≠ .running := by
  obtain ⟨state, hprocess, halive⟩ := h.process
  exact ⟨state, hprocess, fun hrunning ↦ Bool.noConfusion (halive.mpr hrunning)⟩

end Observed

section Native

variable {s : History} {attempt : RunnerAttempt} {alive : Bool}
  {github : LifecycleGithubObservation} {launcher : Launcher} {policy : ScalePolicy}

/-- How a child that exited successfully ended, and how it gets there. -/
structure Exited (s : History) (attempt : RunnerAttempt) (alive : Bool)
    (github : LifecycleGithubObservation) (walkToBusy : Option Nat) (outcome : AttemptOutcome) :
    Prop where
  dead : alive = false
  reached : github.status ≠ .unreachable
  completed : s.completed = true
  outcome : outcome = .completedJob ∧ s.evidence ≠ some .noJob ∨
    outcome = .exitedIdleWithoutWork ∧ walkToBusy = none
  walk : ∀ runnerId, walkToBusy = some runnerId → s.Sourced runnerId

/-- The continuation of a pass that asked how the child ended. -/
structure ExitHandled (attempt : RunnerAttempt) (alive : Bool) (github : LifecycleGithubObservation)
    (Q : Except LifecycleError (Option (Option Nat × AttemptOutcome)) → History → Prop) : Prop where
  none : ∀ t, Observed t attempt alive github → t.mark = none → Q (.ok none) t
  some : ∀ t walkToBusy outcome, Observed t attempt alive github →
    Exited t attempt alive github walkToBusy outcome → Q (.ok (some (walkToBusy, outcome))) t

theorem exitEvidence_wp {Q : Except LifecycleError (Option (Option Nat × AttemptOutcome)) →
      History → Prop} (h : Observed s attempt false github) (hmark : s.mark = none)
    (hreached : github.status ≠ .unreachable) (hcompleted : s.completed = true)
    {evidence : JobEvidence} (hevidence : s.evidence = some evidence)
    (hQ : ExitHandled attempt false github Q) :
    historyContract.wp (exitEvidence attempt github evidence) Q s := by
  have hran (hjob : evidence ≠ .noJob) : s.evidence ≠ some .noJob := by
    rw [hevidence]
    exact fun h ↦ hjob (Option.some.inj h)
  have hwalked (hjob : evidence ≠ .noJob) : historyContract.wp (do
        let runnerId ← knownRunnerId attempt github.runnerId
        return runnerId.map fun runnerId ↦ (some runnerId, .completedJob)) Q s := by
    refine (wp_bind _ _).mpr (h.toSeen.known_wp fun file runnerId hseen hsourced ↦ ?_)
    cases runnerId with
    | none => exact hQ.none _ { h with toSeen := hseen } hmark
    | some runnerId =>
      refine hQ.some _ _ _ { h with toSeen := hseen } ⟨rfl, hreached, hcompleted,
        .inl ⟨rfl, hran hjob⟩, fun id hid ↦ hsourced id hid⟩
  unfold exitEvidence
  split
  · exact hwalked nofun
  · exact hwalked nofun
  · exact hQ.some _ _ _ h ⟨rfl, hreached, hcompleted, .inl ⟨rfl, hran nofun⟩, nofun⟩
  · exact hQ.some _ _ _ h ⟨rfl, hreached, hcompleted, .inr ⟨rfl, rfl⟩, nofun⟩
  · by_cases hlisted : github.status = .notRegistered
    · rw [if_pos hlisted]
      exact hQ.some _ _ _ h ⟨rfl, hreached, hcompleted, .inl ⟨rfl, hran nofun⟩, nofun⟩
    · rw [if_neg hlisted]
      exact hQ.none _ h hmark
  · exact hQ.none _ h hmark

theorem exitOutcome_wp {Q : Except LifecycleError (Option (Option Nat × AttemptOutcome)) →
      History → Prop} (h : Observed s attempt alive github) (hmark : s.mark = none)
    (hQ : ExitHandled attempt alive github Q) :
    historyContract.wp (exitOutcome attempt alive github) Q s := by
  unfold exitOutcome
  by_cases hskip : alive = true ∨ github.status = .unreachable ∨ (!hasStarted attempt.state) = true
  · rw [if_pos hskip]
    exact hQ.none s h hmark
  · rw [if_neg hskip]
    rw [not_or, not_or, Bool.not_eq_true] at hskip
    obtain ⟨rfl, hreached, -⟩ := hskip
    refine ask_wp trivial fun completed ↦ ?_
    cases completed with
    | false => exact hQ.none _ { h with } hmark
    | true =>
      refine ask_wp trivial fun evidence ↦ ?_
      exact exitEvidence_wp (s := { s with completed := true, evidence := some evidence })
        { h with } hmark hreached rfl rfl hQ

theorem deregisterListed_wp {Q : Except LifecycleError Unit → History → Prop}
    (h : Seen s attempt github)
    (hjit : attempt.execution.isNative = true ∨ History.beforeJit attempt.state = false)
    (hreached : github.status ≠ .unreachable)
    (hnext : ∀ file ids, s.file.ids ⊆ file.ids →
      github.status = .notRegistered ∨ Deregisters s file ids →
      Q (.ok ()) { s with file, deregistered := ids }) :
    historyContract.wp (deregisterListed policy attempt github) Q s := by
  unfold deregisterListed
  cases hstatus : github.status with
  | unreachable => exact absurd hstatus hreached
  | notRegistered => exact hnext s.file s.deregistered (fun _ h ↦ h) (.inl hstatus)
  | registered busy =>
    exact deregisterRunner_wp h.journal h.pass hjit fun file ids hids ↦
      hnext file ids hids.1 (.inr hids)

theorem cleared_of_deregisters {file : RunnerFile} {ids : List Nat}
    {journal : RunnerAttempt} (h : s.github = some github)
    (hids : github.status = .notRegistered ∨ Deregisters s file ids)
    (hsame : journal.githubRunnerId = s.journal.githubRunnerId)
    (hstate : s.mark = some true ∨ journal.state ≠ .allocated ∨ github.status = .notRegistered) :
    History.Cleared { s with journal, file, deregistered := ids } := by
  unfold Deregisters History.KnownAs at hids
  unfold History.Cleared History.KnownAs
  dsimp only at hids ⊢
  rw [hsame]
  rcases hids with hgone | ⟨-, hids | hnone⟩
  · exact .inl ⟨github, h, hgone⟩
  · exact .inr (.inl hids)
  · rcases hstate with hmark | hstate | hgone
    · exact .inr (.inr ⟨hnone, .inl hmark⟩)
    · exact .inr (.inr ⟨hnone, .inr hstate⟩)
    · exact .inl ⟨github, h, hgone⟩

theorem concludeExited_wp {walkToBusy : Option Nat} {outcome : AttemptOutcome}
    (h : Observed s attempt alive github)
    (hexited : Exited s attempt alive github walkToBusy outcome) :
    historyContract.wp (concludeExited launcher policy attempt github walkToBusy outcome)
      Settles s := by
  obtain ⟨rfl, hreached, hcompleted, houtcome, hwalk⟩ := hexited
  refine (wp_bind _ _).mpr (deregisterListed_wp h.toSeen (.inl h.native) hreached
    fun file ids hfile hids ↦ ?_)
  refine ask_wp trivial fun now ↦ (wp_bind _ _).mpr ?_
  rcases houtcome with ⟨rfl, hjob⟩ | ⟨rfl, rfl⟩
  · cases walkToBusy with
    | some runnerId =>
      refine transition_wp h.journal (fun _ ↦ ⟨?_, h.condemned⟩) (fun _ ↦ ?_) settles_error
      · exact (hwalk runnerId rfl).mono hfile
      · exact concludeAndClean_wp rfl (mayConclude_native h.pass h.native h.dead (.inl rfl)
          ⟨hcompleted, hjob⟩) nofun
    | none =>
      have hnative : s.journal.execution.isNative = true := by rw [h.journal]; exact h.native
      exact concludeAndClean_wp h.journal (mayConclude_native h.pass hnative h.dead (.inl rfl)
        ⟨hcompleted, hjob⟩) nofun
  · refine transition_wp h.journal (fun _ ↦ h.condemned) (fun _ ↦ ?_) settles_error
    refine concludeAndClean_wp rfl
      (mayConclude_native h.pass h.native h.dead (.inr ?_) trivial) nofun
    refine cleared_of_deregisters (s := s) h.observed hids ?_ (.inr (.inl nofun))
    rw [h.journal]
    rfl

/-- What a pass over a native attempt knows once it read the mark: a process that is gone was
not stopped by this agent. -/
structure Undecided (s : History) (attempt : RunnerAttempt) (alive : Bool)
    (github : LifecycleGithubObservation) : Prop extends Observed s attempt alive github where
  mark : alive = false → s.mark = some false

theorem concludeLostJit_wp (h : Undecided s attempt false github)
    (hlisted : github.status.isRegistered = true)
    (hstate : attempt.state = .allocated ∨ attempt.state = .jitReceived) :
    historyContract.wp (concludeLostJit launcher policy attempt) Settles s := by
  have hconclude (journal : RunnerAttempt) (hjit : journal.state = .jitReceived)
      (hnative : journal.execution.isNative = true) : historyContract.wp (do
        deregisterRunner policy journal
        concludeAndClean launcher journal (.failed .jitExpired) (some "jit_expired_replacement"))
      Settles { s with journal } := by
    refine (wp_bind _ _).mpr (deregisterRunner_wp rfl h.pass (.inl hnative)
      fun file ids hids ↦ ?_)
    refine concludeAndClean_wp rfl (mayConclude_native h.pass hnative h.dead (.inr ?_)
      ⟨h.mark rfl, h.ordered⟩) (replacementOperation_named (.failed .jitExpired))
    exact cleared_of_deregisters (s := { s with journal }) h.observed (.inr hids) rfl
      (.inr (.inl (by rw [hjit]; nofun)))
  refine (wp_bind _ _).mpr ?_
  unfold advanceIf
  by_cases hallocated : attempt.state = .allocated
  · rw [if_pos hallocated]
    exact advance_wp h.journal (fun now _ ↦ h.toSeen.allows_jitReceived hlisted now)
      (fun now _ ↦ hconclude _ rfl h.native) settles_error
  · rw [if_neg hallocated]
    have hjit := hstate.resolve_left hallocated
    have hsame : { s with journal := attempt } = s := by rw [← h.journal]
    have := hconclude attempt hjit h.native
    rw [hsame] at this
    exact this

theorem observeState_wp (h : Undecided s attempt alive github)
    (hlisted : github.status.isRegistered = true) (state : AttemptState) :
    historyContract.wp (observeState attempt github state) Settles s := by
  refine (wp_bind _ _).mpr (h.toSeen.known_wp fun file runnerId hseen hsourced ↦ ?_)
  cases runnerId with
  | none => exact settles_error _
  | some runnerId =>
    have hjournal : { s with file }.journal = attempt := h.journal
    dsimp only
    split
    · exact (wp_bind _ _).mpr (advance_wp hjournal
        (fun now _ ↦ hseen.allows_jitReceived hlisted now) (fun _ _ ↦ settles_reconciled)
        settles_error)
    · split
      · exact settles_error _
      · exact (wp_bind _ _).mpr (advance_wp hjournal (fun _ _ ↦ trivial)
          (fun _ _ ↦ settles_reconciled) settles_error)
    · exact (wp_bind _ _).mpr (advance_wp hjournal
        (fun _ _ ↦ ⟨hsourced runnerId rfl, h.condemned⟩) (fun _ _ ↦ settles_reconciled)
        settles_error)
    · exact (wp_bind _ _).mpr (advance_wp hjournal
        (fun _ _ ↦ ⟨hsourced runnerId rfl, h.condemned⟩) (fun _ _ ↦ settles_reconciled)
        settles_error)
    · exact settles_error _

/-- A stopped process is concluded with the reason its termination was ordered for. -/
theorem terminate_wp (h : Undecided s attempt alive github) {payload : AttemptOutcome}
    (hpayload : attempt.state = .starting ∧ payload = .failed .registrationTimedOut ∨
      attempt.state = .idle ∧ payload = .exitedIdleWithoutWork) :
    historyContract.wp (terminate launcher policy attempt payload) Settles s := by
  have hstate : attempt.state = .starting ∨ attempt.state = .idle :=
    hpayload.imp And.left And.left
  have hallocated : attempt.state ≠ .allocated := by
    rcases hstate with hstate | hstate <;> rw [hstate] <;> nofun
  have hlive : s.journal.execution.isNative = true → s.journal.state.isTerminal = false := by
    rw [h.journal]
    exact fun _ ↦ h.live
  refine ask_wp (by rw [History.Requires, h.journal]; exact hstate) fun answer ↦ ?_
  refine orFail_bind_wp (fun _ _ ↦ ?_) settles_error
  refine ask_wp trivial fun answer ↦ orFail_bind_wp (fun result _ ↦ ?_) settles_error
  cases result with
  | stillRunning => exact settles_deferred
  | stopped =>
    refine ask_wp hlive fun answer ↦ orFail_bind_wp (fun seen hseen ↦ ?_) settles_error
    by_cases hrunning : seen = .running
    · rw [if_pos hrunning]
      exact settles_deferred
    · rw [if_neg hrunning]
      subst hseen
      refine (wp_bind _ _).mpr (deregisterRunner_wp h.journal h.pass (.inl h.native)
        fun file ids hids ↦ ?_)
      have hnative : s.journal.execution.isNative = true := by rw [h.journal]; exact h.native
      have hcleared : History.Cleared { s with
          ordered := some s.journal.state, process := some seen, file, deregistered := ids } :=
        cleared_of_deregisters (s := { s with
          ordered := some s.journal.state, process := some seen })
          h.observed (.inr hids) rfl (.inr (.inl (h.journal ▸ hallocated)))
      rcases hpayload with ⟨hstarting, rfl⟩ | ⟨-, rfl⟩
      · rw [if_neg (by nofun)]
        refine concludeAndClean_wp h.journal (mayConclude_native h.pass hnative
          ⟨seen, rfl, hrunning⟩ (.inr hcleared) (.inl ?_)) ?_
        · have hordered : s.journal.state = .starting := by rw [h.journal, hstarting]
          exact ⟨congrArg some hordered, hordered⟩
        · intro name hname
          exact ⟨_, rfl, fun _ ↦ rfl⟩
      · rw [if_pos rfl]
        exact concludeAndClean_wp h.journal (mayConclude_native h.pass hnative
          ⟨seen, rfl, hrunning⟩ (.inr hcleared) trivial) nofun

theorem settle_wp (h : Undecided s attempt alive github) :
    historyContract.wp (settle launcher policy attempt alive github) Settles s := by
  refine ask_wp trivial fun now ↦ ?_
  have hjustified := recoveryDecision_justified attempt ⟨alive, github.status⟩ launcher.timeouts now
  cases hdecision : recoveryDecision attempt ⟨alive, github.status⟩ launcher.timeouts now with
  | nothing | wait | adopt => exact settles_reconciled
  | defer => exact settles_deferred
  | clean =>
    refine (wp_bind _ _).mpr (wp_mono (cleanOrQuarantine_wp h.journal)
      fun result t _ ↦ ?_)
    cases result with
    | ok _ => exact settles_reconciled
    | error error => exact settles_error error
  | observe state =>
    rw [hdecision] at hjustified
    exact observeState_wp h hjustified.1 state
  | terminate payload =>
    rw [hdecision] at hjustified
    obtain ⟨-, ⟨hstate, -, hpayload⟩ | ⟨hstate, -, hpayload⟩⟩ := hjustified
    · exact terminate_wp h (.inl ⟨hstate, hpayload⟩)
    · exact terminate_wp h (.inr ⟨hstate, hpayload⟩)
  | conclude outcome =>
    rw [hdecision] at hjustified
    obtain ⟨hdead, hreached, hjob, hstopped, hlisted⟩ := hjustified
    have hgone : alive = false := hdead
    subst hgone
    refine (wp_bind _ _).mpr (deregisterListed_wp h.toSeen (.inl h.native) hreached
      fun file ids _ hids ↦ ?_)
    have hnative : s.journal.execution.isNative = true := by rw [h.journal]; exact h.native
    refine concludeAndClean_wp h.journal (mayConclude_native h.pass hnative h.dead (.inr ?_) ?_)
      (replacementOperation_named outcome)
    · refine cleared_of_deregisters (s := s) h.observed hids rfl (.inr ?_)
      show s.journal.state ≠ .allocated ∨ github.status = .notRegistered
      rw [h.journal]
      rcases hlisted with hgone | hstate | hstate
      · exact .inr hgone
      · exact .inl (by rw [hstate]; nofun)
      · exact .inl (by rw [hstate]; nofun)
    · have hunmarked : s.mark = some false ∧ s.ordered = none := ⟨h.mark rfl, h.ordered⟩
      cases outcome with
      | completedJob => exact absurd rfl hjob
      | exitedIdleWithoutWork => exact trivial
      | orphaned => exact hunmarked
      | failed reason =>
        cases reason with
        | terminatedAfterRegistrationTimeout => exact absurd rfl hstopped
        | _ => exact hunmarked

theorem Observed.condemned_iff (h : Observed s attempt alive github) (marked : Bool) :
    (s.after (.hasTerminateIntent attempt) marked).condemned = (marked && !alive) := by
  obtain ⟨state, hprocess, halive⟩ := h.process
  show (marked && decide (s.process ≠ some .running)) = (marked && !alive)
  rw [hprocess]
  cases alive with
  | true => simp [halive.mp rfl]
  | false =>
    have hstopped : state ≠ .running := fun hrunning ↦ Bool.noConfusion (halive.mpr hrunning)
    simp [hstopped]

theorem decideMarked_wp (h : Observed s attempt alive github) (marked : Bool) :
    historyContract.wp (decideMarked launcher policy attempt alive github marked) Settles
      (s.after (.hasTerminateIntent attempt) marked) := by
  have hcondemns := h.condemned_iff marked
  unfold decideMarked
  cases hcondemned : (marked && !alive) with
  | true =>
    rw [if_pos rfl]
    rw [hcondemned] at hcondemns
    obtain ⟨rfl, hgone⟩ := Bool.and_eq_true_iff.mp hcondemned
    obtain rfl : alive = false := by simpa using hgone
    have hnative : s.journal.execution.isNative = true := by rw [h.journal]; exact h.native
    refine (wp_bind _ _).mpr (deregisterRunner_wp h.journal h.pass (.inl h.native)
      fun file ids hids ↦ ?_)
    refine concludeAndClean_wp h.journal (mayConclude_native h.pass hnative h.dead (.inr ?_)
      (.inr hcondemns)) fun name hname ↦ ⟨_, rfl, fun _ ↦ rfl⟩
    exact cleared_of_deregisters (s := s.after (.hasTerminateIntent attempt) true) h.observed
      (.inr hids) rfl (.inl rfl)
  | false =>
    rw [if_neg Bool.false_ne_true]
    rw [hcondemned] at hcondemns
    have hundecided : Undecided (s.after (.hasTerminateIntent attempt) marked) attempt alive
        github :=
      { h with
        condemned := hcondemns
        mark := by
          rintro rfl
          rw [Bool.not_false, Bool.and_true] at hcondemned
          rw [hcondemned]
          rfl }
    split_ifs with hlost
    · obtain ⟨hstate, hgone, hlisted⟩ := hlost
      obtain rfl : alive = false := by simpa using hgone
      exact concludeLostJit_wp hundecided hlisted hstate
    · exact settle_wp hundecided

theorem decideNative_wp (h : Observed s attempt alive github) (hmark : s.mark = none) :
    historyContract.wp (decideNative launcher policy attempt alive github) Settles s := by
  refine (wp_bind _ _).mpr (exitOutcome_wp h hmark ⟨?_, ?_⟩)
  · intro t ht _
    have hmarked (t : History) (ht : Observed t attempt alive github) : historyContract.wp (do
        let marked ← call (.hasTerminateIntent attempt)
        decideMarked launcher policy attempt alive github marked) Settles t :=
      ask_wp trivial fun marked ↦ decideMarked_wp ht marked
    refine (wp_bind _ _).mpr ?_
    unfold assignmentDropped
    split_ifs with hbusy
    · refine ask_wp trivial fun evidence ↦ ?_
      split
      · refine (wp_bind _ _).mpr (advance_wp ht.journal (fun _ _ ↦ ht.condemned)
          (fun _ _ ↦ settles_reconciled) settles_error)
      · exact hmarked _ { ht with }
    · exact hmarked t ht
  · intro t walkToBusy outcome ht hexited
    exact concludeExited_wp ht hexited

theorem recoverStarted_wp {Q : Except LifecycleError RunnerAttempt → History → Prop}
    (h : Observed s attempt alive github)
    (hok : ∀ next, Observed { s with journal := next } next alive github →
      Q (.ok next) { s with journal := next })
    (hfailed : ∀ error t, Q (.error error) t) :
    historyContract.wp (recoverStarted attempt alive) Q s := by
  have hkept : Q (.ok attempt) s := by
    have hsame : { s with journal := attempt } = s := by rw [← h.journal]
    have hnext := hok attempt (by rw [hsame]; exact h)
    rwa [hsame] at hnext
  unfold recoverStarted
  split_ifs
  · refine ask_wp trivial fun answer ↦ orFail_bind_wp (fun pid _ ↦ ?_) fun error ↦ hfailed error _
    cases pid with
    | none => exact hkept
    | some pid =>
      refine advance_wp h.journal (fun _ _ ↦ trivial) (fun now _ ↦ hok _ ?_)
        fun error ↦ hfailed error _
      exact
        { h with
          journal := rfl
          native := rfl
          live := rfl }
  · exact hkept

theorem reconcileNative_wp (hpass : s = .start .pass attempt)
    (hnative : attempt.execution.isNative = true) (hlive : attempt.state.isTerminal = false) :
    historyContract.wp (reconcileNative launcher policy attempt) Settles s := by
  subst hpass
  refine ask_wp (fun _ ↦ hlive) fun answer ↦ orFail_bind_wp (fun seen hseen ↦ ?_) settles_error
  subst hseen
  refine ask_wp rfl fun github ↦ ?_
  refine (wp_bind _ _).mpr (recoverRunnerId_wp rfl (fun file hstored ↦ ?_)
    fun error _ ↦ settles_error error)
  have hobserved : Observed
      { History.start .pass attempt with process := some seen, github := some github, file }
      attempt (Decidable.decide (seen = .running)) github :=
    { pass := rfl
      journal := rfl
      observed := rfl
      stored := hstored
      native := hnative
      live := hlive
      process := ⟨seen, rfl, decide_eq_true_iff⟩
      ordered := rfl
      condemned := rfl }
  exact (wp_bind _ _).mpr (recoverStarted_wp hobserved
    (fun next hnext ↦ decideNative_wp hnext rfl) fun error _ ↦ settles_error error)

end Native

/-! ## A pass over an isolated attempt -/

section Isolated

variable {s : History} {attempt : RunnerAttempt} {live : Bool}
  {github : LifecycleGithubObservation} {launcher : Launcher} {policy : ScalePolicy}

/-- What a pass over an isolated attempt with a configuration knows before it decides. -/
structure ObservedIsolated (s : History) (attempt : RunnerAttempt)
    (github : LifecycleGithubObservation) : Prop extends Seen s attempt github where
  isolated : attempt.execution.isNative = false
  configured : History.beforeJit attempt.state = false
  condemned : s.condemned = false

theorem mayConclude_isolated {outcome : AttemptOutcome} (hpass : s.operation = .pass)
    (hisolated : s.journal.execution.isNative = false)
    (hconfigured : History.beforeJit s.journal.state = false)
    (hcleared : outcome = .completedJob ∨ s.Cleared) : s.MayConclude outcome := by
  unfold History.MayConclude
  rw [hpass]
  dsimp only
  rw [hisolated, hconfigured, if_neg Bool.false_ne_true, if_neg Bool.false_ne_true]
  exact hcleared

theorem concludeIsolated_wp (h : ObservedIsolated s attempt github)
    (hreached : github.status ≠ .unreachable) (outcome : AttemptOutcome) :
    historyContract.wp (do
      deregisterListed policy attempt github
      concludeAndClean launcher attempt outcome (replacementOperation outcome)) Settles s := by
  have hallocated : s.journal.state ≠ .allocated := by
    intro hstate
    have hconfigured := h.configured
    rw [← h.journal, hstate] at hconfigured
    cases hconfigured
  refine (wp_bind _ _).mpr (deregisterListed_wp h.toSeen (.inr h.configured) hreached
    fun file ids _ hids ↦ ?_)
  refine concludeAndClean_wp h.journal (mayConclude_isolated h.pass ?_ ?_ (.inr ?_))
    (replacementOperation_named outcome)
  · rw [h.journal]
    exact h.isolated
  · rw [h.journal]
    exact h.configured
  · exact cleared_of_deregisters (s := s) h.observed hids rfl (.inr (.inl hallocated))

theorem settleIsolated_wp (h : ObservedIsolated s attempt github) :
    historyContract.wp (settleIsolated launcher policy attempt live github) Settles s := by
  refine ask_wp trivial fun now ↦ ?_
  have hjustified := recoveryDecision_justified attempt ⟨live, github.status⟩ launcher.timeouts now
  cases hdecision : recoveryDecision attempt ⟨live, github.status⟩ launcher.timeouts now with
  | nothing | wait | adopt => exact settles_reconciled
  | defer => exact settles_deferred
  | clean =>
    refine (wp_bind _ _).mpr (wp_mono (cleanOrQuarantine_wp h.journal)
      fun result t _ ↦ ?_)
    cases result with
    | ok _ => exact settles_reconciled
    | error error => exact settles_error error
  | conclude outcome =>
    rw [hdecision] at hjustified
    exact concludeIsolated_wp (s := s) h hjustified.2.1 outcome
  | terminate outcome =>
    rw [hdecision] at hjustified
    have hreached : github.status ≠ .unreachable := by
      intro hunreachable
      obtain ⟨-, ⟨-, hstatus, -⟩ | ⟨-, hstatus, -⟩⟩ := hjustified
      · cases hstatus.symm.trans hunreachable
      · cases hstatus.symm.trans hunreachable
    exact concludeIsolated_wp (s := s) h hreached outcome
  | observe state =>
    have hobserve (file : RunnerFile) (runnerId : Nat)
        (hsourced : { s with file }.Sourced runnerId) :
        historyContract.wp (observeIsolated attempt runnerId state) Settles { s with file } := by
      have hallows : { s with file }.Sourced runnerId ∧ s.condemned = false :=
        ⟨hsourced, h.condemned⟩
      unfold observeIsolated
      split
      · exact (wp_bind _ _).mpr (advance_wp h.journal (fun _ _ ↦ hallows)
          (fun _ _ ↦ settles_reconciled) settles_error)
      · exact (wp_bind _ _).mpr (advance_wp h.journal (fun _ _ ↦ hallows)
          (fun _ _ ↦ settles_reconciled) settles_error)
      · exact settles_error _
    refine (wp_bind _ _).mpr ?_
    unfold observedRunnerId
    cases hobserved : github.runnerId with
    | some runnerId =>
      exact hobserve s.file runnerId (.inr (.inl ⟨github, h.observed, hobserved⟩))
    | none =>
      refine call_wp trivial fun stored ↦ ?_
      cases stored with
      | none => exact settles_error _
      | some runnerId =>
        exact hobserve (s.file.read (some runnerId)) runnerId
          (.inr (.inr (List.mem_append_left _ (List.mem_singleton_self runnerId))))

theorem decideIsolated_wp (hpass : s = .start .pass attempt)
    (hisolated : attempt.execution.isNative = false)
    (hconfigured : History.beforeJit attempt.state = false) :
    historyContract.wp (decideIsolated launcher policy attempt live) Settles s := by
  subst hpass
  have hdecide (next : RunnerAttempt) (hisolated : next.execution.isNative = false)
      (hconfigured : History.beforeJit next.state = false) : historyContract.wp
      (decideRecovered launcher policy next live) Settles
      { History.start .pass attempt with journal := next } := by
    refine ask_wp rfl fun github ↦ ?_
    refine (wp_bind _ _).mpr (recoverRunnerId_wp rfl (fun file hstored ↦ ?_)
      fun error _ ↦ settles_error error)
    have hobserved (completed : Bool) : ObservedIsolated
        { History.start .pass attempt with journal := next, github := some github, file, completed }
        next github :=
      { pass := rfl
        journal := rfl
        observed := rfl
        stored := hstored
        isolated := hisolated
        configured := hconfigured
        condemned := rfl }
    refine (wp_bind _ _).mpr ?_
    unfold completedUnlisted
    split_ifs
    · refine call_wp trivial fun completed ↦ ?_
      cases completed with
      | true =>
        exact concludeAndClean_wp rfl (mayConclude_isolated rfl hisolated hconfigured (.inl rfl))
          nofun
      | false => exact settleIsolated_wp (hobserved false)
    · exact settleIsolated_wp (hobserved false)
  refine (wp_bind _ _).mpr ?_
  unfold advanceIf
  split_ifs
  · exact advance_wp rfl (fun _ _ ↦ trivial) (fun now _ ↦ hdecide _ hisolated rfl) settles_error
  · exact hdecide attempt hisolated hconfigured

theorem reconcileIsolatedOne_wp (hpass : s = .start .pass attempt)
    (hisolated : attempt.execution.isNative = false) :
    historyContract.wp (reconcileIsolatedOne launcher policy attempt) Settles s := by
  have hjournal : s.journal = attempt := by rw [hpass]; rfl
  unfold reconcileIsolatedOne
  by_cases hcleaned : attempt.state = .cleaned
  · rw [if_pos hcleaned]
    exact settles_reconciled
  rw [if_neg hcleaned]
  by_cases hterminal : attempt.state.isTerminal = true
  · rw [if_pos hterminal]
    refine (wp_bind _ _).mpr (wp_mono (cleanOrQuarantine_wp hjournal)
      fun result t _ ↦ ?_)
    cases result with
    | ok _ => exact settles_reconciled
    | error error => exact settles_error error
  rw [if_neg hterminal]
  by_cases hprepared : attempt.state = .allocated ∨ attempt.state = .preparing ∨
      attempt.state = .prepared
  · rw [if_pos hprepared]
    have hbefore : History.beforeJit attempt.state = true := by
      rcases hprepared with hstate | hstate | hstate <;> rw [hstate] <;> rfl
    refine concludeAndClean_wp hjournal ?_ nofun
    subst hpass
    unfold History.MayConclude History.start
    dsimp only
    rw [hisolated, hbefore, if_neg Bool.false_ne_true, if_pos rfl]
  rw [if_neg hprepared]
  have hconfigured : History.beforeJit attempt.state = false := by
    cases hstate : attempt.state <;> simp_all [History.beforeJit]
  subst hpass
  refine ask_wp trivial fun answer ↦ ?_
  cases answer with
  | error _ => exact settles_deferred
  | ok provider =>
    dsimp only
    split_ifs
    · exact decideIsolated_wp rfl hisolated hconfigured
    · refine ask_wp trivial fun owned ↦ ?_
      split
      · exact decideIsolated_wp rfl hisolated hconfigured
      · exact settles_deferred

end Isolated

/-! ## Every pass -/

theorem reconcileCleaned_wp {s : History} {attempt : RunnerAttempt}
    (hterminal : s.journal.state.isTerminal = true) :
    historyContract.wp (reconcileCleaned attempt) Settles s := by
  unfold reconcileCleaned
  by_cases hworkspace : attempt.workspace ≠ .ephemeral
  · rw [if_pos hworkspace]
    exact settles_reconciled
  · rw [if_neg hworkspace]
    refine ask_wp trivial fun present ↦ ?_
    cases present with
    | false => exact settles_reconciled
    | true =>
      refine ask_wp trivial fun now ↦ ask_wp trivial fun due ↦ ?_
      cases due with
      | false => exact settles_reconciled
      | true =>
        refine ask_wp (.inr hterminal) fun scrubbed ↦ ?_
        split
        · exact ask_wp trivial fun _ ↦ settles_reconciled
        · exact ask_wp trivial fun _ ↦ settles_reconciled
        · exact settles_error _

/-- Whatever the ports answer, a pass journals only what its history allows. -/
theorem reconcileOne_wp (launcher : Launcher) (policy : ScalePolicy) (attempt : RunnerAttempt) :
    historyContract.wp (reconcileOne launcher policy attempt) Settles (.start .pass attempt) := by
  unfold reconcileOne
  cases hnative : attempt.execution.isNative with
  | false => exact reconcileIsolatedOne_wp rfl hnative
  | true =>
    rw [if_neg (by simp)]
    by_cases hcleaned : attempt.state = .cleaned
    · rw [if_pos hcleaned]
      exact reconcileCleaned_wp (congrArg AttemptState.isTerminal hcleaned)
    · rw [if_neg hcleaned]
      by_cases hterminal : attempt.state.isTerminal = true
      · rw [if_pos hterminal]
        refine (wp_bind _ _).mpr (wp_mono (cleanOrQuarantine_wp rfl)
          fun result t _ ↦ ?_)
        cases result with
        | ok _ => exact settles_reconciled
        | error error => exact settles_error error
      · rw [if_neg hterminal]
        exact reconcileNative_wp rfl hnative (Bool.not_eq_true _ ▸ hterminal)

end RunnerManager.Agent
