import RunnerManager.Agent.Launch
import RunnerManager.Agent.History

/-!
# What a launch journals

Every launch keeps the contract of `History`, whatever its ports answer. Read `launchSteps_wp`
last: the launch is followed step by step, with the runner unregistered (`Unregistered`) up to
the registration. `allocateAttempt_fresh` is what the launch begins with.
-/

namespace RunnerManager.Agent

open RunnerManager.Domain
open Contract (wp_bind wp_mono)

/-! ## Allocation -/

/-- An attempt that was placed and nothing else. -/
structure Fresh (attempt : RunnerAttempt) : Prop where
  state : attempt.state = .allocated
  githubRunnerId : attempt.githubRunnerId = none
  wellFormed : WellFormed attempt

theorem takeResolution_fresh {attempt : RunnerAttempt} (h : Fresh attempt)
    (resolved : Option ResolvedEnvironment) :
    Contract.Returns (takeResolution attempt resolved) Fresh := by
  cases resolved with
  | none => exact Contract.returns_pure h
  | some resolution =>
    refine Contract.returns_bind (Contract.returns_trivial _) fun generation _ ↦ ?_
    refine Contract.returns_ofExcept fun next hnext ↦ ?_
    obtain ⟨hpermits, rfl⟩ := AttemptOp.answer_iff.mp hnext
    exact ⟨h.state, h.githubRunnerId, h.wellFormed.effect hpermits⟩

theorem allocateAttempt_returns {policy : ScalePolicy} {P : RunnerAttempt → Prop}
    (htakes : ∀ id (placement : Placement) now resolved, Contract.Returns (takeResolution
      (.allocateIn id policy.id placement.runtime placement.workspace now) resolved) P) :
    Contract.Returns (allocateAttempt policy) fun result ↦ P result.1 := by
  have hany {α β : Type} {P : β → Prop} {p : LifecycleProgram α} {f : α → LifecycleProgram β}
      (hf : ∀ value, Contract.Returns (f value) P) : Contract.Returns (p >>= f) P :=
    Contract.returns_bind (Contract.returns_trivial p) fun value _ ↦ hf value
  refine hany fun answer ↦ hany fun complete ↦ ?_
  cases complete with
  | false => exact Contract.returns_fail _ _
  | true =>
    refine hany fun capability ↦ ?_
    by_cases hready : capability ≠ .ready
    · rw [if_pos hready]
      exact Contract.returns_fail _ _
    rw [if_neg hready]
    refine hany fun resolved ↦ ?_
    cases policy.routingLabels with
    | none => exact Contract.returns_fail _ _
    | some labels =>
      refine hany fun id ↦ hany fun placed ↦ hany fun placement ↦ hany fun now ↦ ?_
      refine Contract.returns_bind (htakes id placement now resolved) fun attempt htaken ↦ ?_
      exact hany fun _ ↦ Contract.returns_pure htaken

/-- Whatever the ports answer, an allocation ends with a fresh attempt. -/
theorem allocateAttempt_fresh (policy : ScalePolicy) :
    Contract.Returns (allocateAttempt policy) fun result ↦ Fresh result.1 :=
  allocateAttempt_returns fun _ _ _ resolved ↦
    takeResolution_fresh ⟨rfl, rfl, .allocateIn ..⟩ resolved

/-! ## Retries -/

section Launch

variable {s : History} {attempt : RunnerAttempt} {launcher : Launcher} {policy : ScalePolicy}

/-- A call that leaves the history where it fails is tried again from the same history. -/
theorem retryLoop_wp {δ α : Type} {id : PolicyId} {attempt : LifecycleProgram (Except δ α)}
    {final : δ → Bool} {delay : δ → Nat → Elapsed}
    {Q : Except LifecycleError (Except δ α) → History → Prop}
    (htry : historyContract.wp attempt
      (fun result t ↦ Q result t ∧ ∀ failure, result = .ok (.error failure) → t = s) s)
    (issued left : Nat) :
    historyContract.wp (retryLoop id attempt final delay issued left) Q s := by
  induction left generalizing issued with
  | zero => exact wp_mono htry fun _ _ h ↦ h.1
  | succ left ih =>
    refine (wp_bind _ _).mpr (wp_mono htry fun result t h ↦ ?_)
    obtain ⟨hQ, hfailure⟩ := h
    cases result with
    | error _ => exact hQ
    | ok answer =>
      cases answer with
      | ok value => exact hQ
      | error failure =>
        obtain rfl := hfailure failure rfl
        dsimp only
        by_cases hfinal : final failure = true
        · rw [if_pos hfinal]
          exact hQ
        rw [if_neg hfinal]
        refine ask_wp trivial fun persists ↦ ?_
        cases persists with
        | false => exact hQ
        | true =>
          refine ask_wp trivial fun _ ↦ ask_wp trivial fun still ↦ ?_
          cases still with
          | false => exact hQ
          | true => exact ih (issued + 1)

/-! ## Steps -/

/-- What a launch knows of its attempt. -/
structure Launching (s : History) (attempt : RunnerAttempt) : Prop where
  operation : s.operation = .launch
  journal : s.journal = attempt
  deregistered : s.deregistered = []

/-- A launch that has not registered its runner. -/
structure Unregistered (s : History) (attempt : RunnerAttempt) : Prop
    extends Launching s attempt where
  registered : s.registered = none

theorem Launching.failLaunch_wp (h : Launching s attempt) {α : Type} {reason : FailureReason}
    {Q : Except LifecycleError α → History → Prop} (hfailed : ∀ error t, Q (.error error) t) :
    historyContract.wp (failLaunch attempt reason) Q s := by
  have hmay : s.MayConclude (.failed reason) := by
    unfold History.MayConclude
    rw [h.operation]
    exact h.deregistered
  exact (wp_bind _ _).mpr (advance_wp h.journal (fun _ _ ↦ hmay)
    (fun _ _ ↦ hfailed _ _) fun _ ↦ hfailed _ _)

theorem Unregistered.takePrepared_wp (h : Unregistered s attempt) {prepared : PreparedEnvironment}
    {Q : Except LifecycleError RunnerAttempt → History → Prop}
    (hok : ∀ t next, Unregistered t next → Q (.ok next) t)
    (hfailed : ∀ error t, Q (.error error) t) :
    historyContract.wp (takePrepared launcher attempt prepared) Q s := by
  unfold takePrepared
  split
  · next environmentId _ _ _ =>
    split_ifs
    · exact hfailed _ _
    · unfold edge
      cases hnamed : (AttemptOp.preparedEnvironment environmentId).answer attempt with
      | error _ => exact hfailed _ _
      | ok named =>
        refine (wp_bind _ _).mpr (ask_wp trivial fun now ↦ ?_)
        unfold transition edge
        cases hprepared : (AttemptOp.markPrepared now).answer named with
        | error _ => exact hfailed _ _
        | ok next =>
          have hprepares : s.Prepares next :=
            ⟨h.operation, environmentId, now, named, h.journal ▸ hnamed, hprepared⟩
          refine (wp_bind _ _).mpr ((wp_bind _ _).mpr
            (ask_wp (.inr hprepares) fun answer ↦ ?_))
          cases answer with
          | error _ => exact hfailed _ _
          | ok _ =>
            exact hok _ _ ⟨⟨h.operation, rfl, h.deregistered⟩, h.registered⟩
  · exact hfailed _ _

theorem Unregistered.prepareAttempt_wp (h : Unregistered s attempt)
    {Q : Except LifecycleError (RunnerAttempt × PreparedEnvironment) → History → Prop}
    (hok : ∀ t next prepared, Unregistered t next → Q (.ok (next, prepared)) t)
    (hfailed : ∀ error t, Q (.error error) t) :
    historyContract.wp (prepareAttempt launcher policy attempt) Q s := by
  unfold prepareAttempt advanceIf
  cases hisolated : (!attempt.execution.isNative) with
  | false =>
    refine ask_wp trivial fun answer ↦ ?_
    cases answer with
    | error reason => exact h.failLaunch_wp hfailed
    | ok prepared => exact hok s attempt prepared h
  | true =>
    refine (wp_bind _ _).mpr (advance_wp h.journal (fun _ _ ↦ h.operation)
      (fun now _ ↦ ?_) fun _ ↦ hfailed _ _)
    have hbegun : Unregistered { s with journal := (AttemptOp.beginPrepare now).effect attempt }
        ((AttemptOp.beginPrepare now).effect attempt) :=
      ⟨⟨h.operation, rfl, h.deregistered⟩, h.registered⟩
    refine ask_wp trivial fun answer ↦ ?_
    cases answer with
    | error reason => exact hbegun.failLaunch_wp hfailed
    | ok prepared =>
      exact (wp_bind _ _).mpr (hbegun.takePrepared_wp
        (fun u last hu ↦ hok u last prepared hu) hfailed)

theorem writeRunnerId_wp {runnerId : Nat} (hregistered : s.registered = some runnerId)
    {runtime : String} {Q : Except LifecycleError Unit → History → Prop}
    (hok : ∀ file : RunnerFile, file.ids ≠ [] → Q (.ok ()) { s with file })
    (hfailed : ∀ error t, Q (.error error) t) :
    historyContract.wp (writeRunnerId runtime runnerId) Q s := by
  refine ask_wp trivial fun stored ↦ ?_
  cases stored with
  | some existing =>
    dsimp only
    split_ifs
    · exact hok _ (List.cons_ne_nil _ _)
    · exact hfailed _ _
  | none =>
    refine ask_wp ⟨rfl, .inl hregistered⟩ fun answer ↦ ?_
    cases answer with
    | ok _ => exact hok _ (List.cons_ne_nil _ _)
    | error _ => exact hfailed _ _

theorem Unregistered.registerAttempt_wp (h : Unregistered s attempt) {labels : RoutingLabels}
    {Q : Except LifecycleError (RunnerAttempt × String) → History → Prop}
    (hok : ∀ t next config, Launching t next → Q (.ok (next, config)) t)
    (hfailed : ∀ error t, Q (.error error) t) :
    historyContract.wp (registerAttempt launcher policy attempt labels) Q s := by
  refine (wp_bind _ _).mpr (retryLoop_wp ?_ _ _)
  refine call_wp ⟨h.operation, h.registered⟩ ?_
  rintro (failure | registration)
  · exact ⟨h.failLaunch_wp hfailed, fun _ _ ↦ rfl⟩
  · refine ⟨?_, fun _ hfailure ↦ by cases hfailure⟩
    refine (wp_bind _ _).mpr (writeRunnerId_wp rfl (fun file hfile ↦ ?_) hfailed)
    refine (wp_bind _ _).mpr (advance_wp h.journal (fun _ _ ↦ .inl hfile)
      (fun _ _ ↦ ?_) fun _ ↦ hfailed _ _)
    exact hok _ _ _ ⟨h.operation, rfl, h.deregistered⟩

theorem Launching.started_wp (h : Launching s attempt) {pid : Nat}
    {Q : Except LifecycleError RunnerAttempt → History → Prop} (hany : ∀ result t, Q result t) :
    historyContract.wp (advance attempt (.started pid)) Q s :=
  advance_wp h.journal (fun _ _ ↦ trivial) (fun _ _ ↦ hany _ _) fun _ ↦ hany _ _

theorem Launching.startNative_wp (h : Launching s attempt) {prepared : PreparedEnvironment}
    {config : String} : historyContract.wp
      (startNative launcher policy prepared attempt config) (fun _ _ ↦ True) s := by
  refine (wp_bind _ _).mpr (retryLoop_wp ?_ _ _)
  refine call_wp trivial fun answer ↦ ⟨?_, fun _ _ ↦ rfl⟩
  rcases answer with failure | identity
  · dsimp only
    cases failure.livePid with
    | some pid =>
      refine (wp_bind _ _).mpr (h.started_wp fun result _ ↦ ?_)
      cases result <;> trivial
    | none => exact h.failLaunch_wp fun _ _ ↦ trivial
  · cases identity with
    | nativeProcess pid => exact h.started_wp fun _ _ ↦ trivial
    | isolated => trivial

theorem Launching.startIsolated_wp (h : Launching s attempt) {prepared : PreparedEnvironment}
    {config : String} : historyContract.wp
      (startIsolated launcher prepared attempt config) (fun _ _ ↦ True) s := by
  refine ask_wp trivial fun answer ↦ ?_
  cases answer with
  | error _ => trivial
  | ok started =>
    dsimp only
    split_ifs
    · trivial
    · exact advance_wp h.journal (fun _ _ ↦ trivial) (fun _ _ ↦ trivial) fun _ ↦ trivial

/-- Whatever the ports answer, a launch journals only what its history allows. -/
theorem launchSteps_wp (launcher : Launcher) (policy : ScalePolicy) (attempt : RunnerAttempt)
    (labels : RoutingLabels) : historyContract.wp (launchSteps launcher policy attempt labels)
      (fun _ _ ↦ True) (.start .launch attempt) := by
  have hstart : Unregistered (.start .launch attempt) attempt := ⟨⟨rfl, rfl, rfl⟩, rfl⟩
  refine (wp_bind _ _).mpr (retryLoop_wp ?_ _ _)
  refine call_wp trivial fun answer ↦ ⟨?_, fun _ _ ↦ rfl⟩
  cases answer with
  | error reason => exact hstart.failLaunch_wp fun _ _ ↦ trivial
  | ok version =>
    refine ask_wp trivial fun answer ↦ orRaise_bind_wp (fun _ _ ↦ ?_) fun _ ↦ trivial
    refine ask_wp trivial fun answer ↦ orRaise_bind_wp (fun _ _ ↦ ?_) fun _ ↦ trivial
    refine (wp_bind _ _).mpr (hstart.prepareAttempt_wp (fun t next prepared ht ↦ ?_)
      fun _ _ ↦ trivial)
    refine (wp_bind _ _).mpr (ht.registerAttempt_wp (fun u last config hu ↦ ?_)
      fun _ _ ↦ trivial)
    dsimp only
    split_ifs
    · exact hu.startNative_wp
    · exact hu.startIsolated_wp

end Launch

end RunnerManager.Agent
