import RunnerManager.Agent.Supervision

/-!
# Why a runner was stopped

One durable mark serves two reasons to stop a runner: it never registered, or it waited past the
idle timeout. `Orders` follows the mark through a run of passes, with the journalled state of
every order. A pass that finds the mark set and the process gone takes the first reason for
granted; `attributed_to_orders` is what holds of the runs in which no such pass meets an attempt
journalled `idle` or `busy`, and `surplus_runner_replaced` is a run in which one does.
-/

namespace RunnerManager.Agent

open RunnerManager.Domain RunnerManager.Result

/-! ## Orders -/

/-- The pass at hand, and the terminations that were ordered over the whole run. -/
structure Orders where
  history : History
  /-- The journalled state at each order, the last one first. -/
  states : List AttemptState
  /-- The mark was made durable. -/
  marked : Bool
  /-- The mark was made durable for an `idle` runner. -/
  surplus : Bool

namespace Orders

def start (attempt : RunnerAttempt) : Orders :=
  ⟨.start .pass attempt, [], false, false⟩

/-- An order that fails may have left its mark. -/
def after (s : Orders) (c : LifecycleCall) (answer : c.Answer) : Orders :=
  let history := s.history.after c answer
  match c, answer with
  | .recordTerminateIntent _, .ok _ =>
    ⟨history, s.history.journal.state :: s.states, true,
      s.surplus || s.history.journal.state = .idle⟩
  | .recordTerminateIntent _, .error _ =>
    ⟨history, s.history.journal.state :: s.states, s.marked, s.surplus⟩
  | _, _ => { s with history }

/-- A durable mark is found again, and a mark comes from an order. -/
def Reads (s : Orders) (c : LifecycleCall) (answer : c.Answer) : Prop :=
  match c, answer with
  | .hasTerminateIntent _, found =>
    (s.marked = true → found = true) ∧ (found = true → s.states ≠ [])
  | _, _ => True

/-- The next pass, on what the journal gives back; the orders stay. -/
def Opens (s t : Orders) (p : PassProgram) : Prop :=
  s.history.Opens t.history p ∧ t = { s with history := t.history }

/-- A first pass over a native attempt that has not concluded and that nobody ordered to stop. -/
def Starts (s : Orders) (p : PassProgram) : Prop :=
  ∃ launcher policy attempt, attempt.execution.isNative = true ∧ WellFormed attempt ∧
    attempt.state.isTerminal = false ∧ s = .start attempt ∧
    p = reconcileOne launcher policy attempt

/-- The pass does not find the mark of a runner that registered and is gone. -/
def Distinct (s : Orders) (c : LifecycleCall) (answer : c.Answer) : Prop :=
  match c, answer with
  | .hasTerminateIntent _, found => found = true → s.history.process ≠ some .running →
      s.history.journal.state ≠ .idle ∧ s.history.journal.state ≠ .busy
  | _, _ => True

end Orders

/-- The passes over one mark, in an environment whose answers are further restricted. -/
def ordersContract (meets : Orders → (c : LifecycleCall) → c.Answer → Prop) :
    Contract LifecycleCall LifecycleCall.Answer Orders where
  requires s c := s.history.Requires c
  steps s c answer next := s.Reads c answer ∧ meets s c answer ∧ next = s.after c answer

/-- What a run of passes reaches when every answer meets a condition. -/
def Terminated (meets : Orders → (c : LifecycleCall) → c.Answer → Prop) (s : Orders)
    (p : PassProgram) : Prop :=
  (ordersContract meets).Reaches Orders.Starts Orders.Opens s p

theorem Terminated.answered {meets : Orders → (c : LifecycleCall) → c.Answer → Prop} {s : Orders}
    {p : PassProgram} (h : Terminated meets s p) (c : LifecycleCall) (answer : c.Answer)
    {next : c.Answer → PassProgram} (hask : p = .ask c next) (hreads : s.Reads c answer)
    (hmeets : meets s c answer) : Terminated meets (s.after c answer) (next answer) := by
  subst hask
  exact .call h answer ⟨hreads, hmeets, rfl⟩

/-! ## The orders of a run -/

namespace Orders

@[simp]
theorem history_after (s : Orders) (c : LifecycleCall) (answer : c.Answer) :
    (s.after c answer).history = s.history.after c answer := by
  unfold after
  split <;> rfl

theorem reconcileOne_wp {meets : Orders → (c : LifecycleCall) → c.Answer → Prop}
    (launcher : Launcher) (policy : ScalePolicy) {attempt : RunnerAttempt} {s : Orders}
    (hstart : s.history = .start .pass attempt) :
    (ordersContract meets).wp (reconcileOne launcher policy attempt)
      (fun result t ↦ Settles result t.history) s := by
  refine Contract.wp_of_map (C := historyContract) Orders.history (fun _ _ h ↦ h) ?_ ?_
  · rintro t c answer u ⟨-, -, rfl⟩
    exact t.history_after c answer
  · rw [hstart]
    exact Agent.reconcileOne_wp launcher policy attempt

end Orders

/-! ## Edges of an ordered attempt -/

/-- Whether a state is one in which a child may have run, or past it. -/
def pastStart (state : AttemptState) : Bool :=
  hasStarted state || state.isTerminal

theorem pastStart_of_edge {state next : AttemptState} (hstarted : pastStart state = true)
    (hedge : state.canTransitionTo next = true) :
    pastStart next = true ∧ next ≠ .starting :=
  AttemptState.legal_induction (P := fun state next ↦ pastStart state = true →
    pastStart next = true ∧ next ≠ .starting) (by decide) hedge hstarted

theorem pastStart_effect {s : History} {op : AttemptOp} (hpass : s.operation = .pass)
    (hallows : s.Allows op) (hpermits : op.Permits s.journal)
    (hstarted : pastStart s.journal.state = true) :
    pastStart (op.effect s.journal).state = true ∧ (op.effect s.journal).state ≠ .starting := by
  cases op with
  | allocateExecution _ => exact hallows.elim
  | preparedEnvironment _ =>
    have hlaunch : s.operation = .launch := hallows
    rw [hpass] at hlaunch
    cases hlaunch
  | _ => exact pastStart_of_edge hstarted (hpermits.2 _ rfl)

theorem live_of_effect {op : AttemptOp} {attempt : RunnerAttempt} (hpermits : op.Permits attempt)
    (hlive : (op.effect attempt).state.isTerminal = false) : attempt.state.isTerminal = false := by
  have hedge (next : AttemptState) (htarget : op.target = some next)
      (hnext : next.isTerminal = false) : attempt.state.isTerminal = false := by
    rw [AttemptState.legal_terminal (hpermits.2 next htarget), hnext]
    rfl
  cases op with
  | allocateExecution _ | preparedEnvironment _ => exact hlive
  | _ => exact hedge _ rfl hlive

theorem conclude_of_outcome {op : AttemptOp} {attempt : RunnerAttempt} {outcome : AttemptOutcome}
    (hnone : attempt.outcome = none) (hsome : (op.effect attempt).outcome = some outcome) :
    ∃ now, op = .conclude outcome now := by
  cases op with
  | conclude ended now =>
    obtain rfl := Option.some.inj hsome
    exact ⟨now, rfl⟩
  | _ =>
    have hsame : attempt.outcome = some outcome := hsome
    rw [hnone] at hsame
    cases hsame

/-! ## What every run keeps -/

/-- What a run of passes keeps of the mark, as long as no pass meets the mark of a registered
runner that is gone. -/
structure Traced (s : Orders) : Prop where
  pass : s.history.operation = .pass
  native : s.history.journal.execution.isNative = true
  live : s.history.journal.state.isTerminal = false → s.history.journal.outcome = none
  ordered : ∀ state ∈ s.states, state = .starting ∨ state = .idle
  started : s.states ≠ [] → pastStart s.history.journal.state = true
  left : .idle ∈ s.states → s.history.journal.state ≠ .starting
  condemned : s.history.condemned = true → s.states ≠ [] ∧
    s.history.journal.state ≠ .idle ∧ s.history.journal.state ≠ .busy
  current : ∀ state, s.history.ordered = some state → state ∈ s.states
  surplus : s.surplus = true → s.marked = true ∧ .idle ∈ s.states
  unmarked : s.surplus = true → s.history.mark = some false → s.history.ordered ≠ none
  timeout : s.history.journal.outcome = some (.failed .terminatedAfterRegistrationTimeout) →
    s.states ≠ [] ∧ ∀ state ∈ s.states, state = .starting
  exit : s.surplus = true → ∀ outcome, s.history.journal.outcome = some outcome →
    outcome = .exitedIdleWithoutWork ∨ outcome = .completedJob

namespace Traced

variable {s : Orders}

theorem starting_only (h : Traced s) (hstate : s.history.journal.state = .starting) :
    ∀ state ∈ s.states, state = .starting := by
  intro state hmem
  rcases h.ordered state hmem with hstarting | rfl
  · exact hstarting
  · exact absurd hstate (h.left hmem)

theorem attributed_failure {s : History} {reason : FailureReason}
    (h : s.Attributed (.failed reason)) (hreason : reason ≠ .terminatedAfterRegistrationTimeout) :
    s.mark = some false ∧ s.ordered = none := by
  cases reason with
  | terminatedAfterRegistrationTimeout => exact absurd rfl hreason
  | _ => exact h

theorem conclusion (h : Traced s) {outcome : AttemptOutcome} {now : Timestamp}
    (hmay : s.history.MayConclude outcome)
    (hpermits : (AttemptOp.conclude outcome now).Permits s.history.journal) :
    (outcome = .failed .terminatedAfterRegistrationTimeout → s.history.journal.state = .starting ∧
      s.states ≠ [] ∧ ∀ state ∈ s.states, state = .starting) ∧
    (s.surplus = true → outcome = .exitedIdleWithoutWork ∨ outcome = .completedJob ∧
      s.history.completed = true ∧ s.history.evidence ≠ some .noJob) := by
  have hattributed : s.history.Attributed outcome := by
    unfold History.MayConclude at hmay
    rw [h.pass] at hmay
    dsimp only at hmay
    rw [if_pos h.native] at hmay
    exact hmay.2.2
  have hlive : s.history.journal.state.isTerminal = false :=
    AttemptOutcome.required_from_live hpermits.1
  have htimeout : outcome = .failed .terminatedAfterRegistrationTimeout →
      s.history.journal.state = .starting ∧ s.states ≠ [] ∧
        ∀ state ∈ s.states, state = .starting := by
    rintro rfl
    have hstarting : s.history.journal.state = .starting ∧ s.states ≠ [] := by
      rcases hattributed with ⟨hordered, hstate⟩ | hcondemned
      · exact ⟨hstate, List.ne_nil_of_mem (h.current _ hordered)⟩
      · -- A mark comes from an order, so the attempt was started; it did not register either.
        obtain ⟨hstates, hidle, hbusy⟩ := h.condemned hcondemned
        refine ⟨?_, hstates⟩
        have hstarted := h.started hstates
        revert hlive hidle hbusy hstarted
        generalize s.history.journal.state = state
        cases state <;> simp [pastStart, hasStarted, AttemptState.isTerminal]
    exact ⟨hstarting.1, hstarting.2, h.starting_only hstarting.1⟩
  refine ⟨htimeout, fun hsurplus ↦ ?_⟩
  have hunmarked (hfalse : s.history.mark = some false ∧ s.history.ordered = none) : False :=
    h.unmarked hsurplus hfalse.1 hfalse.2
  cases outcome with
  | completedJob => exact .inr ⟨rfl, hattributed⟩
  | exitedIdleWithoutWork => exact .inl rfl
  | orphaned => exact (hunmarked hattributed).elim
  | failed reason =>
    by_cases hreason : reason = .terminatedAfterRegistrationTimeout
    · obtain ⟨-, -, hstarting⟩ := htimeout (congrArg _ hreason)
      cases hstarting _ (h.surplus hsurplus).2
    · exact (hunmarked (attributed_failure hattributed hreason)).elim

theorem moved (h : Traced s) {op : AttemptOp} (hallows : s.history.Allows op)
    (hpermits : op.Permits s.history.journal)
    (houtcome : (op.effect s.history.journal).outcome = s.history.journal.outcome)
    (hcondemned : s.history.condemned = true → (op.effect s.history.journal).state ≠ .idle ∧
      (op.effect s.history.journal).state ≠ .busy) :
    Traced { s with history := { s.history with journal := op.effect s.history.journal } } := by
  have hstarted (hstates : s.states ≠ []) :=
    pastStart_effect h.pass hallows hpermits (h.started hstates)
  exact
    { pass := h.pass
      native := native_effect hallows h.native
      live := fun hlive ↦ houtcome.trans (h.live (live_of_effect hpermits hlive))
      ordered := h.ordered
      started := fun hstates ↦ (hstarted hstates).1
      left := fun hidle ↦ (hstarted (List.ne_nil_of_mem hidle)).2
      condemned := fun hset ↦ ⟨(h.condemned hset).1, hcondemned hset⟩
      current := h.current
      surplus := h.surplus
      unmarked := h.unmarked
      timeout := fun htimeout ↦ h.timeout (houtcome.symm.trans htimeout)
      exit := fun hsurplus outcome hexit ↦ h.exit hsurplus outcome (houtcome.symm.trans hexit) }

/-- A conclusion keeps the trace. -/
theorem concluded (h : Traced s) {outcome : AttemptOutcome} {now : Timestamp}
    (hmay : s.history.MayConclude outcome)
    (hpermits : (AttemptOp.conclude outcome now).Permits s.history.journal) :
    Traced { s with history := { s.history with
      journal := (AttemptOp.conclude outcome now).effect s.history.journal } } := by
  obtain ⟨htimeout, hexit⟩ := h.conclusion hmay hpermits
  have hstate : ((AttemptOp.conclude outcome now).effect s.history.journal).state.isTerminal =
      true := AttemptOutcome.terminalState_isTerminal
  have hne {state : AttemptState} (hlive : state.isTerminal = false) :
      ((AttemptOp.conclude outcome now).effect s.history.journal).state ≠ state := by
    rintro rfl
    rw [hstate] at hlive
    cases hlive
  exact
    { pass := h.pass
      native := h.native
      live := fun hlive ↦ (hne hlive rfl).elim
      ordered := h.ordered
      started := fun _ ↦ by
        unfold pastStart
        rw [hstate, Bool.or_true]
      left := fun _ ↦ hne rfl
      condemned := fun hset ↦ ⟨(h.condemned hset).1, hne rfl, hne rfl⟩
      current := h.current
      surplus := h.surplus
      unmarked := h.unmarked
      timeout := fun houtcome ↦ (htimeout (Option.some.inj houtcome)).2
      exit := fun hsurplus ended hended ↦ by
        obtain rfl := Option.some.inj hended
        exact (hexit hsurplus).imp_right And.left }

theorem recorded (h : Traced s) {op : AttemptOp} (hallows : s.history.Allows op)
    (hpermits : op.Permits s.history.journal) :
    Traced { s with history := { s.history with journal := op.effect s.history.journal } } := by
  have hcleared {P : Prop} (hset : s.history.condemned = true)
      (hunset : s.history.condemned = false) : P := by
    rw [hunset] at hset
    cases hset
  cases op with
  | allocateExecution _ => exact hallows.elim
  | preparedEnvironment _ | beginPrepare _ | markPrepared _ =>
    have hlaunch : s.history.operation = .launch := hallows
    rw [h.pass] at hlaunch
    cases hlaunch
  | registeredIdle _ _ | assignedJob _ _ =>
    exact h.moved hallows hpermits rfl fun hset ↦ hcleared hset hallows.2
  | assignmentNotTaken _ => exact h.moved hallows hpermits rfl fun hset ↦ hcleared hset hallows
  | conclude outcome now => exact h.concluded hallows hpermits
  | _ =>
    exact h.moved hallows hpermits rfl fun _ ↦
      ⟨AttemptState.noConfusion, AttemptState.noConfusion⟩

theorem looked (h : Traced s) {attempt : RunnerAttempt} {found : Bool}
    (hreads : s.Reads (.hasTerminateIntent attempt) found)
    (hdistinct : s.Distinct (.hasTerminateIntent attempt) found) :
    Traced (s.after (.hasTerminateIntent attempt) found) := by
  have hcondemned : (found && decide (s.history.process ≠ some .running)) = true →
      s.states ≠ [] ∧ s.history.journal.state ≠ .idle ∧ s.history.journal.state ≠ .busy := by
    intro hset
    obtain ⟨hfound, hdead⟩ := Bool.and_eq_true_iff.mp hset
    exact ⟨hreads.2 hfound, hdistinct hfound (of_decide_eq_true hdead)⟩
  have hunmarked (hsurplus : s.surplus = true) (hmark : some found = some false) :
      s.history.ordered ≠ none := by
    have hfound := hreads.1 (h.surplus hsurplus).1
    rw [hfound] at hmark
    cases hmark
  exact { h with condemned := hcondemned, unmarked := hunmarked }

theorem orderedWith (h : Traced s)
    (hstate : s.history.journal.state = .starting ∨ s.history.journal.state = .idle)
    {marked surplus : Bool} (hsurplus : surplus = true →
      marked = true ∧ .idle ∈ s.history.journal.state :: s.states) :
    Traced ⟨{ s.history with ordered := some s.history.journal.state },
      s.history.journal.state :: s.states, marked, surplus⟩ := by
  have hstarted : pastStart s.history.journal.state = true := by
    rcases hstate with hstate | hstate <;> rw [hstate] <;> rfl
  have hlive : s.history.journal.outcome = none := by
    refine h.live ?_
    rcases hstate with hstate | hstate <;> rw [hstate] <;> rfl
  have hnone {outcome : AttemptOutcome} {P : Prop}
      (hsome : s.history.journal.outcome = some outcome) : P := by
    rw [hlive] at hsome
    cases hsome
  exact
    { pass := h.pass
      native := h.native
      live := h.live
      ordered := List.forall_mem_cons.mpr ⟨hstate, h.ordered⟩
      started := fun _ ↦ hstarted
      left := fun hidle hstarting ↦ by
        rcases List.mem_cons.mp hidle with hnow | hbefore
        · cases hnow.trans hstarting
        · exact h.left hbefore hstarting
      condemned := fun hset ↦ ⟨List.cons_ne_nil _ _, (h.condemned hset).2⟩
      current := fun state hcurrent ↦ by
        obtain rfl := Option.some.inj hcurrent
        exact List.mem_cons_self
      surplus := hsurplus
      unmarked := fun _ _ ↦ Option.some_ne_none _
      timeout := fun houtcome ↦ hnone houtcome
      exit := fun _ _ houtcome ↦ hnone houtcome }

theorem ordered_after (h : Traced s) {attempt : RunnerAttempt}
    (answer : Except FailureReason Unit)
    (hrequires : s.history.Requires (.recordTerminateIntent attempt)) :
    Traced (s.after (.recordTerminateIntent attempt) answer) := by
  cases answer with
  | error _ =>
    refine h.orderedWith hrequires fun hsurplus ↦ ?_
    obtain ⟨hmarked, hidle⟩ := h.surplus hsurplus
    exact ⟨hmarked, List.mem_cons_of_mem _ hidle⟩
  | ok _ =>
    refine h.orderedWith hrequires fun hsurplus ↦ ⟨rfl, ?_⟩
    rcases Bool.or_eq_true_iff.mp hsurplus with hbefore | hidle
    · exact List.mem_cons_of_mem _ (h.surplus hbefore).2
    · exact List.mem_cons.mpr (.inl (of_decide_eq_true hidle).symm)

theorem after (h : Traced s) {c : LifecycleCall} {answer : c.Answer}
    (hrequires : s.history.Requires c) (hreads : s.Reads c answer)
    (hdistinct : s.Distinct c answer) : Traced (s.after c answer) := by
  cases c with
  | recordAttempt attempt =>
    cases answer with
    | error _ => exact h
    | ok _ =>
      obtain ⟨op, hpermits, rfl, hallows⟩ := written_op h.pass hrequires
      exact h.recorded hallows hpermits
  | hasTerminateIntent _ => exact h.looked hreads hdistinct
  | recordTerminateIntent _ => exact h.ordered_after answer hrequires
  | inspect _ | storeRunnerId _ _ | register _ _ => cases answer <;> exact { h with }
  | _ => exact { h with }

theorem opened (h : Traced s) {attempt : RunnerAttempt}
    (hreload : s.history.journal.reload = .ok attempt) :
    Traced { s with history := .start .pass attempt } := by
  obtain ⟨hstate, houtcome, -, hnative, -⟩ := readsBack_of_reload hreload
  exact
    { pass := rfl
      native := hnative.trans h.native
      live := fun hlive ↦ houtcome.trans (h.live (hstate ▸ hlive))
      ordered := h.ordered
      started := fun hstates ↦ (congrArg pastStart hstate).trans (h.started hstates)
      left := fun hidle hstarting ↦ h.left hidle (hstate.symm.trans hstarting)
      condemned := Bool.noConfusion
      current := fun _ hcurrent ↦ absurd hcurrent.symm (Option.some_ne_none _)
      surplus := h.surplus
      unmarked := fun _ hmark ↦ absurd hmark.symm (Option.some_ne_none _)
      timeout := fun htimeout ↦ h.timeout (houtcome.symm.trans htimeout)
      exit := fun hsurplus outcome hended ↦ h.exit hsurplus outcome (houtcome.symm.trans hended) }

theorem start {attempt : RunnerAttempt} (hnative : attempt.execution.isNative = true)
    (hwf : WellFormed attempt) (hlive : attempt.state.isTerminal = false) :
    Traced (.start attempt) := by
  have houtcome : attempt.outcome = none := by
    have hnone := hwf.outcome
    rw [hlive] at hnone
    exact Option.not_isSome_iff_eq_none.mp (Bool.not_eq_true _ ▸ hnone)
  have hnone {outcome : AttemptOutcome} {P : Prop}
      (hsome : attempt.outcome = some outcome) : P := by
    rw [houtcome] at hsome
    cases hsome
  exact
    { pass := rfl
      native := hnative
      live := fun _ ↦ houtcome
      ordered := fun _ hmem ↦ absurd hmem List.not_mem_nil
      started := fun hstates ↦ absurd rfl hstates
      left := fun hidle ↦ absurd hidle List.not_mem_nil
      condemned := Bool.noConfusion
      current := fun _ hcurrent ↦ absurd hcurrent.symm (Option.some_ne_none _)
      surplus := Bool.noConfusion
      unmarked := Bool.noConfusion
      timeout := fun htimeout ↦ hnone htimeout
      exit := Bool.noConfusion }

theorem of_terminated {p : PassProgram} (h : Terminated Orders.Distinct s p) :
    Traced s ∧
      (ordersContract Orders.Distinct).wp p (fun result t ↦ Settles result t.history) s := by
  refine Contract.Reaches.sound ?_ ?_ ?_ h
  · rintro s p ⟨launcher, policy, attempt, hnative, hwf, hlive, rfl, rfl⟩
    exact ⟨.start hnative hwf hlive, Orders.reconcileOne_wp launcher policy rfl⟩
  · rintro s t p htraced ⟨⟨launcher, policy, attempt, hreload, hstart, rfl⟩, hsame⟩
    refine ⟨?_, Orders.reconcileOne_wp launcher policy hstart⟩
    rw [hsame, hstart]
    exact htraced.opened hreload
  · rintro s c answer _ htraced hrequires ⟨hreads, hdistinct, rfl⟩
    exact htraced.after hrequires hreads hdistinct

end Traced

/-! ## Attribution -/

/-- In every run in which no pass finds the mark set, the process gone and the attempt journalled
`idle` or `busy`: a registration timeout is recorded, or a replacement asked for one, only where
every order found the attempt `starting`, and it is recorded of an attempt that never left that
state; and a runner that was stopped at its idle timeout is recorded as an idle exit, unless it
was reaped after a successful exit and did not deny a job, and it is never replaced. -/
theorem attributed_to_orders {s : Orders} {p : PassProgram} (h : Terminated Orders.Distinct s p) :
    (∀ attempt next outcome, p = .ask (.recordAttempt attempt) next →
      s.history.journal.outcome = none → attempt.outcome = some outcome →
      (outcome = .failed .terminatedAfterRegistrationTimeout →
        s.history.journal.state = .starting ∧ s.states ≠ [] ∧
          ∀ state ∈ s.states, state = .starting) ∧
      (s.surplus = true → outcome = .exitedIdleWithoutWork ∨ outcome = .completedJob ∧
        s.history.completed = true ∧ s.history.evidence ≠ some .noJob)) ∧
    (∀ id operation, p = .done (.ok (.replacement id operation)) → s.surplus = false ∧
      (operation = "registration_timeout_replacement" →
        s.states ≠ [] ∧ ∀ state ∈ s.states, state = .starting)) := by
  obtain ⟨htraced, hmeets⟩ := Traced.of_terminated h
  refine ⟨?_, ?_⟩
  · rintro attempt next outcome rfl hnone hsome
    obtain ⟨op, hpermits, rfl, hallows⟩ := written_op htraced.pass hmeets.1
    obtain ⟨now, rfl⟩ := conclude_of_outcome hnone hsome
    exact htraced.conclusion hallows hpermits
  · rintro id operation rfl
    obtain ⟨reason, houtcome, hreason⟩ := hmeets id operation rfl
    refine ⟨?_, fun hoperation ↦ ?_⟩
    · cases hsurplus : s.surplus with
      | false => rfl
      | true => rcases htraced.exit hsurplus _ houtcome with hended | hended <;> cases hended
    · rw [hreason hoperation] at houtcome
      exact htraced.timeout houtcome

/-- A native attempt whose runner waits for work. -/
def idleAttempt : RunnerAttempt :=
  AttemptOp.execAll [.jitReceived 1, .started 41 2, .registeredIdle 7 3]
    (.allocate ⟨1⟩ ⟨2⟩ "/r/1" 0)

/-- A runner that is stopped at its idle timeout and gone in the same pass is an idle exit. -/
theorem surplus_runner_exited : ∃ (s : Orders) (attempt : RunnerAttempt)
    (next : (LifecycleCall.recordAttempt attempt).Answer → PassProgram),
    Terminated Orders.Distinct s (.ask (.recordAttempt attempt) next) ∧ s.surplus = true ∧
      attempt.outcome.isSome = true ∧ ∀ outcome, attempt.outcome = some outcome →
        outcome = .exitedIdleWithoutWork ∨ outcome = .completedJob ∧
          s.history.completed = true ∧ s.history.evidence ≠ some .noJob := by
  have h0 : Terminated Orders.Distinct (.start idleAttempt)
      (reconcileOne sampleLauncher samplePolicy idleAttempt) :=
    .start ⟨_, _, _, rfl, AttemptOp.exec_all_wellFormed _ (.allocateIn ..), rfl, rfl, rfl⟩
  have h1 := h0.answered (.inspect idleAttempt) (.ok .running) rfl trivial trivial
  have h2 := h1.answered (.observe samplePolicy.target ⟨1⟩) (.registered 7 false) rfl trivial
    trivial
  have h3 := h2.answered (.readRunnerId "/r/1") (some 7) rfl trivial trivial
  have h4 := h3.answered (.hasTerminateIntent idleAttempt) false rfl ⟨nofun, nofun⟩ nofun
  have h5 := h4.answered .now (1000 : Int) rfl trivial trivial
  have h6 := h5.answered (.recordTerminateIntent idleAttempt) (.ok ()) rfl trivial trivial
  have h7 := h6.answered (.stop idleAttempt) (.ok .stopped) rfl trivial trivial
  have h8 := h7.answered (.inspect idleAttempt) (.ok .exited) rfl trivial trivial
  have h9 := h8.answered (.deregister samplePolicy.target 7) true rfl trivial trivial
  have h10 := h9.answered .now (1001 : Int) rfl trivial trivial
  refine ⟨_, _, _, h10, rfl, rfl, fun outcome houtcome ↦ ?_⟩
  exact ((attributed_to_orders h10).1 _ _ outcome rfl rfl houtcome).2 rfl
/-- The same attempt, concluded as a registration timeout. -/
def timedOutAttempt : RunnerAttempt :=
  (AttemptOp.conclude (.failed .terminatedAfterRegistrationTimeout) 1010).effect idleAttempt

/-- A runner that outlives the pass that stopped it at its idle timeout is recorded as a
registration timeout by the next one, and replaced. -/
theorem surplus_runner_replaced : ∃ s : Orders,
    Terminated (fun _ _ _ ↦ True) s
      (.done (.ok (.replacement ⟨1⟩ "registration_timeout_replacement"))) ∧
    s.history.journal.outcome = some (.failed .terminatedAfterRegistrationTimeout) ∧
    s.states = [.idle] ∧ s.surplus = true := by
  have h0 : Terminated (fun _ _ _ ↦ True) (.start idleAttempt)
      (reconcileOne sampleLauncher samplePolicy idleAttempt) :=
    .start ⟨_, _, _, rfl, AttemptOp.exec_all_wellFormed _ (.allocateIn ..), rfl, rfl, rfl⟩
  have h1 := h0.answered (.inspect idleAttempt) (.ok .running) rfl trivial trivial
  have h2 := h1.answered (.observe samplePolicy.target ⟨1⟩) (.registered 7 false) rfl trivial
    trivial
  have h3 := h2.answered (.readRunnerId "/r/1") (some 7) rfl trivial trivial
  have h4 := h3.answered (.hasTerminateIntent idleAttempt) false rfl ⟨nofun, nofun⟩ trivial
  have h5 := h4.answered .now (1000 : Int) rfl trivial trivial
  have h6 := h5.answered (.recordTerminateIntent idleAttempt) (.ok ()) rfl trivial trivial
  -- The runner does not stop within this pass.
  have h7 := h6.answered (.stop idleAttempt) (.ok .stillRunning) rfl trivial trivial
  have h8 : Terminated (fun _ _ _ ↦ True) ⟨.start .pass idleAttempt, [.idle], true, true⟩
      (reconcileOne sampleLauncher samplePolicy idleAttempt) :=
    .reopen h7 ⟨⟨_, _, _, rfl, rfl, rfl⟩, rfl⟩
  have h9 := h8.answered (.inspect idleAttempt) (.ok .exited) rfl trivial trivial
  have h10 := h9.answered (.observe samplePolicy.target ⟨1⟩) (.registered 7 false) rfl trivial
    trivial
  have h11 := h10.answered (.readRunnerId "/r/1") (some 7) rfl trivial trivial
  have h12 := h11.answered (.completedSuccessfully idleAttempt) false rfl trivial trivial
  have h13 := h12.answered (.hasTerminateIntent idleAttempt) true rfl
    ⟨fun _ ↦ rfl, fun _ ↦ List.cons_ne_nil _ _⟩ trivial
  have h14 := h13.answered (.deregister samplePolicy.target 7) true rfl trivial trivial
  have h15 := h14.answered .now (1010 : Int) rfl trivial trivial
  have h16 := h15.answered (.recordAttempt timedOutAttempt) (.ok ()) rfl trivial trivial
  have h17 := h16.answered .now (1010 : Int) rfl trivial trivial
  have h18 := h17.answered (.cleanupDue ⟨1⟩ 1010) false rfl trivial trivial
  exact ⟨_, h18, rfl, rfl, rfl⟩

end RunnerManager.Agent
