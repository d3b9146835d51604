import RunnerManager.Agent.Passes
import RunnerManager.Domain.Capacity

/-!
# Runs of supervision passes

A run is any sequence of passes over one attempt, each cut off anywhere: a restart opens the
next pass on what the journal gives back. `History.Opens` says that, and `concluded_only_dead`
is what every run keeps: an attempt leaves its slot only in a pass that last saw its process
not running.
-/

namespace RunnerManager.Agent

open RunnerManager.Domain RunnerManager.Result

/-! ## Reading the journal back -/

/-- An attempt that is read back is the journalled one, up to the store's repairs. -/
structure ReadsBack (attempt result : RunnerAttempt) : Prop where
  state : result.state = attempt.state
  outcome : result.outcome = attempt.outcome
  githubRunnerId : result.githubRunnerId = attempt.githubRunnerId
  native : result.execution.isNative = attempt.execution.isNative
  wellFormed : WellFormed result

theorem readsBack_of_reload {attempt result : RunnerAttempt}
    (h : attempt.reload = .ok result) : ReadsBack attempt result := by
  have hwf := PersistedAttempt.wellFormed_of_fromPersisted h
  have hexecution : (PersistedAttempt.repairedExecution attempt.state attempt.processId
      attempt.execution).isNative = attempt.execution.isNative := by
    unfold PersistedAttempt.repairedExecution
    split_ifs with hclean
    · rw [hclean.2]
      rfl
    · rfl
  unfold RunnerAttempt.reload PersistedAttempt.fromPersisted at h
  simp only [bind_eq_ok, pure_eq_ok] at h
  obtain ⟨workspace, -, _, -, _, -, _, -, _, -, _, -, _, -, rfl⟩ := h
  exact ⟨rfl, rfl, rfl, hexecution, hwf⟩

/-! ## Runs -/

abbrev PassProgram := LifecycleProgram ReconcileProgress

/-- The next pass begins on what the journal gives back; the launcher and the policy are the
ones of that moment. -/
def History.Opens (s t : History) (p : PassProgram) : Prop :=
  ∃ launcher policy attempt, s.journal.reload = .ok attempt ∧ t = .start .pass attempt ∧
    p = reconcileOne launcher policy attempt

/-- A first pass over a native attempt. -/
def NativeStart (s : History) (p : PassProgram) : Prop :=
  ∃ launcher policy attempt, attempt.execution.isNative = true ∧ s = .start .pass attempt ∧
    p = reconcileOne launcher policy attempt

/-- What a run of passes reaches, with ports that answer anything. -/
def Supervised (s : History) (p : PassProgram) : Prop :=
  historyContract.Reaches NativeStart History.Opens s p

theorem Supervised.answered {s : History} {p : PassProgram} (h : Supervised s p)
    (c : LifecycleCall) (answer : c.Answer) {next : c.Answer → PassProgram}
    (hask : p = .ask c next) : Supervised (s.after c answer) (next answer) := by
  subst hask
  exact .call h answer rfl

/-! ## Edges -/

theorem conclude_of_terminal {op : AttemptOp} {attempt : RunnerAttempt}
    (hop : op.Permits attempt) (hlive : attempt.state.isTerminal = false)
    (hterminal : (op.effect attempt).state.isTerminal = true) :
    ∃ outcome now, op = .conclude outcome now := by
  have hedge (next : AttemptState) (htarget : op.target = some next)
      (hnext : next.isTerminal = true) : next.isConcluded = true := by
    have hkind := AttemptState.legal_terminal (hop.2 next htarget)
    rw [hlive, hnext] at hkind
    simpa using hkind.symm
  cases op with
  | conclude outcome now => exact ⟨outcome, now, rfl⟩
  | allocateExecution _ | preparedEnvironment _ =>
    have hsame : attempt.state.isTerminal = true := hterminal
    rw [hlive] at hsame
    cases hsame
  | clean _ | cleanIsolated _ | beginDestroy _ | deferCleanup _ => cases hedge _ rfl rfl
  | _ => cases hterminal

theorem native_effect {s : History} {op : AttemptOp} (hallows : s.Allows op)
    (hnative : s.journal.execution.isNative = true) :
    (op.effect s.journal).execution.isNative = true := by
  cases op with
  | allocateExecution execution => exact hallows.elim
  | preparedEnvironment environmentId =>
    show (s.journal.execution.withEnvironment environmentId).isNative = true
    cases hexecution : s.journal.execution with
    | native pid => rfl
    | isolated kind id image generation =>
      rw [hexecution] at hnative
      cases hnative
  | started pid now => rfl
  | _ => exact hnative

/-! ## Capacity is released only for a dead runner -/

/-- What every run over a native attempt keeps. -/
structure Held (s : History) : Prop where
  pass : s.operation = .pass
  native : s.journal.execution.isNative = true
  began : s.began.execution.isNative = true
  concluded : s.journal.state.isTerminal = true → s.began.state.isTerminal = true ∨
    ∃ state, s.process = some state ∧ state ≠ .running

theorem Held.start {attempt : RunnerAttempt} (hnative : attempt.execution.isNative = true) :
    Held (.start .pass attempt) :=
  ⟨rfl, hnative, hnative, .inl⟩

theorem written_op {s : History} (hpass : s.operation = .pass) {attempt : RunnerAttempt}
    (h : s.Requires (.recordAttempt attempt)) :
    ∃ op : AttemptOp, op.Permits s.journal ∧ attempt = op.effect s.journal ∧ s.Allows op := by
  rcases h with ⟨op, hanswer, hallows⟩ | ⟨hlaunch, -⟩
  · obtain ⟨hpermits, heffect⟩ := AttemptOp.answer_iff.mp hanswer
    exact ⟨op, hpermits, heffect, hallows⟩
  · rw [hpass] at hlaunch
    cases hlaunch

theorem Held.dead (h : Held s) {attempt : RunnerAttempt}
    (hrequires : s.Requires (.recordAttempt attempt))
    (hterminal : attempt.state.isTerminal = true) (hlive : s.journal.state.isTerminal = false) :
    ∃ state, s.process = some state ∧ state ≠ .running := by
  obtain ⟨op, hpermits, rfl, hallows⟩ := written_op h.pass hrequires
  obtain ⟨outcome, now, rfl⟩ := conclude_of_terminal hpermits hlive hterminal
  have hmay : s.MayConclude outcome := hallows
  unfold History.MayConclude at hmay
  rw [h.pass] at hmay
  dsimp only at hmay
  rw [if_pos h.native] at hmay
  exact hmay.1

theorem Held.after (h : Held s) {c : LifecycleCall} (answer : c.Answer) (hrequires : s.Requires c) :
    Held (s.after c answer) := by
  cases c with
  | recordAttempt attempt =>
    cases answer with
    | error _ => exact h
    | ok _ =>
      obtain ⟨op, hpermits, heffect, hallows⟩ := written_op h.pass hrequires
      refine ⟨h.pass, ?_, h.began, fun hterminal ↦ ?_⟩
      · show attempt.execution.isNative = true
        rw [heffect]
        exact native_effect hallows h.native
      · cases hlive : s.journal.state.isTerminal with
        | true => exact h.concluded hlive
        | false => exact .inr (h.dead hrequires hterminal hlive)
  | inspect attempt =>
    cases answer with
    | error _ => exact h
    | ok state =>
      refine ⟨h.pass, h.native, h.began, fun hterminal ↦ ?_⟩
      have hlive : s.journal.state.isTerminal = false := hrequires h.native
      have hconcluded : s.journal.state.isTerminal = true := hterminal
      rw [hlive] at hconcluded
      cases hconcluded
  | storeRunnerId _ _ | register _ _ =>
    cases answer <;> exact ⟨h.pass, h.native, h.began, h.concluded⟩
  | _ => exact ⟨h.pass, h.native, h.began, h.concluded⟩

theorem Held.of_supervised {p : PassProgram} (h : Supervised s p) :
    Held s ∧ historyContract.wp p Settles s := by
  refine Contract.Reaches.sound ?_ ?_ ?_ h
  · rintro s p ⟨launcher, policy, attempt, hnative, rfl, rfl⟩
    exact ⟨.start hnative, reconcileOne_wp launcher policy attempt⟩
  · rintro s t p hheld ⟨launcher, policy, attempt, hreload, rfl, rfl⟩
    refine ⟨.start ?_, reconcileOne_wp launcher policy attempt⟩
    rw [(readsBack_of_reload hreload).native]
    exact hheld.native
  · rintro s c answer _ hheld hrequires rfl
    exact hheld.after answer hrequires

/-- In every run of passes over a native attempt, the attempt is concluded only by a pass that
last saw its process not running, and while a pass last saw it running the attempt keeps its
slot. -/
theorem concluded_only_dead {s : History} {p : PassProgram} (h : Supervised s p) :
    (∀ attempt next, p = .ask (.recordAttempt attempt) next → attempt.state.isTerminal = true →
      s.journal.state.isTerminal = false → ∃ state, s.process = some state ∧ state ≠ .running) ∧
    (s.process = some .running → s.began.countsAgainstCapacity = true →
      s.journal.countsAgainstCapacity = true) := by
  obtain ⟨hheld, hmeets⟩ := Held.of_supervised h
  refine ⟨?_, fun hrunning hcounts ↦ ?_⟩
  · rintro attempt next rfl hterminal hlive
    exact hheld.dead hmeets.1 hterminal hlive
  · by_contra hleft
    rw [Bool.not_eq_true, not_counts_iff] at hleft
    rcases hheld.concluded hleft.1 with hbegan | ⟨state, hprocess, hstopped⟩
    · rw [(not_counts_iff _).mpr ⟨hbegan, .inl hheld.began⟩] at hcounts
      cases hcounts
    · rw [hrunning] at hprocess
      exact hstopped (Option.some.inj hprocess).symm

def samplePolicy : ScalePolicy where
  id := ⟨2⟩
  target := .repository ⟨⟨"acme", by decide⟩, ⟨"app", by decide⟩⟩
  installationId := 3
  hostId := ⟨1⟩
  requestedHostLabel := ⟨"build", by decide⟩
  profileName := ⟨"gpu", by decide⟩
  mode := .autoscale {
    routingLabels := .deriveForProfile ⟨"build", by decide⟩ .linux .x64 ⟨"gpu", by decide⟩
    minCapacity := 0
    maxCapacity := ⟨1, by decide⟩
    ordered := by decide }
  enabled := true
  state := .active
  cachePolicy := .retainRunnerPackage
  workspacePolicy := .ephemeral
  executionPolicy := .native
  revision := 1

def sampleLauncher : Launcher := ⟨⟨1⟩, 1, ⟨120, 300, 300⟩, ⟨3, 1, 8⟩⟩

/-- A native attempt whose process was started. -/
def startingAttempt : RunnerAttempt :=
  AttemptOp.execAll [.jitReceived 1, .started 41 2] (.allocate ⟨1⟩ ⟨2⟩ "/r/1" 0)

/-- A pass that sees the process gone concludes such an attempt. -/
theorem exited_runner_concluded :
    ∃ (s : History) (attempt : RunnerAttempt)
      (next : (LifecycleCall.recordAttempt attempt).Answer → PassProgram),
      Supervised s (.ask (.recordAttempt attempt) next) ∧
      attempt.state.isTerminal = true ∧ s.journal.state.isTerminal = false ∧
      ∃ state, s.process = some state ∧ state ≠ .running := by
  have h0 : Supervised (.start .pass startingAttempt)
      (reconcileOne sampleLauncher samplePolicy startingAttempt) :=
    .start ⟨_, _, _, rfl, rfl, rfl⟩
  have h1 := h0.answered (.inspect startingAttempt) (.ok .exited) rfl
  have h2 := h1.answered (.observe samplePolicy.target ⟨1⟩) .notRegistered rfl
  have h3 := h2.answered (.completedSuccessfully startingAttempt) false rfl
  have h4 := h3.answered (.hasTerminateIntent startingAttempt) false rfl
  have h5 := h4.answered .now (5 : Int) rfl
  have h6 := h5.answered .now (5 : Int) rfl
  refine ⟨_, _, _, h6, rfl, rfl, ?_⟩
  exact (concluded_only_dead h6).1 _ _ rfl rfl rfl
end RunnerManager.Agent
