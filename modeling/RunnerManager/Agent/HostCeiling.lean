import RunnerManager.Agent.Reconcile

/-!
# The host ceiling under concurrent passes

Any number of reconcilers share one allocation lock and one launcher. A `Pass` is a call of
`start_runners` in progress, and a `Machine` interleaves the passes with edits of the ceiling
and with the lifecycle of the attempts. Read `PassSound` first: it is what one pass knows of
the machine while it holds the lock.
-/

namespace RunnerManager.Agent

open RunnerManager.Domain

/-! ## The machine -/

/-- Where a pass stands with the launch of its hold; a failed launch returns no id. -/
inductive LaunchPhase where
  | waiting
  | launching
  | returned (id : Option AttemptId)
deriving DecidableEq

/-- A call of `start_runners` in progress, with what it still has to do. -/
structure Pass where
  host : Host
  policy : ScalePolicy
  demand : Nat
  program : StartProgram (StartReport × List RunnerAttempt)
  log : StartLog
  phase : LaunchPhase
  created : Option AttemptId

def Pass.contract (pass : Pass) : Contract StartCall StartCall.Answer StartLog :=
  startContract pass.host pass.policy pass.demand

/-- A call of `start_runners` before its first port call. -/
def Pass.start (host : Host) (policy : ScalePolicy) (demand : Nat) (report : StartReport)
    (launched : List RunnerAttempt) : Pass where
  host := host
  policy := policy
  demand := demand
  program := startRunners host policy demand report launched
  log := .start launched
  phase := .waiting
  created := none

def occupied (journal : List RunnerAttempt) : Nat :=
  journal.countP fun attempt ↦ attempt.countsAgainstCapacity

/-- The stored ceiling, the attempt journal, the holder of the lock and every pass. -/
structure Machine (T : Type) where
  capacity : NonZeroU16
  journal : List RunnerAttempt
  owner : Option T
  passes : T → Option Pass

namespace Machine

variable {T : Type}

/-- The answers that are possible now. The lock is exclusive, the readings are of the present,
and the guard of a launch that returned an attempt is dropped once that attempt is visible. -/
def Admits (m : Machine T) (pass : Pass) : (c : StartCall) → c.Answer → Prop
  | .acquire, .ok _ => m.owner = none
  | .acquire, .error _ => True
  | .release, _ => ∀ id, pass.phase = .returned (some id) → pass.created = some id
  | .hostCapacity, .ok capacity => capacity = m.capacity
  | .hostCapacity, .error _ => True
  | .attempts, .ok attempts => attempts = m.journal
  | .attempts, .error _ => True
  | .launch _, .ok attempt => pass.phase = .launching ∧
      (pass.created = none ∨ pass.created = some attempt.id)
  | .launch _, .error _ => pass.phase = .launching

/-- The holder of the lock after an answer. -/
def ownerAfter (m : Machine T) (t : T) : (c : StartCall) → c.Answer → Option T
  | .acquire, .ok _ => some t
  | .release, _ => none
  | _, _ => m.owner

variable [DecidableEq T]

def put (m : Machine T) (t : T) (pass : Option Pass) : Machine T :=
  { m with passes := Function.update m.passes t pass }

end Machine

/-- Where a pass stands with its launch after an answer. -/
def Pass.phaseAfter (pass : Pass) : (c : StartCall) → c.Answer → LaunchPhase
  | .acquire, .ok _ => .waiting
  | .release, _ => .waiting
  | .launch _, .ok attempt => .returned (some attempt.id)
  | .launch _, .error _ => .returned none
  | _, _ => pass.phase

/-- What the launch of the current hold has journalled, after an answer. -/
def Pass.createdAfter (pass : Pass) : (c : StartCall) → c.Answer → Option AttemptId
  | .acquire, .ok _ => none
  | _, _ => pass.created

def Pass.answered (pass : Pass) (c : StartCall)
    (next : c.Answer → StartProgram (StartReport × List RunnerAttempt)) (answer : c.Answer) :
    Pass :=
  { pass with
    program := next answer
    log := pass.log.after pass.host pass.policy pass.demand c answer
    phase := pass.phaseAfter c answer
    created := pass.createdAfter c answer }

/-- The launch of this pass may still journal an attempt: one for each hold, and the one it
returned if it has returned. -/
def Pass.MayCreate (pass : Pass) (id : AttemptId) : Prop :=
  pass.created = none ∧ (pass.phase = .launching ∨ pass.phase = .returned (some id))

namespace Machine

variable {T : Type} [DecidableEq T]

/-- The guard of a pass that ends early is dropped. -/
def abandonedOwner (m : Machine T) (t : T) : Option T :=
  if m.owner = some t then none else m.owner

/-- One atomic step. -/
inductive Step : Machine T → Machine T → Prop
  | edit (m : Machine T) (capacity : NonZeroU16) : Step m { m with capacity }
  | evolve (m : Machine T) (id : AttemptId) (op : AttemptOp) : Step m { m with
      journal := m.journal.map fun attempt ↦ if attempt.id = id then op.exec attempt else attempt }
  | forget (m : Machine T) (id : AttemptId) : Step m { m with
      journal := m.journal.filter fun attempt ↦ attempt.id ≠ id }
  | start (m : Machine T) (t : T) (host : Host) (policy : ScalePolicy) (demand : Nat)
      (report : StartReport) (launched : List RunnerAttempt) (hidle : m.passes t = none) :
      Step m (m.put t (some (.start host policy demand report launched)))
  | finish (m : Machine T) (t : T) (pass : Pass) (hpass : m.passes t = some pass)
      (result : Except Empty (StartReport × List RunnerAttempt))
      (hdone : pass.program = .done result) : Step m (m.put t none)
  | abandon (m : Machine T) (t : T) : Step m { m.put t none with owner := m.abandonedOwner t }
  | callLaunch (m : Machine T) (t : T) (pass : Pass) (hpass : m.passes t = some pass)
      (policy : ScalePolicy) (next : (StartCall.launch policy).Answer →
        StartProgram (StartReport × List RunnerAttempt))
      (hcall : pass.program = .ask (.launch policy) next) (hphase : pass.phase ≠ .launching) :
      Step m (m.put t (some { pass with phase := .launching }))
  | create (m : Machine T) (t : T) (pass : Pass) (hpass : m.passes t = some pass)
      (attempt : RunnerAttempt) (hmay : pass.MayCreate attempt.id)
      (hfresh : attempt.id ∉ m.journal.map (·.id)) :
      Step m { m.put t (some { pass with created := some attempt.id }) with
        journal := m.journal ++ [attempt] }
  | answer (m : Machine T) (t : T) (pass : Pass) (hpass : m.passes t = some pass) (c : StartCall)
      (next : c.Answer → StartProgram (StartReport × List RunnerAttempt))
      (hcall : pass.program = .ask c next) (a : c.Answer) (hadmits : m.Admits pass c a) :
      Step m { m.put t (some (pass.answered c next a)) with owner := m.ownerAfter t c a }

/-- The machines a run reaches from any ceiling and any journal, with no pass in progress. -/
inductive Reachable : Machine T → Prop
  | start (capacity : NonZeroU16) (journal : List RunnerAttempt) :
      Reachable ⟨capacity, journal, none, fun _ ↦ none⟩
  | step {m next : Machine T} (h : Reachable m) (hstep : Step m next) : Reachable next

end Machine

/-! ## What a pass knows -/

/-- What holds of a pass. While it holds the lock and launches nothing, no attempt has been
added to the set it read. -/
structure PassSound (journal : List RunnerAttempt) (owns : Prop) (pass : Pass) : Prop where
  meets : pass.contract.wp pass.program (fun _ log ↦ log.locked = false) pass.log
  owner : owns ↔ pass.log.locked = true
  launching : pass.phase = .launching → pass.log.locked = true ∧
    ∃ policy next, pass.program = .ask (.launch policy) next
  returned : ∀ id, pass.phase = .returned id → pass.log.locked = true ∧ pass.log.spent = true
  readings : pass.log.locked = true → pass.phase = .waiting →
    ∀ attempts, pass.log.attempts = some attempts → occupied journal ≤ occupied attempts

namespace PassSound

variable {journal journal' : List RunnerAttempt} {owns : Prop} {pass : Pass}

theorem of_le (h : PassSound journal owns pass) (hle : occupied journal' ≤ occupied journal) :
    PassSound journal' owns pass where
  meets := h.meets
  owner := h.owner
  launching := h.launching
  returned := h.returned
  readings := fun hlocked hphase attempts hread ↦
    Nat.le_trans hle (h.readings hlocked hphase attempts hread)

theorem of_unowned (h : PassSound journal owns pass) (howns : ¬ owns) :
    PassSound journal' owns pass where
  meets := h.meets
  owner := h.owner
  launching := h.launching
  returned := h.returned
  readings := fun hlocked ↦ absurd (h.owner.mpr hlocked) howns

theorem waiting_of_launch (h : PassSound journal owns pass) {policy : ScalePolicy}
    {next : (StartCall.launch policy).Answer → StartProgram (StartReport × List RunnerAttempt)}
    (hcall : pass.program = .ask (.launch policy) next) (hphase : pass.phase ≠ .launching) :
    pass.phase = .waiting := by
  have hmeets := h.meets
  rw [hcall] at hmeets
  obtain ⟨-, -, -, hspent, -⟩ := hmeets.1
  cases hcase : pass.phase with
  | waiting => rfl
  | launching => exact absurd hcase hphase
  | returned id =>
    rw [(h.returned id hcase).2] at hspent
    cases hspent

theorem below_ceiling (h : PassSound journal owns pass) {policy : ScalePolicy}
    {next : (StartCall.launch policy).Answer → StartProgram (StartReport × List RunnerAttempt)}
    (hcall : pass.program = .ask (.launch policy) next) (hphase : pass.phase ≠ .launching) :
    owns ∧ ∃ capacity, pass.log.capacity = some capacity ∧ occupied journal < capacity.val := by
  have hwaiting := h.waiting_of_launch hcall hphase
  have hmeets := h.meets
  rw [hcall] at hmeets
  obtain ⟨-, -, hlocked, -, ⟨capacity, attempts, hcapacity, hattempts, hroom⟩, -⟩ := hmeets.1
  refine ⟨h.owner.mpr hlocked, capacity, hcapacity, ?_⟩
  calc occupied journal ≤ occupied attempts := h.readings hlocked hwaiting attempts hattempts
    _ ≤ occupied (mergeLaunched attempts pass.log.launched) := by
        unfold occupied mergeLaunched
        rw [List.countP_append]
        exact Nat.le_add_right _ _
    _ < capacity.val := hroom

theorem of_iff {owns' : Prop} (h : PassSound journal owns pass) (howns : owns' ↔ owns) :
    PassSound journal owns' pass where
  meets := h.meets
  owner := howns.trans h.owner
  launching := h.launching
  returned := h.returned
  readings := h.readings

theorem of_start (host : Host) (policy : ScalePolicy) (demand : Nat) (report : StartReport)
    (launched : List RunnerAttempt) (howns : ¬ owns) :
    PassSound journal owns (.start host policy demand report launched) where
  meets := start_runners_wp report launched
  owner := ⟨fun h ↦ absurd h howns, fun h ↦ nomatch h⟩
  launching := nofun
  returned := nofun
  readings := nofun

theorem not_launching (h : PassSound journal owns pass) {c : StartCall}
    {next : c.Answer → StartProgram (StartReport × List RunnerAttempt)}
    (hcall : pass.program = .ask c next) (hc : ∀ policy, c ≠ .launch policy) :
    pass.phase ≠ .launching := by
  intro hphase
  obtain ⟨-, policy, launchNext, hlaunch⟩ := h.launching hphase
  rw [hcall] at hlaunch
  injection hlaunch with hsame
  exact hc policy hsame

end PassSound

/-! ## Every step keeps what the passes know -/

/-- Every pass is sound, and the holder of the lock is a pass in progress. -/
structure Machine.Sound {T : Type} (m : Machine T) : Prop where
  passes : ∀ t pass, m.passes t = some pass → PassSound m.journal (m.owner = some t) pass
  holder : ∀ t, m.owner = some t → ∃ pass, m.passes t = some pass

section Answer

variable {T : Type} {m : Machine T} {t : T} {pass : Pass}

theorem PassSound.reading {journal : List RunnerAttempt} {owns : Prop}
    (h : PassSound journal owns pass) {log : StartLog}
    {program : StartProgram (StartReport × List RunnerAttempt)}
    (hrest : pass.contract.wp program (fun _ log ↦ log.locked = false) log)
    (hidle : pass.phase ≠ .launching) (hlocked : log.locked = pass.log.locked)
    (hspent : log.spent = pass.log.spent)
    (hread : ∀ attempts, log.attempts = some attempts →
      pass.log.attempts = some attempts ∨ attempts = journal) :
    PassSound journal owns { pass with program, log } where
  meets := hrest
  owner := by
    show owns ↔ log.locked = true
    rw [hlocked]
    exact h.owner
  launching := fun hphase ↦ absurd hphase hidle
  returned := by
    intro id hphase
    show log.locked = true ∧ log.spent = true
    rw [hlocked, hspent]
    exact h.returned id hphase
  readings := by
    intro hheld hphase attempts hattempts
    have hbefore : pass.log.locked = true := hlocked ▸ hheld
    rcases hread attempts hattempts with hold | rfl
    · exact h.readings hbefore hphase attempts hold
    · exact Nat.le_refl _

theorem PassSound.answer (h : PassSound m.journal (m.owner = some t) pass) {c : StartCall}
    {next : c.Answer → StartProgram (StartReport × List RunnerAttempt)}
    (hcall : pass.program = .ask c next) {a : c.Answer} (hadmits : m.Admits pass c a) :
    PassSound m.journal (m.ownerAfter t c a = some t) (pass.answered c next a) := by
  have hmeets := h.meets
  rw [hcall] at hmeets
  have hrest : pass.contract.wp (next a) (fun _ log ↦ log.locked = false)
      (pass.log.after pass.host pass.policy pass.demand c a) := hmeets.2 a _ rfl
  have hrequires : pass.log.Requires pass.policy c := hmeets.1.2
  cases c with
  | acquire =>
    cases a with
    | ok guard =>
      exact
        { meets := hrest
          owner := iff_of_true rfl rfl
          launching := fun hphase ↦ LaunchPhase.noConfusion hphase
          returned := fun _ hphase ↦ LaunchPhase.noConfusion hphase
          readings := fun _ _ _ hread ↦ nomatch hread }
    | error _ =>
      exact h.reading hrest 
        (h.not_launching hcall fun _ hc ↦ StartCall.noConfusion hc) rfl rfl
        fun _ hread ↦ .inl hread
  | release =>
    exact
      { meets := hrest
        owner := iff_of_false (fun howner ↦ nomatch howner)
          (fun hlocked ↦ Bool.noConfusion hlocked)
        launching := fun hphase ↦ LaunchPhase.noConfusion hphase
        returned := fun _ hphase ↦ LaunchPhase.noConfusion hphase
        readings := fun hlocked ↦ Bool.noConfusion hlocked }
  | hostCapacity =>
    have hidle := h.not_launching hcall fun _ hc ↦ StartCall.noConfusion hc
    cases a with
    | ok capacity => exact h.reading hrest hidle rfl rfl fun _ hread ↦ nomatch hread
    | error error => exact h.reading hrest hidle rfl rfl fun _ hread ↦ nomatch hread
  | attempts =>
    have hidle := h.not_launching hcall fun _ hc ↦ StartCall.noConfusion hc
    cases a with
    | ok attempts =>
      have hjournal : attempts = m.journal := hadmits
      exact h.reading hrest hidle rfl rfl fun _ hread ↦
        .inr ((Option.some.inj hread).symm.trans hjournal)
    | error failure => exact h.reading hrest hidle rfl rfl fun _ hread ↦ .inl hread
  | launch policy =>
    have hlocked : pass.log.locked = true := hrequires.2.1
    cases a with
    | ok attempt =>
      exact
        { meets := hrest
          owner := h.owner
          launching := fun hphase ↦ LaunchPhase.noConfusion hphase
          returned := fun _ _ ↦ ⟨hlocked, rfl⟩
          readings := fun _ hphase ↦ LaunchPhase.noConfusion hphase }
    | error failure =>
      exact
        { meets := hrest
          owner := h.owner
          launching := fun hphase ↦ LaunchPhase.noConfusion hphase
          returned := fun _ _ ↦ ⟨hlocked, rfl⟩
          readings := fun _ hphase ↦ LaunchPhase.noConfusion hphase }

theorem PassSound.owner_answer (h : PassSound m.journal (m.owner = some t) pass) {c : StartCall}
    {next : c.Answer → StartProgram (StartReport × List RunnerAttempt)}
    (hcall : pass.program = .ask c next) {a : c.Answer} (hadmits : m.Admits pass c a) {u : T}
    (hother : u ≠ t) : m.ownerAfter t c a = some u ↔ m.owner = some u := by
  have hmeets := h.meets
  rw [hcall] at hmeets
  have hrequires : pass.log.Requires pass.policy c := hmeets.1.2
  have hne : (some t : Option T) ≠ some u := fun h ↦ hother (Option.some.inj h).symm
  cases c with
  | acquire =>
    cases a with
    | ok guard =>
      have hfree : m.owner = none := hadmits
      exact iff_of_false hne (by rw [hfree]; nofun)
    | error _ => exact Iff.rfl
  | release =>
    have hheld : m.owner = some t := h.owner.mpr hrequires
    exact iff_of_false nofun (by rw [hheld]; exact hne)
  | hostCapacity | attempts | launch policy => cases a <;> exact Iff.rfl

end Answer

namespace Machine

variable {T : Type} [DecidableEq T] {m next : Machine T}

theorem Sound.put (h : m.Sound) (t : T) (pass : Option Pass) (journal : List RunnerAttempt)
    (owner : Option T)
    (hpass : ∀ new, pass = some new → PassSound journal (owner = some t) new)
    (hothers : ∀ u old, u ≠ t → PassSound m.journal (m.owner = some u) old →
      PassSound journal (owner = some u) old)
    (hholder : owner = some t → pass ≠ none)
    (hheld : ∀ u, u ≠ t → owner = some u → m.owner = some u) :
    Sound { m.put t pass with journal, owner } where
  passes := by
    intro u new hnew
    have hupdate : Function.update m.passes t pass u = some new := hnew
    by_cases hu : u = t
    · subst hu
      rw [Function.update_self] at hupdate
      exact hpass new hupdate
    · rw [Function.update_of_ne hu] at hupdate
      exact hothers u new hu (h.passes u new hupdate)
  holder := by
    intro u howner
    show ∃ new, Function.update m.passes t pass u = some new
    by_cases hu : u = t
    · subst hu
      rw [Function.update_self]
      exact Option.ne_none_iff_exists'.mp (hholder howner)
    · rw [Function.update_of_ne hu]
      exact h.holder u (hheld u hu howner)

omit [DecidableEq T] in
theorem Sound.of_le (h : m.Sound) {capacity : NonZeroU16} {journal : List RunnerAttempt}
    (hle : occupied journal ≤ occupied m.journal) : Sound { m with capacity, journal } where
  passes := fun t pass hpass ↦ (h.passes t pass hpass).of_le hle
  holder := h.holder

theorem occupied_evolve_le (journal : List RunnerAttempt) (id : AttemptId) (op : AttemptOp) :
    occupied (journal.map fun attempt ↦ if attempt.id = id then op.exec attempt else attempt) ≤
      occupied journal := by
  unfold occupied
  rw [List.countP_map]
  refine List.countP_mono_left fun attempt _ hcounts ↦ ?_
  rw [Function.comp_apply] at hcounts
  by_cases hid : attempt.id = id
  · rw [if_pos hid] at hcounts
    exact counts_of_exec hcounts
  · rwa [if_neg hid] at hcounts

theorem Sound.start (h : m.Sound) {t : T} (hidle : m.passes t = none) (host : Host)
    (policy : ScalePolicy) (demand : Nat) (report : StartReport) (launched : List RunnerAttempt) :
    (m.put t (some (.start host policy demand report launched))).Sound := by
  have hunowned : m.owner ≠ some t := by
    intro howner
    obtain ⟨pass, hpass⟩ := h.holder t howner
    rw [hidle] at hpass
    cases hpass
  refine h.put t _ m.journal m.owner ?_ (fun _ _ _ hold ↦ hold) (fun _ ↦ Option.some_ne_none _)
    (fun _ _ howner ↦ howner)
  intro new hnew
  obtain rfl := Option.some.inj hnew
  exact .of_start host policy demand report launched hunowned

theorem Sound.finish (h : m.Sound) {t : T} {pass : Pass} (hpass : m.passes t = some pass)
    {result : Except Empty (StartReport × List RunnerAttempt)}
    (hdone : pass.program = .done result) : (m.put t none).Sound := by
  have hsound := h.passes t pass hpass
  have hunlocked := hsound.meets
  rw [hdone, Contract.wp_done] at hunlocked
  refine h.put t none m.journal m.owner (fun _ hnew ↦ absurd hnew.symm (Option.some_ne_none _))
    (fun _ _ _ hold ↦ hold) (fun howner ↦ ?_) (fun _ _ howner ↦ howner)
  rw [hsound.owner.mp howner] at hunlocked
  cases hunlocked

theorem Sound.abandon (h : m.Sound) (t : T) :
    Sound { m.put t none with owner := m.abandonedOwner t } := by
  have howner (u : T) (hu : u ≠ t) : m.abandonedOwner t = some u ↔ m.owner = some u := by
    unfold abandonedOwner
    by_cases howns : m.owner = some t
    · rw [if_pos howns, howns]
      exact iff_of_false (Option.some_ne_none u).symm fun h ↦ hu (Option.some.inj h).symm
    · rw [if_neg howns]
  refine h.put t none m.journal _ (fun _ hnew ↦ absurd hnew.symm (Option.some_ne_none _))
    (fun u _ hu hold ↦ hold.of_iff (howner u hu)) (fun hself ↦ ?_)
    (fun u hu hother ↦ (howner u hu).mp hother)
  unfold abandonedOwner at hself
  by_cases howns : m.owner = some t
  · rw [if_pos howns] at hself
    exact absurd hself.symm (Option.some_ne_none t)
  · rw [if_neg howns] at hself
    exact absurd hself howns

theorem Sound.callLaunch (h : m.Sound) {t : T} {pass : Pass} (hpass : m.passes t = some pass)
    {policy : ScalePolicy} {next : (StartCall.launch policy).Answer →
      StartProgram (StartReport × List RunnerAttempt)}
    (hcall : pass.program = .ask (.launch policy) next) (hphase : pass.phase ≠ .launching) :
    (m.put t (some { pass with phase := .launching })).Sound := by
  have hsound := h.passes t pass hpass
  have hlocked : pass.log.locked = true := hsound.owner.mp (hsound.below_ceiling hcall hphase).1
  refine h.put t _ m.journal m.owner ?_ (fun _ _ _ hold ↦ hold) (fun _ ↦ Option.some_ne_none _)
    (fun _ _ howner ↦ howner)
  intro new hnew
  obtain rfl := Option.some.inj hnew
  exact
    { meets := hsound.meets
      owner := hsound.owner
      launching := fun _ ↦ ⟨hlocked, policy, next, hcall⟩
      returned := fun _ hreturned ↦ LaunchPhase.noConfusion hreturned
      readings := fun _ hwaiting ↦ LaunchPhase.noConfusion hwaiting }

/-- An attempt is journalled by the pass that holds the lock, so no other pass has read the
journal in a hold of its own. -/
theorem Sound.create (h : m.Sound) {t : T} {pass : Pass} (hpass : m.passes t = some pass)
    {attempt : RunnerAttempt} (hmay : pass.MayCreate attempt.id) :
    Sound { m.put t (some { pass with created := some attempt.id }) with
      journal := m.journal ++ [attempt] } := by
  have hsound := h.passes t pass hpass
  have hlocked : pass.log.locked = true := by
    rcases hmay.2 with hlaunching | hreturned
    · exact (hsound.launching hlaunching).1
    · exact (hsound.returned _ hreturned).1
  have hbusy : pass.phase ≠ .waiting := by
    rcases hmay.2 with hlaunching | hreturned
    · rw [hlaunching]
      exact LaunchPhase.noConfusion
    · rw [hreturned]
      exact LaunchPhase.noConfusion
  have howner : m.owner = some t := hsound.owner.mpr hlocked
  refine h.put t _ (m.journal ++ [attempt]) m.owner ?_ ?_ (fun _ ↦ Option.some_ne_none _)
    (fun _ _ howner ↦ howner)
  · intro new hnew
    obtain rfl := Option.some.inj hnew
    exact
      { meets := hsound.meets
        owner := hsound.owner
        launching := hsound.launching
        returned := hsound.returned
        readings := fun _ hwaiting ↦ absurd hwaiting hbusy }
  · intro u old hu hold
    refine hold.of_unowned fun hother ↦ hu ?_
    rw [howner] at hother
    exact (Option.some.inj hother).symm

theorem Sound.answer (h : m.Sound) {t : T} {pass : Pass} (hpass : m.passes t = some pass)
    {c : StartCall} {next : c.Answer → StartProgram (StartReport × List RunnerAttempt)}
    (hcall : pass.program = .ask c next) {a : c.Answer} (hadmits : m.Admits pass c a) :
    Sound { m.put t (some (pass.answered c next a)) with owner := m.ownerAfter t c a } := by
  have hsound := h.passes t pass hpass
  refine h.put t _ m.journal _ ?_
    (fun u _ hu hold ↦ hold.of_iff (hsound.owner_answer hcall hadmits hu))
    (fun _ ↦ Option.some_ne_none _)
    (fun u hu howner ↦ (hsound.owner_answer hcall hadmits hu).mp howner)
  intro new hnew
  obtain rfl := Option.some.inj hnew
  exact hsound.answer hcall hadmits

theorem Sound.step (h : m.Sound) (hstep : Step m next) : next.Sound := by
  cases hstep with
  | edit capacity => exact h.of_le (Nat.le_refl _)
  | evolve id op => exact h.of_le (occupied_evolve_le m.journal id op)
  | forget id => exact h.of_le List.filter_sublist.countP_le
  | start t host policy demand report launched hidle =>
    exact h.start hidle host policy demand report launched
  | finish t pass hpass result hdone => exact h.finish hpass hdone
  | abandon t => exact h.abandon t
  | callLaunch t pass hpass policy next hcall hphase => exact h.callLaunch hpass hcall hphase
  | create t pass hpass attempt hmay hfresh => exact h.create hpass hmay
  | answer t pass hpass c next hcall a hadmits => exact h.answer hpass hcall hadmits

theorem Sound.of_reachable (h : Reachable m) : m.Sound := by
  induction h with
  | start capacity journal =>
    exact
      { passes := fun _ _ hpass ↦ absurd hpass.symm (Option.some_ne_none _)
        holder := fun _ howner ↦ absurd howner.symm (Option.some_ne_none _) }
  | step _ hstep ih => exact ih.step hstep

end Machine

/-! ## The host ceiling -/

/-- A pass launches at most what its pre-check granted, in a bounded number of calls. -/
structure StartLog.Bounded (log : StartLog) : Prop where
  launches : log.launches ≤ log.budget.getD 0
  calls : log.calls ≤ log.callBound

/-- Every call that is allowed keeps the bounds. -/
theorem StartLog.Bounded.after {host : Host} {policy : ScalePolicy} {demand : Nat} {log : StartLog}
    (h : log.Bounded) {c : StartCall} (a : c.Answer) (hcalls : log.calls < log.callBound)
    (hrequires : log.Requires policy c) : (log.after host policy demand c a).Bounded := by
  have hsame (hbudget : (log.after host policy demand c a).budget = log.budget)
      (hlaunches : (log.after host policy demand c a).launches ≤ log.budget.getD 0)
      (hnext : (log.after host policy demand c a).calls = log.calls + 1) :
      (log.after host policy demand c a).Bounded :=
    { launches := by rw [hbudget]; exact hlaunches
      calls := by unfold StartLog.callBound at *; rw [hbudget, hnext]; omega }
  cases c with
  | acquire | hostCapacity => cases a <;> exact hsame rfl h.launches rfl
  | release => exact hsame rfl h.launches rfl
  | attempts =>
    cases a with
    | error failure => exact hsame rfl h.launches rfl
    | ok attempts =>
      cases hbudget : log.budget with
      | some budget =>
        refine hsame ?_ h.launches rfl
        show (log.budget <|> _) = _
        rw [hbudget]
        rfl
      | none =>
        -- The pre-check: nothing was launched before it.
        have hlaunches := h.launches
        have hbound := hcalls
        rw [StartLog.callBound] at hbound
        rw [hbudget] at hlaunches hbound
        exact
          { launches := Nat.le_trans hlaunches (Nat.zero_le _)
            calls := Nat.le_trans hbound (Nat.le_add_right _ _) }
  | launch launched =>
    obtain ⟨-, -, -, -, budget, hbudget, hlt⟩ := hrequires
    have hle : log.launches + 1 ≤ log.budget.getD 0 := by rw [hbudget]; exact hlt
    cases a <;> exact hsame rfl hle rfl

/-- No interleaving oversubscribes the machine: a pass that calls `launch` holds the lock, and
fewer attempts occupy a slot than the ceiling it read in that hold allows. One pass on its own,
whatever its ports answer, makes boundedly many calls, launches at most what its pre-check
granted, and never launches when the attempts it read and those it launched fill the host. -/
theorem host_ceiling {T : Type} [DecidableEq T] :
    (∀ (m : Machine T), m.Reachable → ∀ t pass policy next, m.passes t = some pass →
      pass.program = .ask (.launch policy) next → pass.phase ≠ .launching →
      m.owner = some t ∧ pass.log.locked = true ∧
        ∃ capacity, pass.log.capacity = some capacity ∧ occupied m.journal < capacity.val) ∧
    ∀ (host : Host) (policy : ScalePolicy) (demand : Nat) (report : StartReport)
      (launched : List RunnerAttempt) (rest : StartProgram (StartReport × List RunnerAttempt))
      (log : StartLog),
      (startContract host policy demand).Runs (startRunners host policy demand report launched)
        (.start launched) rest log →
      log.launches ≤ log.budget.getD 0 ∧ log.calls ≤ 2 + 5 * log.budget.getD 0 ∧
        ∀ launchPolicy next, rest = .ask (.launch launchPolicy) next →
          log.launches < log.budget.getD 0 ∧ log.HasRoom := by
  refine ⟨?_, ?_⟩
  · intro m hreachable t pass policy next hpass hcall hphase
    have hsound := (Machine.Sound.of_reachable hreachable).passes t pass hpass
    obtain ⟨howner, hceiling⟩ := hsound.below_ceiling hcall hphase
    exact ⟨howner, hsound.owner.mp howner, hceiling⟩
  · intro host policy demand report launched rest log hruns
    have hmeets : (startContract host policy demand).wp
        (startRunners host policy demand report launched) (fun _ next ↦ next.locked = false)
        (.start launched) := start_runners_wp report launched
    have hbounded : log.Bounded := by
      refine Contract.invariant_of_runs (I := StartLog.Bounded) ?_ hmeets
        ⟨Nat.le_refl _, Nat.zero_le _⟩ hruns
      rintro earlier c a _ hearlier hcall rfl
      exact hearlier.after a hcall.1 hcall.2
    refine ⟨hbounded.launches, hbounded.calls, ?_⟩
    rintro launchPolicy next rfl
    obtain ⟨-, -, -, -, hroom, budget, hbudget, hlt⟩ := Contract.requires_of_runs hmeets hruns
    refine ⟨?_, hroom⟩
    rw [hbudget]
    exact hlt

end RunnerManager.Agent
