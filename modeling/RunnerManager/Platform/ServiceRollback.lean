import RunnerManager.Platform.ForeignService

/-!
# What a failed operation leaves behind

Every step of `install` and `set_start_mode` has a compensation of its own. `install_undone` and
`setStartMode_undone` say from which states every failure that is not reported as an incomplete
rollback leaves the two registrations and the record as they were; `install_loses` and
`setStartMode_loses` give, for every other state, a run that does not.

A registration that is replaced comes back out of its record, so it comes back only where the record
could be read and describes it.
-/

namespace RunnerManager.Platform

open RunnerManager.Domain
open Contract (wp_mono wp_outcome_seq wp_seq)

/-! ## Managers that fail without effect -/

/-- The error says that a rollback was incomplete. -/
def ServiceError.ReportsRollback : ServiceError → Prop
  | .rollback .. => True
  | _ => False

/-- Where records are readable, reading one does not fail. -/
def ServiceCall.MayAnswer (unreadable : Bool) : (c : ServiceCall) → c.Answer → Prop
  | .readRecord, .error _ => unreadable = true
  | _, _ => True

/-- The machine: any call may fail, and a call that fails has no effect. -/
def managersContract (unreadable : Bool) :
    Contract ServiceCall ServiceCall.Answer ServiceState where
  requires _ _ := True
  steps s c answer t := c.MayAnswer unreadable answer ∧ s.Steps c answer t

namespace ServiceState

/-- A record that says what a registration runs. -/
def Describes (record : InstallRecord) (held : Held) : Prop :=
  held.commandLine = joinCommandLine record.binary record.arguments

/-- One domain holds a registration, and the record names its mode, binary and arguments. -/
def Recorded (s : ServiceState) (mode : StartMode) : Prop :=
  ∃ held record, s.held mode = some held ∧ s.held (otherMode mode) = none ∧
    s.record = some record ∧ record.startMode = mode ∧ Describes record held

/-- At most one domain holds a registration, and it is this account's. -/
structure Single (ops : ServiceOperations) (s : ServiceState) : Prop where
  one : ∀ mode held, s.held mode = some held → s.held (otherMode mode) = none
  own : ∀ mode held, s.held mode = some held → ops.foreignDirectories held.commandLine = none

/-- What an install in a domain can put back: nothing is registered or recorded, or the record of
the registration can be read and describes it. -/
def Restorable (unreadable : Bool) (s : ServiceState) (mode : StartMode) : Prop :=
  match s.held mode with
  | none => s.record = none
  | some held => unreadable = false ∧ ∃ record, s.record = some record ∧ Describes record held

@[simp]
theorem put_put (s : ServiceState) (mode : StartMode) (first second : Option Held) :
    (s.put mode first).put mode second = s.put mode second := by
  simp [put]

theorem put_held (s : ServiceState) (mode : StartMode) : s.put mode (s.held mode) = s := by
  simp [put]

@[simp]
theorem held_put (s : ServiceState) (mode : StartMode) (held : Option Held) :
    (s.put mode held).held mode = held := by
  simp [put]

theorem held_put_other (s : ServiceState) (mode : StartMode) (held : Option Held) :
    (s.put mode held).held (otherMode mode) = s.held (otherMode mode) := by
  cases mode <;> simp [put, otherMode]

end ServiceState

/-! ## One call -/

section Calls

variable {unreadable : Bool} {s : ServiceState} {mode : StartMode}

/-- A part with an effect when it succeeds, and none when it fails. -/
def Effect {α : Type} (s : ServiceState) (after : α → ServiceState → Prop) :
    Except ServiceError α → ServiceState → Prop
  | .ok value, t => after value t
  | .error _, t => t = s

/-- Nothing but what was found out. -/
def Finds {α : Type} (s : ServiceState) (found : α → Prop) (value : α) (t : ServiceState) : Prop :=
  found value ∧ t = s

theorem control_effect :
    (managersContract unreadable).wp (control mode) (Effect s fun _ t ↦ t = s) s := by
  refine ⟨trivial, fun answer t hstep ↦ ?_⟩
  cases answer with
  | ok _ => exact hstep.2
  | error _ => exact hstep.2

theorem createAll_effect :
    (managersContract unreadable).wp createAll (Effect s fun _ t ↦ t = s) s := by
  refine ⟨trivial, fun answer t hstep ↦ ?_⟩
  cases answer with
  | ok _ => exact hstep.2
  | error _ => exact hstep.2

theorem refuseWhileAnAgentRuns_effect :
    (managersContract unreadable).wp refuseWhileAnAgentRuns (Effect s fun _ t ↦ t = s) s := by
  refine ⟨trivial, fun answer t hstep ↦ ?_⟩
  cases answer with
  | ok _ => exact hstep.2
  | error _ => exact hstep.2

theorem prepareRunnerRoot_effect :
    (managersContract unreadable).wp (prepareRunnerRoot mode) (Effect s fun _ t ↦ t = s) s := by
  refine ⟨trivial, fun answer t hstep ↦ ?_⟩
  cases answer with
  | ok _ => exact hstep.2
  | error _ => exact hstep.2

theorem locateBinary_effect (named : Option String) :
    (managersContract unreadable).wp (locateBinary named) (Effect s fun _ t ↦ t = s) s := by
  refine ⟨trivial, fun answer t hstep ↦ ?_⟩
  cases answer with
  | ok _ => exact hstep.2.2
  | error _ => exact hstep.2

theorem query_effect : (managersContract unreadable).wp (query mode)
    (Effect s (Finds s (· = s.registration mode))) s := by
  refine ⟨trivial, fun answer t hstep ↦ ?_⟩
  cases answer with
  | ok _ => exact hstep.2
  | error _ => exact hstep.2

theorem controlInstall_effect (plan : InstallPlan) :
    (managersContract unreadable).wp (controlInstall mode plan)
      (Effect s fun _ t ↦ t = s.put mode (some ⟨plan.commandLine, false⟩)) s := by
  refine ⟨trivial, fun answer t hstep ↦ ?_⟩
  cases answer with
  | ok _ => exact hstep.2
  | error _ => exact hstep.2

theorem controlUninstall_effect : (managersContract unreadable).wp (controlUninstall mode)
    (Effect s fun there t ↦ there = (s.held mode).isSome ∧ t = s.put mode none) s := by
  refine ⟨trivial, fun answer t hstep ↦ ?_⟩
  cases answer with
  | ok _ => exact hstep.2
  | error _ => exact hstep.2

theorem controlStart_effect {held : Held} (hheld : s.held mode = some held) :
    (managersContract unreadable).wp (controlStart mode)
      (Effect s fun _ t ↦ t = s.put mode (some { held with running := true })) s := by
  refine ⟨trivial, fun answer t hstep ↦ ?_⟩
  cases answer with
  | ok _ =>
    obtain ⟨found, hfound, rfl⟩ := hstep.2
    rw [hheld] at hfound
    cases hfound
    rfl
  | error _ => exact hstep.2

theorem writeRecord_effect (record : InstallRecord) :
    (managersContract unreadable).wp (writeRecord record)
      (Effect s fun _ t ↦ t = { s with record := some record }) s := by
  refine ⟨trivial, fun answer t hstep ↦ ?_⟩
  cases answer with
  | ok _ => exact hstep.2
  | error _ => exact hstep.2

theorem removeRecord_effect : (managersContract unreadable).wp removeRecord
    (Effect s fun _ t ↦ t = { s with record := none }) s := by
  refine ⟨trivial, fun answer t hstep ↦ ?_⟩
  cases answer with
  | ok _ => exact hstep.2.2
  | error _ => exact hstep.2

theorem readRecord_effect : (managersContract unreadable).wp readRecord
    (fun result t ↦ t = s ∧ match result with
      | .ok record => record = s.record
      | .error _ => unreadable = true) s := by
  refine ⟨trivial, fun answer t hstep ↦ ?_⟩
  cases answer with
  | ok _ => exact ⟨hstep.2.2, hstep.2.1⟩
  | error _ => exact ⟨hstep.2, hstep.1⟩

end Calls

/-! ## Undoing an install -/

section Install

variable {unreadable : Bool} {ops : ServiceOperations} {s : ServiceState} {mode : StartMode}

/-- A failure that is not reported as an incomplete rollback left everything as it was. -/
def Undone {α : Type} (s : ServiceState) (after : α → ServiceState → Prop) :
    Except ServiceError α → ServiceState → Prop
  | .ok value, t => after value t
  | .error e, t => e.ReportsRollback ∨ t = s

theorem rolledBack_undone {retained : Option String} {undone : Except ServiceError Unit}
    {t : ServiceState} (h : undone = .ok () → t = s) (operation : String) (cause : ServiceError) :
    (rolledBack ops.name retained undone operation cause).ReportsRollback ∨ t = s := by
  cases undone with
  | error _ => exact .inl (by cases retained <;> trivial)
  | ok _ =>
    cases retained with
    | some _ => exact .inl trivial
    | none => exact .inr (h rfl)

theorem failUndone_undone {α : Type} {undo : ServiceProgram Unit} {u : ServiceState}
    (hundo : (managersContract unreadable).wp undo (fun result t ↦ result = .ok () → t = s) u)
    (operation : String) (cause : ServiceError) (after : α → ServiceState → Prop) :
    (managersContract unreadable).wp (ops.failUndone undo operation cause) (Undone s after) u := by
  refine wp_outcome_seq hundo fun undone t ht ↦ ⟨trivial, fun retained v hstep ↦ ?_⟩
  obtain rfl : v = t := hstep.2
  exact rolledBack_undone ht operation cause

theorem nothing_undone : (managersContract unreadable).wp (return () : ServiceProgram Unit)
    (fun result t ↦ result = .ok () → t = s) s :=
  fun _ ↦ rfl

/-- What `install` has in hand of what it replaces. -/
def InHand (s : ServiceState) (mode : StartMode) (previous : Option InstallRecord)
    (running : Bool) : Prop :=
  previous = s.record ∧ match s.held mode with
    | none => previous = none
    | some held => running = held.running ∧
        ∃ record, previous = some record ∧ ServiceState.Describes record held

/-- Once the new registration is gone, the old one comes back. -/
theorem reinstate_restores {previous : Option InstallRecord} {running : Bool}
    (hhand : InHand s mode previous running) (record : Option InstallRecord) :
    (managersContract unreadable).wp (ops.reinstate mode previous running)
      (fun result t ↦ result = .ok () → t = { s with record := record })
      { s.put mode none with record := record } := by
  obtain ⟨-, hheld⟩ := hhand
  cases hfound : s.held mode with
  | none =>
    rw [hfound] at hheld
    obtain rfl : previous = none := hheld
    rintro -
    show { s.put mode none with record := record } = _
    rw [← hfound, ServiceState.put_held]
  | some held =>
    rw [hfound] at hheld
    obtain ⟨hrunning, recorded, rfl, hdescribes⟩ := hheld
    refine wp_seq (controlInstall_effect _) (fun _ t ht ↦ ?_)
      fun _ _ _ h ↦ (nomatch h)
    have hback : t = { s.put mode (some ⟨held.commandLine, false⟩) with record := record } := by
      rw [hdescribes, ht]
      simp only [ServiceState.put, Function.update_idem]
      rfl
    show (managersContract unreadable).wp (if running then _ else _) _ t
    cases running with
    | false =>
      rintro -
      have hsame : (⟨held.commandLine, false⟩ : Held) = held := by rw [hrunning]
      rw [hback, hsame, ← hfound, ServiceState.put_held]
    | true =>
      have hthere : t.held mode = some ⟨held.commandLine, false⟩ := by
        rw [hback]
        exact ServiceState.held_put s mode _
      refine wp_mono (controlStart_effect hthere) fun result u hu hok ↦ ?_
      subst hok
      have hsame : (⟨held.commandLine, true⟩ : Held) = held := by rw [hrunning]
      obtain rfl : u = t.put mode (some ⟨held.commandLine, true⟩) := hu
      rw [hback, hsame, ← hfound]
      simp [ServiceState.put]

theorem replaceBack_restores {previous : Option InstallRecord} {running : Bool}
    (hhand : InHand s mode previous running) (record : Option InstallRecord) (new : Held) :
    (managersContract unreadable).wp (ops.replaceBack mode previous running)
      (fun result t ↦ result = .ok () → t = { s with record := record })
      { s.put mode (some new) with record := record } := by
  refine wp_seq controlUninstall_effect (fun _ t ht ↦ ?_) fun _ _ _ h ↦ (nomatch h)
  have hgone : t = { s.put mode none with record := record } := by
    rw [ht.2]
    simp [ServiceState.put]
  rw [hgone]
  exact reinstate_restores hhand record

theorem restoreRecord_restores (record : Option InstallRecord) :
    (managersContract unreadable).wp (ServiceOperations.restoreRecord s.record)
      (fun result t ↦ result = .ok () → t = s) { s with record := record } := by
  cases hrecord : s.record with
  | some previous =>
    refine wp_mono (writeRecord_effect previous) fun result t ht hok ↦ ?_
    subst hok
    rw [show t = _ from ht, ← hrecord]
  | none =>
    refine wp_seq removeRecord_effect (fun _ t ht _ ↦ ?_) fun _ _ _ h ↦ (nomatch h)
    rw [show t = _ from ht, ← hrecord]

/-- What a successful install leaves of a plan. -/
def Planned (s : ServiceState) (plan : InstallPlan) (t : ServiceState) : Prop :=
  ∃ record : InstallRecord, record.startMode = plan.startMode ∧ record.binary = plan.binary ∧
    record.arguments = plan.arguments ∧
    t = { s.put plan.startMode (some ⟨plan.commandLine, true⟩) with record := some record }

theorem startPlanned_undone {existing : ServiceOperations.Existing} {plan : InstallPlan}
    {previous : Option InstallRecord} (hhand : InHand s plan.startMode previous existing.running)
    (definition : ServiceDefinition) {record : InstallRecord}
    (hmode : record.startMode = plan.startMode) (hbinary : record.binary = plan.binary)
    (harguments : record.arguments = plan.arguments) :
    (managersContract unreadable).wp
      (ServiceOperations.installPlanned.startPlanned ops existing plan previous definition record)
      (Undone s fun _ ↦ Planned s plan)
      { s.put plan.startMode (some ⟨plan.commandLine, false⟩) with record := some record } := by
  let registered : ServiceState :=
    { s.put plan.startMode (some ⟨plan.commandLine, false⟩) with record := some record }
  have hthere : registered.held plan.startMode = some ⟨plan.commandLine, false⟩ :=
    ServiceState.held_put s plan.startMode _
  refine wp_outcome_seq (controlStart_effect hthere) fun started t ht ↦ ?_
  cases started with
  | ok _ =>
    refine ⟨record, hmode, hbinary, harguments, ?_⟩
    rw [show t = _ from ht]
    simp [ServiceState.put]
  | error cause =>
    obtain rfl : t = registered := ht
    refine failUndone_undone ?_ _ cause _
    refine wp_seq (replaceBack_restores hhand (some record) _) (fun _ u hu ↦ ?_)
      fun _ _ _ h ↦ by cases h
    rw [hu rfl, hhand.1]
    exact restoreRecord_restores (some record)

theorem registerPlanned_undone {existing : ServiceOperations.Existing} {plan : InstallPlan}
    {previous : Option InstallRecord} (hhand : InHand s plan.startMode previous existing.running) :
    (managersContract unreadable).wp
      (ServiceOperations.installPlanned.registerPlanned ops existing plan previous)
      (Undone s fun _ ↦ Planned s plan) (s.put plan.startMode none) := by
  refine wp_outcome_seq (controlInstall_effect plan) fun registered t ht ↦ ?_
  cases registered with
  | error cause =>
    obtain rfl : t = s.put plan.startMode none := ht
    exact failUndone_undone (reinstate_restores hhand s.record) _ cause _
  | ok definition =>
    have hnew : t = { s.put plan.startMode (some ⟨plan.commandLine, false⟩) with
        record := s.record } := by
      rw [show t = _ from ht]
      simp [ServiceState.put]
    rw [hnew]
    refine ⟨trivial, fun now u hnow ↦ ?_⟩
    obtain rfl : u = _ := hnow.2
    show (managersContract unreadable).wp ((writeRecord _).outcome >>= _) _ _
    refine wp_outcome_seq (writeRecord_effect _) fun written v hv ↦ ?_
    cases written with
    | error cause =>
      obtain rfl : v = _ := hv
      exact failUndone_undone (replaceBack_restores hhand s.record _) _ cause _
    | ok _ =>
      obtain rfl : v = _ := hv
      exact startPlanned_undone hhand definition rfl rfl rfl

/-- What the record says of a registration that is replaced. -/
theorem previousRecord_finds {existing : ServiceOperations.Existing}
    (hrestorable : s.Restorable unreadable mode)
    (hreplacing : existing.replacing = (s.held mode).isSome)
    (hrunning : ∀ held, s.held mode = some held → existing.running = held.running) :
    (managersContract unreadable).wp (ServiceOperations.previousRecord existing)
      (fun result t ↦ t = s ∧ ∀ previous, result = .ok previous →
        InHand s mode previous existing.running) s := by
  unfold ServiceState.Restorable at hrestorable
  cases hheld : s.held mode with
  | none =>
    rw [hheld] at hrestorable hreplacing
    simp only [ServiceOperations.previousRecord, show existing.replacing = false from hreplacing]
    refine ⟨rfl, fun previous hprevious ↦ ?_⟩
    cases hprevious
    exact ⟨hrestorable.symm, by rw [hheld]⟩
  | some held =>
    rw [hheld] at hrestorable hreplacing
    obtain ⟨hreadable, record, hrecord, hdescribes⟩ := hrestorable
    simp only [ServiceOperations.previousRecord, show existing.replacing = true from hreplacing]
    refine wp_outcome_seq readRecord_effect fun read t ht ↦ ?_
    obtain ⟨rfl, hread⟩ := ht
    cases read with
    | error _ => exact absurd hread (by simp [hreadable])
    | ok found =>
      obtain rfl : found = t.record := hread
      refine ⟨rfl, fun previous hprevious ↦ ?_⟩
      cases hprevious
      refine ⟨rfl, ?_⟩
      rw [hheld]
      exact ⟨hrunning held hheld, record, hrecord, hdescribes⟩

theorem installPlanned_undone {existing : ServiceOperations.Existing} {plan : InstallPlan}
    (hrestorable : s.Restorable unreadable plan.startMode)
    (hreplacing : existing.replacing = (s.held plan.startMode).isSome)
    (hrunning : ∀ held, s.held plan.startMode = some held → existing.running = held.running) :
    (managersContract unreadable).wp (ops.installPlanned existing plan)
      (Undone s fun _ ↦ Planned s plan) s := by
  refine wp_seq (previousRecord_finds hrestorable hreplacing hrunning)
    (fun previous t ht ↦ ?_) fun _ _ h ↦ .inr h.1
  obtain ⟨rfl, hhand⟩ := ht
  show (managersContract unreadable).wp (if existing.replacing then _ else _) _ t
  split_ifs with hreplaces
  · refine wp_outcome_seq controlUninstall_effect fun removed u hu ↦ ?_
    cases removed with
    | error cause =>
      obtain rfl : u = t := hu
      exact failUndone_undone nothing_undone _ cause _
    | ok _ =>
      rw [hu.2]
      exact registerPlanned_undone (hhand previous rfl)
  · have hnone : t.held plan.startMode = none := by
      rw [← Option.not_isSome_iff_eq_none, ← hreplacing]
      exact hreplaces
    have hregister : (managersContract unreadable).wp
        (ServiceOperations.installPlanned.registerPlanned ops existing plan previous)
        (Undone t fun _ ↦ Planned t plan) (t.put plan.startMode none) :=
      registerPlanned_undone (hhand previous rfl)
    rw [← hnone, ServiceState.put_held] at hregister
    exact hregister

/-- The registration that is found is one of the two; if none is found, there is none. -/
def Found (s : ServiceState) : Option Registration → Prop
  | some registration => s.registration registration.startMode = some registration
  | none => ∀ mode, s.held mode = none

theorem registration_startMode {registration : Registration}
    (h : s.registration mode = some registration) : registration.startMode = mode := by
  obtain ⟨held, -, rfl⟩ := Option.map_eq_some_iff.mp h
  rfl

theorem findRegistration_finds : (managersContract unreadable).wp
    ServiceOperations.findRegistration (Effect s (Finds s (Found s))) s := by
  refine wp_seq control_effect (fun _ t ht ↦ ?_) fun _ _ h ↦ h
  obtain rfl : t = s := ht
  refine wp_seq query_effect (fun boot t ht ↦ ?_) fun _ _ h ↦ h
  obtain ⟨hboot, rfl⟩ := ht
  cases boot with
  | some registration =>
    refine ⟨?_, rfl⟩
    show t.registration registration.startMode = some registration
    rw [registration_startMode hboot.symm, ← hboot]
  | none =>
    refine wp_seq control_effect (fun _ u hu ↦ ?_) fun _ _ h ↦ h
    obtain rfl : u = t := hu
    refine wp_seq query_effect (fun login v hv ↦ ?_) fun _ _ h ↦ h
    obtain ⟨hlogin, rfl⟩ := hv
    cases login with
    | some registration =>
      refine ⟨?_, rfl⟩
      show v.registration registration.startMode = some registration
      rw [registration_startMode hlogin.symm, ← hlogin]
    | none =>
      refine ⟨fun mode ↦ ?_, rfl⟩
      cases mode with
      | boot => exact Option.map_eq_none_iff.mp hboot.symm
      | login => exact Option.map_eq_none_iff.mp hlogin.symm

theorem existingFor_finds (hone : s.Single ops) : (managersContract unreadable).wp
    (ops.existingFor mode)
    (Effect s (Finds s fun existing ↦ s.held (otherMode mode) = none ∧
      existing.replacing = (s.held mode).isSome ∧
      ∀ held, s.held mode = some held → existing.running = held.running)) s := by
  refine wp_seq findRegistration_finds (fun found t ht ↦ ?_) fun _ _ h ↦ h
  obtain ⟨hfound, rfl⟩ := ht
  cases found with
  | none =>
    refine ⟨⟨hfound _, ?_, fun held hheld ↦ ?_⟩, rfl⟩
    · rw [hfound mode]
      rfl
    · rw [hfound mode] at hheld
      cases hheld
  | some registration =>
    show (managersContract unreadable).wp (if registration.startMode = mode then _ else _) _ t
    split_ifs with hmode
    · obtain ⟨held, hheld, hregistration⟩ := Option.map_eq_some_iff.mp hfound
      rw [hmode] at hheld
      refine ⟨⟨hone.one mode held hheld, by rw [hheld]; rfl, fun other hother ↦ ?_⟩, rfl⟩
      rw [hheld] at hother
      cases hother
      exact (congrArg Registration.running hregistration).symm
    · exact rfl

theorem refuseForeign_looks (operation : String) : (managersContract unreadable).wp
    (ops.refuseForeign operation) (Effect s fun _ t ↦ t = s) s := by
  have hown (mode : StartMode) : (managersContract unreadable).wp (ops.ownRegistration mode)
      (fun result t ↦ t = s ∧ ∃ found, result = .ok found) s := by
    have hquery : (managersContract unreadable).wp (control mode >>= fun _ ↦ query mode)
        (fun _ t ↦ t = s) s := by
      refine wp_seq control_effect (fun _ t ht ↦ ?_) fun _ _ h ↦ h
      obtain rfl : t = s := ht
      refine wp_mono query_effect fun result u hu ↦ ?_
      cases result with
      | ok _ => exact hu.2
      | error _ => exact hu
    have hfound : (managersContract unreadable).wp (found? (control mode >>= fun _ ↦ query mode))
        (fun result t ↦ t = s ∧ ∃ found, result = .ok found) s := by
      refine wp_outcome_seq hquery fun result t ht ↦ ?_
      cases result with
      | ok found => exact ⟨ht, found, rfl⟩
      | error _ => exact ⟨ht, none, rfl⟩
    refine wp_seq hfound (fun found t ht ↦ ⟨ht.1, _, rfl⟩) fun e t ht ↦ ?_
    obtain ⟨-, found, hfound⟩ := ht
    cases hfound
  have hstatus : (managersContract unreadable).wp ops.registrationForStatus
      (fun _ t ↦ t = s) s := by
    refine wp_seq findRegistration_finds (fun found t ht ↦ ?_) fun _ _ h ↦ h
    obtain ⟨-, rfl⟩ := ht
    cases found with
    | none => exact rfl
    | some registration =>
      dsimp only
      cases ops.foreignDirectories registration.commandLine with
      | none => exact rfl
      | some directories =>
        refine wp_seq (hown _) (fun own u hu ↦ ?_) fun _ _ h ↦ h.1
        obtain ⟨rfl, -⟩ := hu
        cases own with
        | none => exact rfl
        | some _ => exact rfl
  refine wp_seq hstatus (fun status t ht ↦ ?_) fun _ _ h ↦ h
  rcases status with _ | ⟨_, _ | _⟩ <;> exact ht

/-- What a successful install leaves: the other domain was empty before. -/
def Replaced (s : ServiceState) (mode : StartMode) (t : ServiceState) : Prop :=
  s.held (otherMode mode) = none ∧ t.Recorded mode ∧ t.current = s.current

/-- From a state that an install can put back, or that it does not touch, every failure that is not
reported as an incomplete rollback leaves everything as it was. -/
theorem install_undone {request : InstallRequest} (hone : s.Single ops)
    (hrestorable : s.held (otherMode request.startMode) = none →
      s.Restorable unreadable request.startMode) :
    (managersContract unreadable).wp (ops.install request)
      (Undone s fun _ ↦ Replaced s request.startMode) s := by
  refine wp_seq createAll_effect (fun _ t ht ↦ ?_) fun _ _ h ↦ .inr h
  obtain rfl : t = s := ht
  refine wp_seq refuseWhileAnAgentRuns_effect (fun _ t ht ↦ ?_) fun _ _ h ↦ .inr h
  obtain rfl : t = _ := ht
  refine wp_seq (refuseForeign_looks "replace") (fun _ t ht ↦ ?_) fun _ _ h ↦ .inr h
  obtain rfl : t = _ := ht
  refine wp_seq (existingFor_finds hone) (fun existing t ht ↦ ?_) fun _ _ h ↦ .inr h
  obtain ⟨⟨hother, hreplacing, hrunning⟩, rfl⟩ := ht
  refine wp_seq (locateBinary_effect _) (fun binary u hu ↦ ?_) fun _ _ h ↦ .inr h
  obtain rfl : u = _ := hu
  refine wp_seq control_effect (fun _ u hu ↦ ?_) fun _ _ h ↦ .inr h
  obtain rfl : u = _ := hu
  refine wp_seq prepareRunnerRoot_effect (fun _ u hu ↦ ?_) fun _ _ h ↦ .inr h
  obtain rfl : u = _ := hu
  have hplanned : (managersContract unreadable).wp
      (ops.installPlanned existing (ops.resolvePlan request binary))
      (Undone u fun _ ↦ Planned u (ops.resolvePlan request binary)) u :=
    installPlanned_undone (hrestorable hother) hreplacing hrunning
  refine wp_mono hplanned fun result v hv ↦ ?_
  cases result with
  | error _ => exact hv
  | ok _ =>
    obtain ⟨record, hmode, hbinary, harguments, rfl⟩ := hv
    refine ⟨hother, ⟨_, record, ServiceState.held_put u request.startMode _, ?_, rfl, hmode, ?_⟩,
      rfl⟩
    · exact (ServiceState.held_put_other u request.startMode _).trans hother
    · show (ops.resolvePlan request binary).commandLine = _
      rw [hbinary, harguments]
      rfl

end Install

/-! ## Removing what an install left -/

section Uninstall

variable {unreadable : Bool} {ops : ServiceOperations} {s : ServiceState} {mode : StartMode}

/-- Neither domain holds a registration. -/
def ServiceState.cleared (s : ServiceState) : ServiceState :=
  { s with held := fun _ ↦ none }

theorem put_none_cleared (hother : s.held (otherMode mode) = none) :
    s.put mode none = s.cleared := by
  unfold ServiceState.put ServiceState.cleared
  congr 1
  funext other
  by_cases hmode : other = mode
  · rw [hmode, Function.update_self]
  · rw [Function.update_of_ne hmode, ← hother, eq_otherMode (Ne.symm hmode)]

/-- The loop either clears a lone registration, or reports it as foreign and removes nothing. -/
theorem uninstallIn_clears (modes : List StartMode) (removed : Bool)
    (foreign : Option ServiceDirectories) (hother : s.held (otherMode mode) = none)
    (hmodes : mode ∈ modes ∨ foreign.isSome = true ∨ s = s.cleared) :
    (managersContract unreadable).wp (ops.uninstallIn modes removed foreign)
      (fun result t ↦ ∀ outcome, result = .ok outcome →
        t = s.cleared ∨ outcome.2.isSome = true ∧ outcome.1 = removed ∧ t = s) s := by
  induction modes generalizing s removed foreign with
  | nil =>
    rintro outcome houtcome
    cases houtcome
    rcases hmodes with hmem | hforeign | hcleared
    · cases hmem
    · exact .inr ⟨hforeign, rfl, rfl⟩
    · exact .inl hcleared
  | cons first rest ih =>
    refine wp_seq control_effect (fun _ t ht ↦ ?_) fun _ _ _ _ h ↦ (nomatch h)
    obtain rfl : t = s := ht
    have hquery : (managersContract unreadable).wp (found? (query first))
        (fun result u ↦ u = t ∧ ∀ found, result = .ok found →
          found = t.registration first ∨ found = none) t := by
      refine wp_outcome_seq query_effect fun result u hu ↦ ?_
      cases result with
      | ok found =>
        refine ⟨hu.2, fun other hsame ↦ ?_⟩
        cases hsame
        exact .inl hu.1
      | error _ =>
        refine ⟨hu, fun other hsame ↦ ?_⟩
        cases hsame
        exact .inr rfl
    refine wp_seq hquery (fun found u hu ↦ ?_) fun _ _ _ _ h ↦ (nomatch h)
    obtain ⟨rfl, hfound⟩ := hu
    cases found.bind fun registration ↦
        ops.foreignDirectories registration.commandLine with
    | some directories => exact ih removed (some directories) hother (.inr (.inl rfl))
    | none =>
      refine wp_seq controlUninstall_effect (fun there v hv ↦ ?_)
        fun _ _ _ _ h ↦ (nomatch h)
      obtain ⟨hthere, rfl⟩ := hv
      by_cases hfirst : first = mode
      · -- The registration is gone, and the rest of the loop finds nothing.
        subst hfirst
        rw [put_none_cleared hother]
        refine wp_mono (ih (s := u.cleared) _ foreign rfl (.inr (.inr rfl))) ?_
        intro result w hw outcome houtcome
        rcases hw outcome houtcome with hcleared | ⟨-, -, hsame⟩
        · exact .inl hcleared
        · exact .inl hsame
      · have hnone : u.held first = none := by
          rw [eq_otherMode (Ne.symm hfirst)]
          exact hother
        have hput : u.put first none = u := by rw [← hnone, ServiceState.put_held]
        have hremoved : (removed || there) = removed := by rw [hthere, hnone]; simp
        rw [hput, hremoved]
        refine ih removed foreign hother (hmodes.imp_left fun hmem ↦ ?_)
        exact (List.mem_cons.mp hmem).resolve_left (Ne.symm hfirst)

theorem uninstall_clears (hother : s.held (otherMode mode) = none) :
    (managersContract unreadable).wp ops.uninstall
      (fun result t ↦ ∀ removed, result = .ok removed →
        t = { s.cleared with record := none }) s := by
  have hread : (managersContract unreadable).wp (found? readRecord) (fun _ t ↦ t = s) s := by
    refine wp_outcome_seq readRecord_effect fun result t ht ↦ ?_
    cases result with
    | ok _ => exact ht.1
    | error _ => exact ht.1
  refine wp_seq hread (fun record t ht ↦ ?_) fun _ _ _ _ h ↦ (nomatch h)
  obtain rfl : t = s := ht
  have hmem : mode ∈ [StartMode.boot, StartMode.login] := by cases mode <;> simp
  refine wp_seq (uninstallIn_clears _ false none hother (.inl hmem))
    (fun outcome u hu ↦ ?_) fun _ _ _ _ h ↦ (nomatch h)
  have hcleared (h : ¬ (outcome.2.isSome = true ∧ outcome.1 = false)) : u = t.cleared :=
    (hu outcome rfl).resolve_right fun hforeign ↦ h ⟨hforeign.1, hforeign.2.1⟩
  match outcome, hcleared with
  | (false, some directories), _ => exact fun _ h ↦ (nomatch h)
  | (false, none), hcleared | (true, _), hcleared =>
    have hu' := hcleared (by simp)
    subst hu'
    exact wp_seq removeRecord_effect (fun _ _ hv _ _ ↦ hv) fun _ _ _ _ h ↦ (nomatch h)

end Uninstall

/-! ## Undoing a switch -/

section Switch

variable {unreadable : Bool} {ops : ServiceOperations} {s : ServiceState} {mode : StartMode}
  {record : InstallRecord}

/-- What a switch to a mode can put back: a record of that mode already describes the only
registration, and a record of the other mode finds the domain empty. -/
def ServiceState.Switchable (s : ServiceState) (mode : StartMode) : Prop :=
  ∀ record, s.record = some record →
    if record.startMode = mode then s.Recorded mode else s.held mode = none

theorem leaveMode_undone (hstored : s.record = some record) (hmode : record.startMode ≠ mode)
    (hempty : s.held mode = none) {new : InstallRecord} {held : Held}
    (hnew : new.startMode = mode) (hdescribes : ServiceState.Describes new held) :
    (managersContract unreadable).wp
      (ServiceOperations.switchPlanned.leaveMode ops record mode)
      (Undone s fun _ t ↦ t.Recorded mode) { s.put mode (some held) with record := some new } := by
  have hsource : record.startMode = otherMode mode := eq_otherMode (Ne.symm hmode)
  refine wp_outcome_seq controlUninstall_effect fun left t ht ↦ ?_
  cases left with
  | ok _ =>
    obtain ⟨-, rfl⟩ := ht
    rw [hsource]
    refine ⟨held, new, ?_, ServiceState.held_put _ _ _, rfl, hnew, hdescribes⟩
    cases mode <;> simp [ServiceState.put, otherMode]
  | error cause =>
    obtain rfl : t = _ := ht
    refine wp_outcome_seq controlUninstall_effect fun removed u hu ↦ ?_
    refine wp_outcome_seq (writeRecord_effect record) fun restored v hv ↦ ?_
    refine ⟨trivial, fun retained w hw ↦ ?_⟩
    obtain rfl : w = v := hw.2
    refine rolledBack_undone (fun hok ↦ ?_) _ cause
    cases removed with
    | error _ => cases hok
    | ok _ =>
      obtain rfl : restored = .ok () := hok
      rw [show w = _ from hv, hu.2, ← hstored]
      simp only [ServiceState.put, Function.update_idem]
      rw [← hempty, Function.update_eq_self]

theorem switchPlanned_undone (hstored : s.record = some record) (hmode : record.startMode ≠ mode)
    (hempty : s.held mode = none) : (managersContract unreadable).wp
      (ops.switchPlanned record mode) (Undone s fun _ t ↦ t.Recorded mode) s := by
  refine wp_seq control_effect (fun _ t ht ↦ ?_) fun _ _ h ↦ .inr h
  obtain rfl : t = s := ht
  refine wp_seq control_effect (fun _ t ht ↦ ?_) fun _ _ h ↦ .inr h
  obtain rfl : t = _ := ht
  refine wp_seq prepareRunnerRoot_effect (fun _ t ht ↦ ?_) fun _ _ h ↦ .inr h
  obtain rfl : t = _ := ht
  refine wp_outcome_seq (controlInstall_effect _) fun installed u hu ↦ ?_
  cases installed with
  | error cause =>
    obtain rfl : u = t := hu
    exact failUndone_undone nothing_undone _ cause _
  | ok definition =>
    obtain rfl : u = _ := hu
    refine wp_outcome_seq (writeRecord_effect _) fun written v hv ↦ ?_
    cases written with
    | ok _ =>
      obtain rfl : v = _ := hv
      exact leaveMode_undone hstored hmode hempty rfl rfl
    | error cause =>
      obtain rfl : v = _ := hv
      refine ⟨trivial, fun retained w hw ↦ ?_⟩
      obtain rfl : w = _ := hw.2
      show (managersContract unreadable).wp ((controlUninstall mode).outcome >>= _) _ _
      refine wp_outcome_seq controlUninstall_effect fun undone x hx ↦ ?_
      refine rolledBack_undone (fun hok ↦ ?_) _ cause
      cases undone with
      | error _ => cases hok
      | ok _ => rw [hx.2, ServiceState.put_put, ← hempty, ServiceState.put_held]

/-- From a state that a switch can put back, every failure that is not reported as an incomplete
rollback leaves everything as it was. -/
theorem setStartMode_undone (hswitchable : s.Switchable mode) :
    (managersContract unreadable).wp (ops.setStartMode mode)
      (Undone s fun _ t ↦ t.Recorded mode) s := by
  refine wp_seq readRecord_effect (fun record t ht ↦ ?_) fun _ _ h ↦ .inr h.1
  obtain ⟨rfl, hstored⟩ := ht
  cases record with
  | none => exact .inr rfl
  | some record =>
    have hswitch := hswitchable record hstored.symm
    show (managersContract unreadable).wp (if record.startMode = mode then _ else _) _ t
    split_ifs with hmode
    · rw [if_pos hmode] at hswitch
      exact hswitch
    · rw [if_neg hmode] at hswitch
      refine wp_seq (refuseForeign_looks _) (fun _ u hu ↦ ?_) fun _ _ h ↦ .inr h
      obtain rfl : u = _ := hu
      exact switchPlanned_undone hstored.symm hmode hswitch

end Switch

/-! ## Runs that lose something -/

section Losses

variable {unreadable : Bool} {ops : ServiceOperations} {s : ServiceState} {mode : StartMode}

def refused : ServiceError :=
  .control "install" "refused"

theorem answered_runs {t : ServiceState} {α : Type} (c : ServiceCall) (answer : c.Answer)
    (hmay : c.MayAnswer unreadable answer) (hstep : s.Steps c answer t)
    {next : c.Answer → ServiceProgram α} :
    (managersContract unreadable).Runs (.ask c next) s (next answer) t :=
  .step answer ⟨hmay, hstep⟩ (.cut _ _)

theorem control_runs : (managersContract unreadable).Runs (control mode) s (.done (.ok ())) s :=
  answered_runs (.control mode) (.ok ()) trivial rfl

theorem query_runs : (managersContract unreadable).Runs (query mode) s
    (.done (.ok (s.registration mode))) s :=
  answered_runs (.query mode) (.ok (s.registration mode)) trivial ⟨rfl, rfl⟩

theorem prepareRunnerRoot_runs :
    (managersContract unreadable).Runs (prepareRunnerRoot mode) s (.done (.ok ())) s :=
  answered_runs (.prepareRunnerRoot mode) (.ok ()) trivial rfl

theorem controlInstall_runs (plan : InstallPlan) (definition : ServiceDefinition) :
    (managersContract unreadable).Runs (controlInstall mode plan) s (.done (.ok definition))
      (s.put mode (some ⟨plan.commandLine, false⟩)) :=
  answered_runs (.install mode plan) (.ok definition) trivial rfl

theorem controlUninstall_runs : (managersContract unreadable).Runs (controlUninstall mode) s
    (.done (.ok (s.held mode).isSome)) (s.put mode none) :=
  answered_runs (.uninstall mode) (.ok _) trivial ⟨rfl, rfl⟩

theorem controlStart_runs (held : Held) (hheld : s.held mode = some held) :
    (managersContract unreadable).Runs (controlStart mode) s (.done (.ok ()))
      (s.put mode (some { held with running := true })) :=
  answered_runs (.start mode) (.ok ()) trivial ⟨held, hheld, rfl⟩

theorem writeRecord_runs (record : InstallRecord) :
    (managersContract unreadable).Runs (writeRecord record) s (.done (.ok ()))
      { s with record := some record } :=
  answered_runs (.writeRecord record) (.ok ()) trivial rfl

theorem removeRecord_runs : (managersContract unreadable).Runs removeRecord s
    (.done (.ok s.record.isSome)) { s with record := none } :=
  answered_runs .removeRecord (.ok _) trivial ⟨rfl, rfl⟩

theorem readRecord_runs : (managersContract unreadable).Runs readRecord s
    (.done (.ok s.record)) s :=
  answered_runs .readRecord (.ok s.record) trivial ⟨rfl, rfl⟩

def ServiceState.firstRegistration (s : ServiceState) : Option Registration :=
  (s.registration .boot).or (s.registration .login)

theorem findRegistration_runs : (managersContract unreadable).Runs
    ServiceOperations.findRegistration s (.done (.ok s.firstRegistration)) s := by
  refine .seq control_runs (.seq query_runs ?_)
  unfold ServiceState.firstRegistration
  cases hboot : s.registration .boot with
  | some registration => exact .cut _ _
  | none =>
    refine .seq control_runs (.seq query_runs ?_)
    cases hlogin : s.registration .login with
    | some registration => exact .cut _ _
    | none => exact .cut _ _

theorem refuseForeign_runs (hone : s.Single ops) (operation : String) :
    (managersContract unreadable).Runs (ops.refuseForeign operation) s (.done (.ok ())) s := by
  have hstatus : ∃ found, (managersContract unreadable).Runs ops.registrationForStatus s
      (.done (.ok found)) s ∧ ∀ registration directories,
        found ≠ some (registration, some directories) := by
    cases hfirst : s.firstRegistration with
    | none =>
      refine ⟨none, .seq findRegistration_runs ?_, fun _ _ h ↦ (nomatch h)⟩
      rw [hfirst]
      exact .cut _ _
    | some registration =>
      have hown : ops.foreignDirectories registration.commandLine = none := by
        rcases Option.or_eq_some_iff.mp hfirst with hboot | ⟨-, hlogin⟩
        · obtain ⟨held, hheld, rfl⟩ := Option.map_eq_some_iff.mp hboot
          exact hone.own .boot held hheld
        · obtain ⟨held, hheld, rfl⟩ := Option.map_eq_some_iff.mp hlogin
          exact hone.own .login held hheld
      refine ⟨some (registration, none), .seq findRegistration_runs ?_, fun _ _ h ↦ (nomatch h)⟩
      rw [hfirst]
      dsimp only
      rw [hown]
      exact .cut _ _
  obtain ⟨found, hruns, hfound⟩ := hstatus
  refine .seq hruns ?_
  rcases found with _ | ⟨registration, _ | directories⟩
  · exact .cut _ _
  · exact .cut _ _
  · exact absurd rfl (hfound registration directories)

/-- What an install finds where the other domain is empty. -/
def ServiceState.existing (s : ServiceState) (mode : StartMode) : ServiceOperations.Existing :=
  match s.held mode with
  | none => ⟨false, false⟩
  | some held => ⟨true, held.running⟩

theorem existingFor_runs (hother : s.held (otherMode mode) = none) :
    (managersContract unreadable).Runs (ops.existingFor mode) s
      (.done (.ok (s.existing mode))) s := by
  refine .seq findRegistration_runs ?_
  have hfirst : s.firstRegistration = s.registration mode := by
    have hnone : s.registration (otherMode mode) = none := by
      rw [ServiceState.registration, hother]
      rfl
    cases mode with
    | boot => exact (congrArg (s.registration .boot).or hnone).trans (Option.or_none)
    | login => exact congrArg (Option.or · (s.registration .login)) hnone
  rw [hfirst, ServiceState.registration, ServiceState.existing]
  cases s.held mode with
  | none => exact .cut _ _
  | some held =>
    show (managersContract unreadable).Runs (if mode = mode then _ else _) s _ s
    rw [if_pos rfl]
    exact .cut _ _

theorem failUndone_runs {α : Type} {undo : ServiceProgram Unit} {t : ServiceState}
    (hundo : (managersContract unreadable).Runs undo s (.done (.ok ())) t) (operation : String)
    (cause : ServiceError) : (managersContract unreadable).Runs
      (ops.failUndone undo operation cause : ServiceProgram α) s (.done (.error cause)) t :=
  .outcome_seq hundo (answered_runs .revertRunnerRoot none trivial rfl)

theorem reinstate_runs (previous : Option InstallRecord) (running : Bool)
    (hempty : s.held mode = none) : ∃ t, (managersContract unreadable).Runs
      (ops.reinstate mode previous running) s (.done (.ok ())) t ∧
      t.held mode = previous.map fun record ↦
        ⟨joinCommandLine record.binary record.arguments, running⟩ := by
  cases previous with
  | none => exact ⟨s, .cut _ _, hempty⟩
  | some record =>
    let registered := s.put mode (some ⟨(ops.planOf record).commandLine, false⟩)
    have hinstall : (managersContract unreadable).Runs (controlInstall mode (ops.planOf record))
        s (.done (.ok ⟨"manager", none⟩)) registered := controlInstall_runs _ _
    have hthere : registered.held mode = some ⟨(ops.planOf record).commandLine, false⟩ :=
      ServiceState.held_put _ _ _
    cases running with
    | false => exact ⟨registered, .seq hinstall (.cut _ _), hthere⟩
    | true =>
      exact ⟨_, .seq hinstall (controlStart_runs _ hthere), ServiceState.held_put _ _ _⟩

theorem replacing_loses {plan : InstallPlan} {held : Held} (previous : Option InstallRecord)
    (hheld : s.held plan.startMode = some held)
    (hread : (managersContract unreadable).Runs (found? readRecord) s (.done (.ok previous)) s)
    (hprevious : ∀ record, previous = some record → ¬ ServiceState.Describes record held) :
    ∃ t, (managersContract unreadable).Runs
      (ops.installPlanned (s.existing plan.startMode) plan) s (.done (.error refused)) t ∧
      t ≠ s := by
  have hempty : (s.put plan.startMode none).held plan.startMode = none :=
    ServiceState.held_put _ _ _
  obtain ⟨t, hreinstate, hback⟩ : ∃ t, (managersContract unreadable).Runs
      (ops.reinstate plan.startMode previous held.running) (s.put plan.startMode none)
      (.done (.ok ())) t ∧ t.held plan.startMode = previous.map fun record ↦
        ⟨joinCommandLine record.binary record.arguments, held.running⟩ :=
    reinstate_runs previous held.running hempty
  refine ⟨t, ?_, fun hsame ↦ ?_⟩
  · simp only [ServiceState.existing, hheld]
    refine .seq hread (.outcome_seq controlUninstall_runs ?_)
    exact .outcome_seq (answered_runs (.install plan.startMode plan) (.error refused) trivial rfl)
      (failUndone_runs hreinstate _ _)
  · rw [hsame, hheld] at hback
    cases previous with
    | none => cases hback
    | some record =>
      refine hprevious record rfl ?_
      exact congrArg Held.commandLine (Option.some.inj hback)

theorem stale_record_lost {plan : InstallPlan} {record : InstallRecord}
    (hheld : s.held plan.startMode = none) (hrecord : s.record = some record) :
    ∃ t, (managersContract unreadable).Runs
      (ops.installPlanned (s.existing plan.startMode) plan) s (.done (.error refused)) t ∧
      t ≠ s := by
  let registered : ServiceState :=
    { s.put plan.startMode (some ⟨plan.commandLine, false⟩) with
      record := some (ops.recordOf plan ⟨"manager", none⟩ 0) }
  refine ⟨{ registered.put plan.startMode none with record := none }, ?_, fun hsame ↦ ?_⟩
  · simp only [ServiceState.existing, hheld]
    refine .outcome_seq (controlInstall_runs plan ⟨"manager", none⟩) ?_
    refine .trans (answered_runs .now 0 trivial rfl) ?_
    refine .outcome_seq (writeRecord_runs _) ?_
    refine .outcome_seq (answered_runs (.start plan.startMode) (.error refused) trivial rfl) ?_
    refine failUndone_runs (.seq (.seq controlUninstall_runs (.cut _ _)) ?_) _ _
    exact .seq removeRecord_runs (.cut _ _)
  · have hnone := congrArg ServiceState.record hsame
    rw [hrecord] at hnone
    cases hnone

theorem install_runs {request : InstallRequest} {binary : String} {t : ServiceState}
    {result : Except ServiceError ServiceOperations.Installed}
    (hbinary : ServiceOperations.NotOption binary) (hone : s.Single ops)
    (hother : s.held (otherMode request.startMode) = none)
    (hplanned : (managersContract unreadable).Runs (ops.installPlanned
      (s.existing request.startMode) (ops.resolvePlan request binary)) s (.done result) t) :
    (managersContract unreadable).Runs (ops.install request) s (.done result) t := by
  refine .seq (answered_runs .createAll (.ok ()) trivial rfl) ?_
  refine .seq (answered_runs .lock (.ok ()) trivial rfl) ?_
  refine .seq (refuseForeign_runs hone "replace") (.seq (existingFor_runs hother) ?_)
  refine .seq (answered_runs (.locateBinary request.binary) (.ok binary) trivial ⟨hbinary, rfl⟩) ?_
  exact .seq control_runs (.seq prepareRunnerRoot_runs hplanned)

/-- An install may succeed where the other domain is empty. -/
theorem install_succeeds {request : InstallRequest} {binary : String}
    (hbinary : ServiceOperations.NotOption binary) (hone : s.Single ops)
    (hother : s.held (otherMode request.startMode) = none) :
    ∃ installed t, (managersContract unreadable).Runs (ops.install request) s
      (.done (.ok installed)) t := by
  let plan := ops.resolvePlan request binary
  let definition : ServiceDefinition := ⟨"manager", none⟩
  let empty := s.put plan.startMode none
  have hregister (existing : ServiceOperations.Existing) (previous : Option InstallRecord) :
      ∃ installed t, (managersContract unreadable).Runs
        (ServiceOperations.installPlanned.registerPlanned ops existing plan previous) empty
        (.done (.ok installed)) t := by
    refine ⟨_, _, .outcome_seq (controlInstall_runs plan definition)
      (.trans (answered_runs .now 0 trivial rfl) (.outcome_seq (writeRecord_runs _)
        (.outcome_seq (controlStart_runs ⟨plan.commandLine, false⟩
          (ServiceState.held_put _ _ _)) (.cut _ _))))⟩
  cases hheld : s.held request.startMode with
  | none =>
    obtain ⟨installed, t, hruns⟩ := hregister ⟨false, false⟩ none
    refine ⟨installed, t, install_runs hbinary hone hother ?_⟩
    have hempty : empty = s := by
      show s.put request.startMode none = s
      rw [← hheld, ServiceState.put_held]
    rw [hempty] at hruns
    simp only [ServiceState.existing, hheld]
    exact hruns
  | some held =>
    obtain ⟨installed, t, hruns⟩ := hregister ⟨true, held.running⟩ s.record
    refine ⟨installed, t, install_runs hbinary hone hother ?_⟩
    simp only [ServiceState.existing, hheld]
    exact .seq (.outcome_seq readRecord_runs (.cut _ _))
      (.outcome_seq controlUninstall_runs hruns)

theorem uninstall_runs : ∃ removed, (managersContract unreadable).Runs ops.uninstall s
    (.done (.ok removed)) { s.cleared with record := none } := by
  have hdomain (t : ServiceState) (mode : StartMode) :
      (managersContract unreadable).Runs (found? (query mode)) t (.done (.ok none)) t :=
    .outcome_seq (answered_runs (.query mode) (.error refused) trivial rfl) (.cut _ _)
  have hcleared : (s.put .boot none).put .login none = s.cleared := by
    unfold ServiceState.put ServiceState.cleared
    congr 1
    funext mode
    cases mode <;> rfl
  have hloop : ∃ removed, (managersContract unreadable).Runs
      (ops.uninstallIn [.boot, .login] false none) s (.done (.ok (removed, none))) s.cleared := by
    rw [← hcleared]
    exact ⟨_, .seq control_runs (.seq (hdomain s .boot) (.seq controlUninstall_runs
      (.seq control_runs (.seq (hdomain _ .login) (.seq controlUninstall_runs (.cut _ _))))))⟩
  obtain ⟨removed, hloop⟩ := hloop
  have hread : (managersContract unreadable).Runs (found? readRecord) s (.done (.ok s.record)) s :=
    .outcome_seq readRecord_runs (.cut _ _)
  cases removed with
  | true => exact ⟨_, .seq hread (.seq hloop (.seq removeRecord_runs (.cut _ _)))⟩
  | false => exact ⟨_, .seq hread (.seq hloop (.seq removeRecord_runs (.cut _ _)))⟩

/-- From every state that an install cannot put back, some run of it fails with what was there
before changed, and does not report it. -/
theorem install_loses {request : InstallRequest} {binary : String}
    (hbinary : ServiceOperations.NotOption binary) (hone : s.Single ops)
    (hother : s.held (otherMode request.startMode) = none)
    (hlost : ¬ s.Restorable unreadable request.startMode) :
    ∃ t, (managersContract unreadable).Runs (ops.install request) s (.done (.error refused)) t ∧
      t ≠ s := by
  have hplanned : ∃ t, (managersContract unreadable).Runs (ops.installPlanned
      (s.existing request.startMode) (ops.resolvePlan request binary)) s
      (.done (.error refused)) t ∧ t ≠ s := by
    have hmode : (ops.resolvePlan request binary).startMode = request.startMode := rfl
    unfold ServiceState.Restorable at hlost
    cases hheld : s.held request.startMode with
    | none =>
      rw [hheld] at hlost
      obtain ⟨record, hrecord⟩ := Option.ne_none_iff_exists'.mp hlost
      exact stale_record_lost (hmode ▸ hheld) hrecord
    | some held =>
      rw [hheld] at hlost
      by_cases hreads : unreadable = true
      · refine replacing_loses none (hmode ▸ hheld) ?_ fun _ h ↦ (nomatch h)
        exact .outcome_seq (answered_runs .readRecord (.error refused) hreads rfl) (.cut _ _)
      · refine replacing_loses s.record (hmode ▸ hheld) ?_ fun record hrecord h ↦ ?_
        · exact .outcome_seq readRecord_runs (.cut _ _)
        · exact hlost ⟨by simpa using hreads, record, hrecord, h⟩
  obtain ⟨t, hruns, hchanged⟩ := hplanned
  exact ⟨t, install_runs hbinary hone hother hruns, hchanged⟩

/-- From every state that a switch cannot put back, some run of it ends with what it must not. -/
theorem setStartMode_loses (hone : s.Single ops) (hlost : ¬ s.Switchable mode) :
    ∃ result t, (managersContract unreadable).Runs (ops.setStartMode mode) s (.done result) t ∧
      ¬ Undone s (fun _ t ↦ t.Recorded mode) result t := by
  unfold ServiceState.Switchable at hlost
  push Not at hlost
  obtain ⟨record, hrecord, hlost⟩ := hlost
  by_cases hmode : record.startMode = mode
  · rw [if_pos hmode] at hlost
    refine ⟨.ok ⟨record.startMode, mode, false⟩, s, ?_, hlost⟩
    refine .seq readRecord_runs ?_
    rw [hrecord]
    show (managersContract unreadable).Runs (if record.startMode = mode then _ else _) s _ s
    rw [if_pos hmode]
    exact .cut _ _
  · rw [if_neg hmode] at hlost
    let plan := ops.recordedPlan record mode (ops.switchedArguments record.arguments mode)
    let registered := s.put mode (some ⟨plan.commandLine, false⟩)
    refine ⟨.error refused, registered.put mode none, ?_, fun hundone ↦ ?_⟩
    · refine .seq readRecord_runs ?_
      rw [hrecord]
      show (managersContract unreadable).Runs (if record.startMode = mode then _ else _) s _ _
      rw [if_neg hmode]
      refine .seq (refuseForeign_runs hone _) (.seq control_runs (.seq control_runs ?_))
      refine .seq prepareRunnerRoot_runs (.outcome_seq (controlInstall_runs _ ⟨"manager", none⟩) ?_)
      refine .outcome_seq (answered_runs (.writeRecord _) (.error refused) trivial rfl) ?_
      refine .trans (answered_runs .revertRunnerRoot none trivial rfl) ?_
      exact .outcome_seq controlUninstall_runs (.cut _ _)
    · rcases hundone with hreports | hsame
      · exact hreports
      · refine hlost ?_
        rw [← hsame]
        exact ServiceState.held_put _ _ _

end Losses

end RunnerManager.Platform
