import RunnerManager.Platform.Service

/-!
# Another installation's service

Every account of a machine sees the same two registrations, and one of them may belong to another
installation. `foreign_untouched` says for which runs of one account's operations no such
registration is ever changed; `foreign_replaced` shows what happens in the others.

Whether a registration is foreign is read out of its command line, so a registration of this
account's has to read back as its own: `foreignDirectories_own`.
-/

namespace RunnerManager.Platform

open RunnerManager.Domain
open Contract (wp_mono wp_of_making wp_outcome_seq wp_seq)

/-! ## Command lines of this account -/

namespace ServiceOperations

variable (ops : ServiceOperations)

/-- The arguments, and what a switch of the start mode makes of them. -/
def argumentForms (arguments : List String) : List (List String) :=
  [arguments, ops.switchedArguments arguments .boot, ops.switchedArguments arguments .login]

/-- Where the arguments name a configuration directory, it is this account's. -/
def CarriesOwn (arguments : List String) : Prop :=
  ∀ form ∈ ops.argumentForms arguments, ∀ config,
    optionValue form "--service-config-dir" = some config →
      ops.sameDirectory config ops.paths.configDir = true

variable {ops}

theorem switchedArguments_twice (arguments : List String) (first second : StartMode) :
    ops.switchedArguments (ops.switchedArguments arguments first) second =
      ops.switchedArguments arguments second := by
  unfold switchedArguments
  split_ifs <;> simp [windowsScmHostArgument]

theorem CarriesOwn.switched {arguments : List String} (h : ops.CarriesOwn arguments)
    (mode : StartMode) : ops.CarriesOwn (ops.switchedArguments arguments mode) := by
  intro form hform
  refine h form ?_
  simp only [argumentForms, switchedArguments_twice, List.mem_cons, List.not_mem_nil,
    or_false] at hform ⊢
  obtain rfl | rfl | rfl := hform
  · cases mode <;> simp
  · exact .inr (.inl rfl)
  · exact .inr (.inr rfl)

def NotOption (binary : String) : Prop :=
  binary ≠ "--service-config-dir"

/-- A command line of this account is not foreign. -/
theorem foreignDirectories_own {binary : String} {arguments form : List String}
    (hbinary : NotOption binary) (hown : ops.CarriesOwn arguments)
    (hform : form ∈ ops.argumentForms arguments) :
    ops.foreignDirectories (joinCommandLine binary form) = none := by
  have hskip : optionValue (binary :: form) "--service-config-dir" =
      optionValue form "--service-config-dir" := by
    simp [optionValue, show binary ≠ "--service-config-dir" from hbinary]
  rw [foreignDirectories, Option.filter_eq_none_iff]
  intro directories hdirectories
  simp only [ServiceDirectories.fromCommandLine, splitCommandLine_quoted, Option.bind_eq_bind,
    Option.bind_eq_some_iff] at hdirectories
  obtain ⟨config, hconfig, _, -, _, -, _, -, hsome⟩ := hdirectories
  cases hsome
  rw [hskip] at hconfig
  simp [hown form hform config hconfig]

/-- A record that this account wrote. -/
structure OwnRecord (ops : ServiceOperations) (record : InstallRecord) : Prop where
  binary : NotOption record.binary
  arguments : ops.CarriesOwn record.arguments

end ServiceOperations

/-! ## Two managers and the operations of one account -/

/-- A registration as its manager holds it. -/
structure Held where
  commandLine : String
  running : Bool
deriving DecidableEq

/-- An operation of this account. -/
inductive ServiceOperation where
  | install (request : InstallRequest)
  | uninstall
  | setStartMode (mode : StartMode)
  | start
  | stop

/-- The operation, whatever it reports. -/
def ServiceOperation.program (ops : ServiceOperations) : ServiceOperation → ServiceProgram Unit
  | install request => do
    let _ ← ops.install request
    return ()
  | uninstall => do
    let _ ← ops.uninstall
    return ()
  | setStartMode mode => do
    let _ ← ops.setStartMode mode
    return ()
  | start => ops.start
  | stop => do
    let _ ← ops.stop
    return ()

/-- What the two managers hold, the install record of this account, and the operation that runs. -/
structure ServiceState where
  held : StartMode → Option Held
  record : Option InstallRecord
  current : ServiceOperation

namespace ServiceState

/-- The registration of a domain, as a query shows it. -/
def registration (s : ServiceState) (mode : StartMode) : Option Registration :=
  (s.held mode).map fun held ↦ ⟨mode, held.commandLine, held.running⟩

/-- A manager now holds another registration, or none. -/
def put (s : ServiceState) (mode : StartMode) (held : Option Held) : ServiceState :=
  { s with held := Function.update s.held mode held }

/-- How the machine answers: a call that fails has no effect. -/
def Steps (s : ServiceState) : (c : ServiceCall) → c.Answer → ServiceState → Prop
  | .query mode, .ok found, t => found = s.registration mode ∧ t = s
  | .install mode plan, .ok _, t => t = s.put mode (some ⟨plan.commandLine, false⟩)
  | .uninstall mode, .ok there, t => there = (s.held mode).isSome ∧ t = s.put mode none
  | .start mode, .ok _, t =>
    ∃ held, s.held mode = some held ∧ t = s.put mode (some { held with running := true })
  | .stop mode, .ok was, t =>
    ∃ held, s.held mode = some held ∧ was = held.running ∧
      t = s.put mode (some { held with running := false })
  | .readRecord, .ok record, t => record = s.record ∧ t = s
  | .writeRecord record, .ok _, t => t = { s with record := some record }
  | .removeRecord, .ok there, t => there = s.record.isSome ∧ t = { s with record := none }
  | .locateBinary _, .ok binary, t => ServiceOperations.NotOption binary ∧ t = s
  | _, _, t => t = s

variable (ops : ServiceOperations)

/-- A domain holds a registration whose command line names another configuration directory. -/
def Foreign (s : ServiceState) (mode : StartMode) : Prop :=
  ∃ held, s.held mode = some held ∧ (ops.foreignDirectories held.commandLine).isSome = true

/-- A domain holds a registration that is not foreign. -/
def Own (s : ServiceState) (mode : StartMode) : Prop :=
  ∃ held, s.held mode = some held ∧ ops.foreignDirectories held.commandLine = none

/-- The record, if there is one, is this account's. -/
def RecordOwn (s : ServiceState) : Prop :=
  ∀ record, s.record = some record → ops.OwnRecord record

end ServiceState

def ServiceCall.changes : ServiceCall → Option StartMode
  | install mode _ | uninstall mode | start mode | stop mode => some mode
  | _ => none

/-- What a call carries is this account's. -/
def ServiceCall.CarriesOwn (ops : ServiceOperations) : ServiceCall → Prop
  | install _ plan => ops.foreignDirectories plan.commandLine = none
  | writeRecord record => ops.OwnRecord record
  | _ => True

/-- The machine, where no call may change a foreign registration. -/
def serviceContract (ops : ServiceOperations) :
    Contract ServiceCall ServiceCall.Answer ServiceState where
  requires s c := (∀ mode, c.changes = some mode → ¬ s.Foreign ops mode) ∧ c.CarriesOwn ops
  steps s c answer t := s.Steps c answer t

/-! ## Operations within their own domains -/

section Domains

variable {ops : ServiceOperations} {D : StartMode → Prop}

/-- A call that changes only certain domains, to what is this account's. -/
def ServiceCall.Within (ops : ServiceOperations) (D : StartMode → Prop) (c : ServiceCall) : Prop :=
  (∀ mode, c.changes = some mode → D mode) ∧ c.CarriesOwn ops

/-- The answers this account relies on: its record is its own, and a binary has a path. -/
def ServiceCall.Gives (ops : ServiceOperations) : (c : ServiceCall) → c.Answer → Prop
  | .readRecord, .ok (some record) => ops.OwnRecord record
  | .locateBinary _, .ok binary => ServiceOperations.NotOption binary
  | _, _ => True

/-- Programs that keep to certain domains. -/
def withinDomains (ops : ServiceOperations) (D : StartMode → Prop) :
    Contract ServiceCall ServiceCall.Answer Unit :=
  Contract.making (ServiceCall.Within ops D) (ServiceCall.Gives ops)

/-- None of the domains is foreign, and the record is this account's. -/
def Clean (ops : ServiceOperations) (D : StartMode → Prop) (s : ServiceState) : Prop :=
  (∀ mode, D mode → ¬ s.Foreign ops mode) ∧ s.RecordOwn ops

theorem not_foreign_put {s : ServiceState} {mode other : StartMode} {held : Option Held}
    (hs : ¬ s.Foreign ops mode)
    (hheld : ∀ h, held = some h → ops.foreignDirectories h.commandLine = none) :
    ¬ (s.put other held).Foreign ops mode := by
  rintro ⟨found, hfound, hforeign⟩
  by_cases hmode : mode = other
  · subst hmode
    have hheld' : held = some found := by simpa [ServiceState.put] using hfound
    rw [hheld found hheld'] at hforeign
    cases hforeign
  · refine hs ⟨found, ?_, hforeign⟩
    simpa [ServiceState.put, Function.update_of_ne hmode] using hfound

theorem own_of_not_foreign {s : ServiceState} {mode : StartMode} (h : ¬ s.Foreign ops mode)
    {held : Held} (hheld : s.held mode = some held) :
    ops.foreignDirectories held.commandLine = none := by
  by_contra hne
  exact h ⟨held, hheld, Option.isSome_iff_ne_none.mpr hne⟩

theorem Clean.of_same {s t : ServiceState} (h : Clean ops D s) (hheld : t.held = s.held)
    (hrecord : t.RecordOwn ops) : Clean ops D t := by
  refine ⟨fun mode hmode ↦ ?_, hrecord⟩
  have hforeign := h.1 mode hmode
  rw [ServiceState.Foreign, ← hheld] at hforeign
  exact hforeign

theorem Clean.put {s : ServiceState} (h : Clean ops D s) (mode : StartMode) {held : Option Held}
    (hheld : ∀ found, held = some found → ops.foreignDirectories found.commandLine = none) :
    Clean ops D (s.put mode held) :=
  ⟨fun other hother ↦ not_foreign_put (h.1 other hother) hheld, h.2⟩

theorem Clean.step {s t : ServiceState} (h : Clean ops D s) {c : ServiceCall} {answer : c.Answer}
    (hc : c.Within ops D) (hstep : s.Steps c answer t) : Clean ops D t := by
  cases c with
  | createAll | lock | control | prepareRunnerRoot | revertRunnerRoot | now =>
    obtain rfl : t = s := hstep
    exact h
  | query | readRecord | locateBinary =>
    cases answer with
    | ok _ =>
      obtain rfl : t = s := hstep.2
      exact h
    | error _ =>
      obtain rfl : t = s := hstep
      exact h
  | install mode plan =>
    cases answer with
    | ok _ =>
      obtain rfl : t = s.put mode _ := hstep
      refine h.put mode fun found hfound ↦ ?_
      cases hfound
      exact hc.2
    | error _ =>
      obtain rfl : t = s := hstep
      exact h
  | uninstall mode =>
    cases answer with
    | ok _ =>
      obtain rfl : t = s.put mode none := hstep.2
      exact h.put mode fun _ hfound ↦ (nomatch hfound)
    | error _ =>
      obtain rfl : t = s := hstep
      exact h
  | start mode =>
    cases answer with
    | ok _ =>
      obtain ⟨held, hheld, rfl⟩ := hstep
      have hown := own_of_not_foreign (h.1 mode (hc.1 mode rfl)) hheld
      refine h.put mode fun found hfound ↦ ?_
      cases hfound
      exact hown
    | error _ =>
      obtain rfl : t = s := hstep
      exact h
  | stop mode =>
    cases answer with
    | ok _ =>
      obtain ⟨held, hheld, -, rfl⟩ := hstep
      have hown := own_of_not_foreign (h.1 mode (hc.1 mode rfl)) hheld
      refine h.put mode fun found hfound ↦ ?_
      cases hfound
      exact hown
    | error _ =>
      obtain rfl : t = s := hstep
      exact h
  | writeRecord record =>
    cases answer with
    | ok _ =>
      obtain rfl : t = { s with record := some record } := hstep
      refine h.of_same rfl fun found hfound ↦ ?_
      cases hfound
      exact hc.2
    | error _ =>
      obtain rfl : t = s := hstep
      exact h
  | removeRecord =>
    cases answer with
    | ok _ =>
      obtain rfl : t = { s with record := none } := hstep.2
      exact h.of_same rfl fun _ hfound ↦ (nomatch hfound)
    | error _ =>
      obtain rfl : t = s := hstep
      exact h

theorem gives_of_steps {s t : ServiceState} (h : s.RecordOwn ops) {c : ServiceCall}
    {answer : c.Answer} (hstep : s.Steps c answer t) : c.Gives ops answer := by
  cases c with
  | readRecord =>
    match answer with
    | .ok none | .error _ => trivial
    | .ok (some record) => exact h record hstep.1.symm
  | locateBinary =>
    cases answer with
    | ok _ => exact hstep.1
    | error _ => trivial
  | _ => trivial

theorem wp_of_within {α : Type} {p : ServiceProgram α} {Q : Except ServiceError α → Unit → Prop}
    {C : Contract ServiceCall ServiceCall.Answer ServiceState}
    (hC : ∀ s c a t, C.steps s c a t → s.Steps c a t)
    (hrequires : C.requires = (serviceContract ops).requires) (h : (withinDomains ops D).wp p Q ())
    {s : ServiceState} (hs : Clean ops D s) :
    C.wp p (fun result t ↦ Q result () ∧ Clean ops D t) s := by
  refine wp_of_making h ?_ ?_ ?_ hs
  · intro s c hclean hwithin
    rw [hrequires]
    exact ⟨fun mode hmode ↦ hclean.1 mode (hwithin.1 mode hmode), hwithin.2⟩
  · exact fun s c a t hclean hstep ↦ gives_of_steps hclean.2 (hC s c a t hstep)
  · exact fun s c a t hclean hwithin hstep ↦ hclean.step hwithin (hC s c a t hstep)

theorem ServiceCall.within_of_unchanging {c : ServiceCall} (hchanges : c.changes = none)
    (hown : c.CarriesOwn ops) : c.Within ops D := by
  refine ⟨fun mode hmode ↦ ?_, hown⟩
  rw [hchanges] at hmode
  cases hmode

theorem ServiceCall.within_of_mode {c : ServiceCall} {mode : StartMode} (hmode : D mode)
    (hchanges : c.changes = some mode) (hown : c.CarriesOwn ops) : c.Within ops D := by
  refine ⟨fun other hother ↦ ?_, hown⟩
  rw [hchanges] at hother
  cases hother
  exact hmode

theorem answered_within {α : Type} (answer : Except ServiceError α) :
    (withinDomains ops D).wp (Program.ofExcept id answer) (fun _ _ ↦ True) () := by
  cases answer with
  | ok _ => trivial
  | error _ => trivial

theorem controlInstall_within {mode : StartMode} {plan : InstallPlan} (hmode : D mode)
    (hplan : ops.foreignDirectories plan.commandLine = none) :
    (withinDomains ops D).wp (controlInstall mode plan) (fun _ _ ↦ True) () :=
  ⟨ServiceCall.within_of_mode hmode rfl hplan, fun answer _ _ ↦ answered_within answer⟩

theorem controlUninstall_within {mode : StartMode} (hmode : D mode) :
    (withinDomains ops D).wp (controlUninstall mode) (fun _ _ ↦ True) () :=
  ⟨ServiceCall.within_of_mode hmode rfl trivial, fun answer _ _ ↦ answered_within answer⟩

theorem controlStart_within {mode : StartMode} (hmode : D mode) :
    (withinDomains ops D).wp (controlStart mode) (fun _ _ ↦ True) () :=
  ⟨ServiceCall.within_of_mode hmode rfl trivial, fun answer _ _ ↦ answered_within answer⟩

theorem controlStop_within {mode : StartMode} (hmode : D mode) :
    (withinDomains ops D).wp (controlStop mode) (fun _ _ ↦ True) () :=
  ⟨ServiceCall.within_of_mode hmode rfl trivial, fun answer _ _ ↦ answered_within answer⟩

theorem writeRecord_within {record : InstallRecord} (hrecord : ops.OwnRecord record) :
    (withinDomains ops D).wp (writeRecord record) (fun _ _ ↦ True) () :=
  ⟨ServiceCall.within_of_unchanging rfl hrecord, fun answer _ _ ↦ answered_within answer⟩

theorem removeRecord_within : (withinDomains ops D).wp removeRecord (fun _ _ ↦ True) () :=
  ⟨ServiceCall.within_of_unchanging rfl trivial, fun answer _ _ ↦ answered_within answer⟩

theorem control_within (mode : StartMode) :
    (withinDomains ops D).wp (control mode) (fun _ _ ↦ True) () :=
  ⟨ServiceCall.within_of_unchanging rfl trivial, fun answer _ _ ↦ answered_within answer⟩

theorem prepareRunnerRoot_within (mode : StartMode) :
    (withinDomains ops D).wp (prepareRunnerRoot mode) (fun _ _ ↦ True) () :=
  ⟨ServiceCall.within_of_unchanging rfl trivial, fun answer _ _ ↦ answered_within answer⟩

/-- What is read of the record is this account's. -/
def ReadsOwn (ops : ServiceOperations) (result : Except ServiceError (Option InstallRecord))
    (_ : Unit) : Prop :=
  ∀ record, result = .ok (some record) → ops.OwnRecord record

theorem readRecord_within : (withinDomains ops D).wp readRecord (ReadsOwn ops) () := by
  refine ⟨ServiceCall.within_of_unchanging rfl trivial, fun answer _ hgives ↦ ?_⟩
  match answer with
  | .ok none | .error _ => exact fun _ h ↦ (nomatch h)
  | .ok (some record) =>
    intro other hother
    cases hother
    exact hgives

theorem found?_within {α : Type} {part : ServiceProgram (Option α)}
    {Q : Except ServiceError (Option α) → Unit → Prop} (hpart : (withinDomains ops D).wp part Q ())
    (hnone : Q (.ok none) ()) : (withinDomains ops D).wp (found? part) Q () := by
  refine wp_outcome_seq hpart fun result _ h ↦ ?_
  cases result with
  | ok found => exact h
  | error _ => exact hnone

theorem previousRecord_within (existing : ServiceOperations.Existing) :
    (withinDomains ops D).wp (ServiceOperations.previousRecord existing) (ReadsOwn ops) () := by
  unfold ServiceOperations.previousRecord
  split_ifs
  · exact found?_within readRecord_within fun _ h ↦ (nomatch h)
  · exact fun _ h ↦ (nomatch h)

theorem planOf_own {record : InstallRecord} (h : ops.OwnRecord record) :
    ops.foreignDirectories (ops.planOf record).commandLine = none :=
  ServiceOperations.foreignDirectories_own h.binary h.arguments (by
    simp [ServiceOperations.argumentForms, ServiceOperations.planOf,
      ServiceOperations.recordedPlan])

theorem reinstate_within {mode : StartMode} (hmode : D mode) {previous : Option InstallRecord}
    (hprevious : ∀ record, previous = some record → ops.OwnRecord record) (wasRunning : Bool) :
    (withinDomains ops D).wp (ops.reinstate mode previous wasRunning) (fun _ _ ↦ True) () := by
  cases previous with
  | none => trivial
  | some record =>
    refine wp_seq (controlInstall_within hmode (planOf_own (hprevious record rfl)))
      (fun _ _ _ ↦ ?_) fun _ _ _ ↦ trivial
    cases wasRunning with
    | true => exact controlStart_within hmode
    | false => trivial

theorem replaceBack_within {mode : StartMode} (hmode : D mode) {previous : Option InstallRecord}
    (hprevious : ∀ record, previous = some record → ops.OwnRecord record) (wasRunning : Bool) :
    (withinDomains ops D).wp (ops.replaceBack mode previous wasRunning) (fun _ _ ↦ True) () :=
  wp_seq (controlUninstall_within hmode)
    (fun _ _ _ ↦ reinstate_within hmode hprevious wasRunning) fun _ _ _ ↦ trivial

theorem restoreRecord_within {previous : Option InstallRecord}
    (hprevious : ∀ record, previous = some record → ops.OwnRecord record) :
    (withinDomains ops D).wp (ServiceOperations.restoreRecord previous) (fun _ _ ↦ True) () := by
  cases previous with
  | some record => exact writeRecord_within (hprevious record rfl)
  | none =>
    exact wp_seq removeRecord_within (fun _ _ _ ↦ trivial) fun _ _ _ ↦ trivial

theorem nothing_within : (withinDomains ops D).wp (return () : ServiceProgram Unit)
    (fun _ _ ↦ True) () :=
  trivial

theorem failUndone_within {α : Type} {undo : ServiceProgram Unit}
    (hundo : (withinDomains ops D).wp undo (fun _ _ ↦ True) ()) (operation : String)
    (cause : ServiceError) :
    (withinDomains ops D).wp (ops.failUndone undo operation cause : ServiceProgram α)
      (fun _ _ ↦ True) () := by
  refine wp_outcome_seq hundo fun undone _ _ ↦ ?_
  exact ⟨ServiceCall.within_of_unchanging rfl trivial, fun _ _ _ ↦ trivial⟩

/-! ### Installing -/

/-- A plan of this account, and the record of it. -/
structure OwnPlan (ops : ServiceOperations) (plan : InstallPlan) : Prop where
  binary : ServiceOperations.NotOption plan.binary
  arguments : ops.CarriesOwn plan.arguments

theorem OwnPlan.commandLine {plan : InstallPlan} (h : OwnPlan ops plan) :
    ops.foreignDirectories plan.commandLine = none :=
  ServiceOperations.foreignDirectories_own h.binary h.arguments (by
    simp [ServiceOperations.argumentForms])

theorem OwnPlan.record {plan : InstallPlan} (h : OwnPlan ops plan) (definition : ServiceDefinition)
    (now : Timestamp) : ops.OwnRecord (ops.recordOf plan definition now) :=
  ⟨h.binary, h.arguments⟩

theorem startPlanned_within (existing : ServiceOperations.Existing) {plan : InstallPlan}
    (hmode : D plan.startMode) {previous : Option InstallRecord}
    (hprevious : ∀ record, previous = some record → ops.OwnRecord record)
    (definition : ServiceDefinition) (record : InstallRecord) :
    (withinDomains ops D).wp
      (ServiceOperations.installPlanned.startPlanned ops existing plan previous definition record)
      (fun _ _ ↦ True) () := by
  refine wp_outcome_seq (controlStart_within hmode) fun result _ _ ↦ ?_
  cases result with
  | ok _ => trivial
  | error cause =>
    exact failUndone_within (wp_seq (replaceBack_within hmode hprevious _)
      (fun _ _ _ ↦ restoreRecord_within hprevious) fun _ _ _ ↦ trivial) _ cause

theorem registerPlanned_within (existing : ServiceOperations.Existing) {plan : InstallPlan}
    (hplan : OwnPlan ops plan) (hmode : D plan.startMode) {previous : Option InstallRecord}
    (hprevious : ∀ record, previous = some record → ops.OwnRecord record) :
    (withinDomains ops D).wp
      (ServiceOperations.installPlanned.registerPlanned ops existing plan previous)
      (fun _ _ ↦ True) () := by
  refine wp_outcome_seq (controlInstall_within hmode hplan.commandLine)
    fun result _ _ ↦ ?_
  cases result with
  | error cause => exact failUndone_within (reinstate_within hmode hprevious _) _ cause
  | ok definition =>
    refine ⟨ServiceCall.within_of_unchanging rfl trivial, fun now _ _ ↦ ?_⟩
    show (withinDomains ops D).wp
      ((writeRecord (ops.recordOf plan definition now)).outcome >>= _) _ ()
    refine wp_outcome_seq (writeRecord_within (hplan.record definition now))
      fun written _ _ ↦ ?_
    cases written with
    | error cause => exact failUndone_within (replaceBack_within hmode hprevious _) _ cause
    | ok _ => exact startPlanned_within existing hmode hprevious definition _

theorem installPlanned_within (existing : ServiceOperations.Existing) {plan : InstallPlan}
    (hplan : OwnPlan ops plan) (hmode : D plan.startMode) :
    (withinDomains ops D).wp (ops.installPlanned existing plan) (fun _ _ ↦ True) () := by
  refine wp_seq (previousRecord_within existing) (fun previous _ hown ↦ ?_)
    fun _ _ _ ↦ trivial
  have hprevious : ∀ record, previous = some record → ops.OwnRecord record :=
    fun record hrecord ↦ hown record (by rw [hrecord])
  split_ifs
  · refine wp_outcome_seq (controlUninstall_within hmode) fun result _ _ ↦ ?_
    cases result with
    | ok _ => exact registerPlanned_within existing hplan hmode hprevious
    | error cause => exact failUndone_within nothing_within _ cause
  · exact registerPlanned_within existing hplan hmode hprevious

/-! ### Switching -/

theorem leaveMode_within {record : InstallRecord} (hrecord : ops.OwnRecord record)
    (mode : StartMode) (hall : ∀ mode, D mode) :
    (withinDomains ops D).wp (ServiceOperations.switchPlanned.leaveMode ops record mode)
      (fun _ _ ↦ True) () := by
  refine wp_outcome_seq (controlUninstall_within (hall _)) fun result _ _ ↦ ?_
  cases result with
  | ok _ => trivial
  | error cause =>
    refine wp_outcome_seq (controlUninstall_within (hall _)) fun _ _ _ ↦ ?_
    refine wp_outcome_seq (writeRecord_within hrecord) fun _ _ _ ↦ ?_
    exact ⟨ServiceCall.within_of_unchanging rfl trivial, fun _ _ _ ↦ trivial⟩

theorem switchedPlan_own {record : InstallRecord} (h : ops.OwnRecord record) (mode : StartMode) :
    OwnPlan ops (ops.recordedPlan record mode (ops.switchedArguments record.arguments mode)) :=
  ⟨h.binary, h.arguments.switched mode⟩

theorem switchPlanned_within {record : InstallRecord} (hrecord : ops.OwnRecord record)
    (mode : StartMode) (hall : ∀ mode, D mode) :
    (withinDomains ops D).wp (ops.switchPlanned record mode) (fun _ _ ↦ True) () := by
  have hplan := switchedPlan_own hrecord mode
  refine wp_seq (control_within mode) (fun _ _ _ ↦ ?_) fun _ _ _ ↦ trivial
  refine wp_seq (control_within record.startMode) (fun _ _ _ ↦ ?_) fun _ _ _ ↦ trivial
  refine wp_seq (prepareRunnerRoot_within mode) (fun _ _ _ ↦ ?_) fun _ _ _ ↦ trivial
  refine wp_outcome_seq (controlInstall_within (hall mode) hplan.commandLine)
    fun result _ _ ↦ ?_
  cases result with
  | error cause => exact failUndone_within nothing_within _ cause
  | ok definition =>
    refine wp_outcome_seq (writeRecord_within (hplan.record definition _))
      fun written _ _ ↦ ?_
    cases written with
    | ok _ => exact leaveMode_within hrecord mode hall
    | error cause =>
      refine ⟨ServiceCall.within_of_unchanging rfl trivial, fun retained _ _ ↦ ?_⟩
      show (withinDomains ops D).wp ((controlUninstall mode).outcome >>= _) _ ()
      exact wp_outcome_seq (controlUninstall_within (hall mode)) fun _ _ _ ↦ trivial

end Domains

/-! ## What an operation has looked at -/

section Looking

variable {ops : ServiceOperations} {s : ServiceState}

/-- While an uninstall runs, a manager that holds a foreign registration answers its query. -/
def ServiceState.Answerable (ops : ServiceOperations) (s : ServiceState) :
    (c : ServiceCall) → c.Answer → Prop
  | .query mode, .error _ => s.current = .uninstall → ¬ s.Foreign ops mode
  | _, _ => True

/-- The machine, where an uninstall learns of every foreign registration. -/
def answeringContract (ops : ServiceOperations) :
    Contract ServiceCall ServiceCall.Answer ServiceState :=
  (serviceContract ops).assuming fun s c answer ↦ s.Answerable ops c answer

theorem requires_of_unchanging {c : ServiceCall} (hchanges : c.changes = none)
    (hown : c.CarriesOwn ops) : (answeringContract ops).requires s c := by
  refine ⟨fun mode hmode ↦ ?_, hown⟩
  rw [hchanges] at hmode
  cases hmode

theorem answered_wp {α : Type} (answer : Except ServiceError α) :
    (answeringContract ops).wp (Program.ofExcept id answer) (fun _ t ↦ t = s) s := by
  cases answer with
  | ok _ => rfl
  | error _ => rfl

theorem control_wp (mode : StartMode) (s : ServiceState) :
    (answeringContract ops).wp (control mode) (fun _ t ↦ t = s) s := by
  refine ⟨requires_of_unchanging rfl trivial, fun answer t hstep ↦ ?_⟩
  obtain rfl : t = s := hstep.2
  exact answered_wp answer

/-- What a query says, if it answers. -/
def Sees (s : ServiceState) (mode : StartMode) (result : Except ServiceError (Option Registration))
    (t : ServiceState) : Prop :=
  t = s ∧ ∀ found, result = .ok found → found = s.registration mode

theorem query_wp (mode : StartMode) (s : ServiceState) :
    (answeringContract ops).wp (query mode) (Sees s mode) s := by
  refine ⟨requires_of_unchanging rfl trivial, fun answer t hstep ↦ ?_⟩
  cases answer with
  | ok found =>
    obtain ⟨rfl, rfl⟩ : found = s.registration mode ∧ t = s := hstep.2
    refine ⟨rfl, fun other hother ↦ ?_⟩
    cases hother
    rfl
  | error _ =>
    obtain rfl : t = s := hstep.2
    exact ⟨rfl, fun _ h ↦ (nomatch h)⟩

/-- The first registration there is, the boot domain before the login domain. -/
def First (s : ServiceState) : Option Registration → Prop
  | none => ∀ mode, s.held mode = none
  | some found => s.registration .boot = some found ∨
      s.held .boot = none ∧ s.registration .login = some found

theorem held_none_of_registration {mode : StartMode} (h : none = s.registration mode) :
    s.held mode = none := by
  simpa [ServiceState.registration] using h.symm

theorem findRegistration_wp (s : ServiceState) :
    (answeringContract ops).wp ServiceOperations.findRegistration
      (fun result t ↦ t = s ∧ ∀ found, result = .ok found → First s found) s := by
  unfold ServiceOperations.findRegistration ServiceOperations.findRegistrationIn
  refine wp_seq (control_wp .boot s) (fun _ t ht ↦ ?_) fun _ _ ht ↦
    ⟨ht, fun _ h ↦ (nomatch h)⟩
  subst ht
  refine wp_seq (query_wp .boot t) (fun boot u hu ↦ ?_) fun _ _ hu ↦
    ⟨hu.1, fun _ h ↦ (nomatch h)⟩
  obtain ⟨rfl, hboot⟩ := hu
  cases boot with
  | some found =>
    refine ⟨rfl, fun other hother ↦ ?_⟩
    cases hother
    exact .inl (hboot _ rfl).symm
  | none =>
    have hnone := held_none_of_registration (hboot _ rfl)
    show (answeringContract ops).wp (ServiceOperations.findRegistrationIn [.login]) _ u
    unfold ServiceOperations.findRegistrationIn
    refine wp_seq (control_wp .login u) (fun _ v hv ↦ ?_) fun _ _ hv ↦
      ⟨hv, fun _ h ↦ (nomatch h)⟩
    subst hv
    refine wp_seq (query_wp .login v) (fun login w hw ↦ ?_) fun _ _ hw ↦
      ⟨hw.1, fun _ h ↦ (nomatch h)⟩
    obtain ⟨rfl, hlogin⟩ := hw
    cases login with
    | some found =>
      refine ⟨rfl, fun other hother ↦ ?_⟩
      cases hother
      exact .inr ⟨hnone, (hlogin _ rfl).symm⟩
    | none =>
      refine ⟨rfl, fun other hother ↦ ?_⟩
      cases hother
      intro mode
      cases mode with
      | boot => exact hnone
      | login => exact held_none_of_registration (hlogin _ rfl)

theorem registration_mode {mode : StartMode} {found : Registration}
    (h : s.registration mode = some found) : found.startMode = mode := by
  simp only [ServiceState.registration, Option.map_eq_some_iff] at h
  obtain ⟨_, -, rfl⟩ := h
  rfl

theorem own_of_registration {mode : StartMode} {found : Registration}
    (h : s.registration mode = some found)
    (hown : ops.foreignDirectories found.commandLine = none) :
    s.Own ops mode := by
  simp only [ServiceState.registration, Option.map_eq_some_iff] at h
  obtain ⟨held, hheld, rfl⟩ := h
  exact ⟨held, hheld, hown⟩

theorem First.registration {found : Registration} (h : First s (some found)) :
    s.registration found.startMode = some found := by
  obtain h | ⟨-, h⟩ := h <;> rw [registration_mode h, h]

theorem ownRegistration_wp (mode : StartMode) (s : ServiceState) :
    (answeringContract ops).wp (ops.ownRegistration mode)
      (fun result t ↦ t = s ∧ ∀ found, result = .ok (some found) →
        s.registration mode = some found ∧ ops.foreignDirectories found.commandLine = none) s := by
  have hquery : (answeringContract ops).wp (control mode >>= fun _ ↦ query mode)
      (Sees s mode) s := by
    refine wp_seq (control_wp mode s) (fun _ t ht ↦ ?_) fun _ _ ht ↦
      ⟨ht, fun _ h ↦ (nomatch h)⟩
    subst ht
    exact query_wp mode t
  have hfound : (answeringContract ops).wp (found? do control mode; query mode)
      (fun result t ↦ t = s ∧ ∀ found, result = .ok (some found) →
        s.registration mode = some found) s := by
    refine wp_outcome_seq hquery fun result t h ↦ ?_
    cases result with
    | error _ => exact ⟨h.1, fun _ h ↦ (nomatch h)⟩
    | ok found =>
      refine ⟨h.1, fun other hother ↦ ?_⟩
      cases hother
      exact (h.2 _ rfl).symm
  refine wp_seq hfound (fun registration t h ↦ ?_) fun _ _ h ↦
    ⟨h.1, fun _ h ↦ (nomatch h)⟩
  refine ⟨h.1, fun found hresult ↦ ?_⟩
  have hfilter : registration.filter (fun registration ↦
      (ops.foreignDirectories registration.commandLine).isNone) = some found :=
    Except.ok.inj hresult
  obtain ⟨rfl, hnone⟩ := Option.filter_eq_some_iff.mp hfilter
  exact ⟨h.2 found rfl, Option.isNone_iff_eq_none.mp hnone⟩

/-- What a status finds: nothing at all, or a registration of this account if it says so. -/
def StatusOf (ops : ServiceOperations) (s : ServiceState)
    (found : Option (Registration × Option ServiceDirectories)) : Prop :=
  (found = none → ∀ mode, s.held mode = none) ∧
    ∀ registration, found = some (registration, none) → s.Own ops registration.startMode

theorem registrationForStatus_wp (s : ServiceState) :
    (answeringContract ops).wp ops.registrationForStatus
      (fun result t ↦ t = s ∧ ∀ found, result = .ok found → StatusOf ops s found) s := by
  refine wp_seq (findRegistration_wp s) (fun found t h ↦ ?_) fun _ _ h ↦
    ⟨h.1, fun _ h ↦ (nomatch h)⟩
  obtain ⟨rfl, hfirst⟩ := h
  cases found with
  | none =>
    refine ⟨rfl, fun _ h ↦ ?_⟩
    cases h
    exact ⟨fun _ ↦ hfirst none rfl, fun _ h ↦ (nomatch h)⟩
  | some found =>
    have hregistration := (hfirst _ rfl).registration
    dsimp only
    cases hforeign : ops.foreignDirectories found.commandLine with
    | none =>
      refine ⟨rfl, fun _ h ↦ ?_⟩
      cases h
      refine ⟨fun h ↦ (nomatch h), fun other hother ↦ ?_⟩
      cases hother
      exact own_of_registration hregistration hforeign
    | some directories =>
      refine wp_seq (ownRegistration_wp (otherMode found.startMode) t)
        (fun own u h ↦ ?_) fun _ _ h ↦ ⟨h.1, fun _ h ↦ (nomatch h)⟩
      obtain ⟨rfl, hown⟩ := h
      cases own with
      | none =>
        refine ⟨rfl, fun _ h ↦ ?_⟩
        cases h
        exact ⟨fun h ↦ (nomatch h), fun _ h ↦ (nomatch h)⟩
      | some own =>
        refine ⟨rfl, fun _ h ↦ ?_⟩
        cases h
        refine ⟨fun h ↦ (nomatch h), fun other hother ↦ ?_⟩
        cases hother
        obtain ⟨hregistered, hdirectories⟩ := hown own rfl
        rw [registration_mode hregistered]
        exact own_of_registration hregistered hdirectories

/-- Nothing is registered, or something of this account. -/
def SomeOwn (ops : ServiceOperations) (s : ServiceState) : Prop :=
  (∀ mode, s.held mode = none) ∨ ∃ mode, s.Own ops mode

theorem refuseForeign_wp (operation : String) (s : ServiceState) :
    (answeringContract ops).wp (ops.refuseForeign operation)
      (fun result t ↦ t = s ∧ (result = .ok () → SomeOwn ops s)) s := by
  refine wp_seq (registrationForStatus_wp s) (fun found t h ↦ ?_) fun _ _ h ↦
    ⟨h.1, fun h ↦ (nomatch h)⟩
  obtain ⟨rfl, hstatus⟩ := h
  obtain ⟨hnone, hown⟩ := hstatus found rfl
  match found with
  | none => exact ⟨rfl, fun _ ↦ .inl (hnone rfl)⟩
  | some (registration, none) => exact ⟨rfl, fun _ ↦ .inr ⟨_, hown registration rfl⟩⟩
  | some (_, some _) => exact ⟨rfl, fun h ↦ (nomatch h)⟩

theorem ownRegistrationMode_wp (operation : String) (s : ServiceState) :
    (answeringContract ops).wp (ops.ownRegistrationMode operation)
      (fun result t ↦ t = s ∧ ∀ mode, result = .ok mode → s.Own ops mode) s := by
  refine wp_seq (registrationForStatus_wp s) (fun found t h ↦ ?_) fun _ _ h ↦
    ⟨h.1, fun _ h ↦ (nomatch h)⟩
  obtain ⟨rfl, hstatus⟩ := h
  obtain ⟨-, hown⟩ := hstatus found rfl
  match found with
  | none | some (_, some _) => exact ⟨rfl, fun _ h ↦ (nomatch h)⟩
  | some (registration, none) =>
    refine ⟨rfl, fun mode hmode ↦ ?_⟩
    cases hmode
    exact hown registration rfl

/-- What an install finds in its way: nothing, or the first registration, in its own domain. -/
def FoundFor (s : ServiceState) (mode : StartMode) : Prop :=
  (∀ mode, s.held mode = none) ∨ (mode = .login → s.held .boot = none)

theorem existingFor_wp (mode : StartMode) (s : ServiceState) :
    (answeringContract ops).wp (ops.existingFor mode)
      (fun result t ↦ t = s ∧ ∀ existing, result = .ok existing → FoundFor s mode) s := by
  refine wp_seq (findRegistration_wp s) (fun found t h ↦ ?_) fun _ _ h ↦
    ⟨h.1, fun _ h ↦ (nomatch h)⟩
  obtain ⟨rfl, hfirst⟩ := h
  cases found with
  | none => exact ⟨rfl, fun _ _ ↦ .inl (hfirst none rfl)⟩
  | some found =>
    show (answeringContract ops).wp (if found.startMode = mode then _ else _) _ t
    split_ifs with hmode
    · refine ⟨rfl, fun _ _ ↦ .inr fun hlogin ↦ ?_⟩
      obtain hboot | ⟨hnone, -⟩ := hfirst _ rfl
      · rw [registration_mode hboot, hlogin] at hmode
        cases hmode
      · exact hnone
    · exact ⟨rfl, fun _ h ↦ (nomatch h)⟩

end Looking

/-! ## The operations -/

section Operations

variable {ops : ServiceOperations} {s : ServiceState} {mode : StartMode}

/-- One domain holds a foreign registration and the other one of this account. -/
def ServiceState.Mixed (ops : ServiceOperations) (s : ServiceState) : Prop :=
  ∃ mode, s.Foreign ops mode ∧ s.Own ops (otherMode mode)

/-- An install at boot does not come where the boot registration is foreign and the login one is
this account's, nor a switch of the mode where either is foreign and the other is not. An install
carries this account's directories. -/
def ServiceState.Clear (ops : ServiceOperations) (s : ServiceState) : ServiceOperation → Prop
  | .install request => ops.CarriesOwn request.arguments ∧
      ¬ (request.startMode = .boot ∧ s.Foreign ops .boot ∧ s.Own ops .login)
  | .setStartMode mode =>
    ∀ record, s.record = some record → record.startMode ≠ mode → ¬ s.Mixed ops
  | .uninstall | .start | .stop => True

theorem not_foreign_of_own (h : s.Own ops mode) : ¬ s.Foreign ops mode := by
  rintro ⟨held, hheld, hforeign⟩
  obtain ⟨own, hown, hnone⟩ := h
  rw [hheld] at hown
  cases hown
  rw [hnone] at hforeign
  cases hforeign

theorem not_foreign_of_none (h : s.held mode = none) : ¬ s.Foreign ops mode := by
  rintro ⟨held, hheld, -⟩
  rw [h] at hheld
  cases hheld

theorem eq_otherMode {mode other : StartMode} (h : mode ≠ other) : other = otherMode mode := by
  cases mode <;> cases other <;> first | rfl | exact absurd rfl h

theorem not_foreign_of_someOwn (h : SomeOwn ops s) (hmixed : ¬ s.Mixed ops) (mode : StartMode) :
    ¬ s.Foreign ops mode := by
  obtain hnone | ⟨own, hown⟩ := h
  · exact not_foreign_of_none (hnone mode)
  · by_cases heq : mode = own
    · rw [heq]
      exact not_foreign_of_own hown
    · intro hforeign
      rw [eq_otherMode heq] at hown
      exact hmixed ⟨mode, hforeign, hown⟩

theorem not_foreign_of_found (hown : SomeOwn ops s) (hfound : FoundFor s mode)
    (hclear : ¬ (mode = .boot ∧ s.Foreign ops .boot ∧ s.Own ops .login)) :
    ¬ s.Foreign ops mode := by
  obtain hnone | ⟨own, hown⟩ := hown
  · exact not_foreign_of_none (hnone mode)
  · obtain hnone | hboot := hfound
    · exact not_foreign_of_none (hnone mode)
    · intro hforeign
      cases mode with
      | boot =>
        -- What is own is then the login registration.
        refine hclear ⟨rfl, hforeign, ?_⟩
        cases own with
        | boot => exact absurd hforeign (not_foreign_of_own hown)
        | login => exact hown
      | login =>
        cases own with
        | boot =>
          obtain ⟨held, hheld, -⟩ := hown
          rw [hboot rfl] at hheld
          cases hheld
        | login => exact not_foreign_of_own hown hforeign

theorem createAll_wp (s : ServiceState) :
    (answeringContract ops).wp createAll (fun _ t ↦ t = s) s := by
  refine ⟨requires_of_unchanging rfl trivial, fun answer t hstep ↦ ?_⟩
  obtain rfl : t = s := hstep.2
  exact answered_wp answer

theorem refuseWhileAnAgentRuns_wp (s : ServiceState) :
    (answeringContract ops).wp refuseWhileAnAgentRuns (fun _ t ↦ t = s) s := by
  refine ⟨requires_of_unchanging rfl trivial, fun answer t hstep ↦ ?_⟩
  obtain rfl : t = s := hstep.2
  exact answered_wp answer

theorem prepareRunnerRoot_wp (mode : StartMode) (s : ServiceState) :
    (answeringContract ops).wp (prepareRunnerRoot mode) (fun _ t ↦ t = s) s := by
  refine ⟨requires_of_unchanging rfl trivial, fun answer t hstep ↦ ?_⟩
  obtain rfl : t = s := hstep.2
  exact answered_wp answer

theorem locateBinary_wp (named : Option String) (s : ServiceState) :
    (answeringContract ops).wp (locateBinary named)
      (fun result t ↦ t = s ∧ ∀ binary, result = .ok binary →
        ServiceOperations.NotOption binary) s := by
  refine ⟨requires_of_unchanging rfl trivial, fun answer t hstep ↦ ?_⟩
  cases answer with
  | ok binary =>
    obtain ⟨hbinary, rfl⟩ : ServiceOperations.NotOption binary ∧ t = s := hstep.2
    refine ⟨rfl, fun other hother ↦ ?_⟩
    cases hother
    exact hbinary
  | error _ =>
    obtain rfl : t = s := hstep.2
    exact ⟨rfl, fun _ h ↦ (nomatch h)⟩

theorem wp_of_clean {α : Type} {p : ServiceProgram α} {D : StartMode → Prop}
    (h : (withinDomains ops D).wp p (fun _ _ ↦ True) ()) (hs : Clean ops D s) :
    (answeringContract ops).wp p (fun _ _ ↦ True) s :=
  wp_mono
    (wp_of_within (C := answeringContract ops) (fun _ _ _ _ hstep ↦ hstep.2) rfl h hs)
    fun _ _ _ ↦ trivial

theorem install_wp {request : InstallRequest} (hrecord : s.RecordOwn ops)
    (hclear : s.Clear ops (.install request)) :
    (answeringContract ops).wp (ops.install request) (fun _ _ ↦ True) s := by
  refine wp_seq (createAll_wp s) (fun _ t ht ↦ ?_) fun _ _ _ ↦ trivial
  subst ht
  refine wp_seq (refuseWhileAnAgentRuns_wp t) (fun _ u hu ↦ ?_) fun _ _ _ ↦ trivial
  subst hu
  refine wp_seq (refuseForeign_wp "replace" u) (fun _ v hv ↦ ?_) fun _ _ _ ↦ trivial
  obtain ⟨rfl, hown⟩ := hv
  refine wp_seq (existingFor_wp request.startMode v) (fun existing w hw ↦ ?_)
    fun _ _ _ ↦ trivial
  obtain ⟨rfl, hfound⟩ := hw
  refine wp_seq (locateBinary_wp request.binary w) (fun binary x hx ↦ ?_)
    fun _ _ _ ↦ trivial
  obtain ⟨rfl, hbinary⟩ := hx
  refine wp_seq (control_wp request.startMode x) (fun _ y hy ↦ ?_) fun _ _ _ ↦ trivial
  subst hy
  refine wp_seq (prepareRunnerRoot_wp request.startMode y) (fun _ z hz ↦ ?_)
    fun _ _ _ ↦ trivial
  subst hz
  have hplan : OwnPlan ops (ops.resolvePlan request binary) := ⟨hbinary binary rfl, hclear.1⟩
  refine wp_of_clean (D := (· = request.startMode)) (installPlanned_within existing hplan rfl) ?_
  refine ⟨fun mode hmode ↦ ?_, hrecord⟩
  rw [hmode]
  exact not_foreign_of_found (hown rfl) (hfound existing rfl) hclear.2

theorem setStartMode_wp (hrecord : s.RecordOwn ops) (hclear : s.Clear ops (.setStartMode mode)) :
    (answeringContract ops).wp (ops.setStartMode mode) (fun _ _ ↦ True) s := by
  have hread : (answeringContract ops).wp readRecord
      (fun result t ↦ t = s ∧ ∀ record, result = .ok record → record = s.record) s := by
    refine ⟨requires_of_unchanging rfl trivial, fun answer t hstep ↦ ?_⟩
    cases answer with
    | ok record =>
      obtain ⟨rfl, rfl⟩ : record = s.record ∧ t = s := hstep.2
      refine ⟨rfl, fun other hother ↦ ?_⟩
      cases hother
      rfl
    | error _ =>
      obtain rfl : t = s := hstep.2
      exact ⟨rfl, fun _ h ↦ (nomatch h)⟩
  refine wp_seq hread (fun record t h ↦ ?_) fun _ _ _ ↦ trivial
  obtain ⟨rfl, hstored⟩ := h
  cases record with
  | none => trivial
  | some record =>
    have hstored' : t.record = some record := (hstored _ rfl).symm
    show (answeringContract ops).wp (if record.startMode = mode then _ else _) _ t
    split_ifs with hmode
    · trivial
    · refine wp_seq (refuseForeign_wp _ t) (fun _ u hu ↦ ?_) fun _ _ _ ↦ trivial
      obtain ⟨rfl, hown⟩ := hu
      refine wp_of_clean (D := fun _ ↦ True)
        (switchPlanned_within (hrecord record hstored') mode fun _ ↦ trivial) ?_
      refine ⟨fun other _ ↦ ?_, hrecord⟩
      exact not_foreign_of_someOwn (hown rfl) (hclear record hstored' hmode) other

theorem start_wp (hrecord : s.RecordOwn ops) :
    (answeringContract ops).wp ops.start (fun _ _ ↦ True) s := by
  refine wp_seq (ownRegistrationMode_wp "start" s) (fun mode t h ↦ ?_) fun _ _ _ ↦ trivial
  obtain ⟨rfl, hown⟩ := h
  refine wp_of_clean (D := (· = mode)) (wp_seq (control_within mode)
    (fun _ _ _ ↦ controlStart_within rfl) fun _ _ _ ↦ trivial) ?_
  refine ⟨fun other hother ↦ ?_, hrecord⟩
  rw [hother]
  exact not_foreign_of_own (hown mode rfl)

theorem stop_wp (hrecord : s.RecordOwn ops) :
    (answeringContract ops).wp ops.stop (fun _ _ ↦ True) s := by
  refine wp_seq (ownRegistrationMode_wp "stop" s) (fun mode t h ↦ ?_) fun _ _ _ ↦ trivial
  obtain ⟨rfl, hown⟩ := h
  refine wp_of_clean (D := (· = mode)) (wp_seq (control_within mode)
    (fun _ _ _ ↦ controlStop_within rfl) fun _ _ _ ↦ trivial) ?_
  refine ⟨fun other hother ↦ ?_, hrecord⟩
  rw [hother]
  exact not_foreign_of_own (hown mode rfl)

/-- While it uninstalls, an operation keeps the record its own. -/
def Uninstalling (ops : ServiceOperations) (s : ServiceState) : Prop :=
  s.RecordOwn ops ∧ s.current = .uninstall

theorem found?_query_wp (mode : StartMode) (h : Uninstalling ops s) :
    (answeringContract ops).wp (found? (query mode))
      (fun result t ↦ t = s ∧ ∀ found, result = .ok found →
        (found.bind fun registration ↦ ops.foreignDirectories registration.commandLine) = none →
        ¬ s.Foreign ops mode) s := by
  refine ⟨requires_of_unchanging rfl trivial, fun answer t hstep ↦ ?_⟩
  cases answer with
  | error _ =>
    obtain ⟨hanswers, rfl⟩ : (s.current = .uninstall → ¬ s.Foreign ops mode) ∧ t = s := hstep
    exact ⟨rfl, fun _ _ _ ↦ hanswers h.2⟩
  | ok found =>
    obtain ⟨rfl, rfl⟩ : found = s.registration mode ∧ t = s := hstep.2
    refine ⟨rfl, fun other hother hnone ↦ ?_⟩
    cases hother
    rintro ⟨held, hheld, hforeign⟩
    simp only [ServiceState.registration, hheld, Option.map_some, Option.bind_some] at hnone
    rw [hnone] at hforeign
    cases hforeign

theorem controlUninstall_wp (h : Uninstalling ops s) (hforeign : ¬ s.Foreign ops mode) :
    (answeringContract ops).wp (controlUninstall mode) (fun _ t ↦ Uninstalling ops t) s := by
  refine ⟨⟨fun other hother ↦ ?_, trivial⟩, fun answer t hstep ↦ ?_⟩
  · cases hother
    exact hforeign
  · cases answer with
    | ok _ =>
      obtain rfl : t = s.put mode none := hstep.2.2
      exact h
    | error _ =>
      obtain rfl : t = s := hstep.2
      exact h

theorem uninstallIn_wp (modes : List StartMode) (removed : Bool)
    (foreign : Option ServiceDirectories) (h : Uninstalling ops s) :
    (answeringContract ops).wp (ops.uninstallIn modes removed foreign)
      (fun _ _ ↦ True) s := by
  induction modes generalizing s removed foreign with
  | nil => trivial
  | cons mode rest ih =>
    refine wp_seq (control_wp mode s) (fun _ t ht ↦ ?_) fun _ _ _ ↦ trivial
    subst ht
    refine wp_seq (found?_query_wp mode h) (fun found u hu ↦ ?_) fun _ _ _ ↦ trivial
    obtain ⟨rfl, hnone⟩ := hu
    cases hfound : found.bind fun registration ↦
        ops.foreignDirectories registration.commandLine with
    | some directories => exact ih removed (some directories) h
    | none =>
      refine wp_seq (controlUninstall_wp h (hnone found rfl hfound))
        (fun there v hv ↦ ?_) fun _ _ _ ↦ trivial
      exact ih (removed || there) foreign hv

theorem uninstall_wp (h : Uninstalling ops s) :
    (answeringContract ops).wp ops.uninstall (fun _ _ ↦ True) s := by
  have hread : (answeringContract ops).wp (found? readRecord) (fun _ t ↦ t = s) s := by
    refine ⟨requires_of_unchanging rfl trivial, fun answer t hstep ↦ ?_⟩
    cases answer with
    | ok _ =>
      obtain rfl : t = s := hstep.2.2
      rfl
    | error _ =>
      obtain rfl : t = s := hstep.2
      rfl
  refine wp_seq hread (fun record t ht ↦ ?_) fun _ _ _ ↦ trivial
  subst ht
  refine wp_seq (uninstallIn_wp _ false none h) (fun found u _ ↦ ?_) fun _ _ _ ↦ trivial
  match found with
  | (false, some directories) => trivial
  | (false, none) | (true, _) =>
    refine ⟨requires_of_unchanging rfl trivial, fun answer v _ ↦ ?_⟩
    cases answer with
    | ok _ => trivial
    | error _ => trivial

theorem program_wp (hrecord : s.RecordOwn ops) (hclear : s.Clear ops s.current) :
    (answeringContract ops).wp (s.current.program ops) (fun _ _ ↦ True) s := by
  cases hcurrent : s.current with
  | install request =>
    rw [hcurrent] at hclear
    exact wp_seq (install_wp hrecord hclear) (fun _ _ _ ↦ trivial) fun _ _ _ ↦ trivial
  | uninstall =>
    exact wp_seq (uninstall_wp ⟨hrecord, hcurrent⟩) (fun _ _ _ ↦ trivial)
      fun _ _ _ ↦ trivial
  | setStartMode mode =>
    rw [hcurrent] at hclear
    exact wp_seq (setStartMode_wp hrecord hclear) (fun _ _ _ ↦ trivial)
      fun _ _ _ ↦ trivial
  | start => exact start_wp hrecord
  | stop => exact wp_seq (stop_wp hrecord) (fun _ _ _ ↦ trivial) fun _ _ _ ↦ trivial

/-! ## Every sequence of operations -/

/-- The operation begins over any two registrations and an own record. -/
def ServiceState.Starts (ops : ServiceOperations) (s : ServiceState) (p : ServiceProgram Unit) :
    Prop :=
  s.RecordOwn ops ∧ s.Clear ops s.current ∧ p = s.current.program ops

/-- The next operation begins, also where the one before it was cut off. Since then the managers may
have been given other registrations by other accounts. -/
def ServiceState.Opens (ops : ServiceOperations) (s t : ServiceState) (p : ServiceProgram Unit) :
    Prop :=
  t.record = s.record ∧ t.Clear ops t.current ∧ p = t.current.program ops

/-- In every sequence of clear operations, where an uninstall is told of every foreign registration,
no call changes a domain that holds a foreign registration when it is made. -/
theorem foreign_untouched {ops : ServiceOperations} {s : ServiceState} {c : ServiceCall}
    {next : c.Answer → ServiceProgram Unit} (h : (answeringContract ops).Reaches
      (ServiceState.Starts ops) (ServiceState.Opens ops) s (.ask c next)) :
    ∀ mode, c.changes = some mode → ¬ s.Foreign ops mode := by
  have hkeeps : ∀ s c (a : c.Answer) t, s.RecordOwn ops → (answeringContract ops).requires s c →
      (answeringContract ops).steps s c a t → t.RecordOwn ops := by
    intro s c a t hrecord hrequires hstep
    have hclean : Clean ops (fun mode ↦ c.changes = some mode) s := ⟨hrequires.1, hrecord⟩
    exact (hclean.step ⟨fun _ hmode ↦ hmode, hrequires.2⟩ hstep.2).2
  have hsound := Contract.Reaches.sound (I := fun s ↦ s.RecordOwn ops)
    (Q := fun _ _ ↦ True) ?_ ?_ hkeeps h
  · exact hsound.2.1.1
  · rintro s p ⟨hrecord, hclear, rfl⟩
    exact ⟨hrecord, program_wp hrecord hclear⟩
  · rintro s t p hrecord ⟨hsame, hclear, rfl⟩
    have hrecord' : t.RecordOwn ops :=
      fun record hstored ↦ hrecord record (by rw [← hsame, hstored])
    exact ⟨hrecord', program_wp hrecord' hclear⟩

end Operations

/-! ## Two accounts on one machine -/

/-- The operations of an account whose configuration is under `/a`. -/
def sampleOperations : ServiceOperations where
  paths := ⟨"/a/config", "/a/state", "/a/logs", "/a/runtime"⟩
  name := "runner-manager"
  native := .unix
  canonicalize := fun _ ↦ none
  secretGuard := fun _ ↦ none
  version := "1"

/-- A registration of the account whose configuration is under a directory. -/
def registeredBy (directories : ServiceDirectories) : Held :=
  ⟨joinCommandLine "/bin/rm" ("service-run" :: directories.arguments), true⟩

def ownHeld : Held :=
  registeredBy (.of sampleOperations.paths)

def foreignHeld : Held :=
  registeredBy ⟨"/b/config", "/b/state", "/b/runtime", "/b/logs"⟩

/-- What this account asks for. -/
def bootRequest : InstallRequest where
  startMode := .boot
  binary := some "/bin/rm"
  sourceBinary := none
  arguments := "service-run" :: (ServiceDirectories.of sampleOperations.paths).arguments
  restart := .standard
  onDemand := false

/-- An operation over two registrations, before a record was written. -/
def heldState (boot login : Option Held) (current : ServiceOperation) : ServiceState where
  held
    | .boot => boot
    | .login => login
  record := none
  current

theorem foreignHeld_foreign : sampleOperations.foreignDirectories foreignHeld.commandLine =
    some ⟨"/b/config", "/b/state", "/b/runtime", "/b/logs"⟩ := by
  have hnamed : ServiceDirectories.fromCommandLine foreignHeld.commandLine =
      some ⟨"/b/config", "/b/state", "/b/runtime", "/b/logs"⟩ := by
    simp [ServiceDirectories.fromCommandLine, foreignHeld, registeredBy, splitCommandLine_quoted,
      optionValue, ServiceDirectories.arguments]
  have hother : sampleOperations.sameDirectory "/b/config" sampleOperations.paths.configDir =
      false := by decide
  rw [ServiceOperations.foreignDirectories, hnamed, Option.filter_some, hother]
  rfl

/-- A query of a registration that is this account's or another's. -/
def answered (mode : StartMode) (held : Held) : Except ServiceError (Option Registration) :=
  .ok (some ⟨mode, held.commandLine, held.running⟩)

theorem carriesOwn_of_named {arguments : List String}
    (hnamed : optionValue arguments "--service-config-dir" = some "/a/config") :
    sampleOperations.CarriesOwn arguments := by
  intro form hform config hconfig
  have hsame : form = arguments := by
    simpa [ServiceOperations.argumentForms, ServiceOperations.switchedArguments, sampleOperations]
      using hform
  rw [hsame, hnamed] at hconfig
  cases hconfig
  decide

theorem bootRequest_own : sampleOperations.CarriesOwn bootRequest.arguments := by
  refine carriesOwn_of_named ?_
  simp [optionValue, bootRequest, ServiceDirectories.arguments, ServiceDirectories.of,
    sampleOperations]

theorem ownHeld_own : sampleOperations.foreignDirectories ownHeld.commandLine = none :=
  ServiceOperations.foreignDirectories_own (by simp [ServiceOperations.NotOption]) bootRequest_own
    List.mem_cons_self

section Passes

variable {ops : ServiceOperations} {foreign own : Held} {directories : ServiceDirectories}

theorem uninstall_passes (hforeign : ops.foreignDirectories foreign.commandLine = some directories)
    (hown : ops.foreignDirectories own.commandLine = none) :
    ∃ next, (answeringContract ops).Reaches (ServiceState.Starts ops) (ServiceState.Opens ops)
      (heldState (some foreign) (some own) .uninstall) (.ask (.uninstall .login) next) := by
  let s := heldState (some foreign) (some own) .uninstall
  have h₀ : (answeringContract ops).Reaches (ServiceState.Starts ops) (ServiceState.Opens ops) s
      (ServiceOperation.uninstall.program _) :=
    .start ⟨fun _ h ↦ (nomatch h), trivial, rfl⟩
  have h₁ := h₀.advance .readRecord (.ok none) s rfl ⟨trivial, rfl, rfl⟩
  have h₂ := h₁.advance (.control .boot) (.ok ()) s rfl ⟨trivial, rfl⟩
  have h₃ := h₂.advance (.query .boot) (answered .boot foreign) s rfl ⟨trivial, rfl, rfl⟩
  have h₄ := h₃.advance (.control .login) (.ok ()) s
    (by
      simp only [answered, pure, bind, Program.andThen, Program.outcome, Program.ofExcept,
        hforeign, Option.bind_some]
      rfl) ⟨trivial, rfl⟩
  have h₅ := h₄.advance (.query .login) (answered .login own) s rfl ⟨trivial, rfl, rfl⟩
  simp only [answered, pure, bind, Program.andThen, Program.outcome, Program.ofExcept, hown,
    Option.bind_some] at h₅
  exact ⟨_, h₅⟩

theorem refuseForeign_passes
    (hforeign : ops.foreignDirectories foreign.commandLine = some directories)
    (hown : ops.foreignDirectories own.commandLine = none) {s start : ServiceState}
    (hboot : s.held .boot = some foreign) (hlogin : s.held .login = some own) {α β : Type}
    {p : ServiceProgram β} (operation : String) (next : Unit → ServiceProgram α)
    (last : α → ServiceProgram β)
    (h : (serviceContract ops).Runs p start
      ((ops.refuseForeign operation).andThen next |>.andThen last) s) :
    (serviceContract ops).Runs p start ((next ()).andThen last) s := by
  have hsees {mode : StartMode} {held : Held} (hheld : s.held mode = some held) :
      answered mode held = .ok (s.registration mode) := by
    rw [ServiceState.registration, hheld]
    rfl
  have h₁ := h.advance (.control .boot) (.ok ()) s rfl rfl
  have h₂ := h₁.advance (.query .boot) (answered .boot foreign) s rfl
    (by
      rw [hsees hboot]
      exact ⟨rfl, rfl⟩)
  have h₃ := h₂.advance (.control .login) (.ok ()) s
    (by
      simp only [answered, pure, bind, Program.andThen, Program.ofExcept, hforeign]
      rfl) rfl
  have h₄ := h₃.advance (.query .login) (answered .login own) s rfl
    (by
      rw [hsees hlogin]
      exact ⟨rfl, rfl⟩)
  simp only [answered, pure, Program.andThen, Program.outcome, Program.ofExcept, hown,
    Option.filter_some, Option.isNone_none, if_true] at h₄
  exact h₄

end Passes

/-- An uninstall passes the foreign registration by and comes to its own. -/
theorem own_uninstalled : ∃ next, (answeringContract sampleOperations).Reaches
      (ServiceState.Starts sampleOperations) (ServiceState.Opens sampleOperations)
      (heldState (some foreignHeld) (some ownHeld) .uninstall) (.ask (.uninstall .login) next) ∧
    ¬ (heldState (some foreignHeld) (some ownHeld) .uninstall).Foreign sampleOperations .login := by
  obtain ⟨next, hreached⟩ := uninstall_passes foreignHeld_foreign ownHeld_own
  exact ⟨next, hreached, foreign_untouched hreached .login rfl⟩

/-- What an install of the account's own login registration left. -/
def loginRecord : InstallRecord :=
  sampleOperations.recordOf
    { sampleOperations.resolvePlan bootRequest "/bin/rm" with startMode := .login }
    ⟨"systemd", none⟩ 0

/-- The account's own login registration, beside a foreign one at boot. -/
def besideForeign (current : ServiceOperation) : ServiceState :=
  { heldState (some foreignHeld) (some ownHeld) current with record := some loginRecord }

theorem besideForeign_foreign (current : ServiceOperation) :
    (besideForeign current).Foreign sampleOperations .boot :=
  ⟨foreignHeld, rfl, by rw [foreignHeld_foreign]; rfl⟩

/-- Where the boot registration is foreign and the login one is this account's, an install at boot
deregisters the foreign one, and a switch to boot registers over it. An uninstall whose query of the
boot domain fails deregisters it as well. -/
theorem foreign_replaced :
    (∃ next, (serviceContract sampleOperations).Runs
      ((ServiceOperation.install bootRequest).program sampleOperations)
      (besideForeign (.install bootRequest)) (.ask (.uninstall .boot) next)
      (besideForeign (.install bootRequest))) ∧
    (∃ plan next, (serviceContract sampleOperations).Runs
      ((ServiceOperation.setStartMode .boot).program sampleOperations)
      (besideForeign (.setStartMode .boot)) (.ask (.install .boot plan) next)
      (besideForeign (.setStartMode .boot))) ∧
    (∃ next, (serviceContract sampleOperations).Runs
      (ServiceOperation.uninstall.program sampleOperations)
      (besideForeign .uninstall) (.ask (.uninstall .boot) next) (besideForeign .uninstall)) ∧
    ∀ current, (besideForeign current).RecordOwn sampleOperations ∧
      (besideForeign current).Foreign sampleOperations .boot ∧
      (besideForeign current).Own sampleOperations .login := by
  refine ⟨?_, ?_, ?_, fun current ↦ ⟨?_, besideForeign_foreign current, ownHeld, rfl, ownHeld_own⟩⟩
  · let s := besideForeign (.install bootRequest)
    have h₀ := Contract.Runs.cut (C := serviceContract sampleOperations)
      ((ServiceOperation.install bootRequest).program sampleOperations) s
    have h₁ := h₀.advance .createAll (.ok ()) s rfl rfl
    have h₂ := h₁.advance .lock (.ok ()) s rfl rfl
    simp only [pure, bind, Program.andThen, Program.ofExcept] at h₂
    have h₃ := refuseForeign_passes foreignHeld_foreign ownHeld_own rfl rfl _ _ _ h₂
    have h₄ := h₃.advance (.control .boot) (.ok ()) s rfl rfl
    have h₅ := h₄.advance (.query .boot) (answered .boot foreignHeld) s rfl ⟨rfl, rfl⟩
    have h₆ := h₅.advance (.locateBinary (some "/bin/rm")) (.ok "/bin/rm") s rfl
      ⟨by simp [ServiceOperations.NotOption], rfl⟩
    have h₇ := h₆.advance (.control .boot) (.ok ()) s rfl rfl
    have h₈ := h₇.advance (.prepareRunnerRoot .boot) (.ok ()) s rfl rfl
    have h₉ := h₈.advance .readRecord (.ok (some loginRecord)) s rfl ⟨rfl, rfl⟩
    exact ⟨_, h₉⟩
  · let s := besideForeign (.setStartMode .boot)
    have h₀ := Contract.Runs.cut (C := serviceContract sampleOperations)
      ((ServiceOperation.setStartMode .boot).program sampleOperations) s
    have h₁ := h₀.advance .readRecord (.ok (some loginRecord)) s rfl ⟨rfl, rfl⟩
    have h₂ := refuseForeign_passes foreignHeld_foreign ownHeld_own rfl rfl
      "switch the start mode of"
      (fun _ ↦ sampleOperations.switchPlanned loginRecord .boot) (fun _ ↦ .done (.ok ())) h₁
    have h₃ := h₂.advance (.control .boot) (.ok ()) s rfl rfl
    have h₄ := h₃.advance (.control .login) (.ok ()) s rfl rfl
    have h₅ := h₄.advance (.prepareRunnerRoot .boot) (.ok ()) s rfl rfl
    exact ⟨_, _, h₅⟩
  · let s := besideForeign .uninstall
    have h₀ := Contract.Runs.cut (C := serviceContract sampleOperations)
      (ServiceOperation.uninstall.program sampleOperations) s
    have h₁ := h₀.advance .readRecord (.ok (some loginRecord)) s rfl ⟨rfl, rfl⟩
    have h₂ := h₁.advance (.control .boot) (.ok ()) s rfl rfl
    have h₃ := h₂.advance (.query .boot) (.error (.control "query" "timed out")) s rfl rfl
    exact ⟨_, h₃⟩
  · intro record hrecord
    cases hrecord
    exact ⟨by simp [ServiceOperations.NotOption, loginRecord, ServiceOperations.recordOf,
      ServiceOperations.resolvePlan], bootRequest_own⟩

end RunnerManager.Platform
