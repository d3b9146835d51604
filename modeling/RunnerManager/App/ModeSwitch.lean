import RunnerManager.App.ServiceInstall

/-!
# Switching the start mode

`service install --start-at` builds a registration out of its request, and `set_start_mode` builds
one out of the record. `switched_as_installed` says when a sequence of switches leaves what an
install in the last mode leaves: exactly when no call names another mode than that of the first
install. Read `switched` first: a switch forgets where the binary was copied from. Off Windows that
is all that it loses, as `switched_but_source` says; on Windows it also keeps the binary and the
arguments of the other mode, although a service that starts at login runs a supervisor.
-/

namespace RunnerManager.App

open RunnerManager.Domain RunnerManager.Platform
open Contract (wp_of_map wp_outcome_seq wp_runs wp_seq wp_trivial)

/-! ## The two ways -/

/-- What both ways meet: the absolute form of a path, and what the manager of a mode renders. -/
structure Rendering where
  absolute : String → String
  definition : StartMode → ServiceDefinition

/-- The answers in which the two appear. -/
def Rendering.Gives (rendering : Rendering) : (c : ServiceCall) → c.Answer → Prop
  | .install mode _, .ok definition => definition = rendering.definition mode
  | .locateBinary (some named), .ok binary => binary = rendering.absolute named
  | _, _ => True

/-- The machine, where the two do not change. -/
def renderingContract (rendering : Rendering) (unreadable : Bool) :
    Contract ServiceCall ServiceCall.Answer ServiceState :=
  (managersContract unreadable).assuming fun _ c answer ↦ rendering.Gives c answer

section Ways

variable (ops : ServiceOperations) (rendering : Rendering) (unreadable : Bool) (source : String)

/-- The private copies, at their places. -/
def placedCopies (mode : StartMode) : Swapped where
  owned := ⟨(placeOf ops source).path, none⟩
  supervisor :=
    if supervised ops mode then some ⟨(placeOf ops (supervisorOf ops source)).path, none⟩ else none

/-- The request of `install_from`. -/
def installRequest (mode : StartMode) : InstallRequest :=
  (placedCopies ops source mode).request ops source mode

/-- The plan that the request resolves to. -/
def installedPlan (mode : StartMode) : InstallPlan :=
  let copies := placedCopies ops source mode
  ops.resolvePlan (installRequest ops source mode)
    (rendering.absolute (copies.supervisor.getD copies.owned).path)

def installedRecord (mode : StartMode) (at_ : Timestamp) : InstallRecord :=
  ops.recordOf (installedPlan ops rendering source mode) (rendering.definition mode) at_

/-- The record after `set_start_mode`. -/
def switched (record : InstallRecord) (mode : StartMode) : InstallRecord :=
  if record.startMode = mode then record
  else
    ops.recordOf (ops.recordedPlan record mode (ops.switchedArguments record.arguments mode))
      (rendering.definition mode) record.installedAt

/-- A successful `service install --start-at`. -/
def Installs (mode : StartMode) (s t : ServiceState) : Prop :=
  ∃ installed, (renderingContract rendering unreadable).Runs
    (ops.install (installRequest ops source mode)) s (.done (.ok installed)) t

/-- A sequence of successful calls of `set_start_mode`. -/
inductive Switches : ServiceState → List StartMode → ServiceState → Prop
  | done (s : ServiceState) : Switches s [] s
  | call {mode : StartMode} {modes : List StartMode} {s t u : ServiceState}
      (change : ServiceOperations.StartModeChange)
      (hcall : (renderingContract rendering unreadable).Runs (ops.setStartMode mode) s
        (.done (.ok change)) t)
      (hrest : Switches t modes u) : Switches s (mode :: modes) u

end Ways

/-- Records that differ in their time and version at most. -/
def SameRecord (left right : InstallRecord) : Prop :=
  { left with installedAt := right.installedAt, installedByVersion := right.installedByVersion } =
    right

/-- The same registration in a domain, and the same record. -/
structure SameService (mode : StartMode) (s t : ServiceState) : Prop where
  commandLine : (s.held mode).map Held.commandLine = (t.held mode).map Held.commandLine
  record : ∃ left right, s.record = some left ∧ t.record = some right ∧ SameRecord left right

/-! ## What one operation leaves -/

section Leaves

variable {ops : ServiceOperations} {rendering : Rendering} {unreadable : Bool} {source : String}
  {mode : StartMode} {s : ServiceState}

theorem installOwnedCopy_path : Contract.Returns (installOwnedCopy ops source)
    fun copy ↦ copy.path = (placeOf ops source).path := by
  have hcopy (copy : OwnedCopy) (hpath : copy.path = (placeOf ops source).path) :
      Contract.Returns (installOwnedCopy.copyBinary source copy)
        fun copy ↦ copy.path = (placeOf ops source).path := by
    refine ⟨trivial, fun answer _ _ ↦ ?_⟩
    cases answer with
    | ok _ => exact Contract.returns_pure hpath
    | error detail =>
      show Contract.Returns (copy.restore >>= fun _ ↦ .fail _) _
      exact Contract.returns_bind (Contract.returns_trivial _) fun _ _ ↦
        Contract.returns_fail _ _
  refine ⟨trivial, fun made _ _ ↦ ?_⟩
  cases made with
  | error detail => exact Contract.returns_fail _ _
  | ok _ =>
    refine ⟨trivial, fun there _ _ ↦ ?_⟩
    cases there with
    | false => exact hcopy _ rfl
    | true =>
      refine ⟨trivial, fun _ _ _ ↦ ⟨trivial, fun moved _ _ ↦ ?_⟩⟩
      cases moved with
      | error detail => exact Contract.returns_fail _ _
      | ok _ => exact hcopy _ rfl

theorem swapCopies_request : Contract.Returns (swapCopies ops source mode) fun swapped ↦
    swapped.request ops source mode = installRequest ops source mode := by
  refine Contract.returns_bind installOwnedCopy_path fun owned howned ↦ ?_
  cases hsupervised : supervised ops mode with
  | false =>
    refine Contract.returns_pure ?_
    simp [installRequest, placedCopies, Swapped.request, hsupervised, howned]
  | true =>
    have hsupervisor : Contract.Returns (installOwnedCopy ops (supervisorOf ops source))
        fun copy ↦ copy.path = (placeOf ops (supervisorOf ops source)).path :=
      installOwnedCopy_path
    refine wp_outcome_seq hsupervisor fun result _ hresult ↦ ?_
    cases result with
    | error e =>
      exact Contract.returns_bind (Contract.returns_trivial _) fun _ _ ↦
        Contract.returns_fail _ _
    | ok supervisor =>
      refine Contract.returns_pure ?_
      simp [installRequest, placedCopies, Swapped.request, hsupervised, howned,
        hresult supervisor rfl]

def OnSuccess {α : Type} (after : ServiceState → Prop) :
    Except ServiceError α → ServiceState → Prop
  | .ok _, t => after t
  | .error _, _ => True

/-- The record, and a registration of what it names. -/
def Leaves (s : ServiceState) (record : InstallRecord) : Prop :=
  s.record = some record ∧ ∃ running, s.held record.startMode =
    some ⟨joinCommandLine record.binary record.arguments, running⟩

theorem of_managers {α : Type} {p : ServiceProgram α}
    {Q : Except ServiceError α → ServiceState → Prop}
    (h : (managersContract unreadable).wp p Q s) :
    (renderingContract rendering unreadable).wp p Q s :=
  wp_of_map (D := renderingContract rendering unreadable) id (fun _ _ _ ↦ trivial)
    (fun _ _ _ _ hstep ↦ hstep.2) h

theorem skip {α β : Type} {p : ServiceProgram α} {f : α → ServiceProgram β}
    {after : ServiceState → Prop}
    (hf : ∀ value t, (renderingContract rendering unreadable).wp (f value) (OnSuccess after) t) :
    (renderingContract rendering unreadable).wp (p >>= f) (OnSuccess after) s := by
  refine wp_seq (wp_trivial (fun _ _ ↦ trivial) p) (fun value t _ ↦ hf value t)
    fun _ _ _ ↦ trivial

theorem controlInstall_renders (plan : InstallPlan) :
    (renderingContract rendering unreadable).wp (controlInstall mode plan)
      (Effect s fun definition t ↦ definition = rendering.definition mode ∧
        t = s.put mode (some ⟨plan.commandLine, false⟩)) s := by
  refine ⟨trivial, fun answer t hstep ↦ ?_⟩
  cases answer with
  | ok _ => exact ⟨hstep.1, hstep.2.2⟩
  | error _ => exact hstep.2.2

theorem failUndone_fails {α : Type} {undo : ServiceProgram Unit} {operation : String}
    {cause : ServiceError} {after : ServiceState → Prop} :
    (renderingContract rendering unreadable).wp
      (ops.failUndone undo operation cause : ServiceProgram α) (OnSuccess after) s :=
  skip fun _ _ ↦ skip fun _ _ ↦ trivial

theorem registerPlanned_leaves (existing : ServiceOperations.Existing) (plan : InstallPlan)
    (previous : Option InstallRecord) : (renderingContract rendering unreadable).wp
      (ServiceOperations.installPlanned.registerPlanned ops existing plan previous)
      (OnSuccess fun t ↦ ∃ at_, Leaves t
        (ops.recordOf plan (rendering.definition plan.startMode) at_)) s := by
  refine wp_outcome_seq (controlInstall_renders plan) fun installed t ht ↦ ?_
  cases installed with
  | error cause => exact failUndone_fails
  | ok definition =>
    obtain ⟨rfl, rfl⟩ := ht
    refine ⟨trivial, fun at_ t hnow ↦ ?_⟩
    obtain rfl : t = _ := hnow.2.2
    refine wp_outcome_seq (of_managers (writeRecord_effect _)) fun written t ht ↦ ?_
    cases written with
    | error cause => exact failUndone_fails
    | ok _ =>
      obtain rfl : t = _ := ht
      refine wp_outcome_seq (of_managers (controlStart_effect
        (ServiceState.held_put s plan.startMode _))) fun started t ht ↦ ?_
      cases started with
      | error cause => exact failUndone_fails
      | ok _ =>
        obtain rfl : t = _ := ht
        exact ⟨at_, rfl, true, ServiceState.held_put _ _ _⟩

theorem install_leaves : (renderingContract rendering unreadable).wp
    (ops.install (installRequest ops source mode))
    (OnSuccess fun t ↦ ∃ at_, Leaves t (installedRecord ops rendering source mode at_)) s := by
  refine skip fun _ _ ↦ skip fun _ _ ↦ skip fun _ _ ↦ skip fun existing _ ↦ ?_
  refine ⟨trivial, fun binary t hstep ↦ ?_⟩
  cases binary with
  | error e => trivial
  | ok binary =>
    obtain rfl := show binary = _ from hstep.1
    show (renderingContract rendering unreadable).wp (control mode >>= fun _ ↦
      prepareRunnerRoot mode >>= fun _ ↦
        ops.installPlanned existing (installedPlan ops rendering source mode)) _ t
    refine skip fun _ _ ↦ skip fun _ _ ↦ skip fun previous _ ↦ ?_
    cases existing.replacing with
    | false => exact registerPlanned_leaves _ (installedPlan ops rendering source mode) _
    | true =>
      refine wp_outcome_seq (R := fun _ _ ↦ True)
        (wp_trivial (C := renderingContract rendering unreadable)
          (fun _ _ ↦ trivial) _) fun removed _ _ ↦ ?_
      cases removed with
      | error cause => exact failUndone_fails
      | ok _ => exact registerPlanned_leaves _ (installedPlan ops rendering source mode) _

theorem leaveMode_leaves {record : InstallRecord} (hmode : record.startMode ≠ mode)
    {new : InstallRecord} (hnew : new.startMode = mode) (hleft : Leaves s new) :
    (renderingContract rendering unreadable).wp
      (ServiceOperations.switchPlanned.leaveMode ops record mode)
      (OnSuccess fun t ↦ Leaves t new) s := by
  obtain ⟨hrecord, running, hheld⟩ := hleft
  refine wp_outcome_seq (of_managers controlUninstall_effect) fun left t ht ↦ ?_
  cases left with
  | error cause => exact skip fun _ _ ↦ skip fun _ _ ↦ skip fun _ _ ↦ trivial
  | ok _ =>
    obtain ⟨-, rfl⟩ := ht
    refine ⟨hrecord, running, ?_⟩
    rw [← hheld, hnew]
    exact Function.update_of_ne (Ne.symm hmode) _ _

/-- A switch leaves the record that it was planned from, switched. -/
theorem setStartMode_leaves {record : InstallRecord} (hleft : Leaves s record) :
    (renderingContract rendering unreadable).wp (ops.setStartMode mode)
      (OnSuccess fun t ↦ Leaves t (switched ops rendering record mode)) s := by
  refine wp_seq (of_managers readRecord_effect) (fun read t ht ↦ ?_) fun _ _ _ ↦ trivial
  obtain ⟨rfl, rfl⟩ := ht
  rw [hleft.1]
  show (renderingContract rendering unreadable).wp (if record.startMode = mode then _ else _) _ t
  unfold switched
  split_ifs with hmode
  · exact hleft
  refine skip fun _ _ ↦ skip fun _ _ ↦ skip fun _ _ ↦ skip fun _ u ↦ ?_
  refine wp_outcome_seq (controlInstall_renders _) fun installed v hv ↦ ?_
  cases installed with
  | error cause => exact failUndone_fails
  | ok definition =>
    obtain ⟨rfl, rfl⟩ := hv
    refine wp_outcome_seq (of_managers (writeRecord_effect _)) fun written w hw ↦ ?_
    cases written with
    | error cause => exact skip fun _ _ ↦ skip fun _ _ ↦ trivial
    | ok _ =>
      obtain rfl : w = _ := hw
      exact leaveMode_leaves hmode rfl ⟨rfl, false, ServiceState.held_put u mode _⟩

/-! ## What a sequence leaves -/

theorem switches_leave {modes : List StartMode} {t : ServiceState} {record : InstallRecord}
    (hswitches : Switches ops rendering unreadable s modes t) (hleft : Leaves s record) :
    Leaves t (modes.foldl (switched ops rendering) record) := by
  induction hswitches generalizing record with
  | done s => exact hleft
  | call change hcall _ ih => exact ih (wp_runs (setStartMode_leaves hleft) hcall)

@[simp]
theorem switched_startMode (record : InstallRecord) :
    (switched ops rendering record mode).startMode = mode := by
  unfold switched
  split_ifs with hmode
  · exact hmode
  · rfl

theorem foldl_startMode (modes : List StartMode) (record : InstallRecord) :
    (modes.foldl (switched ops rendering) record).startMode = modes.getLastD record.startMode := by
  induction modes generalizing record with
  | nil => rfl
  | cons mode rest ih =>
    rw [List.foldl_cons, ih, switched_startMode]
    cases rest <;> rfl

theorem foldl_sourceBinary (modes : List StartMode) (record : InstallRecord) :
    (modes.foldl (switched ops rendering) record).sourceBinary =
      if ∀ mode ∈ modes, mode = record.startMode then record.sourceBinary else none := by
  induction modes generalizing record with
  | nil => simp
  | cons mode rest ih =>
    rw [List.foldl_cons, ih, switched_startMode]
    by_cases hmode : record.startMode = mode
    · simp [switched, hmode]
    · have hlost : (switched ops rendering record mode).sourceBinary = none := by
        rw [switched, if_neg hmode]
        rfl
      simp [hlost, Ne.symm hmode]

theorem foldl_same {modes : List StartMode} {record : InstallRecord}
    (hsame : ∀ mode ∈ modes, mode = record.startMode) :
    modes.foldl (switched ops rendering) record = record := by
  induction modes with
  | nil => rfl
  | cons mode rest ih =>
    rw [List.foldl_cons, switched, if_pos (hsame mode List.mem_cons_self).symm]
    exact ih fun mode hmode ↦ hsame mode (List.mem_cons_of_mem _ hmode)

/-- Off Windows a switch changes an installed record to that of the other mode, but for where the
binary was copied from. -/
theorem switched_but_source (hnative : ops.native = .unix) {current : StartMode}
    {record : InstallRecord} {at_ : Timestamp} {from_ : Option String}
    (hrecord : record = { installedRecord ops rendering source current at_ with
      sourceBinary := from_ }) :
    ∃ from_, switched ops rendering record mode =
      { installedRecord ops rendering source mode at_ with sourceBinary := from_ } := by
  subst hrecord
  unfold switched
  split_ifs with hmode
  · obtain rfl : current = mode := hmode
    exact ⟨from_, rfl⟩
  · refine ⟨none, ?_⟩
    have hplain (mode : StartMode) : supervised ops mode = false := by simp [supervised, hnative]
    simp [installedRecord, installedPlan, installRequest, placedCopies, Swapped.request, hplain,
      ServiceOperations.recordOf, ServiceOperations.recordedPlan, ServiceOperations.resolvePlan,
      ServiceOperations.switchedArguments, daemonArguments, hnative, RestartPolicy.ofSeconds,
      RestartPolicy.standard]

theorem switches_but_source (hnative : ops.native = .unix) {first : StartMode}
    (modes : List StartMode) {record : InstallRecord} {at_ : Timestamp} {from_ : Option String}
    (hrecord : record = { installedRecord ops rendering source first at_ with
      sourceBinary := from_ }) :
    ∃ from_, modes.foldl (switched ops rendering) record =
      { installedRecord ops rendering source (modes.getLastD first) at_ with
        sourceBinary := from_ } := by
  induction modes generalizing first from_ record with
  | nil => exact ⟨from_, hrecord⟩
  | cons mode rest ih =>
    obtain ⟨next, hnext⟩ := @switched_but_source _ _ _ mode hnative _ _ _ _ hrecord
    obtain ⟨last, hlast⟩ := ih hnext
    refine ⟨last, ?_⟩
    rw [List.foldl_cons, hlast]
    cases rest <;> rfl

end Leaves

/-! ## Against an install -/

/-- A sequence of switches leaves what an install in its last mode leaves, exactly if no call names
another mode than the one of the first install. -/
theorem switched_as_installed {ops : ServiceOperations} {rendering : Rendering} {unreadable : Bool}
    {source : String} {first : StartMode} {modes : List StartMode} {s t u v w : ServiceState}
    (hinstalled : Installs ops rendering unreadable source first s t)
    (hswitched : Switches ops rendering unreadable t modes u)
    (hdirect : Installs ops rendering unreadable source (modes.getLastD first) v w) :
    SameService (modes.getLastD first) u w ↔ ∀ mode ∈ modes, mode = first := by
  obtain ⟨_, hruns⟩ := hinstalled
  obtain ⟨at_, hleft⟩ := wp_runs install_leaves hruns
  obtain ⟨_, hruns⟩ := hdirect
  obtain ⟨later, hright⟩ := wp_runs install_leaves hruns
  have hlast := switches_leave hswitched hleft
  constructor
  · rintro ⟨-, left, right, hl, hr, hsame⟩
    rw [hlast.1] at hl
    rw [hright.1] at hr
    cases hl
    cases hr
    have hsource : (modes.foldl (switched ops rendering) _).sourceBinary = some source :=
      congrArg InstallRecord.sourceBinary hsame
    rw [foldl_sourceBinary] at hsource
    by_contra hother
    cases (if_neg hother).symm.trans hsource
  · intro hall
    have hmode : modes.getLastD first = first := by
      have hkept : (modes.foldl (switched ops rendering)
          (installedRecord ops rendering source first at_)).startMode = modes.getLastD first :=
        foldl_startMode modes _
      rw [foldl_same hall] at hkept
      exact hkept.symm
    rw [foldl_same hall] at hlast
    rw [hmode] at hright ⊢
    obtain ⟨running, hheld⟩ := hlast.2
    obtain ⟨running', hheld'⟩ := hright.2
    refine ⟨?_, _, _, hlast.1, hright.1, rfl⟩
    rw [show u.held first = _ from hheld, show w.held first = _ from hheld']
    rfl

/-- Off Windows a sequence of switches leaves what an install in its last mode leaves, and forgets
nothing but where the binary was copied from. -/
theorem switches_lose_source {ops : ServiceOperations} {rendering : Rendering} {unreadable : Bool}
    {source : String} {first : StartMode} {modes : List StartMode} {s t u v w : ServiceState}
    (hnative : ops.native = .unix) (hinstalled : Installs ops rendering unreadable source first s t)
    (hswitched : Switches ops rendering unreadable t modes u)
    (hdirect : Installs ops rendering unreadable source (modes.getLastD first) v w) :
    (u.held (modes.getLastD first)).map Held.commandLine =
        (w.held (modes.getLastD first)).map Held.commandLine ∧
      ∃ left right, u.record = some left ∧ w.record = some right ∧
        SameRecord { left with sourceBinary := right.sourceBinary } right := by
  obtain ⟨_, hruns⟩ := hinstalled
  obtain ⟨at_, hleft⟩ := wp_runs install_leaves hruns
  obtain ⟨_, hruns⟩ := hdirect
  obtain ⟨later, hright⟩ := wp_runs install_leaves hruns
  have hlast := switches_leave hswitched hleft
  obtain ⟨from_, hswitches⟩ := switches_but_source hnative modes
    (rfl : installedRecord ops rendering source first at_ = _)
  rw [hswitches] at hlast
  obtain ⟨running, hheld⟩ := hlast.2
  obtain ⟨running', hheld'⟩ := hright.2
  refine ⟨?_, _, _, hlast.1, hright.1, rfl⟩
  rw [show u.held (modes.getLastD first) = _ from hheld,
    show w.held (modes.getLastD first) = _ from hheld']
  rfl

/-- A path is absolute, and every manager is called by one name. -/
def sampleRendering : Rendering :=
  ⟨id, fun _ ↦ ⟨"systemd", none⟩⟩

theorem fresh_installs (mode : StartMode) : ∃ t, Installs sampleOperations sampleRendering false
    sampleSource mode freshMachine.service t := by
  let plan := installedPlan sampleOperations sampleRendering sampleSource mode
  have hbinary : ServiceOperations.NotOption plan.binary := by
    cases mode <;> simp [ServiceOperations.NotOption, plan] <;> decide
  refine ⟨_, _,
    .step (.ok ()) ⟨trivial, trivial, rfl⟩ <|
    .step (.ok ()) ⟨trivial, trivial, rfl⟩ <|
    -- Whose registration there is, and whether there is one.
    .step (.ok ()) ⟨trivial, trivial, rfl⟩ <| .step (.ok none) ⟨trivial, trivial, rfl, rfl⟩ <|
    .step (.ok ()) ⟨trivial, trivial, rfl⟩ <| .step (.ok none) ⟨trivial, trivial, rfl, rfl⟩ <|
    .step (.ok ()) ⟨trivial, trivial, rfl⟩ <| .step (.ok none) ⟨trivial, trivial, rfl, rfl⟩ <|
    .step (.ok ()) ⟨trivial, trivial, rfl⟩ <| .step (.ok none) ⟨trivial, trivial, rfl, rfl⟩ <|
    .step (.ok plan.binary) ⟨rfl, trivial, hbinary, rfl⟩ <|
    .step (.ok ()) ⟨trivial, trivial, rfl⟩ <| .step (.ok ()) ⟨trivial, trivial, rfl⟩ <|
    .step (.ok (sampleRendering.definition mode)) ⟨rfl, trivial, rfl⟩ <|
    .step 0 ⟨trivial, trivial, rfl⟩ <| .step (.ok ()) ⟨trivial, trivial, rfl⟩ <|
    .step (.ok ()) ⟨trivial, trivial, ⟨plan.commandLine, false⟩, ?_, rfl⟩ <| .cut _ _⟩
  exact ServiceState.held_put _ _ _

/-- A service of this account that starts at boot can be switched to the login. -/
theorem boot_switches {ops : ServiceOperations} {rendering : Rendering} {unreadable : Bool}
    {s : ServiceState} {record : InstallRecord} (hleft : Leaves s record)
    (hmode : record.startMode = .boot)
    (hown : ops.foreignDirectories (joinCommandLine record.binary record.arguments) = none) :
    ∃ t, Switches ops rendering unreadable s [.login] t := by
  obtain ⟨hrecord, running, hheld⟩ := hleft
  let found : Registration := ⟨.boot, joinCommandLine record.binary record.arguments, running⟩
  have hfound : s.registration .boot = some found := by
    rw [hmode] at hheld
    rw [ServiceState.registration, hheld]
    rfl
  have hread : (renderingContract rendering unreadable).Runs readRecord s
      (.done (.ok (some record))) s :=
    .step (.ok (some record)) ⟨trivial, trivial, hrecord.symm, rfl⟩ (.cut _ _)
  have hlooked : (renderingContract rendering unreadable).Runs ops.registrationForStatus s
      (.done (.ok (some (found, none)))) s := by
    refine .step (.ok ()) ⟨trivial, trivial, rfl⟩ <|
      .step (.ok (some found)) ⟨trivial, trivial, hfound.symm, rfl⟩ ?_
    dsimp only [Program.ofExcept, Program.andThen, Pure.pure, found]
    rw [hown]
    exact .cut _ _
  have hplanned : ∃ t change, (renderingContract rendering unreadable).Runs
      (ops.switchPlanned record .login) s (.done (.ok change)) t :=
    ⟨_, _, .step (.ok ()) ⟨trivial, trivial, rfl⟩ <| .step (.ok ()) ⟨trivial, trivial, rfl⟩ <|
      .step (.ok ()) ⟨trivial, trivial, rfl⟩ <|
      .step (.ok (rendering.definition .login)) ⟨rfl, trivial, rfl⟩ <|
      .step (.ok ()) ⟨trivial, trivial, rfl⟩ <| .step (.ok _) ⟨trivial, trivial, rfl, rfl⟩ <|
      .cut _ _⟩
  obtain ⟨t, change, hplanned⟩ := hplanned
  refine ⟨t, .call change (.seq hread ?_) (.done t)⟩
  show (renderingContract rendering unreadable).Runs (if record.startMode = .login then _ else _) s
    _ t
  rw [hmode]
  exact .seq (.seq hlooked (.cut _ _)) hplanned

/-- A command line that names the mode the service already has changes nothing. -/
theorem boot_kept : ∃ s t u,
    Installs sampleOperations sampleRendering false sampleSource .boot s t ∧
    Switches sampleOperations sampleRendering false t [.boot] u ∧ SameService .boot u t := by
  obtain ⟨t, installed, hruns⟩ := fresh_installs .boot
  have hinstalled : Installs sampleOperations sampleRendering false sampleSource .boot _ t :=
    ⟨installed, hruns⟩
  obtain ⟨at_, hrecord, -⟩ := wp_runs install_leaves hruns
  have hswitched : Switches sampleOperations sampleRendering false t [.boot] t :=
    .call _ (.step (.ok _) ⟨trivial, trivial, hrecord.symm, rfl⟩ (.cut _ _)) (.done t)
  refine ⟨_, t, t, hinstalled, hswitched, ?_⟩
  exact (switched_as_installed hinstalled hswitched hinstalled).mpr (by simp)

/-- A service of a login that was installed to start at boot. -/
theorem login_without_source : ∃ s t u v w,
    Installs sampleOperations sampleRendering false sampleSource .boot s t ∧
      Switches sampleOperations sampleRendering false t [.login] u ∧
      Installs sampleOperations sampleRendering false sampleSource .login v w ∧
      ∃ left right, u.record = some left ∧ w.record = some right ∧
        SameRecord { left with sourceBinary := right.sourceBinary } right := by
  obtain ⟨t, hinstalled⟩ := fresh_installs .boot
  obtain ⟨w, hdirect⟩ := fresh_installs .login
  obtain ⟨_, hruns⟩ := hinstalled
  obtain ⟨at_, hleft⟩ := wp_runs install_leaves hruns
  obtain ⟨u, hswitched⟩ : ∃ u, Switches sampleOperations sampleRendering false t [.login] u :=
    boot_switches hleft rfl samplePlan_own
  exact ⟨_, t, u, _, w, ⟨_, hruns⟩, hswitched, hdirect,
    (switches_lose_source rfl ⟨_, hruns⟩ hswitched hdirect).2⟩

/-- A service that is switched is not what an install in the other mode would have made. -/
theorem source_forgotten : ∃ s t u v w,
    Installs sampleOperations sampleRendering false sampleSource .boot s t ∧
      Switches sampleOperations sampleRendering false t [.login] u ∧
      Installs sampleOperations sampleRendering false sampleSource .login v w ∧
      ¬ SameService .login u w := by
  obtain ⟨t, hinstalled⟩ := fresh_installs .boot
  obtain ⟨w, hdirect⟩ := fresh_installs .login
  obtain ⟨_, hruns⟩ := hinstalled
  obtain ⟨at_, hleft⟩ := wp_runs install_leaves hruns
  obtain ⟨u, hswitched⟩ : ∃ u, Switches sampleOperations sampleRendering false t [.login] u :=
    boot_switches hleft rfl samplePlan_own
  obtain ⟨_, hruns'⟩ := hdirect
  obtain ⟨later, hright⟩ := wp_runs install_leaves hruns'
  refine ⟨_, t, u, _, w, ⟨_, hruns⟩, hswitched, ⟨_, hruns'⟩, ?_⟩
  rintro ⟨-, left, right, hl, hr, hsame⟩
  rw [(switches_leave hswitched hleft).1] at hl
  rw [hright.1] at hr
  cases hl
  cases hr
  cases congrArg InstallRecord.sourceBinary hsame

end RunnerManager.App
