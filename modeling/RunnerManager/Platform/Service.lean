import RunnerManager.Domain.Execution
import RunnerManager.Lib.Program
import RunnerManager.Platform.CommandLine
import RunnerManager.Platform.RunnerRoot

/-!
# Registering the service

`ServiceOperations` of `crates/platform/src/service.rs`: `install`, `uninstall`, `set_start_mode`,
`start` and `stop`, over the calls they make to the two service managers of a machine (one for each
start mode), to the install record and to the file system. Every step that fails after another has
taken effect has a compensation of its own. Read `install` and `setStartMode` first.

Texts of errors are kept as data: a failed rollback carries its cause and what was left behind.
The privilege review and the summary of the runner root are left out of the results.
-/

namespace RunnerManager.Platform

open RunnerManager.Domain RunnerManager.Text

/-! ## Directories -/

structure ServiceDirectories where
  config : String
  state : String
  runtime : String
  logs : String
deriving DecidableEq

/-- The value of an option on a command line: what follows its first occurrence. -/
def optionValue (arguments : List String) (option : String) : Option String :=
  (arguments.dropWhile (· ≠ option))[1]?

namespace ServiceDirectories

def of (paths : AppPaths) : ServiceDirectories where
  config := paths.configDir
  state := paths.stateDir
  runtime := paths.runtimeDir
  logs := paths.logsDir

def arguments (directories : ServiceDirectories) : List String :=
  ["--service-config-dir", directories.config, "--service-state-dir", directories.state,
    "--service-runtime-dir", directories.runtime, "--service-logs-dir", directories.logs]

def fromCommandLine (commandLine : String) : Option ServiceDirectories := do
  let arguments := splitCommandLine commandLine
  let config ← optionValue arguments "--service-config-dir"
  let state ← optionValue arguments "--service-state-dir"
  let runtime ← optionValue arguments "--service-runtime-dir"
  let logs ← optionValue arguments "--service-logs-dir"
  return ⟨config, state, runtime, logs⟩

end ServiceDirectories

/-! ## Plans, records and registrations -/

/-- `RestartPolicy`, in seconds. -/
structure RestartPolicy where
  delay : Nat
  resetAfter : Nat
  bounded : 1 ≤ delay ∧ delay ≤ 300 ∧ delay < resetAfter
deriving DecidableEq

/-- `RestartPolicy::default`. -/
def RestartPolicy.standard : RestartPolicy :=
  ⟨15, 600, by decide⟩

/-- `RestartPolicy::new(..).unwrap_or_default()`. -/
def RestartPolicy.ofSeconds (delay resetAfter : Nat) : RestartPolicy :=
  if h : 1 ≤ delay ∧ delay ≤ 300 ∧ delay < resetAfter then ⟨delay, resetAfter, h⟩ else .standard

inductive ServiceAccount where
  | localSystem
  | root
  | invokingUser
deriving DecidableEq

def ServiceAccount.forStartMode (native : PathPlatform) : StartMode → ServiceAccount
  | .boot => if native = .windows then .localSystem else .root
  | .login => .invokingUser

structure InstallRequest where
  startMode : StartMode
  binary : Option String
  sourceBinary : Option String
  arguments : List String
  restart : RestartPolicy
  onDemand : Bool

structure InstallPlan where
  name : String
  startMode : StartMode
  binary : String
  sourceBinary : Option String
  arguments : List String
  account : ServiceAccount
  restart : RestartPolicy
  directories : ServiceDirectories
  secretGuard : Option String
  onDemand : Bool
deriving DecidableEq

def InstallPlan.commandLine (plan : InstallPlan) : String :=
  joinCommandLine plan.binary plan.arguments

/-- The parts of a `ServiceDefinition` that are recorded. -/
structure ServiceDefinition where
  manager : String
  installPath : Option String
deriving DecidableEq

structure InstallRecord where
  serviceName : String
  manager : String
  startMode : StartMode
  account : ServiceAccount
  binary : String
  sourceBinary : Option String
  arguments : List String
  restartDelaySecs : Nat
  restartResetSecs : Nat
  logFile : String
  startsOnDemand : Bool
  definitionPath : Option String
  installedAt : Timestamp
  installedByVersion : String
  directories : ServiceDirectories
deriving DecidableEq

/-- What a service manager says of a registration, as far as the operations read it. -/
structure Registration where
  startMode : StartMode
  commandLine : String
  running : Bool
deriving DecidableEq

/-! ## Errors -/

/-- `ServiceError`. A failed rollback carries the error of the compensation, if that is what failed,
and what was left of the runner root. -/
inductive ServiceError where
  | paths (detail : String)
  | lockHeld (detail : String)
  | lockUnreadable (detail : String)
  | runnerRoot (detail : String)
  | binaryPath (detail : String)
  | binaryMissing (path : String)
  | alreadyInstalled (name : String) (existing requested : StartMode)
  | notInstalled (name operation : String)
  | record (operation detail : String)
  | recordUnreadable (detail : String)
  | recordNotPermitted (detail : String)
  | control (operation detail : String)
  | needsElevation (operation detail : String)
  | foreignInstallation (name operation : String) (directories : ServiceDirectories)
  | rollback (operation name : String) (cause : ServiceError) (failed : Option ServiceError)
      (retained : Option String)

def rolledBack (name : String) (retained : Option String) (undone : Except ServiceError Unit)
    (operation : String) (cause : ServiceError) : ServiceError :=
  match undone, retained with
  | .ok (), none => cause
  | .ok (), some retained => .rollback operation name cause none (some retained)
  | .error failed, retained => .rollback operation name cause (some failed) retained

/-! ## Calls -/

/-- What the operations ask of the machine. The calls of `ServiceControl` name the manager by its
start mode. -/
inductive ServiceCall where
  | createAll
  | lock
  | control (mode : StartMode)
  | query (mode : StartMode)
  | install (mode : StartMode) (plan : InstallPlan)
  | uninstall (mode : StartMode)
  | start (mode : StartMode)
  | stop (mode : StartMode)
  /-- The absolute path of the binary to register, which has to be a file. -/
  | locateBinary (named : Option String)
  | prepareRunnerRoot (mode : StartMode)
  /-- Undo the preparation, and say what could not be undone. -/
  | revertRunnerRoot
  | readRecord
  | writeRecord (record : InstallRecord)
  | removeRecord
  | now

abbrev ServiceCall.Answer : ServiceCall → Type
  | createAll | lock | control _ | start _ | prepareRunnerRoot _ | writeRecord _ =>
    Except ServiceError Unit
  | query _ => Except ServiceError (Option Registration)
  | install _ _ => Except ServiceError ServiceDefinition
  | uninstall _ | stop _ | removeRecord => Except ServiceError Bool
  | locateBinary _ => Except ServiceError String
  | revertRunnerRoot => Option String
  | readRecord => Except ServiceError (Option InstallRecord)
  | now => Timestamp

abbrev ServiceProgram := Program ServiceCall ServiceCall.Answer ServiceError

/-! One definition per call, whose error is the operation's. -/

def createAll : ServiceProgram Unit := do
  Program.ofExcept id (← Program.perform ServiceCall.createAll : Except ServiceError Unit)

/-- `refuse_while_an_agent_runs`. The lock is held to the end of the operation. -/
def refuseWhileAnAgentRuns : ServiceProgram Unit := do
  Program.ofExcept id (← Program.perform ServiceCall.lock : Except ServiceError Unit)

def control (mode : StartMode) : ServiceProgram Unit := do
  Program.ofExcept id (← Program.perform (ServiceCall.control mode) : Except ServiceError Unit)

def query (mode : StartMode) : ServiceProgram (Option Registration) := do
  Program.ofExcept id
    (← Program.perform (ServiceCall.query mode) : Except ServiceError (Option Registration))

def controlInstall (mode : StartMode) (plan : InstallPlan) : ServiceProgram ServiceDefinition := do
  Program.ofExcept id
    (← Program.perform (ServiceCall.install mode plan) : Except ServiceError ServiceDefinition)

def controlUninstall (mode : StartMode) : ServiceProgram Bool := do
  Program.ofExcept id (← Program.perform (ServiceCall.uninstall mode) : Except ServiceError Bool)

def controlStart (mode : StartMode) : ServiceProgram Unit := do
  Program.ofExcept id (← Program.perform (ServiceCall.start mode) : Except ServiceError Unit)

def controlStop (mode : StartMode) : ServiceProgram Bool := do
  Program.ofExcept id (← Program.perform (ServiceCall.stop mode) : Except ServiceError Bool)

def locateBinary (named : Option String) : ServiceProgram String := do
  Program.ofExcept id
    (← Program.perform (ServiceCall.locateBinary named) : Except ServiceError String)

def prepareRunnerRoot (mode : StartMode) : ServiceProgram Unit := do
  Program.ofExcept id
    (← Program.perform (ServiceCall.prepareRunnerRoot mode) : Except ServiceError Unit)

def retainedRunnerRoot : ServiceProgram (Option String) :=
  Program.perform ServiceCall.revertRunnerRoot

def readRecord : ServiceProgram (Option InstallRecord) := do
  Program.ofExcept id
    (← Program.perform ServiceCall.readRecord : Except ServiceError (Option InstallRecord))

def writeRecord (record : InstallRecord) : ServiceProgram Unit := do
  Program.ofExcept id
    (← Program.perform (ServiceCall.writeRecord record) : Except ServiceError Unit)

def removeRecord : ServiceProgram Bool := do
  Program.ofExcept id (← Program.perform ServiceCall.removeRecord : Except ServiceError Bool)

/-- A part that is asked for what it found, and nothing if it failed: `.ok().flatten()`. -/
def found? {α : Type} (part : ServiceProgram (Option α)) : ServiceProgram (Option α) := do
  match ← part.outcome with
  | .ok found => return found
  | .error _ => return none

/-! ## Whose registration it is -/

def otherMode : StartMode → StartMode
  | .boot => .login
  | .login => .boot

/-- The directories, name and machine `ServiceOperations` works for. -/
structure ServiceOperations where
  paths : AppPaths
  name : String
  native : PathPlatform
  /-- `std::fs::canonicalize`. -/
  canonicalize : String → Option String
  /-- The guard file of the secret store a start mode reads. -/
  secretGuard : StartMode → Option String
  version : String

namespace ServiceOperations

variable (ops : ServiceOperations)

def sameDirectory (left right : String) : Bool :=
  let text (path : String) : String :=
    String.ofList (path.toList.reverse.dropWhile (fun c ↦ c = '/' || c = '\\')).reverse
  (if ops.native = .windows then eqIgnoreAsciiCase (text left) (text right)
    else text left == text right)
    || match ops.canonicalize left, ops.canonicalize right with
      | some left, some right => left == right
      | _, _ => false

/-- `foreign_directories`, of a command line. -/
def foreignDirectories (commandLine : String) : Option ServiceDirectories :=
  (ServiceDirectories.fromCommandLine commandLine).filter fun directories ↦
    !ops.sameDirectory directories.config ops.paths.configDir

/-- The loop of `find_registration`. -/
def findRegistrationIn : List StartMode → ServiceProgram (Option Registration)
  | [] => return none
  | mode :: rest => do
    control mode
    match ← query mode with
    | some registration => return some registration
    | none => findRegistrationIn rest

/-- `find_registration`: the registration, in whichever domain holds it. -/
def findRegistration : ServiceProgram (Option Registration) :=
  findRegistrationIn [.boot, .login]

/-- The registration of a domain, if it can be asked for and is not foreign. -/
def ownRegistration (mode : StartMode) : ServiceProgram (Option Registration) := do
  let registration ← found? do
    control mode
    query mode
  return registration.filter fun registration ↦
    (ops.foreignDirectories registration.commandLine).isNone

def registrationForStatus :
    ServiceProgram (Option (Registration × Option ServiceDirectories)) := do
  match ← findRegistration with
  | none => return none
  | some found =>
    match ops.foreignDirectories found.commandLine with
    | none => return some (found, none)
    | some directories =>
      match ← ops.ownRegistration (otherMode found.startMode) with
      | some own => return some (own, none)
      | none => return some (found, some directories)

def refuseForeign (operation : String) : ServiceProgram Unit := do
  match ← ops.registrationForStatus with
  | some (_, some directories) => .fail (.foreignInstallation ops.name operation directories)
  | _ => return ()

def ownRegistrationMode (operation : String) : ServiceProgram StartMode := do
  match ← ops.registrationForStatus with
  | none => .fail (.notInstalled ops.name operation)
  | some (_, some directories) => .fail (.foreignInstallation ops.name operation directories)
  | some (registration, none) => return registration.startMode

def start : ServiceProgram Unit := do
  let mode ← ops.ownRegistrationMode "start"
  control mode
  controlStart mode

def stop : ServiceProgram Bool := do
  let mode ← ops.ownRegistrationMode "stop"
  control mode
  controlStop mode

/-! ## Installing -/

/-- `InstallPlan::resolve`, of a located binary. -/
def resolvePlan (request : InstallRequest) (binary : String) : InstallPlan where
  name := ops.name
  startMode := request.startMode
  binary
  sourceBinary := request.sourceBinary
  arguments := request.arguments
  account := .forStartMode ops.native request.startMode
  restart := request.restart
  directories := .of ops.paths
  secretGuard := ops.secretGuard request.startMode
  onDemand := request.onDemand

/-- `InstallPlan::unchecked` with the values of a record. It does not keep where the binary was
copied from. -/
def recordedPlan (record : InstallRecord) (mode : StartMode) (arguments : List String) :
    InstallPlan where
  name := ops.name
  startMode := mode
  binary := record.binary
  sourceBinary := none
  arguments
  account := .forStartMode ops.native mode
  restart := .ofSeconds record.restartDelaySecs record.restartResetSecs
  directories := record.directories
  secretGuard := ops.secretGuard mode
  onDemand := record.startsOnDemand

/-- `InstallRecord::plan`. -/
def planOf (record : InstallRecord) : InstallPlan :=
  ops.recordedPlan record record.startMode record.arguments

/-- `InstallRecord::of`. -/
def recordOf (plan : InstallPlan) (definition : ServiceDefinition) (at_ : Timestamp) :
    InstallRecord where
  serviceName := plan.name
  manager := definition.manager
  startMode := plan.startMode
  account := plan.account
  binary := plan.binary
  sourceBinary := plan.sourceBinary
  arguments := plan.arguments
  restartDelaySecs := plan.restart.delay
  restartResetSecs := plan.restart.resetAfter
  logFile := push ops.native plan.directories.logs "runner-manager.service.log".toList
  startsOnDemand := plan.onDemand
  definitionPath := definition.installPath
  installedAt := at_
  installedByVersion := ops.version
  directories := plan.directories

/-- What an install finds in its way. -/
structure Existing where
  replacing : Bool
  running : Bool

/-- The registration of the requested mode is replaced; one of the other mode is refused. -/
def existingFor (mode : StartMode) : ServiceProgram Existing := do
  match ← findRegistration with
  | none => return ⟨false, false⟩
  | some registration =>
    if registration.startMode = mode then return ⟨true, registration.running⟩
    else .fail (.alreadyInstalled ops.name registration.startMode mode)

/-- `reinstate`: put back a registration that was removed to be replaced. Without a record there is
nothing to put back. -/
def reinstate (mode : StartMode) (previous : Option InstallRecord) (wasRunning : Bool) :
    ServiceProgram Unit := do
  match previous with
  | none => return ()
  | some record =>
    let _ ← controlInstall mode (ops.planOf record)
    if wasRunning then controlStart mode else return ()

/-- Remove the new registration and put the old one back. -/
def replaceBack (mode : StartMode) (previous : Option InstallRecord) (wasRunning : Bool) :
    ServiceProgram Unit := do
  let _ ← controlUninstall mode
  ops.reinstate mode previous wasRunning

/-- Put the record back as it was read. -/
def restoreRecord : Option InstallRecord → ServiceProgram Unit
  | some previous => writeRecord previous
  | none => do
    let _ ← removeRecord
    return ()

/-- A step failed: undo, and fail with its cause or with what was left behind. -/
def failUndone {α : Type} (undo : ServiceProgram Unit) (operation : String)
    (cause : ServiceError) : ServiceProgram α := do
  let undone ← undo.outcome
  let retained ← retainedRunnerRoot
  .fail (rolledBack ops.name retained undone operation cause)

/-- What a successful install reports. -/
structure Installed where
  plan : InstallPlan
  definition : ServiceDefinition
  record : InstallRecord
  replacedExisting : Bool

/-- The record of what is replaced, if it can be read. -/
def previousRecord (existing : Existing) : ServiceProgram (Option InstallRecord) :=
  if existing.replacing then found? readRecord else return none

/-- `install`, from the plan on. -/
def installPlanned (existing : Existing) (plan : InstallPlan) : ServiceProgram Installed := do
  let previous ← previousRecord existing
  if existing.replacing then
    match ← (controlUninstall plan.startMode).outcome with
    | .ok _ => registerPlanned previous
    | .error cause => ops.failUndone (return ()) "install" cause
  else registerPlanned previous
where
  /-- Register the plan and write its record. -/
  registerPlanned (previous : Option InstallRecord) : ServiceProgram Installed := do
    match ← (controlInstall plan.startMode plan).outcome with
    | .error cause =>
      ops.failUndone (ops.reinstate plan.startMode previous existing.running) "install" cause
    | .ok definition =>
      let record := ops.recordOf plan definition (← Program.perform ServiceCall.now)
      match ← (writeRecord record).outcome with
      | .error cause =>
        ops.failUndone (ops.replaceBack plan.startMode previous existing.running) "install"
          cause
      | .ok () => startPlanned previous definition record
  /-- Start what was registered. -/
  startPlanned (previous : Option InstallRecord) (definition : ServiceDefinition)
      (record : InstallRecord) : ServiceProgram Installed := do
    match ← (controlStart plan.startMode).outcome with
    | .ok () => return ⟨plan, definition, record, existing.replacing⟩
    | .error cause =>
      ops.failUndone (do
        ops.replaceBack plan.startMode previous existing.running
        restoreRecord previous) "install and start" cause

def install (request : InstallRequest) : ServiceProgram Installed := do
  createAll
  refuseWhileAnAgentRuns
  ops.refuseForeign "replace"
  let existing ← ops.existingFor request.startMode
  let binary ← locateBinary request.binary
  let plan := ops.resolvePlan request binary
  control plan.startMode
  prepareRunnerRoot plan.startMode
  ops.installPlanned existing plan

/-! ## Removing and switching -/

/-- What an uninstall reports. -/
structure Uninstalled where
  removedRegistration : Bool
  removedRecord : Bool
  removedDefinition : Option String

/-- The loop of `uninstall`: whether a registration was removed, and the last foreign one seen. -/
def uninstallIn : List StartMode → (removed : Bool) → (foreign : Option ServiceDirectories) →
    ServiceProgram (Bool × Option ServiceDirectories)
  | [], removed, foreign => return (removed, foreign)
  | mode :: rest, removed, foreign => do
    control mode
    let registration ← found? (query mode)
    match registration.bind fun registration ↦
        ops.foreignDirectories registration.commandLine with
    | some directories => uninstallIn rest removed (some directories)
    | none =>
      let there ← controlUninstall mode
      uninstallIn rest (removed || there) foreign

def uninstall : ServiceProgram Uninstalled := do
  let record ← found? readRecord
  match ← ops.uninstallIn [.boot, .login] false none with
  | (false, some directories) =>
    .fail (.foreignInstallation ops.name "uninstall" directories)
  | (removed, _) =>
    let removedRecord ← removeRecord
    return ⟨removed, removedRecord,
      (record.bind (·.definitionPath)).filter fun _ ↦ removed⟩

/-- What a switch reports. -/
structure StartModeChange where
  source : StartMode
  target : StartMode
  changed : Bool

def windowsScmHostArgument : String := "--windows-service-host"

/-- The recorded arguments, for another start mode. -/
def switchedArguments (arguments : List String) (mode : StartMode) : List String :=
  if ops.native = .windows then
    arguments.filter (· ≠ windowsScmHostArgument)
      ++ (if mode = .boot then [windowsScmHostArgument] else [])
  else arguments

/-- `set_start_mode`, once no registration was found to be foreign. -/
def switchPlanned (record : InstallRecord) (mode : StartMode) : ServiceProgram StartModeChange := do
  let plan := ops.recordedPlan record mode (ops.switchedArguments record.arguments mode)
  control mode
  control record.startMode
  prepareRunnerRoot mode
  match ← (controlInstall mode plan).outcome with
  | .error cause => ops.failUndone (return ()) "switch start mode" cause
  | .ok definition =>
    match ← (writeRecord (ops.recordOf plan definition record.installedAt)).outcome with
    | .error cause => do
      let retained ← retainedRunnerRoot
      let undone ← (controlUninstall mode).outcome
      .fail (rolledBack ops.name retained (undone.map fun _ ↦ ()) "switch start mode" cause)
    | .ok () => leaveMode record mode
where
  /-- Only now is the old domain left. -/
  leaveMode (record : InstallRecord) (mode : StartMode) : ServiceProgram StartModeChange := do
    match ← (controlUninstall record.startMode).outcome with
    | .ok _ => return ⟨record.startMode, mode, true⟩
    | .error cause => do
      let removed ← (controlUninstall mode).outcome
      let restored ← (writeRecord record).outcome
      let retained ← retainedRunnerRoot
      .fail (rolledBack ops.name retained (removed.bind fun _ ↦ restored) "switch start mode"
        cause)

/-- `set_start_mode`, from a record that names the other mode. -/
def switchMode (record : InstallRecord) (mode : StartMode) : ServiceProgram StartModeChange := do
  ops.refuseForeign "switch the start mode of"
  ops.switchPlanned record mode

def setStartMode (mode : StartMode) : ServiceProgram StartModeChange := do
  match ← readRecord with
  | none => .fail (.notInstalled ops.name "switch the start mode of")
  | some record =>
    if record.startMode = mode then return ⟨record.startMode, mode, false⟩
    else ops.switchMode record mode

end ServiceOperations

end RunnerManager.Platform
