import RunnerManager.App.WorkspaceRoots
import RunnerManager.Domain.StoreClosure
import RunnerManager.Lib.Interleaving

/-!
# Editing the host row

The commands that read this machine's host row and write it back: `host set-capacity`,
`host set-poll-interval`, `service install`, `host set-runtime-root` and its reset, and the first
command of all, which creates the row. Each store call is one transaction and nothing is held
between two of them, so any number of processes may stand between a read and its write.

One column has a fenced write of its own; the other commands write the whole row they read with
one column changed. `no_lost_host_edit` says what survives where no such write carries a column
that has moved since the read, and `stale_row_written` shows what does not survive otherwise.
-/

namespace RunnerManager.App

open RunnerManager.Domain RunnerManager.Platform RunnerManager.Result
open Contract (wp_outcome_seq wp_seq)

/-! ## Edits -/

/-- A command's change to one column of the host row. -/
inductive HostEdit where
  | capacity (value : NonZeroU16)
  | refreshInterval (interval : RefreshInterval)
  | startMode (mode : StartMode)
  | runnerRoot (root : Option LocalAbsolutePath)
deriving DecidableEq

/-- The column an edit writes. -/
inductive HostField where
  | capacity
  | refreshInterval
  | startMode
  | runnerRoot
deriving DecidableEq

namespace HostEdit

def field : HostEdit → HostField
  | capacity _ => .capacity
  | refreshInterval _ => .refreshInterval
  | startMode _ => .startMode
  | runnerRoot _ => .runnerRoot

/-- The edit, on the copy a command holds. -/
def onHost (host : Host) : HostEdit → Host
  | .capacity value => { host with hostCapacity := value }
  | .refreshInterval interval => { host with refreshInterval := interval }
  | .startMode mode => { host with serviceStartMode := mode }
  | .runnerRoot root => { host with runnerRootOverride := root }

def onRow (row : HostRow) : HostEdit → HostRow
  | .capacity value => { row with hostCapacity := value }
  | .refreshInterval interval =>
    { row with refreshIntervalSecs := ⟨interval.val, interval.property.2⟩ }
  | .startMode mode => { row with serviceStartMode := mode }
  | .runnerRoot root => { row with runnerRootOverride := root.map (·.text) }

def HeldBy (edit : HostEdit) (row : HostRow) : Prop :=
  edit.onRow row = row

theorem hostParams_onHost (edit : HostEdit) (host : Host) :
    hostParams (edit.onHost host) = edit.onRow (hostParams host) := by
  cases edit <;> rfl

@[simp]
theorem onRow_id (edit : HostEdit) (row : HostRow) : (edit.onRow row).id = row.id := by
  cases edit <;> rfl

theorem heldBy_onRow (edit : HostEdit) (row : HostRow) : edit.HeldBy (edit.onRow row) := by
  cases edit <;> rfl

theorem HeldBy.onRow {edit other : HostEdit} {row : HostRow} (h : edit.HeldBy row)
    (hfield : other.field ≠ edit.field) : edit.HeldBy (other.onRow row) := by
  have hcomm : edit.onRow (other.onRow row) = other.onRow (edit.onRow row) := by
    cases edit <;> cases other <;> first | rfl | exact absurd rfl hfield
  rw [HeldBy, hcomm, h]

end HostEdit

/-! ## The commands -/

/-- What the commands ask of the store and of the rest of the machine. A whole-row write says which
edit it is for; the one without an edit creates the row. -/
inductive HostCall where
  | hosts
  | putHost (edit : Option HostEdit) (host : Host)
  | setRunnerRootOverride (id : HostId) (expected newRoot : Option LocalAbsolutePath)
      (expectedUncleaned : Nat)
  | uncleanedEphemeralAttempts
  | attempts
  | policies
  | recordAttempt (attempt : RunnerAttempt)
  | removeAttempt (id : AttemptId)
  /-- Read `config/polling.toml`. -/
  | idleInterval
  | setIdleInterval (interval : Nat)
  /-- Whether the projected polling fits this host's allowance. -/
  | fitsBudget (interval : RefreshInterval) (targets : List ScaleTarget)
  /-- Everything `service install` does between its read and its write of the row. -/
  | register (mode : StartMode)
  /-- The rollback of a registration. -/
  | deregister

abbrev HostCall.Answer : HostCall → Type
  | hosts => Except StoreError (List Host)
  | putHost .. | setRunnerRootOverride .. | recordAttempt _ | removeAttempt _ =>
    Except StoreError Unit
  | uncleanedEphemeralAttempts | attempts => Except StoreError (List RunnerAttempt)
  | policies => Except StoreError (List ScalePolicy)
  | idleInterval => Except String Nat
  | setIdleInterval _ | register _ | deregister => Except String Unit
  | fitsBudget .. => Bool

/-- Why a command fails. -/
inductive HostFailure where
  | workspace (source : WorkspaceFailure)
  | unsupportedHost
  | zeroCapacity
  | intervalInvalid (source : ValidationError)
  | idleAboveActive (idle active : Nat)
  | overBudget (interval : RefreshInterval)
  | idleNotStored (source : String)
  | notStored (source : StoreError)
  | activeNotStored (source : HostFailure) (idleWritten : Bool)
  | service (source : String)
  | modeNotStored (source : StoreError) (rollback : Option String)

abbrev HostProgram := Program HostCall HostCall.Answer HostFailure

section Commands

/-- The error of a store call that only reads. -/
def unreadable (source : StoreError) : HostFailure :=
  .workspace (.unreadable source)

/-- `local_host`. -/
def localHostCall : HostProgram (Option Host) := do
  let hosts ← Program.ofExcept unreadable
    (← Program.perform HostCall.hosts : Except StoreError (List Host))
  match hosts with
  | [] => return none
  | [host] => return some host
  | _ => .fail (.workspace (.severalHosts hosts.length))

/-- `put_host`. -/
def putHostCall (edit : Option HostEdit) (host : Host) (wrap : StoreError → HostFailure) :
    HostProgram Unit := do
  Program.ofExcept wrap (← Program.perform (HostCall.putHost edit host) : Except StoreError Unit)

/-- A new host with every default, and the default capacity of one. -/
def describedHost (seed : HostSeed) : Except ValidationError Host :=
  Host.new seed.id seed.displayName seed.os seed.architecture ⟨1, one_nonZero⟩ seed.now

/-- `create_local_host`. The seed is what the machine draws and detects, if it is supported. -/
def createLocalHostCall (seed : Option HostSeed) : HostProgram Host := do
  match seed with
  | none => .fail .unsupportedHost
  | some seed =>
    let host ← Program.ofExcept (HostFailure.workspace ∘ WorkspaceFailure.hostUndescribed)
      (describedHost seed)
    putHostCall none host (HostFailure.workspace ∘ WorkspaceFailure.hostUnrecorded)
    return host

/-- `local_host_or_create`. -/
def localHostOrCreateCall (seed : Option HostSeed) : HostProgram Host := do
  match ← localHostCall with
  | some host => return host
  | none => createLocalHostCall seed

/-- Read the row, change one column of the copy, and write the copy back. -/
def editHost (edit : HostEdit) (seed : Option HostSeed) (wrap : StoreError → HostFailure) :
    HostProgram Unit := do
  let host ← localHostOrCreateCall seed
  putHostCall (some edit) (edit.onHost host) wrap

/-- `host set-capacity`. The attempts are read for the report. -/
def setCapacity (capacity : {n : Nat // n < 2 ^ 16}) (seed : Option HostSeed) :
    HostProgram Unit := do
  if h : 0 < capacity.val then
    editHost (.capacity ⟨capacity.val, nonZeroU16_of h⟩) seed unreadable
    let _ ← Program.ofExcept unreadable
      (← Program.perform HostCall.attempts : Except StoreError (List RunnerAttempt))
    return ()
  else .fail .zeroCapacity

/-- `IdlePollInterval::from_secs`. -/
def idleFromSecs (secs : Nat) : Except ValidationError Nat :=
  if secs < 5 then .error (.belowFloor "idle poll interval (seconds)" 5 secs) else .ok secs

/-- The intervals `host set-poll-interval` starts from. -/
structure Intervals where
  active : RefreshInterval
  idle : Nat
  unreadable : Bool

def requestedActive (active : Option {n : Nat // n < 2 ^ 16}) (before : Intervals) :
    Except ValidationError RefreshInterval :=
  match active with
  | some secs => RefreshInterval.fromSecs secs.val secs.property
  | none => .ok before.active

def requestedIdle (idle : Option {n : Nat // n < 2 ^ 16}) (before : Intervals) :
    Except ValidationError Nat :=
  match idle with
  | some secs => idleFromSecs secs.val
  | none => .ok before.idle

/-- `configured`. An unreadable file stands for the default. -/
def configuredIntervals : HostProgram Intervals := do
  let host ← localHostCall
  let active := (host.map (·.refreshInterval)).getD ⟨60, sixty_interval⟩
  match (← Program.perform HostCall.idleInterval : Except String Nat) with
  | .ok idle => return ⟨active, idle, false⟩
  | .error _ => return ⟨active, 10, true⟩

/-- The targets that are priced; none when the policies cannot be read. -/
def pricedTargets : HostProgram (List ScaleTarget) := do
  match (← Program.perform HostCall.policies : Except StoreError (List ScalePolicy)) with
  | .ok policies => return policies.map (·.target)
  | .error _ => return []

/-- A shorter active interval has to fit the allowance. -/
def checkBudget (active before : RefreshInterval) (targets : List ScaleTarget) :
    HostProgram Unit := do
  if active.val < before.val then
    if ← (Program.perform (HostCall.fitsBudget active targets) : HostProgram Bool) then return ()
    else .fail (.overBudget active)
  else return ()

/-- The idle interval goes to its file. -/
def storeIdle (idle : Nat) (written : Bool) : HostProgram Unit := do
  if written then
    Program.ofExcept HostFailure.idleNotStored
      (← Program.perform (HostCall.setIdleInterval idle) : Except String Unit)
  else return ()

/-- The active interval goes to the host row, if it changes. -/
def storeActive (active before : RefreshInterval) (idleWritten : Bool) (seed : Option HostSeed) :
    HostProgram Unit := do
  if active = before then return ()
  else
    Program.ofExcept (HostFailure.activeNotStored · idleWritten)
      (← (editHost (.refreshInterval active) seed HostFailure.notStored).outcome)

/-- `host set-poll-interval`. -/
def setPollInterval (active idle : Option {n : Nat // n < 2 ^ 16}) (seed : Option HostSeed) :
    HostProgram Unit := do
  let before ← configuredIntervals
  let targets ← pricedTargets
  let active ← Program.ofExcept HostFailure.intervalInvalid (requestedActive active before)
  let idle ← Program.ofExcept HostFailure.intervalInvalid (requestedIdle idle before)
  if active.val < idle then .fail (.idleAboveActive idle active.val)
  else
    checkBudget active before.active targets
    let written := idle ≠ before.idle || before.unreadable
    storeIdle idle written
    storeActive active before.active written seed

def durableMode : HostProgram (Except StoreError (Option StartMode)) := do
  match (← Program.perform HostCall.hosts : Except StoreError (List Host)) with
  | .ok hosts => return .ok (hosts.head?.map (·.serviceStartMode))
  | .error source => return .error source

/-- `persist_mode` and what `install_from` does when it fails. -/
def persistMode (mode : StartMode) (host : Host) : HostProgram Unit := do
  let edit := HostEdit.startMode mode
  match (← Program.perform (HostCall.putHost (some edit) (edit.onHost host)) :
      Except StoreError Unit) with
  | .ok () => return ()
  | .error source =>
    match ← durableMode with
    | .ok (some durable) => if durable = mode then return () else rollback source
    | _ => rollback source
where
  rollback (source : StoreError) : HostProgram Unit := do
    match (← Program.perform HostCall.deregister : Except String Unit) with
    | .ok () => .fail (.modeNotStored source none)
    | .error refused => .fail (.modeNotStored source (some refused))

/-- `service install`, from the host row it reads to the one it writes. -/
def installService (mode : StartMode) (seed : Option HostSeed) : HostProgram Unit := do
  let host ← localHostOrCreateCall seed
  Program.ofExcept HostFailure.service
    (← Program.perform (HostCall.register mode) : Except String Unit)
  persistMode mode host

def setHostRunnerRoot (machine : Machine) (requested cache : Option LocalAbsolutePath)
    (seed : Option HostSeed) : HostProgram Unit := do
  let host ← localHostOrCreateCall seed
  let previous := hostRoot machine (some host)
  let uncleaned ← Program.ofExcept unreadable
    (← Program.perform HostCall.uncleanedEphemeralAttempts :
      Except StoreError (List RunnerAttempt))
  let affected := AffectedAttempts.of uncleaned
  if affected.total ≠ 0 then .fail (.workspace (.affected "the host runner root" affected))
  else
    let created ← validatedRoot previous
    Program.ofExcept (fun source ↦ .workspace (.writeRefused source created))
      (← Program.perform (HostCall.setRunnerRootOverride host.id previous.configured requested
        affected.total) : Except StoreError Unit)
where
  -- A reset validates nothing.
  validatedRoot (previous : HostRoot) : HostProgram (Option String) := do
    match requested with
    | none => return none
    | some root =>
      let policies ← Program.ofExcept unreadable
        (← Program.perform HostCall.policies : Except StoreError (List ScalePolicy))
      Program.ofExcept HostFailure.workspace
        (validatedLeaf machine previous policies cache .host root)

/-- A write to the attempts. -/
inductive AttemptWrite where
  | record (attempt : RunnerAttempt)
  | remove (id : AttemptId)

/-- The daemon's writes to the attempts, one after the other; a refused one does not stop it. -/
def writeAttempts : List AttemptWrite → HostProgram Unit
  | [] => return ()
  | .record attempt :: rest => do
    let _ ← (Program.perform (HostCall.recordAttempt attempt) :
      HostProgram (Except StoreError Unit))
    writeAttempts rest
  | .remove id :: rest => do
    let _ ← (Program.perform (HostCall.removeAttempt id) :
      HostProgram (Except StoreError Unit))
    writeAttempts rest

/-- What a process runs. -/
inductive HostTask where
  | setCapacity (capacity : {n : Nat // n < 2 ^ 16}) (seed : Option HostSeed)
  | setPollInterval (active idle : Option {n : Nat // n < 2 ^ 16}) (seed : Option HostSeed)
  | install (mode : StartMode) (seed : Option HostSeed)
  | setRunnerRoot (requested cache : Option LocalAbsolutePath) (seed : Option HostSeed)
  | firstUse (seed : Option HostSeed)
  | attempts (writes : List AttemptWrite)

def HostTask.program (machine : Machine) : HostTask → HostProgram Unit
  | setCapacity capacity seed => App.setCapacity capacity seed
  | setPollInterval active idle seed => App.setPollInterval active idle seed
  | install mode seed => installService mode seed
  | setRunnerRoot requested cache seed => setHostRunnerRoot machine requested cache seed
  | firstUse seed => do
    let _ ← localHostOrCreateCall seed
    return ()
  | attempts writes => writeAttempts writes

end Commands

/-! ## Processes over one database -/

/-- The database, the copy of the row each process holds, and the edits that succeeded so far,
oldest first. -/
structure HostShared (ι : Type) where
  db : Database
  copy : ι → Option Host
  edits : List HostEdit

namespace HostShared

variable {ι : Type} [DecidableEq ι] (native : PathPlatform)

/-- A process now holds a copy, or none. -/
def hold (s : HostShared ι) (i : ι) (host : Option Host) : HostShared ι :=
  { s with copy := Function.update s.copy i host }

def listedCopy : Except StoreError (List Host) → Option Host
  | .ok [host] => some host
  | _ => none

/-- A transaction answers and takes effect, or fails and does not. -/
def Transacts (s : HostShared ι) (result : Except StoreError Database)
    (answer : Except StoreError Unit) (after : Database → HostShared ι) (t : HostShared ι) : Prop :=
  (∃ next, result = .ok next ∧ answer = .ok () ∧ t = after next) ∨
    (∃ source, answer = .error source) ∧ t = s

/-- How the environment answers process `i`. A read may fail, and what does not concern the host row
may be answered in any way. -/
def Steps (i : ι) (s : HostShared ι) : (c : HostCall) → c.Answer → HostShared ι → Prop
  | .hosts, answer, t =>
    (answer = Store.hosts native s.db ∨ ∃ source, answer = .error source) ∧
      t = s.hold i (listedCopy answer)
  | .putHost none host, answer, t =>
    s.Transacts (Store.putHost s.db host) answer
      (fun next ↦ { s with db := next }.hold i (some host)) t
  | .putHost (some edit) host, answer, t =>
    s.Transacts (Store.putHost s.db host) answer
      (fun next ↦ { s with db := next, edits := s.edits ++ [edit] }) t
  | .setRunnerRootOverride id expected newRoot expectedUncleaned, answer, t =>
    s.Transacts (Store.setRunnerRootOverride s.db id expected newRoot expectedUncleaned) answer
      (fun next ↦ { s with db := next, edits := s.edits ++ [.runnerRoot newRoot] }) t
  | .recordAttempt attempt, answer, t =>
    s.Transacts (Store.recordAttempt s.db attempt) answer (fun next ↦ { s with db := next }) t
  | .removeAttempt id, answer, t =>
    s.Transacts (Store.removeAttempt s.db id) answer (fun next ↦ { s with db := next }) t
  | .uncleanedEphemeralAttempts, answer, t =>
    (answer = Store.attemptsWhere s.db (fun row ↦
      row.workspaceKind = .ephemeral && row.state ≠ .cleaned) ∨
      ∃ source, answer = .error source) ∧ t = s
  | _, _, t => t = s

/-- What the commands promise of their calls: a whole-row write carries the copy the process holds
with one column changed, which is not the root; and the root is changed by a command that counted no
attempt. -/
def Requires (i : ι) (s : HostShared ι) : HostCall → Prop
  | .putHost (some edit) host => edit.field ≠ .runnerRoot ∧
      ∃ base, s.copy i = some base ∧ host = edit.onHost base
  | .setRunnerRootOverride _ _ _ expectedUncleaned => expectedUncleaned = 0
  | _ => True

/-- A creation finds no row, and a whole-row write finds the row its process holds a copy of, save
for the column it writes. -/
def Current (i : ι) (s : HostShared ι) : HostCall → Prop
  | .putHost none _ => s.db.hosts.rows = []
  | .putHost (some edit) _ => ∀ base, s.copy i = some base →
      ∃ row ∈ s.db.hosts.rows, edit.onRow (hostParams base) = edit.onRow row
  | _ => True

end HostShared

/-- The store as process `i` sees it. -/
def hostCalls {ι : Type} [DecidableEq ι] (native : PathPlatform) (i : ι) :
    Contract HostCall HostCall.Answer (HostShared ι) where
  requires s c := s.Requires i c
  steps s c answer t := s.Steps native i c answer t

/-! ## What the commands promise -/

section Promises

variable {ι : Type} [DecidableEq ι] {native : PathPlatform} {i : ι} {I : HostShared ι → Prop}
  {s : HostShared ι}

/-- The others leave the copy of a process alone. -/
def KeepsCopy (i : ι) (s t : HostShared ι) : Prop :=
  t.copy i = s.copy i

/-- The store as process `i` sees it among the others. -/
def hostCallsAmong (native : PathPlatform) (i : ι) (I : HostShared ι → Prop) :
    Contract HostCall HostCall.Answer (HostShared ι) :=
  ((hostCalls native i).restrict (HostShared.Current i)).under I (KeepsCopy i)

theorem localHostCall_wp (s : HostShared ι) :
    (hostCallsAmong native i I).wp localHostCall
      (fun result t ↦ ∀ host, result = .ok (some host) → t.copy i = some host) s := by
  refine ⟨fun _ _ _ ↦ trivial, fun answer t hstep ↦ ?_⟩
  obtain ⟨u, -, -, -, -, rfl⟩ := hstep
  cases answer with
  | error source => exact fun _ h ↦ (nomatch h)
  | ok hosts =>
    match hosts with
    | [] => exact fun _ h ↦ (nomatch h)
    | [host] =>
      intro other hother
      cases hother
      exact Function.update_self ..
    | _ :: _ :: _ => exact fun _ h ↦ (nomatch h)

def HoldsResult (i : ι) (result : Except HostFailure Host) (t : HostShared ι) : Prop :=
  ∀ host, result = .ok host → t.copy i = some host

theorem createLocalHostCall_wp (seed : Option HostSeed) (s : HostShared ι) :
    (hostCallsAmong native i I).wp (createLocalHostCall seed) (HoldsResult i) s := by
  cases seed with
  | none => exact fun _ h ↦ (nomatch h)
  | some seed =>
    show (hostCallsAmong native i I).wp (Program.ofExcept _ (describedHost seed) >>= _) _ s
    cases describedHost seed with
    | error source => exact fun _ h ↦ (nomatch h)
    | ok host =>
      refine ⟨fun _ _ _ ↦ trivial, fun answer t hstep ↦ ?_⟩
      obtain ⟨u, -, -, -, hput⟩ := hstep
      obtain ⟨next, -, rfl, rfl⟩ | ⟨⟨source, rfl⟩, rfl⟩ := hput
      · intro other hother
        cases hother
        exact Function.update_self ..
      · exact fun _ h ↦ (nomatch h)

theorem localHostOrCreateCall_wp (seed : Option HostSeed) (s : HostShared ι) :
    (hostCallsAmong native i I).wp (localHostOrCreateCall seed) (HoldsResult i) s := by
  unfold localHostOrCreateCall
  refine wp_seq (localHostCall_wp s) (fun host t h ↦ ?_) fun _ _ _ _ h ↦ (nomatch h)
  cases host with
  | none => exact createLocalHostCall_wp seed t
  | some host =>
    intro other hother
    cases hother
    exact h host rfl

theorem putHostCall_wp {edit : HostEdit} (hfield : edit.field ≠ .runnerRoot) {host : Host}
    (wrap : StoreError → HostFailure) (hcopy : s.copy i = some host) :
    (hostCallsAmong native i I).wp (putHostCall (some edit) (edit.onHost host) wrap)
      (fun _ _ ↦ True) s := by
  refine ⟨fun t hkeeps _ ↦ ⟨hfield, host, hkeeps.trans hcopy, rfl⟩, fun answer t _ ↦ ?_⟩
  cases answer with
  | ok _ => trivial
  | error _ => trivial

theorem editHost_wp {edit : HostEdit} (hfield : edit.field ≠ .runnerRoot) (seed : Option HostSeed)
    (wrap : StoreError → HostFailure) (s : HostShared ι) :
    (hostCallsAmong native i I).wp (editHost edit seed wrap) (fun _ _ ↦ True) s :=
  wp_seq (localHostOrCreateCall_wp seed s)
    (fun host _ h ↦ putHostCall_wp hfield wrap (h host rfl)) fun _ _ _ ↦ trivial

theorem ofExcept_wp {δ α : Type} (wrap : δ → HostFailure) (result : Except δ α)
    {f : α → HostProgram Unit} {s : HostShared ι}
    (hf : ∀ value, result = .ok value →
      (hostCallsAmong native i I).wp (f value) (fun _ _ ↦ True) s) :
    (hostCallsAmong native i I).wp (Program.ofExcept wrap result >>= f) (fun _ _ ↦ True) s := by
  cases result with
  | ok value => exact hf value rfl
  | error _ => trivial

theorem setCapacity_wp (capacity : {n : Nat // n < 2 ^ 16}) (seed : Option HostSeed)
    (s : HostShared ι) :
    (hostCallsAmong native i I).wp (setCapacity capacity seed) (fun _ _ ↦ True) s := by
  unfold setCapacity
  split_ifs
  · refine wp_seq (editHost_wp HostField.noConfusion seed _ s) (fun _ t _ ↦ ?_)
      fun _ _ _ ↦ trivial
    refine ⟨fun _ _ _ ↦ trivial, fun answer u _ ↦ ?_⟩
    exact ofExcept_wp _ answer fun _ _ ↦ trivial
  · trivial

theorem configuredIntervals_wp (s : HostShared ι) :
    (hostCallsAmong native i I).wp configuredIntervals (fun _ _ ↦ True) s := by
  refine wp_seq (localHostCall_wp s) (fun host t _ ↦ ?_) fun _ _ _ ↦ trivial
  refine ⟨fun _ _ _ ↦ trivial, fun answer u _ ↦ ?_⟩
  cases answer with
  | ok _ => trivial
  | error _ => trivial

theorem pricedTargets_wp (s : HostShared ι) :
    (hostCallsAmong native i I).wp pricedTargets (fun _ _ ↦ True) s := by
  refine ⟨fun _ _ _ ↦ trivial, fun answer u _ ↦ ?_⟩
  cases answer with
  | ok _ => trivial
  | error _ => trivial

theorem checkBudget_wp (active before : RefreshInterval) (targets : List ScaleTarget)
    (s : HostShared ι) :
    (hostCallsAmong native i I).wp (checkBudget active before targets) (fun _ _ ↦ True) s := by
  unfold checkBudget
  split_ifs
  · refine ⟨fun _ _ _ ↦ trivial, fun answer u _ ↦ ?_⟩
    cases answer with
    | true => trivial
    | false => trivial
  · trivial

theorem storeIdle_wp (idle : Nat) (written : Bool) (s : HostShared ι) :
    (hostCallsAmong native i I).wp (storeIdle idle written) (fun _ _ ↦ True) s := by
  unfold storeIdle
  split_ifs
  · refine ⟨fun _ _ _ ↦ trivial, fun answer u _ ↦ ?_⟩
    cases answer with
    | ok _ => trivial
    | error _ => trivial
  · trivial

theorem storeActive_wp (active before : RefreshInterval) (written : Bool) (seed : Option HostSeed)
    (s : HostShared ι) :
    (hostCallsAmong native i I).wp (storeActive active before written seed)
      (fun _ _ ↦ True) s := by
  unfold storeActive
  split_ifs
  · trivial
  · refine wp_outcome_seq (editHost_wp HostField.noConfusion seed _ s) fun result t _ ↦ ?_
    cases result with
    | ok _ => trivial
    | error _ => trivial

theorem setPollInterval_wp (active idle : Option {n : Nat // n < 2 ^ 16}) (seed : Option HostSeed)
    (s : HostShared ι) :
    (hostCallsAmong native i I).wp (setPollInterval active idle seed) (fun _ _ ↦ True) s := by
  unfold setPollInterval
  refine wp_seq (configuredIntervals_wp s) (fun before t _ ↦ ?_) fun _ _ _ ↦ trivial
  refine wp_seq (pricedTargets_wp t) (fun targets u _ ↦ ?_) fun _ _ _ ↦ trivial
  refine ofExcept_wp _ _ fun active _ ↦ ofExcept_wp _ _ fun idle _ ↦ ?_
  split_ifs
  · trivial
  · refine wp_seq (checkBudget_wp active _ targets u) (fun _ v _ ↦ ?_) fun _ _ _ ↦ trivial
    refine wp_seq (storeIdle_wp idle _ v) (fun _ w _ ↦ ?_) fun _ _ _ ↦ trivial
    exact storeActive_wp active _ _ seed w

theorem durableMode_wp (s : HostShared ι) :
    (hostCallsAmong native i I).wp durableMode (fun _ _ ↦ True) s := by
  refine ⟨fun _ _ _ ↦ trivial, fun answer u _ ↦ ?_⟩
  cases answer with
  | ok _ => trivial
  | error _ => trivial

theorem rollback_wp (source : StoreError) (s : HostShared ι) :
    (hostCallsAmong native i I).wp (persistMode.rollback source) (fun _ _ ↦ True) s := by
  refine ⟨fun _ _ _ ↦ trivial, fun answer u _ ↦ ?_⟩
  cases answer with
  | ok _ => trivial
  | error _ => trivial

theorem persistMode_wp (mode : StartMode) {host : Host} (hcopy : s.copy i = some host) :
    (hostCallsAmong native i I).wp (persistMode mode host) (fun _ _ ↦ True) s := by
  refine ⟨fun t hkeeps _ ↦ ⟨HostField.noConfusion, host, hkeeps.trans hcopy, rfl⟩,
    fun answer t _ ↦ ?_⟩
  cases answer with
  | ok _ => trivial
  | error source =>
    show (hostCallsAmong native i I).wp (durableMode >>= _) _ t
    refine wp_seq (durableMode_wp t) (fun durable u _ ↦ ?_) fun _ _ _ ↦ trivial
    match durable with
    | .ok (some durable) =>
      show (hostCallsAmong native i I).wp (if durable = mode then _ else _) _ u
      split_ifs
      · trivial
      · exact rollback_wp source u
    | .ok none | .error _ => exact rollback_wp source u

theorem installService_wp (mode : StartMode) (seed : Option HostSeed) (s : HostShared ι) :
    (hostCallsAmong native i I).wp (installService mode seed) (fun _ _ ↦ True) s := by
  refine wp_seq (localHostOrCreateCall_wp seed s) (fun host t h ↦ ?_)
    fun _ _ _ ↦ trivial
  refine ⟨fun _ _ _ ↦ trivial, fun answer u hstep ↦ ?_⟩
  -- The registration leaves the copy alone, and so do the others.
  obtain ⟨v, hkeeps, -, -, rfl⟩ : ∃ v, KeepsCopy i t v ∧ I v ∧ True ∧ u = v := hstep
  refine ofExcept_wp _ answer fun _ _ ↦ persistMode_wp mode ?_
  exact hkeeps.trans (h host rfl)

theorem validatedRoot_wp (machine : Machine) (requested cache : Option LocalAbsolutePath)
    (previous : HostRoot) (s : HostShared ι) :
    (hostCallsAmong native i I).wp
      (setHostRunnerRoot.validatedRoot machine requested cache previous) (fun _ _ ↦ True) s := by
  cases requested with
  | none => trivial
  | some root =>
    refine ⟨fun _ _ _ ↦ trivial, fun answer u _ ↦ ?_⟩
    cases answer with
    | error _ => trivial
    | ok policies =>
      show (hostCallsAmong native i I).wp (Program.ofExcept _
        (validatedLeaf machine previous policies cache .host root)) _ u
      cases validatedLeaf machine previous policies cache .host root with
      | ok _ => trivial
      | error _ => trivial

theorem setHostRunnerRoot_wp (machine : Machine) (requested cache : Option LocalAbsolutePath)
    (seed : Option HostSeed) (s : HostShared ι) :
    (hostCallsAmong native i I).wp (setHostRunnerRoot machine requested cache seed)
      (fun _ _ ↦ True) s := by
  refine wp_seq (localHostOrCreateCall_wp seed s) (fun host t _ ↦ ?_)
    fun _ _ _ ↦ trivial
  refine ⟨fun _ _ _ ↦ trivial, fun answer u _ ↦ ?_⟩
  refine ofExcept_wp _ answer fun uncleaned _ ↦ ?_
  show (hostCallsAmong native i I).wp (if _ then _ else _) _ u
  split_ifs with htotal
  · trivial
  · refine wp_seq (validatedRoot_wp machine requested cache _ u) (fun created v _ ↦ ?_)
      fun _ _ _ ↦ trivial
    refine ⟨fun _ _ _ ↦ not_not.mp htotal, fun answer w _ ↦ ?_⟩
    cases answer with
    | ok _ => trivial
    | error _ => trivial

theorem writeAttempts_wp (writes : List AttemptWrite) (s : HostShared ι) :
    (hostCallsAmong native i I).wp (writeAttempts writes) (fun _ _ ↦ True) s := by
  induction writes generalizing s with
  | nil => trivial
  | cons write rest ih =>
    cases write with
    | record attempt => exact ⟨fun _ _ _ ↦ trivial, fun _ t _ ↦ ih t⟩
    | remove id => exact ⟨fun _ _ _ ↦ trivial, fun _ t _ ↦ ih t⟩

theorem program_wp (machine : Machine) (task : HostTask) (s : HostShared ι) :
    (hostCallsAmong native i I).wp (task.program machine) (fun _ _ ↦ True) s := by
  cases task with
  | setCapacity capacity seed => exact setCapacity_wp capacity seed s
  | setPollInterval active idle seed => exact setPollInterval_wp active idle seed s
  | install mode seed => exact installService_wp mode seed s
  | setRunnerRoot requested cache seed => exact setHostRunnerRoot_wp machine requested cache seed s
  | firstUse seed =>
    exact wp_seq (localHostOrCreateCall_wp seed s) (fun _ _ _ ↦ trivial)
      fun _ _ _ ↦ trivial
  | attempts writes => exact writeAttempts_wp writes s

end Promises

/-! ## What a call does to the row -/

section Row

variable {ι : Type} [DecidableEq ι] {native : PathPlatform} {i : ι} {s t : HostShared ι}

/-- The root was written by the fenced call, when no uncleaned ephemeral attempt was left. -/
def Fenced (s t : HostShared ι) : Prop :=
  (∃ id expected newRoot, Store.setRunnerRootOverride s.db id expected newRoot 0 = .ok t.db ∧
    t.edits = s.edits ++ [.runnerRoot newRoot]) ∧
  ∀ attempt ∈ s.db.attempts.rows, attempt.workspaceKind = .ephemeral → attempt.state = .cleaned

/-- What a call does to the host rows and to the successful edits. -/
inductive HostEffect (s t : HostShared ι) : Prop
  | kept (hhosts : t.db.hosts = s.db.hosts) (hedits : t.edits = s.edits)
  | created (row : HostRow) (hempty : s.db.hosts.rows = [])
      (hhosts : t.db.hosts = s.db.hosts.put row) (hedits : t.edits = s.edits)
  | edited (edit : HostEdit) (row : HostRow) (hrow : row ∈ s.db.hosts.rows)
      (hhosts : t.db.hosts = s.db.hosts.put (edit.onRow row))
      (hedits : t.edits = s.edits ++ [edit]) (hfenced : edit.field = .runnerRoot → Fenced s t)

theorem no_attempt_of_fence {db next : Database} {id : HostId}
    {expected newRoot : Option LocalAbsolutePath}
    (h : Store.setRunnerRootOverride db id expected newRoot 0 = .ok next) :
    ∀ attempt ∈ db.attempts.rows, attempt.workspaceKind = .ephemeral →
      attempt.state = .cleaned := by
  intro attempt hattempt hkind
  simp only [Store.setRunnerRootOverride] at h
  cases hrow : db.hosts.find? id with
  | none =>
    rw [hrow] at h
    cases h
  | some row =>
    simp only [hrow, ite_error_eq_ok, Except.ok.injEq] at h
    have hcount := not_not.mp h.2.1
    by_contra hstate
    have hpositive : 0 < db.attempts.rows.countP
        fun row ↦ row.workspaceKind = .ephemeral && row.state ≠ .cleaned :=
      List.countP_pos_iff.mpr ⟨attempt, hattempt, by simp [hkind, hstate]⟩
    simp only [attemptCount, u16Max] at hcount
    omega

omit [DecidableEq ι] in
theorem HostEffect.of_transacts {result : Except StoreError Database}
    {answer : Except StoreError Unit}
    (hresult : ∀ next, result = .ok next → next.hosts = s.db.hosts)
    (h : s.Transacts result answer (fun next ↦ { s with db := next }) t) : HostEffect s t := by
  obtain ⟨next, hnext, -, rfl⟩ | ⟨-, rfl⟩ := h
  · exact .kept (hresult next hnext) rfl
  · exact .kept rfl rfl

theorem effect_of_steps {c : HostCall} {answer : c.Answer} (hrequires : s.Requires i c)
    (hcurrent : s.Current i c) (hstep : s.Steps native i c answer t) : HostEffect s t := by
  cases c with
  | hosts =>
    obtain ⟨-, rfl⟩ := hstep
    exact .kept rfl rfl
  | putHost edit host =>
    cases edit with
    | none =>
      obtain ⟨next, hnext, -, rfl⟩ | ⟨-, rfl⟩ := hstep
      · cases hnext
        exact .created (hostParams host) hcurrent rfl rfl
      · exact .kept rfl rfl
    | some edit =>
      obtain ⟨hfield, base, hbase, rfl⟩ := hrequires
      obtain ⟨row, hrow, hagree⟩ := hcurrent base hbase
      obtain ⟨next, hnext, -, rfl⟩ | ⟨-, rfl⟩ := hstep
      · cases hnext
        refine .edited edit row hrow ?_ rfl fun h ↦ absurd h hfield
        show s.db.hosts.put (hostParams (edit.onHost base)) = _
        rw [edit.hostParams_onHost, hagree]
      · exact .kept rfl rfl
  | setRunnerRootOverride id expected newRoot expectedUncleaned =>
    obtain ⟨next, hnext, -, rfl⟩ | ⟨-, rfl⟩ := hstep
    · obtain rfl : expectedUncleaned = 0 := hrequires
      obtain ⟨row, hrow, rfl⟩ := Store.setRunnerRootOverride_ok hnext
      refine .edited (.runnerRoot newRoot) row (Table.find?_eq_some_iff.mp hrow).1 rfl rfl ?_
      exact fun _ ↦ ⟨⟨id, expected, newRoot, hnext, rfl⟩, no_attempt_of_fence hnext⟩
    · exact .kept rfl rfl
  | recordAttempt attempt =>
    refine .of_transacts (fun next hnext ↦ ?_) hstep
    obtain ⟨-, -, -, -, rfl⟩ := Store.recordAttempt_ok hnext
    rfl
  | removeAttempt id =>
    refine .of_transacts (fun next hnext ↦ ?_) hstep
    cases hnext
    rfl
  | uncleanedEphemeralAttempts =>
    obtain ⟨-, rfl⟩ := hstep
    exact .kept rfl rfl
  | attempts | policies | idleInterval | setIdleInterval | fitsBudget | register | deregister =>
    obtain rfl : t = s := hstep
    exact .kept rfl rfl

theorem keepsCopy_of_steps {j : ι} {c : HostCall} {answer : c.Answer} (hij : i ≠ j)
    (hstep : s.Steps native j c answer t) : KeepsCopy i s t := by
  cases c with
  | hosts =>
    obtain ⟨-, rfl⟩ := hstep
    exact Function.update_of_ne hij ..
  | putHost edit host =>
    cases edit with
    | none =>
      obtain ⟨next, -, -, rfl⟩ | ⟨-, rfl⟩ := hstep
      · exact Function.update_of_ne hij ..
      · rfl
    | some edit =>
      obtain ⟨next, -, -, rfl⟩ | ⟨-, rfl⟩ := hstep <;> rfl
  | setRunnerRootOverride | recordAttempt | removeAttempt =>
    obtain ⟨next, -, -, rfl⟩ | ⟨-, rfl⟩ := hstep <;> rfl
  | uncleanedEphemeralAttempts =>
    obtain ⟨-, rfl⟩ := hstep
    rfl
  | attempts | policies | idleInterval | setIdleInterval | fitsBudget | register | deregister =>
    obtain rfl : t = s := hstep
    rfl

/-! ## Every run -/

/-- The last edit of each column is in force. -/
def EditsHeld (s : HostShared ι) : Prop :=
  ∀ earlier edit later, s.edits = earlier ++ edit :: later →
    (∀ other ∈ later, other.field ≠ edit.field) →
    ∃ row ∈ s.db.hosts.rows, edit.HeldBy row

/-- At most one row, and it has what was written last. -/
structure KeepsEdits (s : HostShared ι) : Prop where
  single : s.db.hosts.rows.length ≤ 1
  held : EditsHeld s

omit [DecidableEq ι] in
theorem rows_of_mem (h : s.db.hosts.rows.length ≤ 1) {row : HostRow}
    (hrow : row ∈ s.db.hosts.rows) : s.db.hosts.rows = [row] := by
  match hrows : s.db.hosts.rows with
  | [] =>
    rw [hrows] at hrow
    cases hrow
  | [other] =>
    rw [hrows] at hrow
    rw [List.mem_singleton.mp hrow]
  | _ :: _ :: _ =>
    rw [hrows] at h
    simp at h

omit [DecidableEq ι] in
theorem rows_of_put {hosts : Table HostRow.id} {row : HostRow} (h : hosts.rows = [row])
    (edit : HostEdit) : (hosts.put (edit.onRow row)).rows = [edit.onRow row] := by
  simp [Table.put, Table.erase, h]

omit [DecidableEq ι] in
theorem KeepsEdits.step (h : KeepsEdits s) (heffect : HostEffect s t) : KeepsEdits t := by
  cases heffect with
  | kept hhosts hedits =>
    refine ⟨?_, ?_⟩
    · rw [hhosts]
      exact h.single
    · rw [EditsHeld, hedits, hhosts]
      exact h.held
  | created row hempty hhosts hedits =>
    refine ⟨?_, ?_⟩
    · simp [hhosts, Table.put, Table.erase, hempty]
    · -- There was no row, so there was no successful edit.
      intro earlier edit later hsplit hlater
      rw [hedits] at hsplit
      obtain ⟨_, hmem, -⟩ := h.held earlier edit later hsplit hlater
      rw [hempty] at hmem
      cases hmem
  | edited edit row hrow hhosts hedits =>
    have hrows : t.db.hosts.rows = [edit.onRow row] := by
      rw [hhosts]
      exact rows_of_put (rows_of_mem h.single hrow) edit
    refine ⟨by simp [hrows], fun earlier other later hsplit hlater ↦ ?_⟩
    refine ⟨edit.onRow row, by simp [hrows], ?_⟩
    rw [hedits] at hsplit
    obtain rfl | ⟨later, last, rfl⟩ := List.eq_nil_or_concat later
    · obtain ⟨-, hlast⟩ := List.append_inj' hsplit rfl
      cases hlast
      exact edit.heldBy_onRow row
    · -- The edit is an older one, of another column.
      have hsplit' : s.edits ++ [edit] = (earlier ++ other :: later) ++ [last] := by
        simpa using hsplit
      obtain ⟨hbefore, hlast⟩ := List.append_inj' hsplit' rfl
      cases hlast
      obtain ⟨stored, hstored, hheld⟩ := h.held earlier other later hbefore
        fun other' hother' ↦ hlater other' (by simp [hother'])
      rw [rows_of_mem h.single hrow, List.mem_singleton] at hstored
      subst hstored
      exact hheld.onRow (hlater edit (by simp))

/-- The root of the row moves in a successful fenced call and nowhere else. -/
def RootFenced (s t : HostShared ι) : Prop :=
  ∀ row ∈ s.db.hosts.rows, ∀ after ∈ t.db.hosts.rows,
    after.runnerRootOverride ≠ row.runnerRootOverride → Fenced s t

omit [DecidableEq ι] in
theorem rootFenced_of_effect (h : s.db.hosts.rows.length ≤ 1) (heffect : HostEffect s t) :
    RootFenced s t := by
  intro row hrow after hafter hmoved
  cases heffect with
  | kept hhosts hedits =>
    rw [hhosts, rows_of_mem h hrow, List.mem_singleton] at hafter
    exact absurd (by rw [hafter]) hmoved
  | created _ hempty =>
    rw [hempty] at hrow
    cases hrow
  | edited edit stored hstored hhosts hedits hfenced =>
    have hrows := rows_of_mem h hstored
    rw [hrows, List.mem_singleton] at hrow
    rw [hhosts, rows_of_put hrows, List.mem_singleton] at hafter
    subst hrow hafter
    refine hfenced ?_
    cases edit with
    | runnerRoot root => rfl
    | capacity | refreshInterval | startMode => exact absurd rfl hmoved

/-- Processes that each run a command over a database with at most one host row. -/
structure HostPoolStarts (machine : Machine) (tasks : ι → HostTask)
    (P : Pool HostCall HostCall.Answer HostFailure Unit (HostShared ι) ι) : Prop where
  point : ∀ i, P.point i = (tasks i).program machine
  single : P.shared.db.hosts.rows.length ≤ 1
  edits : P.shared.edits = []

/-- In every run where no whole-row write carries a column that moved since its process read the
row, and no row is created beside another, there is at most one row, every edit is in force until
the next one of its column, and the root moves only in the fenced call, when no uncleaned ephemeral
attempt is left. -/
theorem no_lost_host_edit {machine : Machine} {tasks : ι → HostTask}
    {P Q : Pool HostCall HostCall.Answer HostFailure Unit (HostShared ι) ι}
    {log : List (Occurrence (HostShared ι) ι)} (hstart : HostPoolStarts machine tasks P)
    (h : Contract.Interleaves
      (fun i ↦ (hostCalls native i).restrict (HostShared.Current i)) P log Q) :
    Q.shared.db.hosts.rows.length ≤ 1 ∧ EditsHeld Q.shared ∧
      ∀ o ∈ log, RootFenced o.before o.after := by
  have hinitial : KeepsEdits P.shared := by
    refine ⟨hstart.single, fun earlier edit later hsplit ↦ ?_⟩
    rw [hstart.edits] at hsplit
    simp at hsplit
  have hkeeps : ∀ (i : ι) (s : HostShared ι) c (answer : c.Answer) t, KeepsEdits s →
      s.Requires i c → s.Current i c ∧ s.Steps native i c answer t → KeepsEdits t :=
    fun i s c answer t hs hrequires hstep ↦ hs.step (effect_of_steps hrequires hstep.1 hstep.2)
  have hcopies : ∀ (i j : ι) (s : HostShared ι) c (answer : c.Answer) t, i ≠ j → KeepsEdits s →
      s.Requires j c → s.Current j c ∧ s.Steps native j c answer t → KeepsCopy i s t :=
    fun i j s c answer t hij _ _ hstep ↦ keepsCopy_of_steps hij hstep.2
  have hpromises : ∀ i, (hostCallsAmong native i KeepsEdits).wp (P.point i) (fun _ _ ↦ True)
      P.shared := by
    intro i
    rw [hstart.point]
    exact program_wp machine (tasks i) P.shared
  have hrefl : ∀ (i : ι) (s : HostShared ι), KeepsCopy i s s := fun _ _ ↦ rfl
  have htrans : ∀ (i : ι) (s t u : HostShared ι), KeepsCopy i s t → KeepsCopy i t u →
      KeepsCopy i s u := fun _ _ _ _ hst htu ↦ Eq.trans htu hst
  obtain ⟨hkept, -⟩ := Contract.Interleaves.sound hrefl htrans hkeeps hcopies
    (fun _ _ _ _ _ h ↦ h) hinitial hpromises h
  refine ⟨hkept.single, hkept.held, ?_⟩
  exact Contract.Interleaves.occurrences hrefl htrans hkeeps hcopies (fun _ _ _ _ _ h ↦ h) hinitial
    hpromises (fun i s c answer t hs hrequires hstep ↦
      rootFenced_of_effect hs.single (effect_of_steps hrequires hstep.1 hstep.2)) h

end Row

/-- A pool of processes that have not begun. -/
def hostPool {ι : Type} (machine : Machine) (tasks : ι → HostTask) (db : Database) :
    Pool HostCall HostCall.Answer HostFailure Unit (HostShared ι) ι where
  shared := ⟨db, fun _ ↦ none, []⟩
  point i := (tasks i).program machine

def rootedHost : Host :=
  { hostOf .linux with runnerRootOverride := some ⟨"/w", .unix, w_canonical⟩ }

def rootedDatabase : Database :=
  { Database.empty with hosts := Table.empty.put (hostParams rootedHost) }

/-- One process raises the capacity while another resets the root. -/
def capacityAndReset : Fin 2 → HostTask
  | 0 => .setCapacity ⟨5, by decide⟩ none
  | 1 => .setRunnerRoot none none none

def resetHost : Host :=
  { rootedHost with runnerRootOverride := none }

/-- One command after the other: both edits are in force. -/
theorem edits_in_turn : ∃ log Q, Contract.Interleaves
      (fun i ↦ (hostCalls .unix i).restrict (HostShared.Current i))
      (hostPool plainMachine capacityAndReset rootedDatabase) log Q ∧
    Q.shared.edits = [.runnerRoot none, .capacity ⟨5, by decide⟩] ∧
    Q.shared.db.hosts.rows.length ≤ 1 ∧ EditsHeld Q.shared ∧
    ∀ o ∈ log, RootFenced o.before o.after := by
  have h₀ := Contract.Interleaves.start
    (hostPool plainMachine capacityAndReset rootedDatabase)
    (C := fun i ↦ (hostCalls .unix i).restrict (HostShared.Current i))
  have h₁ := h₀.advance 1 .hosts (.ok [rootedHost]) _ rfl ⟨trivial, .inl (by decide), rfl⟩
  have h₂ := h₁.advance 1 .uncleanedEphemeralAttempts (.ok []) _ rfl ⟨trivial, .inl rfl, rfl⟩
  have h₃ := h₂.advance 1 (.setRunnerRootOverride ⟨1⟩ rootedHost.runnerRootOverride none 0) (.ok ())
    _ rfl ⟨trivial, .inl ⟨_, rfl, rfl, rfl⟩⟩
  have h₄ := h₃.advance 0 .hosts (.ok [resetHost]) _ rfl ⟨trivial, .inl (by decide), rfl⟩
  have h₅ := h₄.advance 0 (.putHost (some (.capacity ⟨5, by decide⟩))
    { resetHost with hostCapacity := ⟨5, by decide⟩ }) (.ok ()) _ rfl
    ⟨fun base hbase ↦ ⟨hostParams resetHost, .head _, by cases hbase; rfl⟩,
      .inl ⟨_, rfl, rfl, rfl⟩⟩
  exact ⟨_, _, h₅, rfl, no_lost_host_edit ⟨fun _ ↦ rfl, by decide, rfl⟩ h₅⟩

/-- What a machine that needs a row draws for it. -/
def drawnSeed (id : Nat) : HostSeed :=
  ⟨⟨id⟩, "build", .linux, .x64, 0⟩

/-- The row made of it. -/
def freshHost (id : Nat) : Host where
  id := ⟨id⟩
  displayName := "build"
  os := .linux
  architecture := .x64
  hostCapacity := ⟨1, one_nonZero⟩
  serviceStartMode := .boot
  refreshInterval := ⟨60, sixty_interval⟩
  runnerRootOverride := none
  createdAt := 0

/-- Two processes that each need the row for the first time. -/
def firstUses : Fin 2 → HostTask
  | 0 => .firstUse (some (drawnSeed 1))
  | 1 => .firstUse (some (drawnSeed 2))

/-- A capacity written with the root read before a reset brings the root back, without the fenced
call; and two first uses that both find no row leave two. -/
theorem stale_row_written :
    (∃ log Q, Contract.Interleaves (hostCalls .unix)
        (hostPool plainMachine capacityAndReset rootedDatabase) log Q ∧
      ¬ EditsHeld Q.shared ∧ ∃ o ∈ log, ¬ RootFenced o.before o.after) ∧
    ∃ log Q, Contract.Interleaves (hostCalls .unix)
        (hostPool plainMachine firstUses Database.empty) log Q ∧
      Q.shared.db.hosts.rows.length = 2 := by
  constructor
  · have h₀ := Contract.Interleaves.start
      (hostPool plainMachine capacityAndReset rootedDatabase) (C := hostCalls .unix)
    have h₁ := h₀.advance 0 .hosts (.ok [rootedHost]) _ rfl ⟨.inl (by decide), rfl⟩
    have h₂ := h₁.advance 1 .hosts (.ok [rootedHost]) _ rfl ⟨.inl (by decide), rfl⟩
    have h₃ := h₂.advance 1 .uncleanedEphemeralAttempts (.ok []) _ rfl ⟨.inl rfl, rfl⟩
    have h₄ := h₃.advance 1 (.setRunnerRootOverride ⟨1⟩ rootedHost.runnerRootOverride none 0)
      (.ok ()) _ rfl (.inl ⟨_, rfl, rfl, rfl⟩)
    have h₅ := h₄.advance 0 (.putHost (some (.capacity ⟨5, by decide⟩))
      { rootedHost with hostCapacity := ⟨5, by decide⟩ }) (.ok ()) _ rfl (.inl ⟨_, rfl, rfl, rfl⟩)
    refine ⟨_, _, h₅, fun hheld ↦ ?_, _, List.mem_append_right _ (.head _), fun hfenced ↦ ?_⟩
    · obtain ⟨row, hrow, hroot⟩ := hheld [] (.runnerRoot none) [.capacity ⟨5, by decide⟩] rfl
        (by simp [HostEdit.field])
      cases hrow with
      | head => exact absurd (congrArg HostRow.runnerRootOverride hroot) (by decide)
      | tail _ h => cases h
    · obtain ⟨⟨_, _, newRoot, -, hedits⟩, -⟩ := hfenced _ (.head _) _ (.head _) (by decide)
      cases hedits
  · have h₀ := Contract.Interleaves.start
      (hostPool plainMachine firstUses Database.empty) (C := hostCalls .unix)
    have h₁ := h₀.advance 0 .hosts (.ok []) _ rfl ⟨.inl rfl, rfl⟩
    have h₂ := h₁.advance 1 .hosts (.ok []) _ rfl ⟨.inl rfl, rfl⟩
    have h₃ := h₂.advance 0 (.putHost none (freshHost 1)) (.ok ()) _ rfl (.inl ⟨_, rfl, rfl, rfl⟩)
    have h₄ := h₃.advance 1 (.putHost none (freshHost 2)) (.ok ()) _ rfl (.inl ⟨_, rfl, rfl, rfl⟩)
    exact ⟨_, _, h₄, by decide⟩

end RunnerManager.App
