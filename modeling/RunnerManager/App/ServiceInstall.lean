import RunnerManager.App.HostEdits
import RunnerManager.Platform.ServiceRollback

/-!
# Installing the service

`install_from` of `crates/app/src/cli/service.rs`: it swaps the private copy of the executable that
the service runs, registers it, and writes the start mode to the host row. A step that fails undoes
the ones before it. `service_all_or_nothing` says from which states every failure that is not
reported as an incomplete rollback leaves everything as it was, and `replaced_service_lost` shows
one from which it does not.

What the command prints is left out.
-/

namespace RunnerManager.App

open RunnerManager.Domain RunnerManager.Platform
open Contract (wp_mono wp_outcome_seq wp_runs wp_seq)

/-! ## Files -/

abbrev Content := List UInt8

abbrev Files := String → Option Content

/-- A file operation. -/
inductive FileOperation where
  | remove (path : String)
  | rename (source target : String)
  | copy (source target : String)
deriving DecidableEq

/-- The files after an operation, if it can be done. -/
def FileOperation.done (files : Files) : FileOperation → Option Files
  | remove path => (files path).map fun _ ↦ Function.update files path none
  | rename source target => (files source).map fun content ↦
      Function.update (Function.update files source none) target (some content)
  | copy source target => (files source).map fun content ↦
      Function.update files target (some content)

/-- The files after an operation that failed: a copy may have begun. -/
def FileOperation.LeftBy (files : Files) (after : Files) : FileOperation → Prop
  | copy _ target => ∃ begun, after = Function.update files target begun
  | _ => after = files

/-- `Path::file_stem`: the name up to its last dot, unless that is the first character. -/
def fileStem (name : List Char) : List Char :=
  match name.reverse.dropWhile (· ≠ '.') with
  | '.' :: c :: before => (c :: before).reverse
  | _ => name

/-- `Path::file_name`. -/
def fileNameOf (native : PathPlatform) (path : String) : Option (List Char) :=
  (splitPath native path).2.getLast?.filter (· ≠ ['.', '.'])

/-- `Path::with_file_name`, of a path that ends in a name. -/
def withFileName (native : PathPlatform) (path : String) (name : List Char) : String :=
  let named := path.toList.reverse.dropWhile native.isSeparator
  String.ofList ((named.dropWhile fun c ↦ !native.isSeparator c).reverse ++ name)

/-- `Path::is_absolute`. On Windows that takes a drive and its root, or a server and a share. -/
def isAbsolute (native : PathPlatform) (path : String) : Bool :=
  match native, path.toList with
  | .unix, characters => characters.head? = some '/'
  | .windows, first :: second :: rest =>
    let name (text : List Char) : List Char :=
      text.takeWhile fun c ↦ !PathPlatform.windows.isSeparator c
    if PathPlatform.windows.isSeparator first && PathPlatform.windows.isSeparator second then
      name rest ≠ [] && name (rest.drop ((name rest).length + 1)) ≠ []
    else first.isAlpha && second = ':' && rest.head?.any PathPlatform.windows.isSeparator
  | .windows, _ => false

/-! ## Calls -/

/-- What the command asks of the machine. -/
inductive InstallCall where
  | openStore
  | host (c : HostCall)
  | service (c : ServiceCall)
  /-- Create the directory of the private copies. -/
  | createBinDirectory
  | fileExists (path : String)
  | file (operation : FileOperation)
  /-- A file operation of `OwnedCopy::restore`, whatever it reports. -/
  | putBack (operation : FileOperation)

abbrev InstallCall.Answer : InstallCall → Type
  | openStore | createBinDirectory | file _ => Except String Unit
  | host c => c.Answer
  | service c => c.Answer
  | fileExists _ => Bool
  | putBack _ => Unit

/-- Why the command fails. -/
inductive InstallFailure where
  | store (detail : String)
  | host (source : HostFailure)
  | relativeDirectory (purpose path : String)
  | binary (what detail : String)
  | service (source : ServiceError)
  | modeNotStored (source : StoreError) (rollback : Option ServiceError)

/-- The error says that a rollback was incomplete. -/
def InstallFailure.ReportsRollback : InstallFailure → Prop
  | service source => source.ReportsRollback
  | modeNotStored _ (some _) => True
  | _ => False

abbrev InstallProgram := Program InstallCall InstallCall.Answer InstallFailure

/-- A part of the command that only asks for the service. -/
def asService {α : Type} (part : ServiceProgram α) :
    Program InstallCall InstallCall.Answer ServiceError α :=
  part.mapCalls InstallCall.service fun _ answer ↦ answer

/-- A part of the command that only asks for the host row. -/
def asHost {α : Type} (part : HostProgram α) :
    Program InstallCall InstallCall.Answer HostFailure α :=
  part.mapCalls InstallCall.host fun _ answer ↦ answer

/-! ## The private copies -/

structure OwnedCopy where
  path : String
  replaced : Option String

def OwnedCopy.restore (copy : OwnedCopy) : InstallProgram Unit := do
  Program.perform (InstallCall.putBack (.remove copy.path))
  match copy.replaced with
  | none => return ()
  | some replaced => Program.perform (InstallCall.putBack (.rename replaced copy.path))

def OwnedCopy.commit (copy : OwnedCopy) : InstallProgram Unit := do
  match copy.replaced with
  | none => return ()
  | some replaced =>
    let _ ← (Program.perform (InstallCall.file (.remove replaced)) :
      InstallProgram (Except String Unit))
    return ()

section Install

variable (ops : ServiceOperations)

/-- Where a private copy lies. -/
def binPath (name : List Char) : String :=
  push ops.native (push ops.native ops.paths.stateDir "bin".toList) name

/-- The private copy of an executable, and where the one before it is moved. -/
structure Place where
  path : String
  aside : String

/-- The place of the copy of an executable. -/
def placeOf (source : String) : Place :=
  let name := (fileNameOf ops.native source).getD "runner-manager".toList
  ⟨binPath ops name, binPath ops (fileStem name ++ ".old".toList)⟩

def installOwnedCopy (source : String) : InstallProgram OwnedCopy := do
  Program.ofExcept (InstallFailure.binary "create the service binary directory")
    (← Program.perform InstallCall.createBinDirectory : Except String Unit)
  let place := placeOf ops source
  if ← (Program.perform (InstallCall.fileExists place.path) : InstallProgram Bool) then
    moveAside place
  else copyBinary ⟨place.path, none⟩
where
  moveAside (place : Place) : InstallProgram OwnedCopy := do
    let _ ← (Program.perform (InstallCall.file (.remove place.aside)) :
      InstallProgram (Except String Unit))
    Program.ofExcept (InstallFailure.binary "move the previous service binary aside")
      (← Program.perform (InstallCall.file (.rename place.path place.aside)) : Except String Unit)
    copyBinary ⟨place.path, some place.aside⟩
  -- A copy that fails is undone by the two operations of `restore`.
  copyBinary (copy : OwnedCopy) : InstallProgram OwnedCopy := do
    match (← Program.perform (InstallCall.file (.copy source copy.path)) :
        Except String Unit) with
    | .ok () => return copy
    | .error detail => do
      copy.restore
      .fail (.binary "copy the binary the service will run" detail)

/-- The copies a service runs: on Windows a service that starts at login runs a supervisor, which is
given the other copy. -/
structure Swapped where
  owned : OwnedCopy
  supervisor : Option OwnedCopy

/-- The copies that are put back, the last first. -/
def Swapped.restore (swapped : Swapped) : InstallProgram Unit := do
  match swapped.supervisor with
  | none => swapped.owned.restore
  | some supervisor => do
    supervisor.restore
    swapped.owned.restore

/-- The copies that are kept. -/
def Swapped.commit (swapped : Swapped) : InstallProgram Unit := do
  match swapped.supervisor with
  | none => swapped.owned.commit
  | some supervisor => do
    supervisor.commit
    swapped.owned.commit

def supervised (mode : StartMode) : Bool :=
  ops.native = .windows && mode = .login

def supervisorOf (source : String) : String :=
  withFileName ops.native source "runner-manager-supervisor.exe".toList

def swapCopies (source : String) (mode : StartMode) : InstallProgram Swapped := do
  let owned ← installOwnedCopy ops source
  if supervised ops mode then
    match ← (installOwnedCopy ops (supervisorOf ops source)).outcome with
    | .ok supervisor => return ⟨owned, some supervisor⟩
    | .error e => do
      owned.restore
      .fail e
  else return ⟨owned, none⟩

/-! ## The command -/

def daemonArguments (mode : StartMode) : List String :=
  ["daemon", "run"] ++ (ServiceDirectories.of ops.paths).arguments
    ++ (if ops.native = .windows ∧ mode = .boot then [ServiceOperations.windowsScmHostArgument]
      else [])

/-- What is asked of the service manager. -/
def Swapped.request (swapped : Swapped) (source : String) (mode : StartMode) : InstallRequest where
  startMode := mode
  binary := some ((swapped.supervisor.getD swapped.owned).path)
  sourceBinary := some source
  arguments := (if swapped.supervisor.isSome then [swapped.owned.path] else [])
    ++ daemonArguments ops mode
  restart := .standard
  onDemand := false

/-- The first relative directory, with its purpose. -/
def relativeDirectory : Option (String × String) :=
  [("config", ops.paths.configDir), ("state", ops.paths.stateDir),
    ("runtime", ops.paths.runtimeDir), ("logs", ops.paths.logsDir)].find? fun directory ↦
      !isAbsolute ops.native directory.2

def installFrom (seed : Option HostSeed) (source : String) (mode : StartMode) :
    InstallProgram Unit := do
  Program.ofExcept InstallFailure.store
    (← Program.perform InstallCall.openStore : Except String Unit)
  let host ← Program.ofExcept InstallFailure.host (← (asHost (localHostOrCreateCall seed)).outcome)
  match relativeDirectory ops with
  | some (purpose, path) => .fail (.relativeDirectory purpose path)
  | none => do
    let swapped ← swapCopies ops source mode
    register host swapped
where
  register (host : Host) (swapped : Swapped) : InstallProgram Unit := do
    match ← (asService (ops.install (swapped.request ops source mode))).outcome with
    | .error e => do
      swapped.restore
      .fail (.service e)
    | .ok _ => storeMode host swapped
  /-- `persist_mode`, `durable_mode` and what follows from them. -/
  storeMode (host : Host) (swapped : Swapped) : InstallProgram Unit := do
    let edit := HostEdit.startMode mode
    match (← Program.perform (InstallCall.host (.putHost (some edit) (edit.onHost host))) :
        Except StoreError Unit) with
    | .ok () => swapped.commit
    | .error refused =>
      match (← Program.perform (InstallCall.host .hosts) : Except StoreError (List Host)) with
      | .ok hosts =>
        if hosts.head?.map (·.serviceStartMode) = some mode then swapped.commit
        else deregister refused swapped
      | .error _ => deregister refused swapped
  deregister (refused : StoreError) (swapped : Swapped) : InstallProgram Unit := do
    let rollback ← (asService ops.uninstall).outcome
    swapped.restore
    match rollback with
    | .ok _ => .fail (.modeNotStored refused none)
    | .error e => .fail (.modeNotStored refused (some e))

end Install

/-! ## The machine -/

/-- What the command may change. -/
structure InstallState where
  service : ServiceState
  files : Files
  hosts : List Host

/-- A host row, written over the one of its id. -/
def putRow (hosts : List Host) (host : Host) : List Host :=
  if hosts.any fun row ↦ row.id = host.id then
    hosts.map fun row ↦ if row.id = host.id then host else row
  else hosts ++ [host]

/-- How the machine answers: a call that fails has no effect, but for a copy that had begun. Whether
a host row may be refused is given. -/
def InstallState.Steps (unreadable refusing : Bool) (s : InstallState) :
    (c : InstallCall) → c.Answer → InstallState → Prop
  | .host .hosts, .ok hosts, t => hosts = s.hosts ∧ t = s
  | .host (.putHost _ host), .ok _, t => t = { s with hosts := putRow s.hosts host }
  | .host (.putHost _ _), .error _, t => refusing = true ∧ t = s
  | .service c, answer, t => ∃ service,
      (managersContract unreadable).steps s.service c answer service ∧ t = { s with service }
  | .fileExists path, found, t => found = (s.files path).isSome ∧ t = s
  | .file operation, .ok _, t => ∃ files, operation.done s.files = some files ∧ t = { s with files }
  | .file operation, .error _, t => ∃ files, operation.LeftBy s.files files ∧ t = { s with files }
  | .putBack operation, _, t => t = { s with files := (operation.done s.files).getD s.files }
  | _, _, t => t = s

def installContract (unreadable refusing : Bool) :
    Contract InstallCall InstallCall.Answer InstallState where
  requires _ _ := True
  steps s c answer t := s.Steps unreadable refusing c answer t

def RunsFile (held : Held) (path : String) : Prop :=
  (splitCommandLine held.commandLine).head? = some path

/-- The registrations, the record and the binary of every registration are as they were. -/
def InstallState.AsBefore (s t : InstallState) : Prop :=
  t.service = s.service ∧ ∀ mode held path, s.service.held mode = some held →
    RunsFile held path → t.files path = s.files path

/-- All or nothing, or it says what is left. -/
def AllOrNothing (mode : StartMode) (s : InstallState) :
    Except InstallFailure Unit → InstallState → Prop
  | .ok _, t => t.service.Recorded mode ∧ t.hosts.head?.map (·.serviceStartMode) = some mode
  | .error e, t => e.ReportsRollback ∨ s.AsBefore t

/-! ## The swap -/

section Swap

variable {unreadable refusing : Bool} {ops : ServiceOperations} {s : InstallState}

/-- The files after `OwnedCopy::restore`. -/
def OwnedCopy.restored (copy : OwnedCopy) (files : Files) : Files :=
  let removed := Function.update files copy.path none
  match copy.replaced with
  | none => removed
  | some replaced => ((FileOperation.rename replaced copy.path).done removed).getD removed

theorem remove_getD (files : Files) (path : String) :
    ((FileOperation.remove path).done files).getD files = Function.update files path none := by
  cases hfile : files path with
  | none =>
    simp only [FileOperation.done, hfile, Option.map_none, Option.getD_none]
    rw [← hfile, Function.update_eq_self]
  | some _ => simp [FileOperation.done, hfile]

theorem OwnedCopy.restore_restores (copy : OwnedCopy) :
    (installContract unreadable refusing).wp copy.restore
      (fun result t ↦ result = .ok () ∧ t = { s with files := copy.restored s.files }) s := by
  refine ⟨trivial, fun _ t ht ↦ ?_⟩
  obtain rfl : t = { s with files := _ } := ht
  rw [remove_getD]
  show (installContract unreadable refusing).wp (match copy.replaced with
    | none => _
    | some replaced => _) _ _
  unfold OwnedCopy.restored
  cases copy.replaced with
  | none => exact ⟨rfl, rfl⟩
  | some replaced =>
    refine ⟨trivial, fun _ u hu ↦ ?_⟩
    obtain rfl : u = { s with files := _ } := hu
    exact ⟨rfl, rfl⟩

/-- The file that a swap gives up for good: one that an earlier swap had moved aside. -/
def Place.Discards (place : Place) (files : Files) (path : String) : Prop :=
  path = place.aside ∧ (files place.path).isSome = true ∧ (files place.aside).isSome = true

/-- The same files, but for some paths. -/
def AgreeBut (except : String → Prop) (before after : Files) : Prop :=
  ∀ path, ¬ except path → after path = before path

/-- What a swap leaves: the copy can be taken back. -/
structure SwappedAt (place : Place) (before : Files) (copy : OwnedCopy) (after : Files) : Prop where
  path : copy.path = place.path
  replaced : ∀ aside, copy.replaced = some aside → aside = place.aside
  elsewhere : ∀ path, path ≠ place.path → path ≠ place.aside → after path = before path
  restored : AgreeBut (place.Discards before) before (copy.restored after)

theorem restored_moved {path aside : String} (hapart : path ≠ aside) (files : Files)
    (content : Content) (copied : Option Content) :
    (OwnedCopy.mk path (some aside)).restored (Function.update
      (Function.update (Function.update files path none) aside (some content)) path copied) =
      Function.update (Function.update files aside none) path (some content) := by
  funext other
  simp only [OwnedCopy.restored, FileOperation.done, Function.update_idem]
  rw [Function.update_of_ne hapart.symm, Function.update_self, Option.map_some, Option.getD_some]
  by_cases hpath : other = path
  · rw [hpath, Function.update_self, Function.update_self]
  · by_cases haside : other = aside
    · rw [haside, Function.update_of_ne hapart.symm, Function.update_of_ne hapart.symm,
        Function.update_self, Function.update_self]
    · simp [Function.update_of_ne hpath, Function.update_of_ne haside]

theorem moved_agrees {place : Place} {files : Files} {content : Content}
    (hcontent : files place.path = some content) : AgreeBut (place.Discards files) files
      (Function.update (Function.update files place.aside none) place.path (some content)) := by
  intro path hkept
  by_cases hpath : path = place.path
  · rw [hpath, Function.update_self, hcontent]
  · rw [Function.update_of_ne hpath]
    by_cases haside : path = place.aside
    · rw [haside, Function.update_self]
      by_contra hdiscarded
      refine hkept ⟨haside, by rw [hcontent]; rfl, ?_⟩
      exact Option.isSome_iff_ne_none.mpr (Ne.symm hdiscarded)
    · rw [Function.update_of_ne haside]

theorem copyBinary_swaps {source : String} {place : Place} {before : Files} {copy : OwnedCopy}
    (hpath : copy.path = place.path)
    (hreplaced : ∀ aside, copy.replaced = some aside → aside = place.aside)
    (helsewhere : ∀ path, path ≠ place.path → path ≠ place.aside → s.files path = before path)
    (hrestored : ∀ copied, AgreeBut (place.Discards before) before
      (copy.restored (Function.update s.files place.path copied))) :
    (installContract unreadable refusing).wp (installOwnedCopy.copyBinary source copy)
      (fun result t ↦ ∃ files, t = { s with files } ∧ match result with
        | .ok copy => SwappedAt place before copy files
        | .error e => ¬ e.ReportsRollback ∧ AgreeBut (place.Discards before) before files) s := by
  refine ⟨trivial, fun answer t ht ↦ ?_⟩
  cases answer with
  | ok _ =>
    obtain ⟨files, hfiles, rfl⟩ := ht
    obtain ⟨content, -, rfl⟩ := Option.map_eq_some_iff.mp hfiles
    refine ⟨_, rfl, hpath, hreplaced, fun path hother haside ↦ ?_, ?_⟩
    · rw [hpath, Function.update_of_ne hother]
      exact helsewhere path hother haside
    · rw [hpath]
      exact hrestored (some content)
  | error detail =>
    obtain ⟨_, ⟨begun, rfl⟩, rfl⟩ := ht
    show (installContract unreadable refusing).wp (copy.restore >>= _) _ _
    refine wp_seq copy.restore_restores (fun _ u hu ↦ ?_) fun _ _ h ↦ (nomatch h.1)
    refine ⟨_, hu.2, id, ?_⟩
    rw [hpath]
    exact hrestored begun

/-- What a swap reports, and the files it leaves. -/
def Swaps (place : Place) (s : InstallState) (result : Except InstallFailure OwnedCopy)
    (t : InstallState) : Prop :=
  ∃ files, t = { s with files } ∧ match result with
    | .ok copy => SwappedAt place s.files copy files
    | .error e => ¬ e.ReportsRollback ∧ AgreeBut (place.Discards s.files) s.files files

theorem moveAside_swaps {source : String} {place : Place} {content : Content}
    (hapart : place.path ≠ place.aside) (hexists : s.files place.path = some content) :
    (installContract unreadable refusing).wp (installOwnedCopy.moveAside source place)
      (Swaps place s) s := by
  refine ⟨trivial, fun removed t ht ↦ ?_⟩
  -- Whether an older copy could be removed makes no difference to what follows.
  have ht' : ∃ files, t = { s with files } ∧ (files = s.files ∨
      files = Function.update s.files place.aside none) := by
    cases removed with
    | ok _ =>
      obtain ⟨files, hfiles, rfl⟩ := ht
      obtain ⟨_, -, rfl⟩ := Option.map_eq_some_iff.mp hfiles
      exact ⟨_, rfl, .inr rfl⟩
    | error _ =>
      obtain ⟨files, rfl, rfl⟩ := ht
      exact ⟨_, rfl, .inl rfl⟩
  obtain ⟨files, rfl, hfiles⟩ := ht'
  have hcontent : files place.path = some content := by
    rcases hfiles with rfl | rfl
    · exact hexists
    · rw [Function.update_of_ne hapart, hexists]
  have helsewhere : ∀ path, path ≠ place.aside → files path = s.files path := by
    intro path haside
    rcases hfiles with rfl | rfl
    · rfl
    · rw [Function.update_of_ne haside]
  have hcleared : Function.update files place.aside none =
      Function.update s.files place.aside none := by
    rcases hfiles with rfl | rfl
    · rfl
    · rw [Function.update_idem]
  refine ⟨trivial, fun renamed u hu ↦ ?_⟩
  cases renamed with
  | error _ =>
    obtain ⟨left, hleft, rfl⟩ := hu
    refine ⟨left, rfl, id, fun path hkept ↦ ?_⟩
    rw [show left = files from hleft]
    by_cases haside : path = place.aside
    · rcases hfiles with rfl | rfl
      · rfl
      · have hsame := moved_agrees hexists path hkept
        rw [haside, Function.update_of_ne hapart.symm, Function.update_self] at hsame
        rw [haside, Function.update_self, hsame]
    · exact helsewhere path haside
  | ok _ =>
    obtain ⟨moved, hmoved, rfl⟩ := hu
    obtain rfl : Function.update (Function.update files place.path none) place.aside
        (some content) = moved := by
      have hmoved' : (files place.path).map (fun content ↦ Function.update
          (Function.update files place.path none) place.aside (some content)) = some moved :=
        hmoved
      rw [hcontent] at hmoved'
      exact Option.some.inj hmoved'
    refine copyBinary_swaps rfl (fun _ h ↦ (Option.some.inj h).symm)
      (fun path hpath haside ↦ ?_) fun copied ↦ ?_
    · show Function.update (Function.update files place.path none) place.aside _ path = _
      rw [Function.update_of_ne haside, Function.update_of_ne hpath]
      exact helsewhere path haside
    · show AgreeBut _ s.files ((OwnedCopy.mk place.path (some place.aside)).restored _)
      rw [restored_moved hapart, hcleared]
      exact moved_agrees hexists

theorem installOwnedCopy_swaps {source : String}
    (hapart : (placeOf ops source).path ≠ (placeOf ops source).aside) :
    (installContract unreadable refusing).wp (installOwnedCopy ops source)
      (Swaps (placeOf ops source) s) s := by
  refine ⟨trivial, fun created t ht ↦ ?_⟩
  obtain rfl : t = s := ht
  cases created with
  | error _ => exact ⟨t.files, rfl, id, fun _ _ ↦ rfl⟩
  | ok _ =>
    refine ⟨trivial, fun found u hu ↦ ?_⟩
    obtain ⟨hfound, rfl⟩ : found = (t.files (placeOf ops source).path).isSome ∧ u = t := hu
    show (installContract unreadable refusing).wp (if found then _ else _) _ u
    cases hexists : u.files (placeOf ops source).path with
    | some content =>
      rw [if_pos (by rw [hfound, hexists]; rfl)]
      exact moveAside_swaps hapart hexists
    | none =>
      rw [if_neg (by rw [hfound, hexists]; simp)]
      refine copyBinary_swaps rfl (fun _ h ↦ (nomatch h)) (fun _ _ _ ↦ rfl) fun copied ↦ ?_
      intro path _
      show Function.update (Function.update u.files _ copied) (placeOf ops source).path none
        path = _
      rw [Function.update_idem, ← hexists, Function.update_eq_self]

/-- The files after the copies are put back. -/
def Swapped.restored (swapped : Swapped) (files : Files) : Files :=
  match swapped.supervisor with
  | none => swapped.owned.restored files
  | some supervisor => swapped.owned.restored (supervisor.restored files)

theorem Swapped.restore_restores (swapped : Swapped) :
    (installContract unreadable refusing).wp swapped.restore
      (fun result t ↦ result = .ok () ∧ t = { s with files := swapped.restored s.files }) s := by
  unfold Swapped.restore Swapped.restored
  cases swapped.supervisor with
  | none => exact swapped.owned.restore_restores
  | some supervisor =>
    refine wp_seq supervisor.restore_restores (fun _ t ht ↦ ?_) fun _ _ h ↦ (nomatch h.1)
    obtain ⟨-, rfl⟩ := ht
    exact swapped.owned.restore_restores

theorem restored_agrees (copy : OwnedCopy) {except : String → Prop} {before after : Files}
    (h : AgreeBut except before after)
    (hreplaced : ∀ aside, copy.replaced = some aside → ¬ except aside) :
    AgreeBut except (copy.restored before) (copy.restored after) := by
  intro path hkept
  have hremoved : ∀ other, ¬ except other → Function.update after copy.path none other =
      Function.update before copy.path none other := by
    intro other hother
    by_cases hpath : other = copy.path
    · rw [hpath, Function.update_self, Function.update_self]
    · rw [Function.update_of_ne hpath, Function.update_of_ne hpath, h other hother]
  unfold OwnedCopy.restored
  cases hcopy : copy.replaced with
  | none => exact hremoved path hkept
  | some aside =>
    simp only [FileOperation.done, hremoved aside (hreplaced aside hcopy)]
    cases Function.update before copy.path none aside with
    | none => exact hremoved path hkept
    | some content =>
      simp only [Option.map_some, Option.getD_some]
      by_cases hpath : path = copy.path
      · rw [hpath, Function.update_self, Function.update_self]
      · rw [Function.update_of_ne hpath, Function.update_of_ne hpath]
        by_cases haside : path = aside
        · rw [haside, Function.update_self, Function.update_self]
        · rw [Function.update_of_ne haside, Function.update_of_ne haside, hremoved path hkept]

def Place.paths (owned supervisor : Place) (both : Bool) : List String :=
  owned.path :: owned.aside :: if both then [supervisor.path, supervisor.aside] else []

variable (ops) in
/-- The paths that the swap of the copies writes. -/
def copyPaths (source : String) (mode : StartMode) : List String :=
  (placeOf ops source).paths (placeOf ops (supervisorOf ops source)) (supervised ops mode)

variable (ops) in
/-- The files that the swap gives up for good. -/
def Discarded (source : String) (mode : StartMode) (files : Files) (path : String) : Prop :=
  (placeOf ops source).Discards files path ∨
    supervised ops mode = true ∧ (placeOf ops (supervisorOf ops source)).Discards files path

theorem Discarded.present {source path : String} {mode : StartMode} {files : Files}
    (h : Discarded ops source mode files path) : (files path).isSome = true := by
  rcases h with ⟨rfl, -, hthere⟩ | ⟨-, rfl, -, hthere⟩
  · exact hthere
  · exact hthere

theorem paths_apart {owned supervisor : Place} {both : Bool}
    (h : (owned.paths supervisor both).Nodup) : owned.path ≠ owned.aside ∧ (both = true →
      supervisor.path ≠ supervisor.aside ∧
      (supervisor.path ≠ owned.path ∧ supervisor.path ≠ owned.aside) ∧
      supervisor.aside ≠ owned.path ∧ supervisor.aside ≠ owned.aside) := by
  cases both with
  | false => simpa [Place.paths] using h
  | true =>
    simp only [Place.paths, if_true, List.nodup_cons, List.mem_cons, List.not_mem_nil, or_false,
      not_or] at h
    obtain ⟨⟨hplace, hpath, haside⟩, ⟨hpath', haside'⟩, hsupervisor, -⟩ := h
    exact ⟨hplace, fun _ ↦ ⟨hsupervisor, ⟨Ne.symm hpath, Ne.symm hpath'⟩, Ne.symm haside,
      Ne.symm haside'⟩⟩

theorem not_mem_paths {owned supervisor : Place} {both : Bool} {path : String}
    (h : path ∉ owned.paths supervisor both) : path ≠ owned.path ∧ path ≠ owned.aside ∧
      (both = true → path ≠ supervisor.path ∧ path ≠ supervisor.aside) := by
  cases both with
  | false => simpa [Place.paths] using h
  | true => simpa [Place.paths] using h

/-- The swap of all copies can be taken back; one that fails has been. -/
theorem swapCopies_swaps {source : String} {mode : StartMode}
    (hapart : (copyPaths ops source mode).Nodup) :
    (installContract unreadable refusing).wp (swapCopies ops source mode)
      (fun result t ↦ ∃ files, t = { s with files } ∧ match result with
        | .ok swapped => AgreeBut (Discarded ops source mode s.files) s.files
            (swapped.restored files)
        | .error e => ¬ e.ReportsRollback ∧
            AgreeBut (Discarded ops source mode s.files) s.files files) s := by
  let owned := placeOf ops source
  let supervisor := placeOf ops (supervisorOf ops source)
  obtain ⟨howned, hboth⟩ := paths_apart hapart
  refine wp_seq (installOwnedCopy_swaps howned) (fun copy t ht ↦ ?_) fun e t ht ↦ ?_
  rotate_left
  · obtain ⟨files, rfl, hreports, hagree⟩ := ht
    exact ⟨files, rfl, hreports, fun path hkept ↦ hagree path fun h ↦ hkept (.inl h)⟩
  obtain ⟨files, rfl, hcopy⟩ := ht
  have hrestored : AgreeBut (Discarded ops source mode s.files) s.files (copy.restored files) :=
    fun path hkept ↦ hcopy.restored path fun h ↦ hkept (.inl h)
  show (installContract unreadable refusing).wp (if supervised ops mode = true then _ else _) _ _
  split_ifs with hsupervised
  · obtain ⟨hsupervisor, hpath, haside⟩ := hboth hsupervised
    -- The second swap finds the files of the first at its own paths.
    have hdiscards : ∀ path, supervisor.Discards files path → supervisor.Discards s.files path := by
      rintro path ⟨hsame, hfirst, hsecond⟩
      rw [hcopy.elsewhere _ hpath.1 hpath.2] at hfirst
      rw [hcopy.elsewhere _ haside.1 haside.2] at hsecond
      exact ⟨hsame, hfirst, hsecond⟩
    have hback {after : Files} (h : AgreeBut (supervisor.Discards files) files after) :
        AgreeBut (Discarded ops source mode s.files) s.files (copy.restored after) := by
      have hagree := restored_agrees copy h fun aside hreplaced hdiscard ↦ ?_
      · intro path hkept
        rw [hagree path fun hdiscard ↦ hkept (.inr ⟨hsupervised, hdiscards path hdiscard⟩)]
        exact hrestored path hkept
      · rw [hcopy.replaced aside hreplaced] at hdiscard
        exact haside.2 hdiscard.1.symm
    refine wp_outcome_seq (installOwnedCopy_swaps hsupervisor) fun result u hu ↦ ?_
    cases result with
    | ok second =>
      obtain ⟨after, rfl, hsecond⟩ := hu
      exact ⟨after, rfl, hback hsecond.restored⟩
    | error e =>
      obtain ⟨after, rfl, hreports, hagree⟩ := hu
      refine wp_seq copy.restore_restores (fun _ v hv ↦ ?_) fun _ _ h ↦ (nomatch h.1)
      exact ⟨_, hv.2, hreports, hback hagree⟩
  · exact ⟨files, rfl, hrestored⟩

end Swap

/-! ## The whole command -/

section Command

variable {unreadable refusing : Bool} {ops : ServiceOperations} {s : InstallState}
  {source : String} {mode : StartMode}

theorem asService_wp {α : Type} {part : ServiceProgram α}
    {Q : Except ServiceError α → ServiceState → Prop}
    (h : (managersContract unreadable).wp part Q s.service) :
    (installContract unreadable refusing).wp (asService part)
      (fun result t ↦ ∃ service, t = { s with service } ∧ Q result service) s := by
  induction part generalizing s with
  | done result => exact ⟨s.service, rfl, h⟩
  | ask c next ih =>
    refine ⟨trivial, fun answer t ht ↦ ?_⟩
    obtain ⟨service, hstep, rfl⟩ := ht
    exact ih answer (s := { s with service }) (h.2 answer service hstep)

/-- The host row is read, or created where there is none. -/
theorem localHost_finds (seed : Option HostSeed) :
    (installContract unreadable refusing).wp (asHost (localHostOrCreateCall seed))
      (fun result t ↦ ∃ hosts, t = { s with hosts } ∧ ∀ host, result = .ok host → hosts = [host])
      s := by
  refine ⟨trivial, fun answer t ht ↦ ?_⟩
  cases answer with
  | error _ =>
    obtain rfl : t = s := ht
    exact ⟨t.hosts, rfl, fun _ h ↦ (nomatch h)⟩
  | ok found =>
    obtain ⟨hfound, rfl⟩ : found = s.hosts ∧ t = s := ht
    match found, hfound with
    | _ :: _ :: _, _ => exact ⟨t.hosts, rfl, fun _ h ↦ (nomatch h)⟩
    | [host], hfound =>
      refine ⟨t.hosts, rfl, fun other hother ↦ ?_⟩
      cases hother
      exact hfound.symm
    | [], hfound =>
      cases seed with
      | none => exact ⟨t.hosts, rfl, fun _ h ↦ (nomatch h)⟩
      | some seed =>
        show (installContract unreadable refusing).wp (asHost (do
          let host ← Program.ofExcept
            (HostFailure.workspace ∘ WorkspaceFailure.hostUndescribed) (describedHost seed)
          putHostCall none host (HostFailure.workspace ∘ WorkspaceFailure.hostUnrecorded)
          return host)) _ t
        cases describedHost seed with
        | error _ => exact ⟨t.hosts, rfl, fun _ h ↦ (nomatch h)⟩
        | ok host =>
          refine ⟨trivial, fun stored u hu ↦ ?_⟩
          cases stored with
          | error _ =>
            obtain rfl : u = t := hu.2
            exact ⟨u.hosts, rfl, fun _ h ↦ (nomatch h)⟩
          | ok _ =>
            refine ⟨_, hu, fun other hother ↦ ?_⟩
            cases hother
            rw [← hfound]
            rfl

theorem Swapped.commit_commits (swapped : Swapped) :
    (installContract unreadable refusing).wp swapped.commit
      (fun result t ↦ result = .ok () ∧ ∃ files, t = { s with files }) s := by
  have hcopy (copy : OwnedCopy) (u : InstallState) :
      (installContract unreadable refusing).wp copy.commit
        (fun result t ↦ result = .ok () ∧ ∃ files, t = { u with files }) u := by
    unfold OwnedCopy.commit
    cases copy.replaced with
    | none => exact ⟨rfl, u.files, rfl⟩
    | some replaced =>
      refine ⟨trivial, fun removed t ht ↦ ?_⟩
      cases removed with
      | ok _ =>
        obtain ⟨files, -, rfl⟩ := ht
        exact ⟨rfl, files, rfl⟩
      | error _ =>
        obtain ⟨files, -, rfl⟩ := ht
        exact ⟨rfl, files, rfl⟩
  unfold Swapped.commit
  cases swapped.supervisor with
  | none => exact hcopy swapped.owned s
  | some supervisor =>
    refine wp_seq (hcopy supervisor s) (fun _ t ht ↦ ?_) fun _ _ h ↦ (nomatch h.1)
    obtain ⟨-, files, rfl⟩ := ht
    exact wp_mono (hcopy swapped.owned _) fun result t ht ↦ ht

/-- What the starting state has to be for every failure to leave everything as it was: no
registration runs a file that the swap gives up, and where the other domain is empty what is
registered and recorded can be put back. -/
structure Installable (unreadable refusing : Bool) (ops : ServiceOperations) (source : String)
    (mode : StartMode) (s : InstallState) : Prop where
  kept : ∀ held path, (∃ mode, s.service.held mode = some held) → RunsFile held path →
    ¬ Discarded ops source mode s.files path
  restorable : s.service.held (otherMode mode) = none →
    s.service.Restorable (unreadable || refusing) mode

theorem Installable.asBefore (h : Installable unreadable refusing ops source mode s)
    {t : InstallState} (hservice : t.service = s.service)
    (hfiles : AgreeBut (Discarded ops source mode s.files) s.files t.files) : s.AsBefore t :=
  ⟨hservice, fun domain held path hheld hruns ↦
    hfiles path (h.kept held path ⟨domain, hheld⟩ hruns)⟩

/-- The mode could not be stored: what was installed is removed again. -/
theorem deregister_undone {before : InstallState} (refused : StoreError) (swapped : Swapped)
    (hinstallable : Installable unreadable true ops source mode before)
    (hreplaced : Replaced before.service mode s.service)
    (hrestored : AgreeBut (Discarded ops source mode before.files) before.files
      (swapped.restored s.files)) :
    (installContract unreadable refusing).wp (installFrom.deregister ops refused swapped)
      (AllOrNothing mode before) s := by
  obtain ⟨hother, ⟨_, _, -, hempty, -⟩, hcurrent⟩ := hreplaced
  refine wp_outcome_seq (asService_wp (uninstall_clears hempty)) fun result t ht ↦ ?_
  obtain ⟨service, rfl, hcleared⟩ := ht
  refine wp_seq swapped.restore_restores (fun _ u hu ↦ ?_) fun _ _ h ↦ (nomatch h.1)
  obtain ⟨-, rfl⟩ := hu
  cases result with
  | error e => exact .inl trivial
  | ok removed =>
    refine .inr (hinstallable.asBefore ?_ hrestored)
    -- Nothing was registered or recorded before, since a refused row could not be undone.
    have hrestorable := hinstallable.restorable hother
    unfold ServiceState.Restorable at hrestorable
    cases hheld : before.service.held mode with
    | some held =>
      rw [hheld] at hrestorable
      exact absurd hrestorable.1 (by simp)
    | none =>
      rw [hheld] at hrestorable
      have hnothing : before.service.cleared = before.service := by
        rw [← put_none_cleared hother, ← hheld, ServiceState.put_held]
      show service = before.service
      rw [hcleared removed rfl, ← hnothing]
      show ServiceState.mk _ none s.service.current =
        ServiceState.mk _ before.service.record before.service.current
      rw [hrestorable, hcurrent]
      rfl

theorem storeMode_undone {before : InstallState} (host : Host) (swapped : Swapped)
    (hinstallable : Installable unreadable refusing ops source mode before)
    (hreplaced : Replaced before.service mode s.service) (hhosts : s.hosts = [host])
    (hrestored : AgreeBut (Discarded ops source mode before.files) before.files
      (swapped.restored s.files)) :
    (installContract unreadable refusing).wp (installFrom.storeMode ops mode host swapped)
      (AllOrNothing mode before) s := by
  refine ⟨trivial, fun stored t ht ↦ ?_⟩
  have hcommit {u : InstallState} (hservice : u.service.Recorded mode)
      (hstored : u.hosts.head?.map (·.serviceStartMode) = some mode) :
      (installContract unreadable refusing).wp swapped.commit (AllOrNothing mode before) u := by
    refine wp_mono swapped.commit_commits fun result v hv ↦ ?_
    obtain ⟨rfl, files, rfl⟩ := hv
    exact ⟨hservice, hstored⟩
  cases stored with
  | ok _ =>
    obtain rfl : t = { s with hosts := _ } := ht
    refine hcommit hreplaced.2.1 ?_
    rw [hhosts]
    simp [putRow, HostEdit.onHost]
  | error refused =>
    obtain ⟨hrefusing, rfl⟩ : refusing = true ∧ t = s := ht
    subst hrefusing
    refine ⟨trivial, fun found u hu ↦ ?_⟩
    cases found with
    | error _ =>
      obtain rfl : u = t := hu
      exact deregister_undone refused swapped hinstallable hreplaced hrestored
    | ok hosts =>
      obtain ⟨rfl, rfl⟩ : hosts = t.hosts ∧ u = t := hu
      show (installContract unreadable true).wp
        (if u.hosts.head?.map (·.serviceStartMode) = some mode then _ else _) _ u
      split_ifs with hdurable
      · exact hcommit hreplaced.2.1 hdurable
      · exact deregister_undone refused swapped hinstallable hreplaced hrestored

theorem register_undone {before : InstallState} (host : Host) (swapped : Swapped)
    (hone : before.service.Single ops)
    (hinstallable : Installable unreadable refusing ops source mode before)
    (hservice : s.service = before.service) (hhosts : s.hosts = [host])
    (hrestored : AgreeBut (Discarded ops source mode before.files) before.files
      (swapped.restored s.files)) :
    (installContract unreadable refusing).wp (installFrom.register ops source mode host swapped)
      (AllOrNothing mode before) s := by
  have hrestorable : s.service.held (otherMode mode) = none →
      s.service.Restorable unreadable mode := by
    rw [hservice]
    intro hother
    have h := hinstallable.restorable hother
    unfold ServiceState.Restorable at h ⊢
    cases hheld : before.service.held mode with
    | none =>
      rw [hheld] at h
      exact h
    | some held =>
      rw [hheld] at h
      exact ⟨(Bool.or_eq_false_iff.mp h.1).1, h.2⟩
  have hinstall : (managersContract unreadable).wp
      (ops.install (swapped.request ops source mode))
      (Undone s.service fun _ ↦ Replaced s.service mode) s.service :=
    install_undone (hservice ▸ hone) hrestorable
  refine wp_outcome_seq (asService_wp hinstall) fun result t ht ↦ ?_
  obtain ⟨service, rfl, hundone⟩ := ht
  cases result with
  | error e =>
    refine wp_seq swapped.restore_restores (fun _ u hu ↦ ?_) fun _ _ h ↦ (nomatch h.1)
    obtain ⟨-, rfl⟩ := hu
    rcases hundone with hreports | hsame
    · exact .inl hreports
    · exact .inr (hinstallable.asBefore (hsame.trans hservice) hrestored)
  | ok installed =>
    exact storeMode_undone host swapped hinstallable (hservice ▸ hundone) hhosts hrestored

/-- From every state that can be put back, the command does all or nothing, or says what is left. -/
theorem installFrom_undone (seed : Option HostSeed) (hone : s.service.Single ops)
    (hapart : (copyPaths ops source mode).Nodup)
    (hinstallable : Installable unreadable refusing ops source mode s) :
    (installContract unreadable refusing).wp (installFrom ops seed source mode)
      (AllOrNothing mode s) s := by
  have hunchanged {t : InstallState} {e : InstallFailure} (hservice : t.service = s.service)
      (hfiles : t.files = s.files) : AllOrNothing mode s (.error e) t :=
    .inr (hinstallable.asBefore hservice fun _ _ ↦ by rw [hfiles])
  refine ⟨trivial, fun opened t ht ↦ ?_⟩
  obtain rfl : t = s := ht
  cases opened with
  | error _ => exact hunchanged rfl rfl
  | ok _ =>
    show (installContract unreadable refusing).wp
      ((asHost (localHostOrCreateCall seed)).outcome >>= _) _ t
    refine wp_outcome_seq (localHost_finds seed) fun found u hu ↦ ?_
    obtain ⟨hosts, rfl, hhosts⟩ := hu
    cases found with
    | error _ => exact hunchanged rfl rfl
    | ok host =>
      show (installContract unreadable refusing).wp (match relativeDirectory ops with
        | some (purpose, path) => _
        | none => _) _ _
      cases relativeDirectory ops with
      | some directory => exact hunchanged rfl rfl
      | none =>
        refine wp_seq (swapCopies_swaps hapart) (fun swapped v hv ↦ ?_)
          fun e v hv ↦ ?_
        · obtain ⟨files, rfl, hrestored⟩ := hv
          exact register_undone host swapped hone hinstallable rfl (hhosts host rfl) hrestored
        · obtain ⟨files, rfl, -, hagree⟩ := hv
          exact .inr (hinstallable.asBefore rfl hagree)

end Command

/-! ## Runs that lose something -/

section Losses

variable {unreadable refusing : Bool} {ops : ServiceOperations} {s : InstallState}
  {source : String} {mode : StartMode}

theorem push_notOption (native : PathPlatform) (path : String) (component : List Char) :
    ServiceOperations.NotOption (push native path component) := by
  intro hoption
  have hplain : ∀ c ∈ (push native path component).toList, native.isSeparator c = false := by
    have hnone : "--service-config-dir".toList.any native.isSeparator = false := by
      cases native <;> decide
    rw [hoption]
    simpa using hnone
  unfold push at hplain
  split_ifs at hplain with hends
  · obtain ⟨last, hlast, hseparator⟩ := (Option.any_eq_true _ _).mp hends
    have hmem : last ∈ path.toList := List.mem_of_getLast? hlast
    rw [hplain last (by simp [hmem])] at hseparator
    cases hseparator
  · have hseparator := hplain native.separator (by simp)
    cases native <;> exact absurd hseparator (by decide)

theorem asService_runs {α : Type} {part rest : ServiceProgram α} {service : ServiceState}
    (h : (managersContract unreadable).Runs part s.service rest service) :
    (installContract unreadable refusing).Runs (asService part) s (asService rest)
      { s with service } := by
  generalize hstart : s.service = start at h
  induction h generalizing s with
  | cut p start =>
    subst hstart
    exact .cut _ _
  | @step c next start middle last rest answer hstep _ ih =>
    subst hstart
    have hrest := ih (s := { s with service := middle }) rfl
    exact .step answer ⟨middle, hstep, rfl⟩ hrest

theorem asked_runs {t : InstallState} {α : Type} (c : InstallCall) (answer : c.Answer)
    (hstep : s.Steps unreadable refusing c answer t) {next : c.Answer → InstallProgram α} :
    (installContract unreadable refusing).Runs (.ask c next) s (next answer) t :=
  .step answer hstep (.cut _ _)

theorem OwnedCopy.restore_runs (copy : OwnedCopy) :
    (installContract unreadable refusing).Runs copy.restore s (.done (.ok ()))
      { s with files := copy.restored s.files } := by
  have hremove : (installContract unreadable refusing).Runs
      (Program.perform (InstallCall.putBack (.remove copy.path)) : InstallProgram Unit) s
      (.done (.ok ()))
      { s with files := Function.update s.files copy.path none } := by
    rw [← remove_getD]
    exact asked_runs (.putBack (.remove copy.path)) () rfl
  refine .seq hremove ?_
  unfold OwnedCopy.restored
  cases copy.replaced with
  | none => exact .cut _ _
  | some replaced => exact asked_runs (.putBack (.rename replaced copy.path)) () rfl

theorem Swapped.restore_runs (swapped : Swapped) :
    (installContract unreadable refusing).Runs swapped.restore s (.done (.ok ()))
      { s with files := swapped.restored s.files } := by
  unfold Swapped.restore Swapped.restored
  cases swapped.supervisor with
  | none => exact swapped.owned.restore_runs
  | some supervisor =>
    exact .seq supervisor.restore_runs
      (swapped.owned.restore_runs (s := { s with files := supervisor.restored s.files }))

theorem restored_aside {copy : OwnedCopy} {aside : String} (hreplaced : copy.replaced = some aside)
    (hapart : aside ≠ copy.path) (files : Files) : copy.restored files aside = none := by
  simp only [OwnedCopy.restored, hreplaced, FileOperation.done, Function.update_of_ne hapart]
  cases hfile : files aside with
  | none =>
    show Function.update files copy.path none aside = none
    rw [Function.update_of_ne hapart, hfile]
  | some content =>
    simp only [Option.map_some, Option.getD_some]
    rw [Function.update_of_ne hapart, Function.update_self]

theorem restored_elsewhere {copy : OwnedCopy} {path : String} (hpath : path ≠ copy.path)
    (haside : ∀ aside, copy.replaced = some aside → path ≠ aside) (files : Files) :
    copy.restored files path = files path := by
  unfold OwnedCopy.restored
  cases hreplaced : copy.replaced with
  | none => exact Function.update_of_ne hpath _ _
  | some aside =>
    simp only [FileOperation.done]
    cases Function.update files copy.path none aside with
    | none => exact Function.update_of_ne hpath _ _
    | some content =>
      show Function.update (Function.update (Function.update files copy.path none) aside none)
        copy.path _ path = _
      rw [Function.update_of_ne hpath, Function.update_of_ne (haside aside hreplaced),
        Function.update_of_ne hpath]

/-- An executable that is there can be copied, and what it replaces is moved aside. -/
theorem installOwnedCopy_runs {content : Content} (hpresent : s.files source = some content)
    (hpath : source ≠ (placeOf ops source).path) (haside : source ≠ (placeOf ops source).aside)
    (hapart : (placeOf ops source).path ≠ (placeOf ops source).aside) :
    ∃ copy files, (installContract unreadable refusing).Runs (installOwnedCopy ops source) s
        (.done (.ok copy)) { s with files } ∧
      SwappedAt (placeOf ops source) s.files copy files ∧
      ((s.files (placeOf ops source).path).isSome = true →
        copy.replaced = some (placeOf ops source).aside) := by
  let place := placeOf ops source
  have hcopied (copy : OwnedCopy) (files : Files) (hsource : files source = some content) :
      (installContract unreadable refusing).Runs (installOwnedCopy.copyBinary source copy)
        { s with files } (.done (.ok copy))
        { s with files := Function.update files copy.path (some content) } :=
    asked_runs (.file (.copy source copy.path)) (.ok ())
      ⟨_, by simp [FileOperation.done, hsource], rfl⟩
  have hruns : ∃ copy files, (installContract unreadable refusing).Runs
      (installOwnedCopy ops source) s (.done (.ok copy)) { s with files } ∧
      ((s.files place.path).isSome = true → copy.replaced = some place.aside) := by
    cases hexists : s.files place.path with
    | none =>
      refine ⟨⟨place.path, none⟩, Function.update s.files place.path (some content), ?_,
        fun h ↦ (nomatch h)⟩
      refine .trans (asked_runs .createBinDirectory (.ok ()) rfl) ?_
      refine .trans (asked_runs (.fileExists place.path) false ⟨by rw [hexists]; rfl, rfl⟩) ?_
      exact hcopied ⟨place.path, none⟩ s.files hpresent
    | some old =>
      let moved :=
        Function.update (Function.update s.files place.path none) place.aside (some old)
      have hmoved : moved source = some content :=
        (Function.update_of_ne haside _ _).trans
          ((Function.update_of_ne hpath _ _).trans hpresent)
      refine ⟨⟨place.path, some place.aside⟩, Function.update moved place.path (some content), ?_,
        fun _ ↦ rfl⟩
      refine .trans (asked_runs .createBinDirectory (.ok ()) rfl) ?_
      refine .trans (asked_runs (.fileExists place.path) true ⟨by rw [hexists]; rfl, rfl⟩) ?_
      refine .trans (asked_runs (.file (.remove place.aside)) (.error "in use") ⟨_, rfl, rfl⟩) ?_
      refine .trans (asked_runs (.file (.rename place.path place.aside)) (.ok ())
        ⟨moved, by simp [FileOperation.done, hexists, moved], rfl⟩) ?_
      exact hcopied ⟨place.path, some place.aside⟩ moved hmoved
  obtain ⟨copy, files, hruns, hreplaced⟩ := hruns
  have hswaps : Swaps (placeOf ops source) s (.ok copy) { s with files } :=
    wp_runs (installOwnedCopy_swaps hapart) hruns
  obtain ⟨after, hsame, hswapped⟩ := hswaps
  cases hsame
  exact ⟨copy, files, hruns, hswapped, hreplaced⟩

/-- The command comes to the registration: there is one host row, the directories are absolute, and
the executables are there and are not the private copies themselves. -/
structure Ready (ops : ServiceOperations) (source : String) (mode : StartMode)
    (s : InstallState) : Prop where
  host : ∃ host, s.hosts = [host]
  absolute : relativeDirectory ops = none
  present : (s.files source).isSome = true ∧ source ∉ copyPaths ops source mode
  supervisor : supervised ops mode = true → (s.files (supervisorOf ops source)).isSome = true ∧
    supervisorOf ops source ∉ copyPaths ops source mode

/-- The copies are swapped, and what is given up is gone. -/
theorem swapCopies_runs (hapart : (copyPaths ops source mode).Nodup)
    (hready : Ready ops source mode s) :
    ∃ swapped files, (installContract unreadable refusing).Runs (swapCopies ops source mode) s
        (.done (.ok swapped)) { s with files } ∧
      (∃ name, (swapped.supervisor.getD swapped.owned).path = binPath ops name) ∧
      ∀ path, Discarded ops source mode s.files path → swapped.restored files path = none := by
  obtain ⟨hpresent, houtside⟩ := hready.present
  obtain ⟨content, hcontent⟩ := Option.isSome_iff_exists.mp hpresent
  obtain ⟨hpath, haside, -⟩ := not_mem_paths houtside
  obtain ⟨hplace, hboth⟩ := paths_apart hapart
  obtain ⟨copy, files, hruns, hcopy, hreplaced⟩ :=
    installOwnedCopy_runs hcontent hpath haside hplace
  have hgone {path : String} (after : Files)
      (hdiscard : (placeOf ops source).Discards s.files path) :
      copy.restored after path = none := by
    rw [hdiscard.1]
    exact restored_aside (hreplaced hdiscard.2.1) (hcopy.path ▸ hplace.symm) after
  by_cases hsupervised : supervised ops mode = true
  · obtain ⟨hthere, hbeside⟩ := hready.supervisor hsupervised
    obtain ⟨hpath', haside', hboth'⟩ := not_mem_paths hbeside
    obtain ⟨hsupervisor, hfirst, hsecond⟩ := hboth hsupervised
    obtain ⟨other, hother⟩ := Option.isSome_iff_exists.mp hthere
    have hcontent' : files (supervisorOf ops source) = some other := by
      rw [hcopy.elsewhere _ hpath' haside', hother]
    obtain ⟨second, after, hruns', hcopy', hreplaced'⟩ :=
      installOwnedCopy_runs (s := { s with files }) hcontent' (hboth' hsupervised).1
        (hboth' hsupervised).2 hsupervisor
    refine ⟨⟨copy, some second⟩, after, .seq hruns ?_, ⟨_, hcopy'.path⟩, fun path hdiscard ↦ ?_⟩
    · show (installContract unreadable refusing).Runs (if supervised ops mode = true then _ else _)
        _ _ _
      rw [if_pos hsupervised]
      exact .outcome_seq hruns' (.cut _ _)
    · rcases hdiscard with hdiscard | ⟨-, hdiscard⟩
      · exact hgone (second.restored after) hdiscard
      · obtain ⟨rfl, hexists, -⟩ := hdiscard
        rw [← hcopy.elsewhere _ hfirst.1 hfirst.2] at hexists
        show copy.restored (second.restored after) _ = none
        rw [restored_elsewhere (hcopy.path ▸ hsecond.1) fun aside h ↦ ?_]
        · exact restored_aside (hreplaced' hexists) (hcopy'.path ▸ hsupervisor.symm) after
        · rw [hcopy.replaced aside h]
          exact hsecond.2
  · refine ⟨⟨copy, none⟩, files, .seq hruns ?_, ⟨_, hcopy.path⟩, fun path hdiscard ↦ ?_⟩
    · show (installContract unreadable refusing).Runs (if supervised ops mode = true then _ else _)
        _ _ _
      rw [if_neg hsupervised]
      exact .cut _ _
    · rcases hdiscard with hdiscard | ⟨hsome, -⟩
      · exact hgone files hdiscard
      · exact absurd hsome hsupervised

variable (unreadable refusing) in
theorem installFrom_runs (seed : Option HostSeed) (hapart : (copyPaths ops source mode).Nodup)
    (hready : Ready ops source mode s) :
    ∃ host swapped files, (installContract unreadable refusing).Runs
        (installFrom ops seed source mode) s (installFrom.register ops source mode host swapped)
        { s with files } ∧
      ServiceOperations.NotOption (swapped.supervisor.getD swapped.owned).path ∧
      ∀ path, Discarded ops source mode s.files path → swapped.restored files path = none := by
  obtain ⟨host, hhosts⟩ := hready.host
  obtain ⟨swapped, files, hruns, ⟨name, hname⟩, hgone⟩ := swapCopies_runs hapart hready
  refine ⟨host, swapped, files, ?_, hname ▸ push_notOption _ _ _, hgone⟩
  have hhost : (installContract unreadable refusing).Runs (asHost (localHostOrCreateCall seed)) s
      (.done (.ok host)) s :=
    .step (.ok [host]) ⟨hhosts.symm, rfl⟩ (.cut _ _)
  refine .trans (asked_runs .openStore (.ok ()) rfl) (.outcome_seq hhost ?_)
  show (installContract unreadable refusing).Runs (match relativeDirectory ops with
    | some (purpose, path) => _
    | none => _) s _ _
  rw [hready.absolute]
  exact .seq hruns (.cut _ _)

theorem register_fails {host : Host} {swapped : Swapped} {service : ServiceState} {e : ServiceError}
    (h : (managersContract unreadable).Runs (ops.install (swapped.request ops source mode))
      s.service (.done (.error e)) service) :
    (installContract unreadable refusing).Runs (installFrom.register ops source mode host swapped) s
      (.done (.error (.service e))) { s with service, files := swapped.restored s.files } :=
  .outcome_seq (asService_runs h)
    (.seq (swapped.restore_runs (s := { s with service })) (.cut _ _))

theorem register_removes {host : Host} {swapped : Swapped} {service : ServiceState}
    {installed : ServiceOperations.Installed}
    (h : (managersContract unreadable).Runs (ops.install (swapped.request ops source mode))
      s.service (.done (.ok installed)) service) (refused : StoreError) :
    (installContract unreadable true).Runs (installFrom.register ops source mode host swapped) s
      (.done (.error (.modeNotStored refused none)))
      { s with
        service := { service.cleared with record := none }
        files := swapped.restored s.files } := by
  obtain ⟨removed, hremoved⟩ : ∃ removed, (managersContract unreadable).Runs ops.uninstall service
      (.done (.ok removed)) { service.cleared with record := none } := uninstall_runs
  refine .outcome_seq (asService_runs h) ?_
  refine .trans (asked_runs (.host (.putHost (some (.startMode mode)) _)) (.error refused)
    ⟨rfl, rfl⟩) ?_
  refine .trans (asked_runs (.host .hosts) (.error refused) rfl) ?_
  refine .outcome_seq (asService_runs (s := { s with service }) hremoved) ?_
  exact .seq (swapped.restore_runs
    (s := { s with service := { service.cleared with record := none } })) (.cut _ _)

/-- From every other state in which the command comes to the registration, some run of it does
neither all nor nothing, and does not say so. -/
theorem installFrom_loses (seed : Option HostSeed) (hone : s.service.Single ops)
    (hapart : (copyPaths ops source mode).Nodup) (hready : Ready ops source mode s)
    (hlost : ¬ Installable unreadable refusing ops source mode s) :
    ∃ result t, (installContract unreadable refusing).Runs (installFrom ops seed source mode) s
      (.done result) t ∧ ¬ AllOrNothing mode s result t := by
  obtain ⟨host, swapped, files, hruns, hbinary, hgone⟩ :=
    installFrom_runs unreadable refusing seed hapart hready
  by_cases hkept : ∀ held path, (∃ mode, s.service.held mode = some held) → RunsFile held path →
      ¬ Discarded ops source mode s.files path
  · have hrestorable : ¬ (s.service.held (otherMode mode) = none →
        s.service.Restorable (unreadable || refusing) mode) :=
      fun h ↦ hlost ⟨hkept, h⟩
    push Not at hrestorable
    obtain ⟨hother, hrestorable⟩ := hrestorable
    by_cases hreads : s.service.Restorable unreadable mode
    · -- Only a refused host row can lose it.
      obtain ⟨hrefusing, held, hheld⟩ :
          refusing = true ∧ ∃ held, s.service.held mode = some held := by
        unfold ServiceState.Restorable at hreads hrestorable
        cases hheld : s.service.held mode with
        | none =>
          rw [hheld] at hreads hrestorable
          exact absurd hreads hrestorable
        | some held =>
          rw [hheld] at hreads hrestorable
          refine ⟨?_, held, rfl⟩
          by_contra hrefusing
          exact hrestorable ⟨by simp [hreads.1, hrefusing], hreads.2⟩
      subst hrefusing
      obtain ⟨installed, service, hinstall⟩ : ∃ installed t, (managersContract unreadable).Runs
          (ops.install (swapped.request ops source mode)) s.service (.done (.ok installed)) t :=
        install_succeeds hbinary hone hother
      refine ⟨_, _, hruns.trans (register_removes (s := { s with files }) hinstall
        .sqliteConstraint), ?_⟩
      rintro (hreports | hsame)
      · exact hreports
      · have hnone := congrArg (fun service ↦ service.held mode) hsame.1
        rw [hheld] at hnone
        cases hnone
    · obtain ⟨service, hinstall, hchanged⟩ : ∃ t, (managersContract unreadable).Runs
          (ops.install (swapped.request ops source mode)) s.service (.done (.error refused)) t ∧
          t ≠ s.service := install_loses hbinary hone hother hreads
      refine ⟨_, _, hruns.trans (register_fails hinstall), ?_⟩
      rintro (hreports | hsame)
      · exact hreports
      · exact hchanged hsame.1
  · push Not at hkept
    obtain ⟨held, path, ⟨domain, hheld⟩, hpath, hdiscard⟩ := hkept
    have hfails : (managersContract unreadable).Runs (ops.install (swapped.request ops source mode))
        s.service (.done (.error refused)) s.service :=
      .seq_failed (answered_runs .createAll (.error refused) trivial rfl)
    refine ⟨_, _, hruns.trans (register_fails hfails), ?_⟩
    rintro (hreports | hsame)
    · exact hreports
    · have hthere := hdiscard.present
      have hfile : swapped.restored files path = s.files path :=
        hsame.2 domain held path hheld hpath
      rw [← hfile, hgone path hdiscard] at hthere
      cases hthere

/-- All or nothing of a switch, which touches no file. -/
def SwitchAllOrNothing (mode : StartMode) (s : InstallState) :
    Except ServiceError ServiceOperations.StartModeChange → InstallState → Prop
  | .ok _, t => t.service.Recorded mode
  | .error e, t => e.ReportsRollback ∨ s.AsBefore t

end Losses

/-- Whatever fails, in any pattern: the command does all or nothing or says what is left from every
state that can be put back, and from no other state in which it comes to the registration; a switch
of the start mode does so exactly from the states it can put back. Without an unreadable record and
without a refused host row more can be put back. -/
theorem service_all_or_nothing {ops : ServiceOperations} {source : String} {mode : StartMode}
    {s : InstallState} (hone : s.service.Single ops) (hapart : (copyPaths ops source mode).Nodup)
    (seed : Option HostSeed) (unreadable refusing : Bool) :
    (Installable unreadable refusing ops source mode s → ∀ result t,
      (installContract unreadable refusing).Runs (installFrom ops seed source mode) s
        (.done result) t → AllOrNothing mode s result t) ∧
    (Ready ops source mode s → (∀ result t,
      (installContract unreadable refusing).Runs (installFrom ops seed source mode) s
        (.done result) t → AllOrNothing mode s result t) →
      Installable unreadable refusing ops source mode s) ∧
    (s.service.Switchable mode ↔ ∀ result t,
      (installContract unreadable refusing).Runs (asService (ops.setStartMode mode)) s
        (.done result) t → SwitchAllOrNothing mode s result t) := by
  refine ⟨fun hinstallable result t hruns ↦ ?_, fun hready hall ↦ ?_,
    fun hswitchable result t hruns ↦ ?_, fun hall ↦ ?_⟩
  · exact wp_runs (installFrom_undone seed hone hapart hinstallable) hruns
  · by_contra hlost
    obtain ⟨result, t, hruns, hneither⟩ := installFrom_loses seed hone hapart hready hlost
    exact hneither (hall result t hruns)
  · obtain ⟨service, rfl, hundone⟩ :=
      wp_runs (asService_wp (setStartMode_undone hswitchable)) hruns
    cases result with
    | ok _ => exact hundone
    | error e =>
      rcases hundone with hreports | rfl
      · exact .inl hreports
      · exact .inr ⟨rfl, fun _ _ _ _ _ ↦ rfl⟩
  · by_contra hlost
    obtain ⟨result, service, hruns, hundone⟩ : ∃ result t,
        (managersContract unreadable).Runs (ops.setStartMode mode) s.service (.done result) t ∧
          ¬ Undone s.service (fun _ t ↦ t.Recorded mode) result t :=
      setStartMode_loses hone hlost
    have hneither := hall _ _ (asService_runs hruns)
    cases result with
    | ok _ => exact hundone hneither
    | error e => exact hundone (hneither.imp_right fun hsame ↦ hsame.1)

/-! ## A service that runs -/

/-- The executable the command is run from. -/
def sampleSource : String := "/usr/bin/runner-manager"

/-- What the command registers at boot. -/
def samplePlan : InstallPlan :=
  sampleOperations.resolvePlan
    (Swapped.request sampleOperations ⟨⟨"/a/state/bin/runner-manager", none⟩, none⟩ sampleSource
      .boot) "/a/state/bin/runner-manager"

def bootHost : Host :=
  freshHost 1

/-- A machine on which nothing is installed. -/
def freshMachine : InstallState where
  service := heldState none none .start
  files := fun path ↦ if path = sampleSource then some [1] else none
  hosts := [bootHost]

/-- A machine whose service runs at boot, as its record says, from an older copy. -/
def runningMachine : InstallState where
  service :=
    { heldState (some ⟨samplePlan.commandLine, true⟩) none .start with
      record := some (sampleOperations.recordOf samplePlan ⟨"systemd", none⟩ 0) }
  files := fun path ↦
    if path = sampleSource then some [1]
    else if path = "/a/state/bin/runner-manager" then some [0] else none
  hosts := [bootHost]

theorem samplePaths_apart : (copyPaths sampleOperations sampleSource .boot).Nodup := by
  decide

theorem samplePlan_own : sampleOperations.foreignDirectories samplePlan.commandLine = none := by
  have hcarries : sampleOperations.CarriesOwn samplePlan.arguments := by
    refine carriesOwn_of_named ?_
    simp [samplePlan, ServiceOperations.resolvePlan, Swapped.request, daemonArguments, optionValue,
      ServiceDirectories.arguments, ServiceDirectories.of, sampleOperations]
  refine ServiceOperations.foreignDirectories_own ?_ hcarries List.mem_cons_self
  simp [ServiceOperations.NotOption, samplePlan, ServiceOperations.resolvePlan]

/-- A machine without a service can be put back, and every run of the command does all or nothing
there. -/
theorem first_install : freshMachine.service.Single sampleOperations ∧
    Installable true true sampleOperations sampleSource .boot freshMachine ∧
      ∀ result t, (installContract true true).Runs
        (installFrom sampleOperations none sampleSource .boot) freshMachine (.done result) t →
          AllOrNothing .boot freshMachine result t := by
  have hnone : ∀ mode, freshMachine.service.held mode = none := by
    intro mode
    cases mode <;> rfl
  have hone : freshMachine.service.Single sampleOperations := by
    constructor <;> intro mode held hheld <;> rw [hnone mode] at hheld <;> cases hheld
  have hinstallable : Installable true true sampleOperations sampleSource .boot freshMachine := by
    refine ⟨?_, fun _ ↦ rfl⟩
    rintro held path ⟨mode, hheld⟩
    rw [hnone mode] at hheld
    cases hheld
  have hlaw := service_all_or_nothing hone samplePaths_apart none true true
  exact ⟨hone, hinstallable, hlaw.1 hinstallable⟩

/-- A service whose record cannot be read for once, and whose new registration is refused, is
registered no more, and the error does not say so. -/
theorem replaced_service_lost : ∃ t,
    (installContract true false).Runs (installFrom sampleOperations none sampleSource .boot)
      runningMachine (.done (.error (.service refused))) t ∧
    ¬ (InstallFailure.service refused).ReportsRollback ∧
    runningMachine.service.Single sampleOperations ∧
    runningMachine.service.Recorded .boot ∧ t.service.held .boot = none := by
  have hboot : runningMachine.service.held .boot = some ⟨samplePlan.commandLine, true⟩ := rfl
  have hone : runningMachine.service.Single sampleOperations := by
    constructor <;> intro mode held hheld <;> cases mode
    · rfl
    · cases hheld
    · cases hheld
      exact samplePlan_own
    · cases hheld
  have hready : Ready sampleOperations sampleSource .boot runningMachine :=
    ⟨⟨bootHost, rfl⟩, by decide, ⟨by decide, by decide⟩,
      fun h ↦ (nomatch h)⟩
  obtain ⟨host, swapped, files, hruns, hbinary, -⟩ :=
    installFrom_runs true false none samplePaths_apart hready
  let empty := runningMachine.service.put .boot none
  let request := swapped.request sampleOperations sampleSource .boot
  have hread : (managersContract true).Runs (found? readRecord) runningMachine.service
      (.done (.ok none)) runningMachine.service :=
    .outcome_seq (answered_runs .readRecord (.error refused) rfl rfl) (.cut _ _)
  have hplanned : (managersContract true).Runs (sampleOperations.installPlanned ⟨true, true⟩
      (sampleOperations.resolvePlan request (swapped.supervisor.getD swapped.owned).path))
      runningMachine.service (.done (.error refused)) empty :=
    .seq hread (.outcome_seq controlUninstall_runs (.outcome_seq
      (answered_runs (.install .boot _) (.error refused) trivial rfl)
      (failUndone_runs (.cut _ _) _ _)))
  have hinstall : (managersContract true).Runs (sampleOperations.install request)
      runningMachine.service (.done (.error refused)) empty :=
    install_runs hbinary hone rfl hplanned
  refine ⟨_, hruns.trans (register_fails hinstall), id, hone, ?_, ServiceState.held_put _ _ _⟩
  exact ⟨_, _, hboot, rfl, rfl, rfl, rfl⟩

end RunnerManager.App
