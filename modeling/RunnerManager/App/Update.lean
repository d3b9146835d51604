import RunnerManager.App.ReleaseSums
import RunnerManager.App.ServiceInstall
import RunnerManager.Lib.Program

/-!
# Replacing the running binary

`crates/app/src/cli/update.rs`: `perform` decides whether there is anything to install,
`replace_from_archive` downloads and verifies the archive, `install_over` puts a file in the place
of another. Read `installOver` first. Every file operation may fail, a copy may be partial, and the
process may die before any call. Downloading and reading archives, SHA-256 and UUIDs are answers.
-/

namespace RunnerManager.App.Update

open RunnerManager.Text RunnerManager.App.ReleaseSums

/-! ## Names -/

/-- A file in the directory of the binary, or in the temporary directory. -/
abbrev Name := List Char

def withExtension (name extension : Name) : Name :=
  fileStem name ++ '.' :: extension

/-- The staging file of `install_over`. -/
def stagedName (windows : Bool) : Name :=
  ".runner-manager.update-tmp".toList ++ if windows then ".exe".toList else []

/-- The file that Windows login tasks run. -/
def supervisorName : Name := "runner-manager-supervisor.exe".toList

/-- What the sweep of old images removes: `<stem>.old.<uuid>`. -/
def isOldImage (isUuid : Name → Bool) (stem name : Name) : Bool :=
  (name.dropPrefix? (stem ++ ".old.".toList)).any isUuid

/-! ## Calls -/

/-- `io::Error`: its kind, where it is looked at, and its text. -/
structure IoError where
  permissionDenied : Bool
  text : String
deriving DecidableEq

/-- What `replace_from_archive` and `install_over` ask of the machine. -/
inductive Call where
  | temporaryDirectory
  | say (line : String)
  | flush
  /-- The closing line of `replace_from_archive`. -/
  | sayInstalled (version : List Char) (destination : Name)
  | fetchFile (asset : List Char)
  | sha256OfArchive
  /-- Write the one entry `inside` of the archive to a file of the temporary directory. -/
  | extract (inside into : Name)
  | isDir (name : Name)
  | remove (name : Name)
  /-- Copy a file of the temporary directory beside the binary. -/
  | copy (unpacked target : Name)
  | makeExecutable (name : Name)
  | newUuid
  | readDir
  /-- `Path::exists`. -/
  | present (name : Name)
  | rename (source target : Name)
deriving DecidableEq

abbrev Call.Answer : Call → Type
  | temporaryDirectory | say _ | flush | sayInstalled .. | remove _ | copy .. | makeExecutable _
  | rename .. => Except IoError Unit
  | fetchFile _ | extract .. => Except CliError Unit
  | sha256OfArchive => Except CliError (List Char)
  | isDir _ | present _ => Bool
  | newUuid => Name
  | readDir => Except IoError (List Name)

abbrev Part := Program Call Call.Answer CliError

def ask (c : Call) : Part c.Answer :=
  .perform c

/-- The machine that is updated: a system and an architecture that a release is published for,
`display_path` of the directory of the binary, and `Uuid::parse_str`. -/
structure Machine where
  os : String
  arch : String
  target : HostTarget
  published : hostTarget os arch = some target
  directory : String
  isUuid : Name → Bool

/-- `cfg!(windows)`. -/
def Machine.windows (machine : Machine) : Bool :=
  machine.os == "windows"

variable (machine : Machine)

/-- `display_path`. -/
def Machine.display (name : Name) : String :=
  machine.directory ++ (if machine.windows then "\\" else "/") ++ String.ofList name

/-- `write_failed("this update")`. -/
def writeFailed (error : IoError) : CliError :=
  ⟨.unclassified, "cannot write this update: " ++ error.text, none⟩

/-- `writeln!`. -/
def say (line : String) : Part Unit := do
  .ofExcept writeFailed (← ask (.say line))

/-! ## `install_over` -/

/-- The closure `failed` of `install_over`. -/
def failed (what : String) (error : IoError) : CliError :=
  ⟨.localState, "cannot " ++ what ++ ": " ++ error.text, some "runner-manager update"⟩

/-- What `install_over` says of a copy that failed. -/
def copyFailed (error : IoError) : CliError :=
  if error.permissionDenied then
    ⟨.localState, "cannot write into " ++ machine.directory ++
      ", so the binary there cannot be replaced: " ++ error.text, some "sudo runner-manager update"⟩
  else failed "stage the new binary beside the old one" error

/-- Remove the old images among the entries, whatever comes of it. -/
def sweep (stem : Name) : List Name → Part Unit
  | [] => pure ()
  | name :: names => do
    if isOldImage machine.isUuid stem name then
      let _ ← ask (.remove name)
      sweep stem names
    else sweep stem names

/-- Sweep the directory, if it can be read. -/
def sweepEntries (stem : Name) : Except IoError (List Name) → Part Unit
  | .ok names => sweep machine stem names
  | .error _ => pure ()

/-- Move the old image aside, if there is one. -/
def moveAside (destination aside : Name) : Part Unit := do
  if ← ask (.present destination) then
    match (← ask (.rename destination aside) : Except IoError Unit) with
    | .ok () => pure ()
    | .error error => do
      let _ ← ask (.remove (stagedName machine.windows))
      .fail (failed "move the binary being replaced aside" error)
  else pure ()

/-- Move the new binary in, or the old one back. -/
def moveIn (destination aside : Name) : Part Unit := do
  match (← ask (.rename (stagedName machine.windows) destination) : Except IoError Unit) with
  | .ok () => do
    let _ ← ask (.remove aside)
    pure ()
  | .error error => do
    let _ ← ask (.rename aside destination)
    let _ ← ask (.remove (stagedName machine.windows))
    .fail (failed "put the new binary in place" error)

/-- The last lines of `install_over` on Windows. -/
def swapIn (destination : Name) : Part Unit := do
  let uuid ← ask .newUuid
  sweepEntries machine (fileStem destination) (← ask .readDir)
  moveAside machine destination (withExtension destination ("old.".toList ++ uuid))
  moveIn machine destination (withExtension destination ("old.".toList ++ uuid))

/-- The last line of `install_over` elsewhere. -/
def renameIn (destination : Name) : Part Unit := do
  match (← ask (.rename (stagedName machine.windows) destination) : Except IoError Unit) with
  | .ok () => pure ()
  | .error error => do
    let _ ← ask (.remove (stagedName machine.windows))
    .fail (failed "put the new binary in place" error)

/-- `install_over`, of a destination in a directory. -/
def installOver (newBinary destination : Name) : Part Unit := do
  if ← ask (.isDir destination) then
    .fail ⟨.localState, machine.display destination ++
      " is a directory, not a file, so it cannot be replaced with a binary.",
      some "remove it and run runner-manager update again"⟩
  else
    let _ ← ask (.remove (stagedName machine.windows))
    .ofExcept (copyFailed machine) (← ask (.copy newBinary (stagedName machine.windows)))
    if machine.windows then swapIn machine destination
    else
      .ofExcept (failed "make the new binary executable")
        (← ask (.makeExecutable (stagedName machine.windows)))
      renameIn machine destination

/-! ## `replace_from_archive` -/

def insideArchive (published : PublishedArchive) (file : Name) : Name :=
  "runner-manager-".toList ++ published.version ++ '-' :: machine.target.triple.toList ++
    '/' :: file

/-- The refusal of an archive whose digest is not the published one. -/
def mismatch (published : PublishedArchive) (actual : List Char) : CliError :=
  ⟨.unusableResponse, "CHECKSUM MISMATCH: " ++ String.ofList published.asset ++
    " does not match the digest published beside it, so nothing has been installed and the " ++
    "binary in place is untouched.\n  expected (SHA256SUMS): " ++ String.ofList published.digest ++
    "\n  actually downloaded:   " ++ String.ofList actual ++
    "\nThat is either a corrupted download or a tampered artifact. Retry, and if it happens " ++
    "again report it at https://github.com/IvanMurzak/GitHub-Runner-Scaler-UI/issues rather " ++
    "than installing by hand.", some "runner-manager update"⟩

/-- Extract the supervisor and put it in place, on Windows. -/
def replaceSupervisor (published : PublishedArchive) : Part Unit :=
  if machine.windows then do
    .ofExcept id
      (← ask (.extract (insideArchive machine published supervisorName) supervisorName))
    installOver machine supervisorName supervisorName
  else pure ()

/-- The part of `replace_from_archive` that runs on a verified archive. -/
def installVerified (published : PublishedArchive) (destination : Name) : Part Unit := do
  say ("SHA-256 OK: " ++ String.ofList published.digest)
  .ofExcept id (← ask (.extract (insideArchive machine published machine.target.binary.toList)
    machine.target.binary.toList))
  replaceSupervisor machine published
  installOver machine machine.target.binary.toList destination
  .ofExcept writeFailed (← ask (.sayInstalled published.version destination))

def replaceFromArchive (published : PublishedArchive) (destination : Name) : Part Unit := do
  .ofExcept (fun error ↦ ⟨.localState,
      "cannot create a temporary directory to download into: " ++ error.text, none⟩)
    (← ask .temporaryDirectory)
  say ("Downloading " ++ String.ofList published.asset)
  .ofExcept writeFailed (← ask .flush)
  .ofExcept id (← ask (.fetchFile published.asset))
  let actual ← .ofExcept id (← ask .sha256OfArchive)
  if actual ≠ published.digest then .fail (mismatch published actual)
  else installVerified machine published destination

/-! ## `perform` -/

/-- `compare_versions`: what cannot be parsed is not newer. -/
def compareVersions (left right : List Char) : Ordering :=
  match parseVersion left, parseVersion right with
  | some left, some right =>
    (compare left.1 right.1).then
      ((compare left.2.1 right.2.1).then (compare left.2.2 right.2.2))
  | _, _ => .lt

inductive Channel where
  | archive
  | npm
  | homebrew
  | cargo
  | sourceBuild
  | serviceCopy
deriving DecidableEq

def Channel.describe : Channel → String
  | archive => "release archive"
  | npm => "npm"
  | homebrew => "Homebrew"
  | cargo => "cargo install"
  | sourceBuild => "a build in a checkout"
  | serviceCopy => "the copy the service runs"

structure Installation where
  channel : Channel
  path : Name
deriving DecidableEq

/-- `UpdateArgs`, and whether the daily check runs the update. -/
structure UpdateArgs where
  check : Bool
  force : Bool
  automatic : Bool

/-- What `perform` has done by others, where all that comes back is a failure.
`replaceFromArchive` is the program above. -/
inductive Act where
  | preflightForce
  | reportForceCheck (version : List Char)
  | forceServiceHandover (version : List Char)
  | reportServiceBehind (check : Bool)
  | reportManagedHosts (version : List Char)
  | reportServiceConsequence (version : List Char)
  | replaceFromArchive (published : PublishedArchive) (destination : Name)
  /-- Run a package manager, for an update to a release. -/
  | packageManager (program : String) (arguments : List String) (published : PublishedArchive)
  | confirm (program : String)

/-- What `perform` asks for. -/
inductive PerformCall where
  | detect
  /-- The binary that the service's copy was made from. -/
  | serviceSource
  | upgradedVersion (path : Name)
  | resolveSource
  | say (line : String)
  | flush
  | fetchSums
  | npmPrefix (path : Name)
  | serviceBehind
  | act (a : Act)

abbrev PerformCall.Answer : PerformCall → Type
  | detect => Except CliError Installation
  | serviceSource => Except CliError (Option Installation)
  | upgradedVersion _ => Option (List Char)
  | resolveSource | npmPrefix _ => Except CliError String
  | say _ | flush => Except IoError Unit
  | fetchSums => Except CliError (List Char)
  | serviceBehind => Bool
  | act _ => Except CliError Unit

/-- A part of `perform`. -/
abbrev Performance := Program PerformCall PerformCall.Answer CliError

/-- One call of `perform`. -/
def want (c : PerformCall) : Performance c.Answer :=
  .perform c

/-- `writeln!` in `perform`. -/
def tell (line : String) : Performance Unit := do
  .ofExcept writeFailed (← want (.say line))

/-- What others do; their failure is that of `perform`. -/
def act (a : Act) : Performance Unit := do
  .ofExcept id (← want (.act a))

def refusal (installation : Installation) : Performance (Option CliError) :=
  match installation.channel with
  | .sourceBuild => pure (some ⟨.updateUnsupported,
      "this is a build in a checkout (" ++ machine.display installation.path ++
        "), not an installation. Updating it means updating the checkout, which is a thing only " ++
        "its owner should do.",
      some "git pull && cargo build --release -p runner-manager"⟩)
  | .serviceCopy => pure (some ⟨.updateUnsupported,
      "this is the private copy `service install` made for the service to run (" ++
        machine.display installation.path ++
        "), not the installation an operator owns. Update the binary you installed; the daemon " ++
        "replaces this copy with it by itself.",
      some "runner-manager service status"⟩)
  | .npm => do
    match (← want (.npmPrefix installation.path) : Except CliError String) with
    | .ok _ => pure none
    | .error problem => pure (some problem)
  | .archive | .homebrew | .cargo => pure none

/-- The daily update of the service's copy is that of the binary it was made from. -/
def owned (args : UpdateArgs) (detected : Installation) : Performance Installation :=
  if args.automatic && detected.channel == .serviceCopy then do
    let source ← .ofExcept id (← want .serviceSource)
    pure (source.getD detected)
  else pure detected

/-- The copy, unless the daily update has nothing to do for it. -/
def due (args : UpdateArgs) (running : List Char) (installation : Installation) :
    Performance (Option Installation) :=
  if args.automatic then
    if installation.channel == .sourceBuild then pure none
    else do
      -- the daemon may still be draining after its source was updated
      match (← want (.upgradedVersion installation.path) : Option (List Char)) with
      | some version =>
        if compareVersions version running = .gt then pure none else pure (some installation)
      | none => pure (some installation)
  else pure (some installation)

def updatable (args : UpdateArgs) (running : List Char) :
    Performance (Option Installation) := do
  let detected ← .ofExcept id (← want .detect)
  due args running (← owned args detected)

/-- `perform`, where the release is the running version and `--force` is given. -/
def forceCurrent (args : UpdateArgs) (published : PublishedArchive) (problem : Option CliError) :
    Performance Unit :=
  match problem with
  | some problem =>
    if args.check then
      tell ("`runner-manager update --force` would refuse here: " ++ problem.message)
    else .fail problem
  | none =>
    if args.check then do
      match (← want (.act .preflightForce) : Except CliError Unit) with
      | .ok () => act (.reportForceCheck published.version)
      | .error problem =>
        tell ("`runner-manager update --force` would refuse here: " ++ problem.message)
    else act (.forceServiceHandover published.version)

/-- The service runs an older version than this one, which is the newest. -/
def behind (current : Bool) : Performance Bool :=
  if current then want .serviceBehind else pure false

/-- What `perform` says when there is nothing to install. -/
def upToDate (current : Bool) (running version : List Char) : String :=
  if current then
    "runner-manager " ++ String.ofList running ++ " is the newest release. Nothing to do."
  else "This host runs " ++ String.ofList running ++ ", which is newer than the " ++
    String.ofList version ++ " the release publishes. Nothing to do; `update` " ++
    "never installs an older build over a newer one."

/-- `perform`, where the release is not newer than the running version. -/
def notNewer (args : UpdateArgs) (running : List Char) (published : PublishedArchive)
    (problem : Option CliError) : Performance Unit :=
  let current := compareVersions published.version running == .eq
  if current && args.force then forceCurrent args published problem
  else do
    tell ""
    if ← behind current then do
      act (.reportServiceBehind args.check)
      act (.reportManagedHosts running)
    else do
      tell (upToDate current running published.version)
      act (.reportManagedHosts running)

/-- `perform` with `--check`, where the release is newer. -/
def reportAvailable (args : UpdateArgs) (published : PublishedArchive)
    (problem : Option CliError) : Performance Unit := do
  tell ""
  tell (String.ofList published.version ++
    " is available. Nothing has been changed, because --check was given.")
  match problem with
  | some problem => do
    tell ("`runner-manager update` would refuse here: " ++ problem.message)
    match problem.remedy with
    | some remedy => tell ("  try: " ++ remedy)
    | none => pure ()
  | none =>
    if args.force then do
      match (← want (.act .preflightForce) : Except CliError Unit) with
      | .error problem =>
        tell ("`runner-manager update --force` would refuse here: " ++ problem.message)
      | .ok () =>
        tell "Install it with: runner-manager update --force"
        act (.reportForceCheck published.version)
    else tell "Install it with: runner-manager update"

/-- A failure that ends nothing. -/
def warn : Except CliError Unit → Performance Unit
  | .ok () => pure ()
  | .error problem => tell ("warning: " ++ problem.message)

/-- The channels of `perform`. -/
def updateChannel (installation : Installation) (published : PublishedArchive) :
    Performance Unit :=
  match installation.channel with
  | .archive => act (.replaceFromArchive published installation.path)
  | .npm => do
    let npmPrefix ← .ofExcept id (← want (.npmPrefix installation.path))
    act (.packageManager "npm" ["install", "--global", "--prefix", npmPrefix,
      "@ivan-murzak/runner-manager@" ++ String.ofList published.version] published)
    act (.confirm "npm")
  | .homebrew => do
    warn (← want (.act (.packageManager "brew" ["update"] published)))
    act (.packageManager "brew" ["upgrade", "IvanMurzak/tap/runner-manager"] published)
    tell ("\nIf brew reported nothing to upgrade, the tap has not caught up with the \n" ++
      "release yet. It is updated by the same release run, usually within minutes.")
    act (.confirm "brew")
  | .cargo => do
    act (.packageManager "cargo" ["install", "runner-manager", "--version",
      String.ofList published.version, "--locked", "--force"] published)
    act (.confirm "cargo")
  | .sourceBuild | .serviceCopy => do
    let problem ← refusal machine installation
    .fail (problem.getD ⟨.updateUnsupported, "nothing to update", none⟩)

/-- A newer binary is useful only if the service can receive the handover. -/
def preflight (args : UpdateArgs) : Performance Unit :=
  if args.force then act .preflightForce else pure ()

def tellService (args : UpdateArgs) (version : List Char) : Performance Unit :=
  if args.force then act (.forceServiceHandover version)
  else act (.reportServiceConsequence version)

/-- `perform`, once the installation is known. -/
def performOn (args : UpdateArgs) (running : List Char) (installation : Installation) :
    Performance Unit := do
  let source ← .ofExcept id (← want .resolveSource)
  tell "runner-manager update"
  tell ("  installed                 " ++ String.ofList running)
  tell ("  installed by              " ++ installation.channel.describe ++ " (" ++
    machine.display installation.path ++ ")")
  tell ("  release assets            " ++ source)
  .ofExcept writeFailed (← want .flush)
  let document ← .ofExcept id (← want .fetchSums)
  let published ← .ofExcept Prod.snd (readPublishedArchive document machine.target source)
  tell ("  published                 " ++ String.ofList published.version)
  let problem ← refusal machine installation
  if compareVersions published.version running ≠ .gt then notNewer args running published problem
  else if args.check then reportAvailable args published problem
  else
    match problem with
    | some problem => .fail problem
    | none => do
      preflight args
      tell ""
      updateChannel machine installation published
      tellService args published.version
      act (.reportManagedHosts published.version)

def perform (args : UpdateArgs) (running : List Char) : Performance Unit := do
  match ← updatable args running with
  | none => pure ()
  | some installation => performOn machine args running installation

end RunnerManager.App.Update
