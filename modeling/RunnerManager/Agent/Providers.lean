import RunnerManager.Agent.Launch
import RunnerManager.Lib.Json

/-!
# The isolation providers

`crates/agent/src/oci.rs` and `crates/agent/src/lifecycle/windows_hyperv.rs`: each provider
answers the launcher's questions about an environment by running the container runtime's
command line. A provider's operation is a program over `RuntimeCommand`s; the runtime may fail
any of them and print anything. Read `Oci.inspect` and `HyperV.inspectRecord` first: they decide
what counts as absent.

Creating and starting an environment, the attached child processes and the diagnostics are left
out.
-/

namespace RunnerManager.Agent

open RunnerManager.Domain RunnerManager.Text

/-! ## Commands -/

/-- One run of a program. -/
structure RuntimeCommand where
  program : String
  args : List String
deriving DecidableEq

/-- Why a program could not be run. -/
inductive SpawnError where
  | notFound
  | permissionDenied
  | other
deriving DecidableEq

/-- What a finished program left; a program that was killed has no exit code. -/
structure ProcessOutput where
  code : Option Int
  stdout : List UInt8
  stderr : List UInt8
deriving DecidableEq

def ProcessOutput.success (output : ProcessOutput) : Bool :=
  output.code = some 0

/-- What running a program may answer. -/
abbrev CommandAnswer := Except SpawnError ProcessOutput

abbrev CommandProgram := Program RuntimeCommand (fun _ ↦ CommandAnswer)

/-- An operation of a provider that may fail. -/
abbrev RuntimeProgram := CommandProgram FailureReason

/-- The decoders the providers rely on. -/
structure Decoders where
  fromUtf8 : List UInt8 → Option String
  fromUtf8Lossy : List UInt8 → String
  parseJson : String → Option Json
  parseUuid : String → Option Nat

/-- `MAX_CAPTURE`, and the limit of the other provider. -/
def maxCapture : Nat := 64 * 1024

def providerFailure : FailureReason :=
  .isolationProvider .runtimeOperationFailed

def ownershipFailure : FailureReason :=
  .isolationProvider .ownershipMismatch

/-- A text without the white space around it. -/
def trimmed (text : String) : String :=
  String.ofList (trim text.toList)

/-- `str::lines`: the last line may lack its line feed, and is none when it is empty. -/
def lines (text : List Char) : List (List Char) :=
  let parts := text.splitOn '\n'
  (parts.dropLast.map fun line ↦ if line.getLast? = some '\r' then line.dropLast else line)
    ++ parts.getLast?.toList.filter (· ≠ [])

/-! ## Values in JSON -/

/-- The value of a field; the last of several counts. -/
def fieldOf (name : String) : Json → Option Json
  | .object fields => (fields.reverse.find? fun field ↦ field.1 = name).map (·.2)
  | _ => none

def pointer (path : List String) (value : Json) : Option Json :=
  path.foldl (fun found name ↦ found.bind (fieldOf name)) (some value)

def asStr : Json → Option String
  | .string text => some text
  | _ => none

def asBool : Json → Option Bool
  | .bool value => some value
  | _ => none

def asU64 : Json → Option Nat
  | .number value => if value ≤ u64Max then some value else none
  | _ => none

def asArray : Json → Option (List Json)
  | .array items => some items
  | _ => none

/-- A label map as `BTreeMap<String, String>` reads it. -/
def labelMap : Json → Option (List (String × String))
  | .object fields => fields.mapM fun field ↦ (asStr field.2).map fun value ↦ (field.1, value)
  | _ => none

/-- A label's value; the last of several counts. -/
def labelOf (labels : List (String × String)) (name : String) : Option String :=
  (labels.reverse.find? fun label ↦ label.1 = name).map (·.2)

/-! ## Podman -/

/-- `OciProcesses`, on Linux or elsewhere. -/
structure OciProcesses where
  host : HostId
  runtime : String
  runtimeConfigurationValid : Bool
  linux : Bool

/-- The answers of the native provider, for an attempt that is not isolated. -/
structure NativeAnswers where
  inspect : RunnerAttempt → Except FailureReason EnvironmentState
  stop : RunnerAttempt → Except FailureReason ProviderStop
  destroy : RunnerAttempt → Except FailureReason ProviderDestroy

namespace Oci

def hostLabel : String := "io.runner-manager.host"

def attemptLabel : String := "io.runner-manager.attempt"

def generationLabel : String := "io.runner-manager.generation"

def imageLabel : String := "io.runner-manager.image"

def quotaProbeMib : Nat := 1024

def boundedStorageSchema : Nat := 1

def boundedStorageMode : String := "exclusive-filesystem-pool"

variable (lib : Decoders) (oci : OciProcesses) (native : NativeAnswers)

def command (args : List String) : RuntimeProgram CommandAnswer :=
  .perform ⟨oci.runtime, args⟩

/-- What a command printed, or why its answer is not used. -/
def printed : CommandAnswer → Except FailureReason String
  | .error _ => .error providerFailure
  | .ok output =>
    if !output.success || output.stdout.length > maxCapture then .error providerFailure
    else
      match lib.fromUtf8 output.stdout with
      | some text => .ok text
      | none => .error providerFailure

def output (args : List String) : RuntimeProgram String := do
  let answer ← command oci args
  .ofExcept id (printed lib answer)

def status (args : List String) : RuntimeProgram Unit := do
  match ← command oci args with
  | .error _ => .fail providerFailure
  | .ok output => if output.success then return () else .fail providerFailure

def boundedStorageAttested (info : Json) (graphRoot runRoot : String) (requestedMib : Nat) :
    Bool :=
  (pointer ["host", "security", "rootless"] info).bind asBool = some true
    && (pointer ["store", "graphRoot"] info).bind asStr = some graphRoot
    && (pointer ["store", "runRoot"] info).bind asStr = some runRoot
    && (pointer ["runnerManagerStorage", "schema"] info).bind asU64 = some boundedStorageSchema
    && (pointer ["runnerManagerStorage", "mode"] info).bind asStr = some boundedStorageMode
    && (pointer ["runnerManagerStorage", "requestedMiB"] info).bind asU64 = some requestedMib
    && (pointer ["runnerManagerStorage", "hardCap"] info).bind asBool = some true

/-- Whether an id mapping offers a range of at least 65536. -/
def mapsEnough (info : Json) (kind : String) : Bool :=
  ((pointer ["host", "idMappings", kind] info).bind asArray).any fun ranges ↦
    ranges.any fun range ↦ ((fieldOf "size" range).bind asU64).any fun size ↦ 65536 ≤ size

/-- The static checks of `rootless_ready_for`; the two storage roots, or the refusal. -/
def checkInfo (info : Json) : Except ProviderCapability (String × String) :=
  if (pointer ["host", "security", "rootless"] info).bind asBool ≠ some true then
    .error .permissionDenied
  else if !(mapsEnough info "uidmap" && mapsEnough info "gidmap") then .error .permissionDenied
  else if (pointer ["host", "cgroupVersion"] info).bind asStr ≠ some "v2" then .error .degraded
  else
    match (pointer ["host", "cgroupControllers"] info).bind asArray with
    | none => .error .degraded
    | some controllers =>
      if !(["cpu", "memory", "pids"].all fun needed ↦
          controllers.any fun controller ↦ asStr controller = some needed) then
        .error .degraded
      else
        match (pointer ["store", "graphRoot"] info).bind asStr,
            (pointer ["store", "runRoot"] info).bind asStr with
        | some graphRoot, some runRoot =>
          if !("/".isPrefixOf graphRoot && "/".isPrefixOf runRoot)
              || "/mnt/".isPrefixOf graphRoot || "/mnt/".isPrefixOf runRoot then
            .error .permissionDenied
          else .ok (graphRoot, runRoot)
        | _, _ => .error .degraded

def rootlessReadyFor (requestedMib : Nat) : RuntimeProgram ProviderCapability := do
  if !oci.linux then return .unsupported
  else if !oci.runtimeConfigurationValid then return .permissionDenied
  else
    match ← command oci ["info", "--format=json"] with
    | .error .notFound => return .notInstalled
    | .error _ => return .degraded
    | .ok answer =>
      if !answer.success || answer.stdout.length > maxCapture then return .permissionDenied
      else
        match (lib.fromUtf8 answer.stdout).bind lib.parseJson with
        | none => return .degraded
        | some info =>
          match checkInfo info with
          | .error refusal => return refusal
          | .ok (graphRoot, runRoot) =>
            let size := "size=" ++ toString requestedMib ++ "m"
            match printed lib
                (← command oci ["--storage-opt", size, "info", "--format=json"]) with
            | .error _ => return .diskQuotaUnavailable
            | .ok probe =>
              if (pointer ["store", "graphStatus", "Backing Filesystem"] info).bind asStr
                  = some "xfs" then return .ready
              else
                match lib.parseJson probe with
                | none => return .diskQuotaUnavailable
                | some quota =>
                  if boundedStorageAttested quota graphRoot runRoot requestedMib then
                    return .ready
                  else return .diskQuotaUnavailable

/-- `capability_or`: fail with the reason, or with the capability that is missing. -/
def failCapabilityOr {α : Type} (fallback : FailureReason) : RuntimeProgram α := do
  let capability ← rootlessReadyFor lib oci quotaProbeMib
  .fail (if capability = .ready then fallback else capability.refusal)

def environmentId (attempt : RunnerAttempt) : Except FailureReason String :=
  match attempt.execution with
  | .isolated .oci (some id) _ _ => .ok id
  | _ => .error ownershipFailure

/-- The arguments that ask for a container's labels. -/
def labelsArgs (id : String) : List String :=
  ["container", "inspect", "--format", "\x7b\x7bjson .Config.Labels\x7d\x7d", id]

def readLabels (answer : CommandAnswer) : Except FailureReason (List (String × String)) :=
  match printed lib answer with
  | .error reason => .error reason
  | .ok text =>
    match (lib.parseJson (trimmed text)).bind labelMap with
    | some labels => .ok labels
    | none => .error ownershipFailure

def labels (container : String) : RuntimeProgram (List (String × String)) := do
  let answer ← command oci (labelsArgs container)
  .ofExcept id (readLabels lib answer)

/-- The arguments that ask whether a container exists. -/
def existsArgs (id : String) : List String :=
  ["container", "exists", id]

/-- `OciProcesses::exists`. -/
def containerExists (id : String) : RuntimeProgram Bool := do
  match ← command oci (existsArgs id) with
  | .error _ => .fail providerFailure
  | .ok output =>
    match output.code with
    | some 0 => return true
    | some 1 => return false
    | _ => .fail providerFailure

def matchesAttemptLabels (labels : List (String × String)) (attempt : RunnerAttempt) : Bool :=
  match attempt.execution with
  | .isolated _ _ _ generation =>
    labelOf labels hostLabel = some (uuidText oci.host.value)
      && labelOf labels attemptLabel = some (uuidText attempt.id.value)
      && labelOf labels generationLabel = some generation
  | .native _ => false

/-- The labels are the attempt's, its image included. -/
def ownedLabels (labels : List (String × String)) (attempt : RunnerAttempt) : Bool :=
  match attempt.execution with
  | .isolated _ _ image _ =>
    matchesAttemptLabels oci labels attempt && labelOf labels imageLabel = some image.reference
  | .native _ => false

def checkOwnership (attempt : RunnerAttempt) : RuntimeProgram Bool := do
  let id ← .ofExcept id (environmentId attempt)
  let found ← labels lib oci id
  return ownedLabels oci found attempt

/-- The state a container's status stands for. -/
def readState (status : String) : Except FailureReason EnvironmentState :=
  if trimmed status = "running" then .ok .running
  else if trimmed status = "created" ∨ trimmed status = "configured" then .ok .starting
  else if trimmed status = "exited" ∨ trimmed status = "stopped" then .ok .exited
  else .error providerFailure

def state (attempt : RunnerAttempt) : RuntimeProgram EnvironmentState := do
  let container ← .ofExcept id (environmentId attempt)
  if !(← containerExists oci container) then return .missing
  else if !(← checkOwnership lib oci attempt) then .fail ownershipFailure
  else
    let status ← output lib oci
      ["container", "inspect", "--format", "\x7b\x7b.State.Status\x7d\x7d", container]
    .ofExcept id (readState status)

def inspect (attempt : RunnerAttempt) : RuntimeProgram EnvironmentState :=
  if attempt.execution.isNative then .ofExcept id (native.inspect attempt)
  else state lib oci attempt

/-- The arguments that list the containers with an attempt's labels. -/
def listArgs (attempt : RunnerAttempt) (generation : String) : List String :=
  ["ps", "--all", "--no-trunc",
    "--filter", "label=" ++ hostLabel ++ "=" ++ uuidText oci.host.value,
    "--filter", "label=" ++ attemptLabel ++ "=" ++ uuidText attempt.id.value,
    "--filter", "label=" ++ generationLabel ++ "=" ++ generation,
    "--format", "\x7b\x7b.ID\x7d\x7d"]

def recover (attempt : RunnerAttempt) : RuntimeProgram EnvironmentState :=
  match attempt.execution with
  | .isolated _ none _ generation => do
    let ids ← output lib oci (listArgs oci attempt generation)
    if trim ids.toList = [] then return .missing else return .starting
  | _ => inspect lib oci native attempt

def stopArgs (id : String) : List String :=
  ["stop", "--time=10", id]

def removeArgs (id : String) : List String :=
  ["rm", "--force", id]

def stop (attempt : RunnerAttempt) : RuntimeProgram ProviderStop := do
  if attempt.execution.isNative then .ofExcept id (native.stop attempt)
  else
    let id ← .ofExcept id (environmentId attempt)
    if !(← containerExists oci id) then return .stopped
    else if (← state lib oci attempt) = .exited then return .stopped
    else if !(← checkOwnership lib oci attempt) then .fail ownershipFailure
    else
      match ← (status oci (stopArgs id)).outcome with
      | .ok _ => return .stopped
      | .error reason => failCapabilityOr lib oci reason

def destroy (attempt : RunnerAttempt) : RuntimeProgram ProviderDestroy := do
  if attempt.execution.isNative then .ofExcept id (native.destroy attempt)
  else
    let id ← .ofExcept id (environmentId attempt)
    if !(← containerExists oci id) then return .destroyed
    else if !(← checkOwnership lib oci attempt) then .fail ownershipFailure
    else
      match ← (status oci (removeArgs id)).outcome with
      | .ok _ => return .destroyed
      | .error reason => failCapabilityOr lib oci reason

def owns (attempt : RunnerAttempt) : RuntimeProgram Bool := do
  if attempt.execution.isNative then return true
  else
    let id ← .ofExcept id (environmentId attempt)
    if !(← containerExists oci id) then return false
    else checkOwnership lib oci attempt

/-- The identity a listed container's labels give, if they are complete. -/
def identityOf (host : HostId) (id : String) (labels : List (String × String)) :
    Option EnvironmentIdentity := do
  let owner ← labelOf labels hostLabel
  if owner ≠ uuidText host.value then none
  else
    let attempt ← (labelOf labels attemptLabel).bind lib.parseUuid
    let generation ← labelOf labels generationLabel
    let reference ← labelOf labels imageLabel
    let image ← (ImageReference.new reference).toOption
    return .isolated host ⟨attempt⟩ .oci id image generation

/-- Ask every listed container for its labels; one that cannot be read is passed over. -/
def identify (host : HostId) : List (List Char) → CommandProgram Empty (List EnvironmentIdentity)
  | [] => return []
  | line :: rest => do
    if line = [] || !line.all isAsciiHexdigit then identify host rest
    else
      let name := String.ofList line
      match ← (labels lib oci name).outcome with
      | .error _ => identify host rest
      | .ok found =>
        let others ← identify host rest
        return (identityOf lib host name found).toList ++ others

/-- `enumerate_owned`. A failed listing reads as an empty one. -/
def enumerateOwned (host : HostId) : CommandProgram Empty (List EnvironmentIdentity) := do
  if host ≠ oci.host then return []
  else
    match ← (output lib oci ["ps", "--all", "--no-trunc",
        "--filter", "label=" ++ hostLabel ++ "=" ++ uuidText host.value,
        "--format", "\x7b\x7b.ID\x7d\x7d"]).outcome with
    | .error _ => return []
    | .ok ids => identify lib oci host (lines ids.toList)

end Oci

/-! ## Windows containers -/

namespace HyperV

def labelHost : String := "runner-manager.host"

def labelAttempt : String := "runner-manager.attempt"

def labelGeneration : String := "runner-manager.generation"

def labelImage : String := "runner-manager.image"

def labelProvider : String := "runner-manager.provider"

def providerValue : String := "windows-hyper-v-container"

variable (lib : Decoders) (host : HostId)

def failure (message : String) : FailureReason :=
  .other message

structure CommandResult where
  success : Bool
  stdout : String
  stderr : String
deriving DecidableEq

inductive CommandFailure where
  | notFound
  | permissionDenied
  | failed
deriving DecidableEq

namespace CommandResult

/-- `CommandResult::from_output`, each text bounded. -/
def fromOutput (output : ProcessOutput) : CommandResult where
  success := output.success
  stdout := lib.fromUtf8Lossy (output.stdout.take maxCapture)
  stderr := lib.fromUtf8Lossy (output.stderr.take maxCapture)

def permissionDenied (result : CommandResult) : Bool :=
  let text := foldAscii result.stderr.toList
  Text.contains "access is denied".toList text || Text.contains "permission denied".toList text

def isMissingResource (result : CommandResult) : Bool :=
  let text := foldAscii result.stderr.toList
  Text.contains "no such container".toList text || Text.contains "no such object".toList text

def failure (result : CommandResult) : CommandFailure :=
  if result.permissionDenied then .permissionDenied else .failed

end CommandResult

/-- `SystemCommands::run`, on what running the program answered. -/
def ran : CommandAnswer → Except CommandFailure CommandResult
  | .error .notFound => .error .notFound
  | .error .permissionDenied => .error .permissionDenied
  | .error .other => .error .failed
  | .ok output => .ok (.fromOutput lib output)

def docker {ε : Type} (args : List String) :
    CommandProgram ε (Except CommandFailure CommandResult) := do
  let answer ← .perform ⟨"docker", args⟩
  return ran lib answer

/-- `ResourceRecord`, without the exit code, which the operations below do not read. -/
structure ResourceRecord where
  name : String
  state : String
  host : HostId
  attempt : AttemptId
  generation : String
  image : ImageReference
deriving DecidableEq

namespace ResourceRecord

/-- `ResourceRecord::parse`: eight fields, and a provider field of this provider. -/
def parse (line : String) : Option ResourceRecord :=
  match (line.toList.dropWhile (· == '/')).splitOn '|' with
  | [name, state, _, host, attempt, generation, image, provider] => do
    let host ← lib.parseUuid (String.ofList host)
    let attempt ← lib.parseUuid (String.ofList attempt)
    let image ← (ImageReference.new (String.ofList image)).toOption
    if String.ofList provider = providerValue then
      return {
        name := String.ofList name
        state := String.ofList state
        host := ⟨host⟩
        attempt := ⟨attempt⟩
        generation := String.ofList generation
        image }
    else none
  | _ => none

def sameOwner (found expected : ResourceRecord) : Bool :=
  found.name = expected.name && found.host = expected.host && found.attempt = expected.attempt
    && found.generation = expected.generation && found.image = expected.image

end ResourceRecord

def labelField (label : String) : String :=
  "\x7b\x7bindex .Config.Labels \"" ++ label ++ "\"\x7d\x7d"

/-- The format of `inspect_record`. -/
def recordFormat : String :=
  "\x7b\x7b.Name\x7d\x7d|\x7b\x7b.State.Status\x7d\x7d|\x7b\x7b.State.ExitCode\x7d\x7d|"
    ++ labelField labelHost ++ "|" ++ labelField labelAttempt ++ "|"
    ++ labelField labelGeneration ++ "|" ++ labelField labelImage ++ "|"
    ++ labelField labelProvider

/-- `container_inspect_args` of the record. -/
def inspectArgs (name : String) : List String :=
  ["container", "inspect", "--format", recordFormat, name]

/-- What an inspection found. A line that is no record reads as no container. -/
def readRecord : Except CommandFailure CommandResult →
    Except CommandFailure (Option ResourceRecord)
  | .error failure => .error failure
  | .ok result =>
    if !result.success then
      if result.isMissingResource then .ok none else .error result.failure
    else .ok (ResourceRecord.parse lib (trimmed result.stdout))

def inspectRecord {ε : Type} (name : String) :
    CommandProgram ε (Except CommandFailure (Option ResourceRecord)) := do
  let result ← docker lib (inspectArgs name)
  return readRecord lib result

def containerName (attempt : AttemptId) (generation : String) : String :=
  let compact := (generation.toList.filter isAsciiHexdigit).take 12
  "runner-manager-" ++ uuidText host.value ++ "-" ++ uuidText attempt.value ++ "-"
    ++ String.ofList compact

def expectedRecord (attempt : RunnerAttempt) : Option ResourceRecord :=
  match attempt.execution with
  | .isolated .windowsHyperVContainer _ image generation => some {
      name := containerName host attempt.id generation
      state := ""
      host
      attempt := attempt.id
      generation
      image }
  | _ => none

/-- The state a container's status stands for. -/
def stateOf (status : String) : EnvironmentState :=
  if status = "created" ∨ status = "restarting" then .starting
  else if status = "running" ∨ status = "paused" then .running
  else .exited

def inspect (attempt : RunnerAttempt) : RuntimeProgram EnvironmentState :=
  match expectedRecord host attempt with
  | none => .fail (failure "Windows Hyper-V allocation is invalid")
  | some expected => do
    match ← inspectRecord lib expected.name with
    | .error _ => .fail (failure "Windows Hyper-V container inspection failed")
    | .ok none => return .missing
    | .ok (some found) =>
      if !found.sameOwner expected then
        .fail (failure "Windows Hyper-V container ownership mismatch")
      else return stateOf found.state

def recover (attempt : RunnerAttempt) : RuntimeProgram EnvironmentState :=
  inspect lib host attempt

def owns (attempt : RunnerAttempt) : RuntimeProgram Bool :=
  match expectedRecord host attempt with
  | none => return false
  | some expected => do
    match ← inspectRecord lib expected.name with
    | .error _ => .fail (failure "Windows Hyper-V ownership inspection failed")
    | .ok none => return false
    | .ok (some found) => return found.sameOwner expected

/-- Whether an inspection shows nothing; one that failed shows nothing either. -/
def unseen : Except CommandFailure (Option ResourceRecord) → Bool
  | .ok (some _) => false
  | .ok none | .error _ => true

/-- Whether an inspection shows a container that has ended. -/
def ended : Except CommandFailure (Option ResourceRecord) → Bool
  | .ok (some record) => record.state = "exited" || record.state = "dead"
  | .ok none | .error _ => false

def stopArgs (name : String) : List String :=
  ["stop", "--time", "10", name]

def removeArgs (name : String) : List String :=
  ["rm", "--force", "--volumes", name]

def stop (attempt : RunnerAttempt) : RuntimeProgram ProviderStop :=
  match expectedRecord host attempt with
  | none => .fail (failure "Windows Hyper-V allocation is invalid")
  | some expected => do
    if !(← owns lib host attempt) then
      if unseen (← inspectRecord lib expected.name) then return .stopped
      else .fail (failure "Windows Hyper-V container ownership mismatch")
    else
      if ended (← inspectRecord lib expected.name) then return .stopped
      else
        match ← docker lib (stopArgs expected.name) with
        | .error _ => .fail (failure "Windows Hyper-V container stop failed")
        | .ok result =>
          if result.success || result.isMissingResource then return .stopped
          else return .stillRunning

def destroy (attempt : RunnerAttempt) : RuntimeProgram ProviderDestroy :=
  match expectedRecord host attempt with
  | none => .fail (failure "Windows Hyper-V allocation is invalid")
  | some expected => do
    if !(← owns lib host attempt) then
      if unseen (← inspectRecord lib expected.name) then return .destroyed
      else .fail (failure "Windows Hyper-V container ownership mismatch")
    else
      match ← docker lib (removeArgs expected.name) with
      | .error _ => .fail (failure "Windows Hyper-V container destroy failed")
      | .ok removed =>
        if removed.success || removed.isMissingResource then
          if unseen (← inspectRecord lib expected.name) then return .destroyed
          else return .deferred "container runtime retained resource"
        else return .deferred "container runtime retained resource"

/-- Inspect every listed name; one that is no record of this host is passed over. -/
def identify (owner : HostId) : List (List Char) → CommandProgram Empty (List EnvironmentIdentity)
  | [] => return []
  | line :: rest => do
    match ← inspectRecord lib (String.ofList line) with
    | .ok (some record) =>
      let others ← identify owner rest
      if record.host = owner then
        return .isolated record.host record.attempt .windowsHyperVContainer record.name
          record.image record.generation :: others
      else return others
    | _ => identify owner rest

/-- `enumerate_owned`. A failed listing reads as an empty one. -/
def enumerateOwned (owner : HostId) : CommandProgram Empty (List EnvironmentIdentity) := do
  match ← docker lib ["ps", "--all",
      "--filter", "label=" ++ labelHost ++ "=" ++ uuidText owner.value,
      "--format", "\x7b\x7b.Names\x7d\x7d"] with
  | .error _ => return []
  | .ok list =>
    if !list.success then return []
    else identify lib owner ((lines list.stdout.toList).take 1024)

end HyperV

/-! ## Providers -/

/-- The operations of a provider the cleanup of an attempt relies on. -/
structure ExecutionProvider where
  inspect : RunnerAttempt → RuntimeProgram EnvironmentState
  recover : RunnerAttempt → RuntimeProgram EnvironmentState
  owns : RunnerAttempt → RuntimeProgram Bool
  stop : RunnerAttempt → RuntimeProgram ProviderStop
  destroy : RunnerAttempt → RuntimeProgram ProviderDestroy
  enumerateOwned : HostId → CommandProgram Empty (List EnvironmentIdentity)

/-- The provider of rootless Linux containers. -/
def ociProvider (lib : Decoders) (oci : OciProcesses) (native : NativeAnswers) :
    ExecutionProvider where
  inspect := Oci.inspect lib oci native
  recover := Oci.recover lib oci native
  owns := Oci.owns lib oci
  stop := Oci.stop lib oci native
  destroy := Oci.destroy lib oci native
  enumerateOwned := Oci.enumerateOwned lib oci

/-- The provider of Windows containers. -/
def hyperVProvider (lib : Decoders) (host : HostId) : ExecutionProvider where
  inspect := HyperV.inspect lib host
  recover := HyperV.recover lib host
  owns := HyperV.owns lib host
  stop := HyperV.stop lib host
  destroy := HyperV.destroy lib host
  enumerateOwned := HyperV.enumerateOwned lib

end RunnerManager.Agent
