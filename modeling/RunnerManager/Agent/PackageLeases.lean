import RunnerManager.Agent.Package
import RunnerManager.Domain.Capacity
import RunnerManager.Lib.Json
import RunnerManager.Lib.Program
import Mathlib.Data.List.Sort

/-!
# Leases on runner packages

The leases and the prune of `crates/agent/src/package.rs`, and the part of a launch that uses them
(`CachedRuntimePackages` and `launch_steps` of `crates/agent/src/lifecycle.rs`). Every file
operation is a call; a lease is written over its file in place, so a call that fails may leave
the front of it. Read `PackageCache.prune` first.
-/

namespace RunnerManager.Agent.Package

open RunnerManager.Domain

/-! ## Values -/

/-- A version that was read from its own text: there is no other way to come by one. -/
abbrev Version := {version : RunnerVersion // RunnerVersion.parse version.raw = .ok version}

theorem RunnerVersion.parse_raw {raw : String} {version : RunnerVersion}
    (h : parse raw = .ok version) : version.raw = raw := by
  unfold parse at h
  simp only [Result.ite_error_eq_ok] at h
  obtain ⟨_, _, _, h⟩ := h
  cases h
  rfl

/-- `TryFrom<String>` for a version. -/
def Version.parse (raw : String) : Option Version :=
  match h : RunnerVersion.parse raw with
  | .ok version => some ⟨version, by rw [RunnerVersion.parse_raw h, h]⟩
  | .error _ => none

theorem Version.ext_raw {v w : Version} (h : v.val.raw = w.val.raw) : v = w := by
  have hv := v.property
  rw [h, w.property] at hv
  exact Subtype.ext (Except.ok.inj hv).symm

theorem Version.raw_of_parse {raw : String} {version : Version} (h : parse raw = some version) :
    version.val.raw = raw := by
  unfold parse at h
  split at h
  · next hparse =>
    cases h
    exact RunnerVersion.parse_raw hparse
  · cases h

structure Manifest where
  version : Version
  digest : Sha256Hex
  installedAt : Timestamp
  filename : String
deriving DecidableEq

/-- `InstalledPackage`; `dir` names the directory that is its root. -/
structure InstalledPackage where
  version : Version
  dir : Version
  installedAt : Timestamp
  digest : Sha256Hex
deriving DecidableEq

/-- A name in the lease directory, with what `Path::file_stem` and `Path::extension` make of it
where that is a text. -/
structure LeaseFile where
  name : List UInt8
  stem : Option String
  extension : Option String
deriving DecidableEq

/-- The refusals of leases and prunes, beside those of the package cache. -/
inductive LeaseError where
  | package (error : PackageError)
  | notInstalled (version : Version)
  | workspaceInsideCache (attempt : AttemptId) (path : Path)
  | versionInUse (version : Version) (attempt : AttemptId) (state : AttemptState)
  | versionHeldByUnknownAttempt (version : Version) (attempt : AttemptId)
  | unreadableLease (file : LeaseFile)
deriving DecidableEq

def PackageError.failureReason : PackageError → Option FailureReason
  | checksumAbsent .. | checksumMismatch .. | malformedDigest _ | unsafeArchiveEntry _ =>
    some .runnerPackageUnverified
  | versionRejected .. => some .runnerVersionRejected
  | exhausted _ source => source.failureReason
  | _ => none

def packageFailure : LeaseError → FailureReason
  | .package error =>
    error.failureReason.getD (.other "runner package cache operation failed")
  | _ => .other "runner package cache operation failed"

def packageFailureIsTerminal : FailureReason → Bool
  | .runnerPackageUnverified | .runnerVersionRejected => true
  | _ => false

/-! ## The calls -/

/-- What reading the lease directory answers; an entry may be unreadable by itself. -/
inductive LeaseListing where
  | notFound
  | failed (source : String)
  | entries (list : List (Except String LeaseFile))

/-- What reading a lease answers. -/
inductive LeaseRead where
  | gone
  | failed (source : String)
  | text (content : List Char)

/-- What removing a lease answers. -/
inductive LeaseRemoval where
  | removed
  | gone
  | failed (source : String)

/-- What a launch asks for while it holds the allocation lock. -/
inductive LeaseCall where
  | isDir (version : Version)
  | readManifest (version : Version)
  | listVersions
  | createLeases
  | writeLease (file : LeaseFile) (content : List Char)
  | removeLease (file : LeaseFile)
  | listLeases
  | readLease (file : LeaseFile)
  | removeVersion (version : Version)
  | createStaging
  | setAside (version : Version)
  | install (force : Bool)
  | treeHolds (version : Version)
  | recordTree (version : Version)
  | copyTree (version : Version) (attempt : AttemptId)
  | removeMaterialized (attempt : AttemptId)
  | demandPersists (policy : PolicyId)
  | attempts

/-- The answers. The manifest is what `read_json` makes of the file; the versions are the names in
the cache root that are versions. -/
abbrev LeaseCall.Answer : LeaseCall → Type
  | isDir _ => Bool
  | readManifest _ => Except String (Option Manifest)
  | listVersions => Except String (List Version)
  | createLeases => Except String Unit
  | writeLease .. => Except String Unit
  | removeLease _ => LeaseRemoval
  | listLeases => LeaseListing
  | readLease _ => LeaseRead
  | removeVersion _ => Except String Unit
  | createStaging => Except String Unit
  | setAside _ => Except String Unit
  | install _ => Except PackageError (InstalledPackage × Bool)
  | treeHolds _ => Except FailureReason Bool
  | recordTree _ => Except FailureReason Unit
  | copyTree .. => Except FailureReason Unit
  | removeMaterialized _ => Unit
  | demandPersists _ => Bool
  | attempts => Except Unit (List RunnerAttempt)

abbrev LeaseProgram (α : Type) := Program LeaseCall LeaseCall.Answer LeaseError α
abbrev LaunchProgram (α : Type) := Program LeaseCall LeaseCall.Answer FailureReason α

def askCache {ε : Type} (c : LeaseCall) : Program LeaseCall LeaseCall.Answer ε c.Answer :=
  Program.perform c

/-- `PackageCache`: its root, and what `uuid`, `serde_json` and the path parser of the standard
library do. -/
structure PackageCache where
  root : Path
  spell : AttemptId → String
  parseUuid : String → Option AttemptId
  decodeLease : List Char → Option String
  components : String → Path

namespace PackageCache

variable (cache : PackageCache)

/-- An operation that must succeed. -/
def orIo {α : Type} (what : String) (path : Path) (result : Except String α) : LeaseProgram α :=
  Program.ofExcept (fun source ↦ .package (.io what path source)) result

def versionDir (version : Version) : Path := cache.root.join [version.val.raw]

def leasesDir : Path := cache.root.join [".leases"]

/-- `lease_path`. -/
def leaseFile (attempt : AttemptId) : LeaseFile where
  name := (cache.spell attempt ++ ".lease").toUTF8.toList
  stem := some (cache.spell attempt)
  extension := some "lease"

/-- Where a file of the lease directory is; a name that is no text is shown as one. -/
def leasePath (file : LeaseFile) : Path :=
  cache.root.join [".leases", (file.stem.getD "") ++ "." ++ (file.extension.getD "")]

/-! ## Reading the cache -/

def entry (version : Version) : LeaseProgram (Option InstalledPackage) := do
  if ← askCache (.isDir version) then
    let manifest ← orIo "read a runner package cache file"
      ((cache.versionDir version).join [".runner-package.json"])
      (← askCache (.readManifest version))
    return manifest.map fun manifest ↦
      ⟨manifest.version, version, manifest.installedAt, manifest.digest⟩
  else return none

/-- The loop of `PackageCache::installed`. -/
def entries : List Version → LeaseProgram (List InstalledPackage)
  | [] => return []
  | version :: rest => do
    let found ← cache.entry version
    let others ← entries rest
    return found.toList ++ others

/-- The order of versions: their numbers, then their text. -/
def versionLe (left right : InstalledPackage) : Bool :=
  left.version.val.parts < right.version.val.parts ||
    (left.version.val.parts = right.version.val.parts &&
      left.version.val.raw ≤ right.version.val.raw)

def installed : LeaseProgram (List InstalledPackage) := do
  let versions ← orIo "read the runner package cache" cache.root (← askCache .listVersions)
  let found ← cache.entries versions
  return found.insertionSort fun left right ↦ versionLe left right = true

/-! ## Leases -/

def leaseText (raw : String) : List Char :=
  Json.renderPretty 0 (.object [("version", .string raw)])

def isInside (root candidate : Path) : Bool :=
  let normalise (path : Path) : List PathComponent := path.filter fun
    | .normal _ | .rootDir | .drive _ => true
    | .curDir | .parentDir => false
  !candidate.contains .parentDir && (normalise root).isPrefixOf (normalise candidate)

def lease (attempt : RunnerAttempt) (version : Version) : LeaseProgram Unit := do
  match ← cache.entry version with
  | none => Program.fail (.notInstalled version)
  | some _ =>
    let runtime := cache.components attempt.runtimePath
    if isInside cache.root runtime then
      Program.fail (.workspaceInsideCache attempt.id runtime)
    else
      orIo "create a runner package cache directory" cache.leasesDir (← askCache .createLeases)
      let file := cache.leaseFile attempt.id
      orIo "write a runner package cache file" (cache.leasePath file)
        (← askCache (.writeLease file (leaseText version.val.raw)))

def release (attempt : AttemptId) : LeaseProgram Unit := do
  match ← askCache (.removeLease (cache.leaseFile attempt)) with
  | .removed | .gone => return ()
  | .failed source =>
    orIo "release a runner package lease" (cache.leasePath (cache.leaseFile attempt))
      (.error source)

/-- `holder_of`, with `read_lease`. -/
def holderOf (file : LeaseFile) (version : Version) : LeaseProgram (Option AttemptId) := do
  match file.stem.bind cache.parseUuid with
  | none => Program.fail (.unreadableLease file)
  | some id =>
    match ← askCache (.readLease file) with
    | .gone => return none
    | .failed source => orIo "read a runner package lease" (cache.leasePath file) (.error source)
    | .text content =>
      match (cache.decodeLease content).bind Version.parse with
      | none => Program.fail (.unreadableLease file)
      | some held => return if held = version then some id else none

/-- The loop of `PackageCache::holders`. -/
def holdersAmong (version : Version) :
    List (Except String LeaseFile) → LeaseProgram (List AttemptId)
  | [] => return []
  | .error source :: _ =>
    orIo "read the runner package leases" cache.leasesDir (.error source)
  | .ok file :: rest => do
    if file.extension ≠ some "lease" then holdersAmong version rest
    else
      let holder ← cache.holderOf file version
      let others ← holdersAmong version rest
      return holder.toList ++ others

def holders (version : Version) : LeaseProgram (List AttemptId) := do
  match ← askCache .listLeases with
  | .notFound => return []
  | .failed source => orIo "read the runner package leases" cache.leasesDir (.error source)
  | .entries list =>
    let found ← cache.holdersAmong version list
    return found.insertionSort (·.value ≤ ·.value)

/-! ## Pruning -/

/-- What stops a prune: the first holder that is not one of the attempts, or still counts. -/
def heldBy (version : Version) (attempts : List RunnerAttempt) :
    List AttemptId → Option LeaseError
  | [] => none
  | holder :: rest =>
    match attempts.find? (·.id = holder) with
    | some attempt =>
      if attempt.countsAgainstCapacity then
        some (.versionInUse version holder attempt.state)
      else heldBy version attempts rest
    | none => some (.versionHeldByUnknownAttempt version holder)

/-- Releases, until one fails. -/
def releaseAll : List AttemptId → LeaseProgram Unit
  | [] => return ()
  | holder :: rest => do
    cache.release holder
    releaseAll rest

def prune (version : Version) (attempts : List RunnerAttempt) : LeaseProgram Unit := do
  match ← cache.entry version with
  | none => Program.fail (.notInstalled version)
  | some _ =>
    let holders ← cache.holders version
    match heldBy version attempts holders with
    | some refusal => Program.fail refusal
    | none =>
      orIo "remove a cached runner package" (cache.versionDir version)
        (← askCache (.removeVersion version))
      cache.releaseAll holders

/-! ## Launches -/

/-- A step of the cache, as a launch sees it. -/
def inLaunch {α : Type} (part : LeaseProgram α) : LaunchProgram α := do
  Program.ofExcept packageFailure (← part.outcome)

/-- The loop of `reinstall` over what is installed. -/
def setAsideAll : List InstalledPackage → LeaseProgram Unit
  | [] => return ()
  | package :: rest => do
    orIo "set aside a runner package to reinstall it" (cache.versionDir package.dir)
      (← askCache (.setAside package.dir))
    setAsideAll rest

def reinstall : LeaseProgram InstalledPackage := do
  orIo "create a runner package cache directory" (cache.root.join [".staging"])
    (← askCache .createStaging)
  cache.setAsideAll (← cache.installed)
  let result ← askCache (.install true)
  return (← Program.ofExcept .package result).1

/-- What `materialize` leases: what is installed, or a fresh install where a job may have changed
it; and whether it was installed now. -/
def trusted : LaunchProgram (InstalledPackage × Bool) := do
  let result ← askCache (.install false)
  let (installed, downloaded) ← Program.ofExcept (packageFailure ∘ .package) result
  if downloaded then return (installed, true)
  else if ← Program.ofExcept id (← askCache (.treeHolds installed.dir)) then
    return (installed, false)
  else return (← inLaunch cache.reinstall, true)

def materialize (attempt : RunnerAttempt) : LaunchProgram Version := do
  let (installed, fresh) ← cache.trusted
  if fresh then Program.ofExcept id (← askCache (.recordTree installed.dir))
  match ← askCache (.copyTree installed.dir attempt.id) with
  | .error _ =>
    askCache (.removeMaterialized attempt.id)
    Program.fail .processStartFailed
  | .ok _ =>
    match ← (cache.lease attempt installed.version).outcome with
    | .error error =>
      askCache (.removeMaterialized attempt.id)
      Program.fail (packageFailure error)
    | .ok _ => return installed.version

/-- `materialize_with_retry`, with so many retries left. -/
def materializeWithRetry (attempt : RunnerAttempt) : Nat → LaunchProgram Version
  | 0 => cache.materialize attempt
  | left + 1 => do
    match ← (cache.materialize attempt).outcome with
    | .ok version => return version
    | .error reason =>
      if packageFailureIsTerminal reason then Program.fail reason
      -- Asked before the wait, and once more after it.
      else if (← askCache (.demandPersists attempt.policyId)) = false then
        Program.fail reason
      else if (← askCache (.demandPersists attempt.policyId)) = false then
        Program.fail reason
      else materializeWithRetry attempt left

/-- The loop of `prune_obsolete_guarded`. -/
def pruneObsolete (current : Version) (attempts : List RunnerAttempt) :
    List InstalledPackage → LaunchProgram Unit
  | [] => return ()
  | package :: rest => do
    if package.version ≠ current then
      match ← (cache.prune package.version attempts).outcome with
      | .ok _ | .error (.versionInUse ..) => pruneObsolete current attempts rest
      | .error error => Program.fail (packageFailure error)
    else pruneObsolete current attempts rest

/-- The steps of a launch up to its prune. -/
def launchSteps (attempt : RunnerAttempt) (budget : Nat) : LaunchProgram Version := do
  let version ← cache.materializeWithRetry attempt budget
  let attempts ← Program.ofExcept (fun _ ↦ .other "journal") (← askCache .attempts)
  let installed ← inLaunch cache.installed
  cache.pruneObsolete version attempts installed
  return version

end PackageCache

end RunnerManager.Agent.Package
