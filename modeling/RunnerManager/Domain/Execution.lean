import RunnerManager.Domain.Model

/-!
# Workspaces and execution identities

`crates/domain/src/workspace.rs` and `crates/domain/src/execution.rs`: where an attempt's
files live, and which process or provider environment it runs in. Read `canAdvanceTo`
first: it is the only way a journalled execution identity may change.
-/

namespace RunnerManager.Domain

open RunnerManager.Text

/-! ## Workspaces -/

/-- Why a workspace configuration or allocation cannot exist. -/
inductive WorkspaceError where
  | invalidPath (source : LocalPathError)
  | persistentRequiresRepositoryScope
  | persistentWithoutRoot
  | ephemeralWithRoot (root : String)
  | persistentWithoutSlot
  | ephemeralWithSlot (slot : Nat)
  | slotNotPositive
deriving DecidableEq

/-- The discriminant a policy and an attempt share. -/
inductive WorkspaceKind where
  | ephemeral
  | persistent
deriving DecidableEq

/-- A repository's configured workspace behaviour. -/
inductive WorkspacePolicy where
  | ephemeral
  | persistent (root : LocalAbsolutePath)
deriving DecidableEq

namespace WorkspacePolicy

/-- The policy's discriminant column. -/
def kind : WorkspacePolicy → WorkspaceKind
  | ephemeral => .ephemeral
  | persistent _ => .persistent

/-- The policy's root column. -/
def root : WorkspacePolicy → Option LocalAbsolutePath
  | ephemeral => none
  | persistent root => some root

/-- Whether the job workspace survives an attempt. -/
def isPersistent (policy : WorkspacePolicy) : Bool :=
  policy.kind = .persistent

/-- Persistence is repository scoped. -/
def permittedFor (policy : WorkspacePolicy) : TargetScope → Except WorkspaceError Unit
  | .repository => .ok ()
  | .organization =>
    if policy.isPersistent then .error .persistentRequiresRepositoryScope else .ok ()

/-- Rebuild a stored policy from its two columns. -/
def fromPersisted (kind : WorkspaceKind) (root : Option LocalAbsolutePath)
    (scope : TargetScope) : Except WorkspaceError WorkspacePolicy :=
  match kind, root with
  | .ephemeral, none => .ok ephemeral
  | .ephemeral, some root => .error (.ephemeralWithRoot root.text)
  | .persistent, none => .error .persistentWithoutRoot
  | .persistent, some root => do
    (persistent root).permittedFor scope
    return persistent root

theorem from_persisted_columns {policy result : WorkspacePolicy} {scope : TargetScope} :
    fromPersisted policy.kind policy.root scope = .ok result ↔
      policy.permittedFor scope = .ok () ∧ result = policy := by
  cases policy with
  | ephemeral =>
    cases scope <;> simp [fromPersisted, kind, root, permittedFor, isPersistent, eq_comm]
  | persistent path =>
    cases hpermitted : (persistent path).permittedFor scope <;>
      simp [fromPersisted, kind, root, hpermitted, bind, Except.bind, pure, Except.pure, eq_comm]

end WorkspacePolicy

/-- The immutable allocation fact journalled with one attempt. -/
inductive AttemptWorkspace where
  | ephemeral
  | persistentSlot (slot : NonZeroU16)
deriving DecidableEq

namespace AttemptWorkspace

/-- The attempt's discriminant column. -/
def kind : AttemptWorkspace → WorkspaceKind
  | ephemeral => .ephemeral
  | persistentSlot _ => .persistent

/-- The stored slot column. -/
def slotNumber : AttemptWorkspace → Option Nat
  | ephemeral => none
  | persistentSlot slot => some slot

/-- Rebuild a journalled allocation from its two columns; the slot column is a `u16`. -/
def fromPersisted (kind : WorkspaceKind) (slot : Option {n : Nat // n < 2 ^ 16}) :
    Except WorkspaceError AttemptWorkspace :=
  match kind, slot with
  | .ephemeral, none => .ok ephemeral
  | .ephemeral, some slot => .error (.ephemeralWithSlot slot)
  | .persistent, none => .error .persistentWithoutSlot
  | .persistent, some slot =>
    if h : 0 < slot.val then .ok (persistentSlot ⟨slot.val, h, slot.property⟩)
    else .error .slotNotPositive

/-- The `u16` column an allocation writes. -/
def slotColumn : AttemptWorkspace → Option {n : Nat // n < 2 ^ 16}
  | ephemeral => none
  | persistentSlot slot => some ⟨slot.val, slot.property.2⟩

theorem from_persisted_columns (workspace : AttemptWorkspace) :
    fromPersisted workspace.kind workspace.slotColumn = .ok workspace := by
  cases workspace with
  | ephemeral => rfl
  | persistentSlot slot => simp [fromPersisted, kind, slotColumn, slot.property.1]

theorem columns_of_from_persisted {workspaceKind : WorkspaceKind}
    {slot : Option {n : Nat // n < 2 ^ 16}} {workspace : AttemptWorkspace}
    (h : fromPersisted workspaceKind slot = .ok workspace) :
    workspace.kind = workspaceKind ∧ workspace.slotColumn = slot := by
  unfold fromPersisted at h
  split at h
  · cases h
    exact ⟨rfl, rfl⟩
  · cases h
  · cases h
  · split_ifs at h
    cases h
    exact ⟨rfl, rfl⟩

end AttemptWorkspace

/-! ## Execution policies -/

/-- Why an execution configuration or identity is refused. -/
inductive ExecutionError where
  | isolatedRequiresRepository
  | isolatedRequiresEphemeral
  | invalidImage
  | backendImageMismatch
  | invalidResources
  | unresolvedProvider
  | invalidEnvironmentIdentity
  | attemptIdentityMismatch
  | isolatedCleanupUnproven
deriving DecidableEq

/-- The isolation backends a policy may name. -/
inductive Backend where
  | auto
  | oci
  | windowsHyperVContainer
  | virtualMachine
deriving DecidableEq

/-- Whether a backend runs images identified by digest. -/
def Backend.needsDigest (backend : Backend) : Bool :=
  backend = .oci || backend = .windowsHyperVContainer

/-- A pinned image. A deserialised one is checked only where it is used. -/
structure ImageReference where
  reference : String
deriving DecidableEq

/-- The alphabet of identifiers and image name segments. -/
def safeChar (c : Char) : Bool :=
  isAsciiAlphanumeric c || ['.', '_', '-'].contains c

/-- One path segment of an image name. -/
def safeOciSegment (segment : List Char) : Bool :=
  segment ≠ [] && segment.all safeChar

/-- A colon is legal only as a numeric port in the registry component. -/
def ociNameIsSafe (name : List Char) : Bool :=
  match name.splitOn '/' with
  | [] => false
  | registryOrImage :: segments =>
    let first :=
      match rsplitOnce [':'] registryOrImage with
      | some (host, port) =>
        name.contains '/' && host ≠ [] && port ≠ [] && port.all Char.isDigit
          && safeOciSegment host
      | none => safeOciSegment registryOrImage
    first && segments.all safeOciSegment

/-- A digest of sixty-four hexadecimal digits. -/
def isDigest (digest : List Char) : Bool :=
  byteLen digest = 64 && digest.all isAsciiHexdigit

namespace ImageReference

/-- The checks `ImageReference::new` makes. -/
def isPinned (reference : List Char) : Bool :=
  let digestPrefix := "sha256:".toList
  let versionPrefix := "vm-version:".toList
  let valid := reference ≠ [] && byteLen reference ≤ 512 && trim reference = reference
    && !reference.any isWhitespace && !reference.contains '@'
    && (digestPrefix.isPrefixOf reference || versionPrefix.isPrefixOf reference)
  let oci := (rsplitOnce "@sha256:".toList reference).any fun (name, digest) ↦
    name ≠ [] && !name.contains '@' && !Text.contains "://".toList name
      && !name.any isWhitespace && ociNameIsSafe name && isDigest digest
  let digest := (reference.dropPrefix? digestPrefix).any isDigest
  let version := (reference.dropPrefix? versionPrefix).any fun version ↦
    version ≠ [] && byteLen version ≤ 128 && version.all safeChar
  oci || (valid && (digest || version))

def new (reference : String) : Except ExecutionError ImageReference :=
  if isPinned reference.toList then .ok ⟨reference⟩ else .error .invalidImage

def holdsDigest (image : ImageReference) : Bool :=
  Text.contains "sha256:".toList image.reference.toList

end ImageReference

/-- The limits an isolated environment is created with. -/
structure ResourceLimits where
  cpuMillis : Nat
  memoryMib : Nat
  diskMib : Nat
deriving DecidableEq

def ResourceLimits.validate (limits : ResourceLimits) : Except ExecutionError ResourceLimits :=
  if limits.cpuMillis < 100 ∨ limits.memoryMib < 256 ∨ limits.diskMib < 1024 then
    .error .invalidResources
  else .ok limits

/-- How a policy's attempts run. -/
inductive ExecutionPolicy where
  | native
  | isolated (backend : Backend) (image : ImageReference) (resources : ResourceLimits)
deriving DecidableEq

namespace ExecutionPolicy

/-- Isolation needs a repository, an ephemeral workspace, the resource floors and an image
its backend can pin. -/
def validate (policy : ExecutionPolicy) (scope : TargetScope) (workspace : WorkspacePolicy) :
    Except ExecutionError Unit :=
  match policy with
  | native => .ok ()
  | isolated backend image resources =>
    if scope ≠ .repository then .error .isolatedRequiresRepository
    else if workspace.isPersistent then .error .isolatedRequiresEphemeral
    else do
      let _ ← resources.validate
      let _ ← ImageReference.new image.reference
      if backend.needsDigest && !image.holdsDigest then .error .backendImageMismatch
      else .ok ()

/-- Whether attempts run as host processes. -/
def isNative : ExecutionPolicy → Bool
  | native => true
  | isolated .. => false

end ExecutionPolicy

/-! ## Attempt identities -/

/-- The identity of the one process or environment an attempt owns. -/
inductive AttemptExecution where
  | native (processId : Option Nat)
  | isolated (providerKind : Backend) (environmentId : Option String)
      (resolvedImage : ImageReference) (generation : String)
deriving DecidableEq

/-- Identifiers the journal may hold in clear. -/
def nonSecretId (value : String) : Bool :=
  let chars := value.toList
  chars ≠ [] && byteLen chars ≤ 128 && chars.all safeChar

namespace AttemptExecution

/-- The allocation and generation never change; a process or environment identity is
filled once and then only repeated. -/
def canAdvanceTo : AttemptExecution → AttemptExecution → Bool
  | native old, native new => old.isNone || old == new
  | isolated oldProvider oldId oldImage oldGeneration,
      isolated newProvider newId newImage newGeneration =>
      oldProvider == newProvider && oldImage == newImage && oldGeneration == newGeneration
        && (oldId.isNone || oldId == newId)
  | _, _ => false

/-- The rules a journalled identity obeys. -/
def validate : AttemptExecution → Except ExecutionError Unit
  | native _ => .ok ()
  | isolated providerKind environmentId resolvedImage generation =>
    if providerKind = .auto then .error .unresolvedProvider
    else do
      let _ ← ImageReference.new resolvedImage.reference
      if providerKind.needsDigest && !resolvedImage.holdsDigest then
        .error .backendImageMismatch
      else if !nonSecretId generation || environmentId.any (fun id ↦ !nonSecretId id) then
        .error .invalidEnvironmentIdentity
      else .ok ()

/-- Whether the attempt is a host process. -/
def isNative : AttemptExecution → Bool
  | native _ => true
  | isolated .. => false

/-- The environment of an isolated identity, once it is known. -/
def environmentId : AttemptExecution → Option String
  | native _ => none
  | isolated _ environmentId _ _ => environmentId

/-- The process a native identity names. -/
def processId : AttemptExecution → Option Nat
  | native processId => processId
  | isolated .. => none

end AttemptExecution

end RunnerManager.Domain
