import RunnerManager.Domain.StoreRead
import RunnerManager.Platform.RunnerRoot

/-!
# Changing the runner roots

`crates/app/src/cli/workspace.rs`: `host set-runtime-root`, `host reset-runtime-root` and
`repo set-workspace`. Each command reads the store, validates the new root against every other
configured root, and then writes behind the store's fence; nothing is locked between the two.
Read `prepareHostRoot` and `prepareWorkspace` first, then `Operators.step`, where the commands
of several operators interleave.

Rendering, and the warning about a service that cannot reach the new root, are left out.
-/

namespace RunnerManager.App

open RunnerManager.Domain RunnerManager.Platform RunnerManager.Result

/-! ## Affected attempts -/

/-- The two counts a path change is refused behind. -/
structure AffectedAttempts where
  active : Nat
  cleanupBlocked : Nat
deriving DecidableEq

namespace AffectedAttempts

def saturatingAdd (a b : Nat) : Nat :=
  min (a + b) u16Max

/-- The number the store's fence is given. -/
def total (attempts : AffectedAttempts) : Nat :=
  saturatingAdd attempts.active attempts.cleanupBlocked

/-- Split an uncleaned set into the two counts. -/
def of (attempts : List RunnerAttempt) : AffectedAttempts :=
  attempts.foldl (fun counts attempt ↦
    if attempt.countsAgainstCapacity then
      { counts with active := saturatingAdd counts.active 1 }
    else { counts with cleanupBlocked := saturatingAdd counts.cleanupBlocked 1 }) ⟨0, 0⟩

end AffectedAttempts

/-! ## Errors -/

/-- Why a change is refused. -/
inductive WorkspaceFailure where
  | unreadable (source : StoreError)
  | severalHosts (count : Nat)
  | hostUndescribed (source : ValidationError)
  | hostUnrecorded (source : StoreError)
  | affected (subject : String) (attempts : AffectedAttempts)
  | unusable (source : RunnerRootError) (owner : RootOwner)
  | leafNotCreated (leaf : String) (source : IoError) (owner : RootOwner)
  | writeRefused (source : StoreError) (created : Option String)
  | policyMissing (target : ScaleTarget)
  | profileInvalid (source : ValidationError)
  | profileMissing (name : ProfileName) (target : ScaleTarget)
  | severalProfiles (target : ScaleTarget)
  | ephemeralRejectsAPath (target : ScaleTarget)
  | persistentNeedsAPath
  | workspaceInvalid (source : WorkspaceError)
  | policyInvalid (source : PolicyError)

/-! ## The effective host root -/

/-- The effective host runner root, and the value it came from. -/
structure HostRoot where
  configured : Option LocalAbsolutePath
  effective : Option LocalAbsolutePath
  unavailable : Option RunnerRootError

def hostRoot (machine : Machine) (host : Option Host) : HostRoot :=
  match host.bind (·.runnerRootOverride) with
  | some configured => ⟨some configured, some configured, none⟩
  | none =>
    match defaultRunnerRoot machine with
    | .ok root => ⟨none, some root, none⟩
    | .error source => ⟨none, none, some source⟩

/-- `local_host`: this machine's row, if its database records one. -/
def localHost (native : PathPlatform) (db : Database) : Except WorkspaceFailure (Option Host) := do
  let hosts ← (Store.hosts native db).mapError .unreadable
  match hosts with
  | [] => return none
  | [host] => return some host
  | _ => .error (.severalHosts hosts.length)

/-- What a new host row is made of. -/
structure HostSeed where
  id : HostId
  displayName : String
  os : Os
  architecture : Arch
  now : Timestamp

/-- `create_local_host`, with the default capacity of one. -/
def createLocalHost (db : Database) (seed : HostSeed) :
    Except WorkspaceFailure (Host × Database) := do
  let host ← (Host.new seed.id seed.displayName seed.os seed.architecture ⟨1, one_nonZero⟩
    seed.now).mapError .hostUndescribed
  let next ← (Store.putHost db host).mapError .hostUnrecorded
  return (host, next)

def localHostOrCreate (native : PathPlatform) (db : Database) (seed : HostSeed) :
    Except WorkspaceFailure (Host × Database) := do
  match ← localHost native db with
  | some host => return (host, db)
  | none => createLocalHost db seed

/-! ## The overlap set -/

section Commands

variable (machine : Machine)

/-- `preflight_against_everything`. A policy's root is registered under its repository's slug. -/
def preflightAgainstEverything (host : HostRoot) (policies : List ScalePolicy)
    (cache : Option LocalAbsolutePath) : RootPreflight where
  others :=
    (host.effective.toList.map fun root ↦ (RootOwner.host, root))
      ++ (policies.flatMap fun policy ↦ policy.workspacePolicy.root.toList.map fun root ↦
        (RootOwner.repository policy.target.slug, root))
      ++ (cache.toList.map fun root ↦ (RootOwner.dependencyCache, root))

/-- `validated_leaf`: validate, then create the one leaf the root needs. -/
def validatedLeaf (host : HostRoot) (policies : List ScalePolicy)
    (cache : Option LocalAbsolutePath) (owner : RootOwner) (root : LocalAbsolutePath) :
    Except WorkspaceFailure (Option String) := do
  let checked ← ((preflightAgainstEverything host policies cache).check machine owner
    root).mapError (.unusable · owner)
  match checked.leafToCreate with
  | none => return none
  | some leaf =>
    (machine.fs.createDir leaf).mapError (.leafNotCreated leaf · owner)
    return some leaf

/-! ## Up to the fenced write -/

def hostAffectedAttempts (db : Database) : Except WorkspaceFailure AffectedAttempts := do
  let attempts ← (Store.attemptsWhere db fun row ↦
    row.workspaceKind = .ephemeral && row.state ≠ .cleaned).mapError .unreadable
  return .of attempts

def policyAffectedAttempts (db : Database) (policy : ScalePolicy) :
    Except WorkspaceFailure AffectedAttempts := do
  let attempts ← (Store.attemptsWhere db fun row ↦
    row.policyId = policy.id && row.state ≠ .cleaned).mapError .unreadable
  return .of attempts

/-- A validated change: the write that is left, and the values it was validated against. -/
inductive Pending where
  | hostRoot (id : HostId) (previous : HostRoot) (policies : List ScalePolicy)
      (requested : Option LocalAbsolutePath) (affected : AffectedAttempts)
      (created : Option String)
  | workspace (policy : ScalePolicy) (expectedRevision : Nat) (target : ScaleTarget)
      (host : HostRoot) (policies : List ScalePolicy) (affected : AffectedAttempts)
      (created : Option String)

/-- `set_host_runner_root` from the host row on, up to its write. A reset validates nothing. -/
def prepareHostRoot (db : Database) (host : Host) (requested cache : Option LocalAbsolutePath) :
    Except WorkspaceFailure Pending := do
  let previous := hostRoot machine (some host)
  let affected ← hostAffectedAttempts db
  if affected.total ≠ 0 then .error (.affected "the host runner root" affected)
  else
    match requested with
    | some root =>
      let policies ← (Store.policies machine.native db).mapError .unreadable
      let created ← validatedLeaf machine previous policies cache .host root
      return .hostRoot host.id previous policies requested affected created
    | none => return .hostRoot host.id previous [] none affected none

/-- `find_policy_selected`. Targets are compared as GitHub compares them. -/
def findPolicySelected (db : Database) (target : ScaleTarget) (profile : Option String) :
    Except WorkspaceFailure ScalePolicy := do
  let policies ← (Store.policies machine.native db).mapError .unreadable
  match policies.filter fun policy ↦ policy.target.same target with
  | [] => .error (.policyMissing target)
  | first :: rest =>
    match profile with
    | some raw =>
      let name ← (ProfileName.new raw).mapError .profileInvalid
      match (first :: rest).find? fun policy ↦ policy.profileName = name with
      | some policy => return policy
      | none => .error (.profileMissing name target)
    | none => if rest = [] then return first else .error (.severalProfiles target)

/-- The workspace an operator asked for. -/
def requestedWorkspace (target : ScaleTarget) (kind : WorkspaceKind)
    (path : Option LocalAbsolutePath) : Except WorkspaceFailure WorkspacePolicy :=
  match kind, path with
  | .ephemeral, none => .ok .ephemeral
  | .ephemeral, some _ => .error (.ephemeralRejectsAPath target)
  | .persistent, some root => do
    ((WorkspacePolicy.persistent root).permittedFor target.scope).mapError .workspaceInvalid
    return .persistent root
  | .persistent, none => .error .persistentNeedsAPath

/-- The validated leaf of a persistent workspace; an ephemeral one has none. -/
def requestedLeaf (host : HostRoot) (policies : List ScalePolicy)
    (cache : Option LocalAbsolutePath) (target : ScaleTarget) (requested : WorkspacePolicy) :
    Except WorkspaceFailure (Option String) :=
  match requested.root with
  | some root => validatedLeaf machine host policies cache (.repository target.slug) root
  | none => .ok none

/-- The copy of a policy with another workspace. -/
def withWorkspace (policy : ScalePolicy) (workspace : WorkspacePolicy) :
    Except WorkspaceFailure ScalePolicy :=
  (Mutation.answer (ScalePolicy.setWorkspacePolicy workspace) policy).mapError .policyInvalid

/-- `set_repository_workspace_selected` up to its write. A change that leaves the revision as it
is has nothing to write. -/
def prepareWorkspace (db : Database) (target : ScaleTarget) (profile : Option String)
    (kind : WorkspaceKind) (path cache : Option LocalAbsolutePath) :
    Except WorkspaceFailure (Option Pending) := do
  let policies ← (Store.policies machine.native db).mapError .unreadable
  let policy ← findPolicySelected machine db target profile
  let host ← localHost machine.native db
  let host := hostRoot machine host
  let affected ← policyAffectedAttempts db policy
  if affected.total ≠ 0 then
    .error (.affected ("the workspace setting for " ++ target.slug) affected)
  else
    let requested ← requestedWorkspace target kind path
    let draft ← withWorkspace policy requested
    let created ← requestedLeaf machine host policies cache target requested
    if draft.revision = policy.revision then return none
    else return some (.workspace draft policy.revision target host policies affected created)

/-- The fenced write a validated change ends with. -/
def Pending.write (db : Database) : Pending → Except WorkspaceFailure Database
  | .hostRoot id previous _ requested affected created =>
    (Store.setRunnerRootOverride db id previous.configured requested affected.total).mapError
      (.writeRefused · created)
  | .workspace policy expectedRevision _ _ _ affected created =>
    (Store.updatePolicy machine.native db policy expectedRevision
      (some (.uncleaned, affected.total))).mapError (.writeRefused · created)

end Commands

/-! ## Operators -/

/-- The store, and the validated change each client has still to write. -/
structure Operators (C : Type) where
  db : Database
  pending : C → Option Pending

/-- One step of one client, or of the daemon. -/
inductive OperatorAction (C : Type) where
  | prepareHostRoot (client : C) (requested cache : Option LocalAbsolutePath) (seed : HostSeed)
  | prepareWorkspace (client : C) (target : ScaleTarget) (profile : Option String)
      (kind : WorkspaceKind) (path cache : Option LocalAbsolutePath)
  | write (client : C)
  | insertPolicy (policy : ScalePolicy)
  | removePolicy (id : PolicyId) (expectedRevision : Nat)
  | recordAttempt (attempt : RunnerAttempt)
  | removeAttempt (id : AttemptId)

namespace Operators

variable {C : Type} [DecidableEq C] (machine : Machine)

/-- An empty store. -/
def start : Operators C where
  db := .empty
  pending := fun _ ↦ none

/-- A client's change is validated, or there is none. -/
def hold (s : Operators C) (client : C) (pending : Option Pending) : Operators C :=
  { s with pending := Function.update s.pending client pending }

/-- A transaction; a refused one is rolled back. -/
def transact (s : Operators C) (op : StoreOp) : Operators C :=
  { s with db := op.exec machine.native s.db }

/-- One step. A policy is inserted as its constructor makes it, without a workspace of its
own. -/
def step (s : Operators C) : OperatorAction C → Operators C
  | .prepareHostRoot client requested cache seed =>
    match localHostOrCreate machine.native s.db seed with
    | .error _ => s.hold client none
    | .ok (host, next) =>
      -- a refused change leaves the host row it created
      match prepareHostRoot machine next host requested cache with
      | .ok pending => { s with db := next }.hold client (some pending)
      | .error _ => { s with db := next }.hold client none
  | .prepareWorkspace client target profile kind path cache =>
    match prepareWorkspace machine s.db target profile kind path cache with
    | .ok pending => s.hold client pending
    | .error _ => s.hold client none
  | .write client =>
    match s.pending client with
    | some pending =>
      match pending.write machine s.db with
      | .ok next => { s with db := next }.hold client none
      | .error _ => s.hold client none
    | none => s
  | .insertPolicy policy =>
    if policy.workspacePolicy = .ephemeral then s.transact machine (.insertPolicy policy) else s
  | .removePolicy id expectedRevision =>
    s.transact machine (.removePolicy id expectedRevision)
  | .recordAttempt attempt => s.transact machine (.recordAttempt attempt)
  | .removeAttempt id => s.transact machine (.removeAttempt id)

/-- The state after a sequence of steps. -/
def run (actions : List (OperatorAction C)) : Operators C :=
  actions.foldl (step machine) start

end Operators

end RunnerManager.App
