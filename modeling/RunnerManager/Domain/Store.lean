import RunnerManager.Domain.Journal
import RunnerManager.Domain.Policy
import RunnerManager.Lib.Result
import RunnerManager.Lib.Table

/-!
# The store

`crates/domain/src/store.rs`: three tables, the checks each row is read back through and the
transactions that write them. A transaction is a function of the database that returns the next
one or an error; an error rolls back, so it carries no database. Text columns hold text and are
parsed again on every read; the other columns hold the value their codec stores.
-/

namespace RunnerManager.Domain

open RunnerManager.Text RunnerManager.Result

/-! ## Rows -/

/-- Why a query or a transaction fails. -/
inductive StoreError where
  | unrepresentableInteger (what : String) (value : Nat)
  | corruptColumn (table column expected : String)
  | corruptHost (id : HostId) (error : ValidationError)
  | corruptHostWorkspace (id : HostId) (error : LocalPathError)
  | corruptPolicy (id : PolicyId) (error : PolicyError)
  | corruptAttempt (id : AttemptId) (error : AttemptError)
  | profileHostMissing (host : HostId)
  | corruptProfileSelector (id : PolicyId)
  | profileSelectorConflict (id sibling : PolicyId)
  | profileLabelConflict (id sibling : PolicyId)
  | profileIdentityChanged (id : PolicyId)
  | staleRevision (id : PolicyId) (expected found : Nat)
  | policyNotFound (id : PolicyId)
  | hostNotFound (id : HostId)
  | policyAlreadyExists (id : PolicyId)
  | activeCountChanged (id : PolicyId) (expected found : Nat)
  | policyUncleanedCountChanged (id : PolicyId) (expected found : Nat)
  | executionUncleanedCountChanged (id : PolicyId) (expected found : Nat)
  | hostUncleanedCountChanged (id : HostId) (expected found : Nat)
  | runnerRootChanged (id : HostId) (expected found : Option String)
  | executionAllocationChanged (id : AttemptId)
  | slotAlreadyLeased (policy : PolicyId) (slot : Nat)
  | sqliteConstraint
deriving DecidableEq

/-- The largest integer an SQLite column holds. -/
def i64Max : Nat := 2 ^ 63 - 1

def u64ToSql (what : String) (value : Nat) : Except StoreError Nat :=
  if value ≤ i64Max then .ok value else .error (.unrepresentableInteger what value)

/-- A row of `hosts`. -/
structure HostRow where
  id : HostId
  displayName : String
  os : Os
  architecture : Arch
  hostCapacity : NonZeroU16
  serviceStartMode : StartMode
  refreshIntervalSecs : {n : Nat // n < 2 ^ 16}
  runnerRootOverride : Option String
  createdAt : Timestamp
deriving DecidableEq

/-- A row of `policies`. -/
structure PolicyRow where
  id : PolicyId
  targetScope : TargetScope
  targetSlug : String
  installationId : Nat
  hostId : HostId
  requestedHostLabel : String
  profileName : String
  profileSelector : Option String
  routingLabels : Option (Label × Finset Label)
  minCapacity : Nat
  maxCapacity : Option NonZeroU16
  enabled : Bool
  state : PolicyState
  cachePolicy : CachePolicy
  workspaceMode : WorkspaceKind
  workspacePath : Option String
  executionPolicy : ExecutionPolicy
  revision : Nat
deriving DecidableEq

def PersistedAttempt.leases (row : PersistedAttempt) : Bool :=
  row.workspaceKind = .persistent && row.state ≠ .cleaned

/-- The three tables. A row of `attempts` is the record `to_persisted` makes. -/
structure Database where
  hosts : Table HostRow.id
  policies : Table PolicyRow.id
  attempts : Table PersistedAttempt.id

namespace Database

/-- A migrated database nothing was written to. -/
def empty : Database where
  hosts := .empty
  policies := .empty
  attempts := .empty

end Database

/-! ## Rows and values -/

/-- The bindings `put_host` writes. -/
def hostParams (host : Host) : HostRow where
  id := host.id
  displayName := host.displayName
  os := host.os
  architecture := host.architecture
  hostCapacity := host.hostCapacity
  serviceStartMode := host.serviceStartMode
  refreshIntervalSecs := ⟨host.refreshInterval.val, host.refreshInterval.property.2⟩
  runnerRootOverride := host.runnerRootOverride.map (·.text)
  createdAt := host.createdAt

def policyRow (policy : ScalePolicy) : PolicyRow :=
  let fields := policy.toPersisted
  { id := fields.id
    targetScope := fields.target.scope
    targetSlug := fields.target.slug
    installationId := fields.installationId
    hostId := fields.hostId
    requestedHostLabel := fields.requestedHostLabel.text
    profileName := fields.profileName.text
    profileSelector := fields.routingLabels.map (·.hostLabel.text)
    routingLabels := fields.routingLabels.map fun labels ↦ (labels.hostLabel, labels.additional)
    minCapacity := fields.minCapacity
    maxCapacity := fields.maxCapacity
    enabled := fields.enabled
    state := fields.state
    cachePolicy := fields.cachePolicy
    workspaceMode := fields.workspaceKind
    workspacePath := fields.workspaceRoot.map (·.text)
    executionPolicy := fields.executionPolicy
    revision := fields.revision }

/-- `policy_params`: the columns, if SQLite can hold the integers. -/
def policyParams (policy : ScalePolicy) : Except StoreError PolicyRow := do
  let _ ← u64ToSql "policies.installation_id" policy.installationId
  let _ ← u64ToSql "policies.revision" policy.revision
  return policyRow policy

/-- `attempt_params`: the repaired record, if SQLite can hold its integers. -/
def attemptParams (attempt : RunnerAttempt) : Except StoreError PersistedAttempt :=
  let fields := attempt.toPersisted.normalise
  match fields.githubRunnerId with
  | none => .ok fields
  | some id => (u64ToSql "attempts.github_runner_id" id).map fun _ ↦ fields

section Read

variable (native : PathPlatform)

/-- A configured path column is parsed for the platform the program runs on. -/
def readPath (column : Option String) : Except LocalPathError (Option LocalAbsolutePath) :=
  match column with
  | none => .ok none
  | some text => (LocalAbsolutePath.parseFor text native).map some

def hostFromRow (row : HostRow) : Except StoreError Host := do
  let runnerRootOverride ← (readPath native row.runnerRootOverride).mapError
    (.corruptHostWorkspace row.id)
  let host ← (Host.new row.id row.displayName row.os row.architecture row.hostCapacity
    row.createdAt).mapError (.corruptHost row.id)
  let refreshInterval ← (RefreshInterval.fromSecs row.refreshIntervalSecs.val
    row.refreshIntervalSecs.property).mapError (.corruptHost row.id)
  return { host with
    serviceStartMode := row.serviceStartMode, refreshInterval, runnerRootOverride }

/-- The record `policy_from_row` hands to the domain, once the text columns are parsed. -/
def PolicyRow.fields (row : PolicyRow) (target : ScaleTarget) (requestedHostLabel : HostLabel)
    (profileName : ProfileName) (workspaceRoot : Option LocalAbsolutePath) : PersistedPolicy where
  id := row.id
  target := target
  installationId := row.installationId
  hostId := row.hostId
  requestedHostLabel := requestedHostLabel
  profileName := profileName
  routingLabels := row.routingLabels.map fun labels ↦ .fromParts labels.1 labels.2
  minCapacity := row.minCapacity
  maxCapacity := row.maxCapacity
  enabled := row.enabled
  state := row.state
  cachePolicy := row.cachePolicy
  workspaceKind := row.workspaceMode
  workspaceRoot := workspaceRoot
  executionPolicy := row.executionPolicy
  revision := row.revision

/-- `policy_from_row`: every text is parsed again, the domain rules run again, and the
redundant selector column must agree with the label set. -/
def policyFromRow (row : PolicyRow) : Except StoreError ScalePolicy := do
  let corrupt := StoreError.corruptPolicy row.id
  let target ← (ScaleTarget.read row.targetScope row.targetSlug).mapError
    fun e ↦ corrupt (.invalid e)
  if trim row.profileName.toList ≠ row.profileName.toList then
    .error (.corruptColumn "policies" "profile_name"
      "a profile name without leading or trailing whitespace")
  let requestedHostLabel ← (HostLabel.new row.requestedHostLabel).mapError
    fun e ↦ corrupt (.invalid e)
  let profileName ← (ProfileName.new row.profileName).mapError fun e ↦ corrupt (.invalid e)
  let workspaceRoot ← (readPath native row.workspacePath).mapError
    fun e ↦ corrupt (.workspace (.invalidPath e))
  let policy ← (ScalePolicy.fromPersisted
    (row.fields target requestedHostLabel profileName workspaceRoot)).mapError corrupt
  if row.profileSelector ≠ policy.routingLabels.map (·.hostLabel.text) then
    .error (.corruptColumn "policies" "profile_selector"
      "the immutable routing selector in routing_labels")
  return policy

/-- `attempt_from_row`: the row is repaired and the domain rules run again. -/
def attemptFromRow (row : PersistedAttempt) : Except StoreError RunnerAttempt :=
  row.normalise.fromPersisted.mapError (.corruptAttempt row.id)

/-! ## Checks against other rows -/

/-- A named profile's selector is the one derived from the stored host. -/
def checkHostSelector (db : Database) (candidate : ScalePolicy) : Except StoreError Unit :=
  if candidate.profileName.isDefault then .ok ()
  else
    match db.hosts.find? candidate.hostId with
    | none => .error (.profileHostMissing candidate.hostId)
    | some row => do
      let host ← hostFromRow native row
      match candidate.routingLabels with
      | none => .ok ()
      | some found =>
        let expected := RoutingLabels.deriveForProfile candidate.requestedHostLabel host.os
          host.architecture candidate.profileName
        if found.hostLabel ≠ expected.hostLabel then
          .error (.corruptProfileSelector candidate.id)
        else .ok ()

/-- Two profiles of one target and host may not share a selector, nor may one carry the
other's among its optional labels. -/
def checkSibling (candidate sibling : ScalePolicy) : Except StoreError Unit :=
  if sibling.profileName = candidate.profileName then .ok ()
  else
    match candidate.routingLabels, sibling.routingLabels with
    | some own, some other =>
      if own.hostLabel = other.hostLabel then
        .error (.profileSelectorConflict candidate.id sibling.id)
      else if own.hostLabel ∈ other.additional then
        .error (.profileLabelConflict candidate.id sibling.id)
      else if other.hostLabel ∈ own.additional then
        .error (.profileLabelConflict candidate.id sibling.id)
      else .ok ()
    | _, _ => .ok ()

/-- The rows of the candidate's host and target, its own row excepted; the slug is compared
without regard to ASCII case. -/
def isSibling (candidate : ScalePolicy) (row : PolicyRow) : Bool :=
  row.hostId = candidate.hostId && row.targetScope = candidate.target.scope
    && eqIgnoreAsciiCase row.targetSlug candidate.target.slug && row.id ≠ candidate.id

def validateProfileInTarget (db : Database) (candidate : ScalePolicy) :
    Except StoreError Unit := do
  checkHostSelector native db candidate
  (db.policies.rows.filter (isSibling candidate)).forM fun row ↦ do
    let sibling ← policyFromRow native row
    checkSibling candidate sibling

/-- Whether a write keeps the identity a policy was inserted with. -/
def sameProfileIdentity (stored candidate : ScalePolicy) : Bool :=
  stored.profileName = candidate.profileName && stored.hostId = candidate.hostId
    && stored.target.same candidate.target
    && (stored.routingLabels.isNone
      || stored.routingLabels.map (·.hostLabel) = candidate.routingLabels.map (·.hostLabel))

def ensureProfileIdentity (db : Database) (candidate : ScalePolicy) : Except StoreError Unit :=
  match db.policies.find? candidate.id with
  | none => .ok ()
  | some row => do
    let stored ← policyFromRow native row
    if sameProfileIdentity stored candidate then .ok ()
    else .error (.profileIdentityChanged candidate.id)

/-- Which attempts a fenced policy write counts. -/
inductive CountedAttempts where
  | active
  | uncleaned
deriving DecidableEq

/-- The `WHERE` fragment of a count, on a row. -/
def CountedAttempts.selects : CountedAttempts → PersistedAttempt → Bool
  | active, row => row.state.countsAgainstCapacity
      || (!row.execution.isNative && row.state ≠ .cleaned)
  | uncleaned, row => row.state ≠ .cleaned

/-- `attempt_count_sql`: a count clamped to a `u16`. -/
def attemptCount (db : Database) (selects : PersistedAttempt → Bool) : Nat :=
  min (db.attempts.rows.countP selects) u16Max

def policyAttemptCount (db : Database) (counted : CountedAttempts) (id : PolicyId) : Nat :=
  attemptCount db fun row ↦ row.policyId = id && counted.selects row

/-- `ensure_execution_mutation_safe`: the execution mode changes only while no attempt of the
policy is left to clean. -/
def ensureExecutionMutationSafe (db : Database) (candidate : ScalePolicy) :
    Except StoreError Unit :=
  match db.policies.find? candidate.id with
  | none => .ok ()
  | some row => do
    let stored ← policyFromRow native row
    if stored.executionPolicy = candidate.executionPolicy then .ok ()
    else
      let found := policyAttemptCount db .uncleaned candidate.id
      if found ≠ 0 then .error (.executionUncleanedCountChanged candidate.id 0 found)
      else .ok ()

end Read

/-! ## Transactions -/

namespace Store

section Transactions

variable (native : PathPlatform)

/-- The unique index `one_profile_per_host_target` holds for `row` beside the other rows. -/
def profileIsFree (db : Database) (row : PolicyRow) : Bool :=
  db.policies.rows.all fun other ↦ other.id = row.id || !(other.hostId = row.hostId
    && other.targetScope = row.targetScope
    && eqIgnoreAsciiCase other.targetSlug row.targetSlug
    && eqIgnoreAsciiCase other.profileName row.profileName)

/-- `put_host`: a whole-record upsert. -/
def putHost (db : Database) (host : Host) : Except StoreError Database :=
  .ok { db with hosts := db.hosts.put (hostParams host) }

/-- `set_runner_root_override`: a fenced write of one column. -/
def setRunnerRootOverride (db : Database) (id : HostId)
    (expected newRoot : Option LocalAbsolutePath) (expectedUncleaned : Nat) :
    Except StoreError Database :=
  match db.hosts.find? id with
  | none => .error (.hostNotFound id)
  | some row =>
    let expectedText := expected.map (·.text)
    let found := attemptCount db fun row ↦ row.workspaceKind = .ephemeral && row.state ≠ .cleaned
    if row.runnerRootOverride ≠ expectedText then
      .error (.runnerRootChanged id expectedText row.runnerRootOverride)
    else if expectedUncleaned ≠ found then
      .error (.hostUncleanedCountChanged id expectedUncleaned found)
    else .ok { db with
      hosts := db.hosts.put { row with runnerRootOverride := newRoot.map (·.text) } }

def insertPolicy (db : Database) (policy : ScalePolicy) : Except StoreError Database := do
  let row ← policyParams policy
  validateProfileInTarget native db policy
  if (db.policies.find? row.id).isSome || !profileIsFree db row then
    .error (.policyAlreadyExists policy.id)
  else return { db with policies := db.policies.put row }

/-- `conflict_or_missing`: why a fenced write matched no row. -/
def conflictOrMissing (db : Database) (id : PolicyId) (expected : Nat) : StoreError :=
  match db.policies.find? id with
  | some row => .staleRevision id expected row.revision
  | none => .policyNotFound id

/-- The fence of a policy write beyond the revision: a count of the policy's attempts. -/
abbrev CountFence := Option (CountedAttempts × Nat)

/-- The answer when the revision matched and the count did not. -/
def countChanged (counted : CountedAttempts) (id : PolicyId) (expected found : Nat) : StoreError :=
  match counted with
  | .active => .activeCountChanged id expected found
  | .uncleaned => .policyUncleanedCountChanged id expected found

/-- `update_policy`, and with a fence the two guarded variants. -/
def updatePolicy (db : Database) (policy : ScalePolicy) (expectedRevision : Nat)
    (fence : CountFence) : Except StoreError Database := do
  let row ← policyParams policy
  let expectedRevision ← u64ToSql "the expected revision" expectedRevision
  ensureProfileIdentity native db policy
  ensureExecutionMutationSafe native db policy
  validateProfileInTarget native db policy
  if ((db.policies.find? row.id).map (·.revision)) ≠ some expectedRevision then
    .error (conflictOrMissing db policy.id expectedRevision)
  else
    match fence with
    | some (counted, expected) =>
      let found := policyAttemptCount db counted policy.id
      if expected ≠ found then .error (countChanged counted policy.id expected found)
      else if !profileIsFree db row then .error .sqliteConstraint
      else return { db with policies := db.policies.put row }
    | none =>
      if !profileIsFree db row then .error .sqliteConstraint
      else return { db with policies := db.policies.put row }

def removePolicy (db : Database) (id : PolicyId) (expectedRevision : Nat) :
    Except StoreError Database := do
  let expectedRevision ← u64ToSql "the expected revision" expectedRevision
  if ((db.policies.find? id).map (·.revision)) ≠ some expectedRevision then
    .error (conflictOrMissing db id expectedRevision)
  else return { db with policies := db.policies.erase id }

/-- The unique index `one_uncleaned_persistent_attempt_per_slot` holds for `row` beside the
other rows; an index entry without a slot equals no other. -/
def slotIsFree (db : Database) (row : PersistedAttempt) : Bool :=
  db.attempts.rows.all fun other ↦ other.id = row.id || !(row.leases && other.leases
    && other.policyId = row.policyId && other.workspaceSlot = row.workspaceSlot
    && row.workspaceSlot.isSome)

/-- The upsert of `record_attempt`: a stored row keeps its workspace and its allocation
time. -/
def upsertAttempt (stored : Option PersistedAttempt) (fields : PersistedAttempt) :
    PersistedAttempt :=
  match stored with
  | none => fields
  | some stored => { fields with
      workspaceKind := stored.workspaceKind
      workspaceSlot := stored.workspaceSlot
      createdAt := stored.createdAt }

def slotLeaseError (attempt : RunnerAttempt) : StoreError :=
  match attempt.workspace.slotNumber with
  | some slot =>
    if attempt.holdsSlotLease then .slotAlreadyLeased attempt.policyId slot else .sqliteConstraint
  | none => .sqliteConstraint

def recordAttempt (db : Database) (attempt : RunnerAttempt) : Except StoreError Database := do
  let fields ← attemptParams attempt
  let stored := db.attempts.find? fields.id
  if stored.any fun stored ↦ !stored.execution.canAdvanceTo fields.execution then
    .error (.executionAllocationChanged fields.id)
  else
    let row := upsertAttempt stored fields
    if !slotIsFree db row then .error (slotLeaseError attempt)
    else return { db with attempts := db.attempts.put row }

def removeAttempt (db : Database) (id : AttemptId) : Except StoreError Database :=
  .ok { db with attempts := db.attempts.erase id }

/-! ## Queries -/

def hosts (db : Database) : Except StoreError (List Host) :=
  (db.hosts.orderBy fun a b ↦ a.createdAt < b.createdAt
    ∨ a.createdAt = b.createdAt ∧ a.id.value ≤ b.id.value).mapM (hostFromRow native)

/-- One stored policy, checked against its host and its siblings. -/
def readPolicy (db : Database) (row : PolicyRow) : Except StoreError ScalePolicy := do
  let policy ← policyFromRow native row
  validateProfileInTarget native db policy
  return policy

def policy (db : Database) (id : PolicyId) : Except StoreError (Option ScalePolicy) :=
  match db.policies.find? id with
  | none => .ok none
  | some row => (readPolicy native db row).map some

def policies (db : Database) : Except StoreError (List ScalePolicy) :=
  (db.policies.orderBy fun a b ↦ a.id.value ≤ b.id.value).mapM (readPolicy native db)

/-- Rows of `attempts` selected by a predicate, oldest first. -/
def attemptsWhere (db : Database) (selects : PersistedAttempt → Bool) :
    Except StoreError (List RunnerAttempt) :=
  ((db.attempts.orderBy fun a b ↦ a.createdAt < b.createdAt
    ∨ a.createdAt = b.createdAt ∧ a.id.value ≤ b.id.value).filter selects).mapM attemptFromRow

def attempts (db : Database) : Except StoreError (List RunnerAttempt) :=
  attemptsWhere db fun _ ↦ true

def slotLeasesForPolicy (db : Database) (id : PolicyId) :
    Except StoreError (List RunnerAttempt) :=
  attemptsWhere db fun row ↦ row.policyId = id && row.leases

end Transactions

end Store

/-! ## What an accepted transaction wrote -/

theorem u64ToSql_ok {what : String} {value result : Nat} :
    u64ToSql what value = .ok result ↔ value ≤ i64Max ∧ result = value := by
  unfold u64ToSql
  split_ifs with h <;> simp [h, eq_comm]

theorem policyParams_ok {policy : ScalePolicy} {row : PolicyRow}
    (h : policyParams policy = .ok row) : row = policyRow policy ∧ policy.revision ≤ i64Max := by
  simp only [policyParams, bind_eq_ok, u64ToSql_ok, pure_eq_ok] at h
  obtain ⟨_, _, _, ⟨hrevision, _⟩, hrow⟩ := h
  exact ⟨hrow.symm, hrevision⟩

theorem attemptParams_ok {attempt : RunnerAttempt} {fields : PersistedAttempt}
    (h : attemptParams attempt = .ok fields) : fields = attempt.toPersisted.normalise := by
  simp only [attemptParams] at h
  split at h
  · cases h
    rfl
  · obtain ⟨_, _, hfields⟩ := map_eq_ok.mp h
    exact hfields.symm

namespace Store

variable {native : PathPlatform} {db next : Database}

theorem recordAttempt_ok {attempt : RunnerAttempt} (h : recordAttempt db attempt = .ok next) :
    ∃ row, row = upsertAttempt (db.attempts.find? attempt.id) attempt.toPersisted.normalise ∧
      (∀ stored, db.attempts.find? attempt.id = some stored →
        stored.execution.canAdvanceTo attempt.toPersisted.normalise.execution = true) ∧
      slotIsFree db row = true ∧ next = { db with attempts := db.attempts.put row } := by
  simp only [recordAttempt, bind_eq_ok] at h
  obtain ⟨fields, hfields, h⟩ := h
  obtain rfl := attemptParams_ok hfields
  rw [ite_error_eq_ok, ite_error_eq_ok, pure_eq_ok] at h
  obtain ⟨hadvance, hfree, rfl⟩ := h
  have hid : attempt.toPersisted.normalise.id = attempt.id := rfl
  rw [hid] at hadvance hfree
  refine ⟨_, rfl, fun stored hstored ↦ ?_, by simpa using hfree, rfl⟩
  rw [hstored] at hadvance
  simpa using hadvance

theorem insertPolicy_ok {policy : ScalePolicy} (h : insertPolicy native db policy = .ok next) :
    policy.revision ≤ i64Max ∧ validateProfileInTarget native db policy = .ok () ∧
      db.policies.find? policy.id = none ∧ profileIsFree db (policyRow policy) = true ∧
      next = { db with policies := db.policies.put (policyRow policy) } := by
  simp only [insertPolicy, bind_eq_ok] at h
  obtain ⟨row, hrow, _, hvalid, h⟩ := h
  obtain ⟨rfl, hrevision⟩ := policyParams_ok hrow
  rw [ite_error_eq_ok, pure_eq_ok] at h
  obtain ⟨hfresh, rfl⟩ := h
  have hid : (policyRow policy).id = policy.id := rfl
  rw [Bool.or_eq_true, not_or, hid] at hfresh
  exact ⟨hrevision, hvalid, by simpa using hfresh.1, by simpa using hfresh.2, rfl⟩

theorem updatePolicy_ok {policy : ScalePolicy} {expectedRevision : Nat} {fence : CountFence}
    (h : updatePolicy native db policy expectedRevision fence = .ok next) :
    policy.revision ≤ i64Max ∧ ensureProfileIdentity native db policy = .ok () ∧
      ensureExecutionMutationSafe native db policy = .ok () ∧
      validateProfileInTarget native db policy = .ok () ∧
      (∃ stored, db.policies.find? policy.id = some stored ∧
        stored.revision = expectedRevision) ∧
      profileIsFree db (policyRow policy) = true ∧
      next = { db with policies := db.policies.put (policyRow policy) } := by
  simp only [updatePolicy, bind_eq_ok] at h
  obtain ⟨row, hrow, revision, hrevision, _, hidentity, _, hsafe, _, hvalid, h⟩ := h
  obtain ⟨rfl, hbound⟩ := policyParams_ok hrow
  obtain ⟨-, rfl⟩ := u64ToSql_ok.mp hrevision
  rw [ite_error_eq_ok, not_not] at h
  obtain ⟨hmatch, h⟩ := h
  have hstored : ∃ stored, db.policies.find? policy.id = some stored ∧
      stored.revision = revision :=
    Option.map_eq_some_iff.mp hmatch
  refine ⟨hbound, hidentity, hsafe, hvalid, hstored, ?_⟩
  cases fence with
  | none =>
    simp only [ite_error_eq_ok, pure_eq_ok] at h
    exact ⟨by simpa using h.1, h.2.symm⟩
  | some guarded =>
    obtain ⟨counted, expected⟩ := guarded
    simp only [ite_error_eq_ok, pure_eq_ok] at h
    exact ⟨by simpa using h.2.1, h.2.2.symm⟩

theorem removePolicy_ok {id : PolicyId} {expectedRevision : Nat}
    (h : removePolicy db id expectedRevision = .ok next) :
    (∃ stored, db.policies.find? id = some stored ∧ stored.revision = expectedRevision) ∧
      next = { db with policies := db.policies.erase id } := by
  simp only [removePolicy, bind_eq_ok] at h
  obtain ⟨revision, hrevision, h⟩ := h
  obtain ⟨-, rfl⟩ := u64ToSql_ok.mp hrevision
  rw [ite_error_eq_ok, not_not, pure_eq_ok] at h
  exact ⟨by simpa [Option.map_eq_some_iff] using h.1, h.2.symm⟩

theorem setRunnerRootOverride_ok {id : HostId} {expected newRoot : Option LocalAbsolutePath}
    {expectedUncleaned : Nat}
    (h : setRunnerRootOverride db id expected newRoot expectedUncleaned = .ok next) :
    ∃ row, db.hosts.find? id = some row ∧ next = { db with
      hosts := db.hosts.put { row with runnerRootOverride := newRoot.map (·.text) } } := by
  simp only [setRunnerRootOverride] at h
  cases hrow : db.hosts.find? id with
  | none =>
    rw [hrow] at h
    cases h
  | some row =>
    simp only [hrow, ite_error_eq_ok, Except.ok.injEq] at h
    exact ⟨row, rfl, h.2.2.symm⟩

end Store

/-! ## Sequences of transactions -/

/-- The transactions clients run. -/
inductive StoreOp where
  | putHost (host : Host)
  | setRunnerRootOverride (id : HostId) (expected newRoot : Option LocalAbsolutePath)
      (expectedUncleaned : Nat)
  | insertPolicy (policy : ScalePolicy)
  | updatePolicy (policy : ScalePolicy) (expectedRevision : Nat) (fence : Store.CountFence)
  | removePolicy (id : PolicyId) (expectedRevision : Nat)
  | recordAttempt (attempt : RunnerAttempt)
  | removeAttempt (id : AttemptId)

namespace StoreOp

variable (native : PathPlatform)

/-- The transaction as the source performs it. -/
def run (db : Database) : StoreOp → Except StoreError Database
  | putHost host => Store.putHost db host
  | setRunnerRootOverride id expected newRoot expectedUncleaned =>
    Store.setRunnerRootOverride db id expected newRoot expectedUncleaned
  | insertPolicy policy => Store.insertPolicy native db policy
  | updatePolicy policy expectedRevision fence =>
    Store.updatePolicy native db policy expectedRevision fence
  | removePolicy id expectedRevision => Store.removePolicy db id expectedRevision
  | recordAttempt attempt => Store.recordAttempt db attempt
  | removeAttempt id => Store.removeAttempt db id

/-- The database after a transaction; a refused one is rolled back. -/
def exec (db : Database) (op : StoreOp) : Database :=
  match op.run native db with
  | .ok next => next
  | .error _ => db

/-- The database after a sequence of transactions, in the order they were serialised. -/
def execAll (ops : List StoreOp) (db : Database) : Database :=
  ops.foldl (exec native) db

theorem exec_all_induction {P : Database → Prop}
    (hstep : ∀ (op : StoreOp) db next, P db → op.run native db = .ok next → P next)
    (ops : List StoreOp) {db : Database} (hstart : P db) : P (execAll native ops db) := by
  induction ops generalizing db with
  | nil => exact hstart
  | cons op ops ih =>
    show P (execAll native ops (exec native db op))
    refine ih ?_
    rw [exec]
    cases hrun : op.run native db with
    | ok next => exact hstep op db next hstart hrun
    | error e => exact hstart

end StoreOp

end RunnerManager.Domain
