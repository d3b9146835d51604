import RunnerManager.Domain.Capacity
import RunnerManager.Domain.StoreClosure
import RunnerManager.Lib.Json
import RunnerManager.Lib.Sql

/-!
# The count a write is fenced by

The `WHERE` fragments of `crates/domain/src/store.rs` as the conditions the source assembles, over
the stored tokens and the stored JSON. Read `active_sql_holds` first: on a row the assembled
condition is the domain's own predicate. From there each sub-select is the saturating count over
the attempts a caller loads, and a fenced write is decided by comparing the two.
-/

namespace RunnerManager.Domain

open RunnerManager.Text RunnerManager.Result RunnerManager.Sql

/-! ## What the columns hold -/

def AttemptState.all : List AttemptState :=
  [.allocated, .preparing, .prepared, .jitReceived, .starting, .idle, .busy, .finished, .failed,
    .orphaned, .destroying, .cleanupDeferred, .cleaned]

/-- `token` of a state. -/
def AttemptState.token : AttemptState → String
  | allocated => "allocated"
  | preparing => "preparing"
  | prepared => "prepared"
  | jitReceived => "jit_received"
  | starting => "starting"
  | idle => "idle"
  | busy => "busy"
  | finished => "finished"
  | failed => "failed"
  | orphaned => "orphaned"
  | destroying => "destroying"
  | cleanupDeferred => "cleanup_deferred"
  | cleaned => "cleaned"

/-- `token` of a workspace kind. -/
def WorkspaceKind.token : WorkspaceKind → String
  | ephemeral => "ephemeral"
  | persistent => "persistent"

/-- `token` of a backend. -/
def Backend.token : Backend → String
  | auto => "auto"
  | oci => "oci"
  | windowsHyperVContainer => "windows_hyper_v_container"
  | virtualMachine => "virtual_machine"

/-- A missing value is written as `null`. -/
def jsonOption {α : Type} (write : α → Json) : Option α → Json
  | none => .null
  | some value => write value

/-- The JSON of an execution identity, tagged by its kind. -/
def AttemptExecution.toJson : AttemptExecution → Json
  | native processId => .object [("kind", .string "native"),
      ("process_id", jsonOption .number processId)]
  | isolated providerKind environmentId resolvedImage generation => .object [
      ("kind", .string "isolated"),
      ("provider_kind", .string providerKind.token),
      ("environment_id", jsonOption .string environmentId),
      ("resolved_image", .object [("reference", .string resolvedImage.reference)]),
      ("generation", .string generation)]

/-- `json_extract(value, '$.field')` as text; a missing field and `null` are `NULL`. -/
def jsonExtract (value : Json) (field : String) : Option String :=
  match value with
  | .object fields =>
    match fields.find? fun entry ↦ entry.1 = field with
    | some (_, .string text) => some text
    | some (_, .null) | none => none
    | some (_, other) => some (String.ofList other.render)
  | _ => none

/-- What the fragments compare. -/
inductive AttemptOperand where
  | policyId
  | state
  | workspaceMode
  | execution (field : String)
deriving DecidableEq

/-- A value a fragment compares with. The text of an identifier stands as the identifier. -/
inductive SqlValue where
  | id (policy : PolicyId)
  | text (value : String)
deriving DecidableEq

def PersistedAttempt.operand (row : PersistedAttempt) : AttemptOperand → Option SqlValue
  | .policyId => some (.id row.policyId)
  | .state => some (.text row.state.token)
  | .workspaceMode => some (.text row.workspaceKind.token)
  | .execution field => (jsonExtract row.execution.toJson field).map .text

abbrev AttemptCondition := Condition AttemptOperand SqlValue

def uncleanedSql : AttemptCondition :=
  .differs .state (.text AttemptState.cleaned.token)

def activeSql : AttemptCondition :=
  .or (.isIn .state ((AttemptState.all.filter (·.countsAgainstCapacity)).map (.text ·.token)))
    (.and (.equals (.execution "kind") (.text "isolated")) uncleanedSql)

def uncleanedOfKindSql (kind : WorkspaceKind) : AttemptCondition :=
  .and (.equals .workspaceMode (.text kind.token)) uncleanedSql

def attemptCountCeiling : Nat := u16Max

/-- `attempt_count_sql`, run on the journal. -/
def attemptCountSql (db : Database) (condition : AttemptCondition) : Nat :=
  countUpTo PersistedAttempt.operand attemptCountCeiling condition db.attempts.rows

/-- `CountedAttempts::count_sql`, run on the journal with the policy bound. -/
def CountedAttempts.countSql (counted : CountedAttempts) (db : Database) (id : PolicyId) : Nat :=
  attemptCountSql db <| .and (.equals .policyId (.id id)) <|
    match counted with
    | .active => activeSql
    | .uncleaned => uncleanedSql

/-- The count `set_runner_root_override` is fenced by. -/
def uncleanedEphemeralSql (db : Database) : Nat :=
  attemptCountSql db (uncleanedOfKindSql .ephemeral)

def clampedCount (found : Nat) : Nat :=
  if found < 2 ^ 16 then found else attemptCountCeiling

/-! ## The fragments select what the domain counts -/

variable {row : PersistedAttempt} {db : Database}

theorem AttemptState.mem_all (state : AttemptState) : state ∈ AttemptState.all := by
  cases state <;> decide

theorem AttemptState.token_injective {a b : AttemptState} (h : a.token = b.token) : a = b := by
  have hpairs : ∀ x ∈ AttemptState.all, ∀ y ∈ AttemptState.all, x.token = y.token → x = y := by
    decide
  exact hpairs a a.mem_all b b.mem_all h

theorem AttemptState.token_eq_iff {a b : AttemptState} : a.token = b.token ↔ a = b :=
  ⟨token_injective, fun h ↦ h ▸ rfl⟩

theorem WorkspaceKind.token_eq_iff {a b : WorkspaceKind} : a.token = b.token ↔ a = b := by
  cases a <;> cases b <;> decide

theorem extract_kind (execution : AttemptExecution) :
    jsonExtract execution.toJson "kind" =
      some (if execution.isNative then "native" else "isolated") := by
  cases execution <;> rfl

theorem uncleaned_sql_holds :
    uncleanedSql.holds row.operand = decide (row.state ≠ .cleaned) := by
  have hstate : row.operand .state = some (.text row.state.token) := rfl
  rw [uncleanedSql, Condition.holds_differs hstate]
  simp [AttemptState.token_eq_iff]

theorem listed_token_iff (state : AttemptState) :
    ((AttemptState.all.filter (·.countsAgainstCapacity)).map (SqlValue.text ·.token)).contains
      (.text state.token) = state.countsAgainstCapacity := by
  cases state <;> decide

theorem active_sql_holds : activeSql.holds row.operand = (row.state.countsAgainstCapacity
    || (!row.execution.isNative && decide (row.state ≠ .cleaned))) := by
  have hstate : row.operand .state = some (.text row.state.token) := rfl
  have hkind : row.operand (.execution "kind") =
      some (.text (if row.execution.isNative then "native" else "isolated")) := by
    show (jsonExtract row.execution.toJson "kind").map SqlValue.text = _
    rw [extract_kind]
    rfl
  have hisolated : (Condition.equals (AttemptOperand.execution "kind")
      (SqlValue.text "isolated")).holds row.operand = !row.execution.isNative := by
    rw [Condition.holds_equals hkind]
    cases row.execution.isNative <;> decide
  rw [activeSql, Condition.holds_or, Condition.holds_and, Condition.holds_isIn hstate,
    listed_token_iff, hisolated, uncleaned_sql_holds]

theorem uncleaned_of_kind_sql_holds (kind : WorkspaceKind) :
    (uncleanedOfKindSql kind).holds row.operand =
      (decide (row.workspaceKind = kind) && decide (row.state ≠ .cleaned)) := by
  have hmode : row.operand .workspaceMode = some (.text row.workspaceKind.token) := rfl
  rw [uncleanedOfKindSql, Condition.holds_and, Condition.holds_equals hmode, uncleaned_sql_holds]
  simp [WorkspaceKind.token_eq_iff]

theorem count_sql_eq (counted : CountedAttempts) (id : PolicyId) :
    counted.countSql db id = policyAttemptCount db counted id := by
  refine countUpTo_congr fun row _ ↦ ?_
  have hid : row.operand .policyId = some (.id row.policyId) := rfl
  rw [Condition.holds_and, Condition.holds_equals hid]
  cases counted with
  | active =>
    rw [active_sql_holds, CountedAttempts.selects]
    simp
  | uncleaned =>
    rw [uncleaned_sql_holds, CountedAttempts.selects]
    simp

theorem uncleaned_ephemeral_sql_eq : uncleanedEphemeralSql db =
    attemptCount db fun row ↦ row.workspaceKind = .ephemeral && row.state ≠ .cleaned := by
  refine countUpTo_congr fun row _ ↦ ?_
  rw [uncleaned_of_kind_sql_holds]

/-! ## The counts a caller computes -/

/-- How many of the loaded attempts of one policy are left to clean. -/
def uncleanedCountFor (policy : PolicyId) (attempts : List RunnerAttempt) : Nat :=
  min (attempts.countP fun attempt ↦ attempt.policyId = policy && attempt.state ≠ .cleaned) u16Max

/-- How many of the loaded attempts of the whole host are left to clean and ephemeral. -/
def uncleanedEphemeralCount (attempts : List RunnerAttempt) : Nat :=
  min (attempts.countP fun attempt ↦
    attempt.workspace.kind = .ephemeral && attempt.state ≠ .cleaned) u16Max

/-- The sub-selects over the journal are the counts over the attempts loaded from it. -/
structure CountsAgree (db : Database) (loaded : List RunnerAttempt) : Prop where
  active : ∀ id, CountedAttempts.active.countSql db id = activeCountFor id loaded
  uncleaned : ∀ id, CountedAttempts.uncleaned.countSql db id = uncleanedCountFor id loaded
  ephemeral : uncleanedEphemeralSql db = uncleanedEphemeralCount loaded

theorem repaired_is_native (state : AttemptState) (processId : Option Nat)
    (execution : AttemptExecution) :
    (PersistedAttempt.repairedExecution state processId execution).isNative =
      execution.isNative := by
  unfold PersistedAttempt.repairedExecution
  split_ifs with hlegacy
  · rw [hlegacy.2]
    rfl
  · rfl

theorem loaded_fields {attempt : RunnerAttempt} (h : attemptFromRow row = .ok attempt) :
    attempt.policyId = row.policyId ∧ attempt.state = row.state ∧
      attempt.workspace.kind = row.workspaceKind ∧
      attempt.execution.isNative = row.execution.isNative := by
  simp only [attemptFromRow, mapError_eq_ok, PersistedAttempt.fromPersisted, bind_eq_ok,
    pure_eq_ok] at h
  obtain ⟨workspace, hworkspace, _, -, _, -, _, -, _, -, _, -, _, -, rfl⟩ := h
  refine ⟨rfl, rfl, (AttemptWorkspace.columns_of_from_persisted hworkspace).1, ?_⟩
  exact repaired_is_native row.state row.processId row.execution

theorem attempt_count_loaded {loaded : List RunnerAttempt} (h : Store.attempts db = .ok loaded)
    {selects : PersistedAttempt → Bool} {counts : RunnerAttempt → Bool}
    (hsame : ∀ row attempt, attemptFromRow row = .ok attempt → counts attempt = selects row) :
    attemptCount db selects = min (loaded.countP counts) u16Max := by
  rw [Store.attempts, Store.attemptsWhere, List.filter_true] at h
  rw [countP_of_mapM h hsame, attemptCount]
  -- The order of the query moves rows and drops none.
  exact congrArg (min · u16Max) ((List.perm_insertionSort _ db.attempts.rows).countP_eq _).symm

theorem counts_agree {loaded : List RunnerAttempt} (h : Store.attempts db = .ok loaded) :
    CountsAgree db loaded where
  active := by
    intro id
    rw [count_sql_eq]
    refine attempt_count_loaded h fun row attempt hrow ↦ ?_
    obtain ⟨hpolicy, hstate, -, hnative⟩ := loaded_fields hrow
    rw [hpolicy, RunnerAttempt.countsAgainstCapacity, hstate, hnative]
    rfl
  uncleaned := by
    intro id
    rw [count_sql_eq]
    refine attempt_count_loaded h fun row attempt hrow ↦ ?_
    obtain ⟨hpolicy, hstate, -, -⟩ := loaded_fields hrow
    rw [hpolicy, hstate]
    rfl
  ephemeral := by
    rw [uncleaned_ephemeral_sql_eq]
    refine attempt_count_loaded h fun row attempt hrow ↦ ?_
    obtain ⟨-, hstate, hkind, -⟩ := loaded_fields hrow
    rw [hkind, hstate]

/-! ## Fenced writes -/

/-- The checks of a policy write other than its fence. -/
structure PassesWriteChecks (native : PathPlatform) (db : Database) (policy : ScalePolicy)
    (expectedRevision : Nat) : Prop where
  representable : policyParams policy = .ok (policyRow policy)
  revision : expectedRevision ≤ i64Max
  identity : ensureProfileIdentity native db policy = .ok ()
  execution : ensureExecutionMutationSafe native db policy = .ok ()
  profile : validateProfileInTarget native db policy = .ok ()
  free : Store.profileIsFree db (policyRow policy) = true

def RevisionIs (db : Database) (id : PolicyId) (expected : Nat) : Prop :=
  ∃ stored, db.policies.find? id = some stored ∧ stored.revision = expected

/-- Which answer a refused policy write gives, by what differed. -/
structure NamesPolicyDifference (db : Database) (id : PolicyId) (expectedRevision : Nat)
    (counted : CountedAttempts) (expected : Nat) (error : StoreError) : Prop where
  missing : db.policies.find? id = none → error = .policyNotFound id
  revision : ∀ stored, db.policies.find? id = some stored → stored.revision ≠ expectedRevision →
    error = .staleRevision id expectedRevision stored.revision
  count : RevisionIs db id expectedRevision →
    error = Store.countChanged counted id expected (counted.countSql db id) ∧
      expected ≠ counted.countSql db id

/-- Which answer a refused change of the runner root gives, by what differed. -/
structure NamesRootDifference (db : Database) (id : HostId) (expected : Option String)
    (expectedUncleaned : Nat) (error : StoreError) : Prop where
  missing : db.hosts.find? id = none → error = .hostNotFound id
  root : ∀ stored, db.hosts.find? id = some stored → stored.runnerRootOverride ≠ expected →
    error = .runnerRootChanged id expected stored.runnerRootOverride
  count : ∀ stored, db.hosts.find? id = some stored → stored.runnerRootOverride = expected →
    error = .hostUncleanedCountChanged id expectedUncleaned (uncleanedEphemeralSql db) ∧
      expectedUncleaned ≠ uncleanedEphemeralSql db

variable {native : PathPlatform} {policy : ScalePolicy} {expectedRevision expected : Nat}
  {counted : CountedAttempts}

theorem update_policy_of_checks (h : PassesWriteChecks native db policy expectedRevision) :
    Store.updatePolicy native db policy expectedRevision (some (counted, expected)) =
      if ((db.policies.find? policy.id).map (·.revision)) ≠ some expectedRevision then
        .error (Store.conflictOrMissing db policy.id expectedRevision)
      else if expected ≠ counted.countSql db policy.id then
        .error (Store.countChanged counted policy.id expected (counted.countSql db policy.id))
      else .ok { db with policies := db.policies.put (policyRow policy) } := by
  have hrevision : u64ToSql "the expected revision" expectedRevision = .ok expectedRevision :=
    u64ToSql_ok.mpr ⟨h.revision, rfl⟩
  have hid : (policyRow policy).id = policy.id := rfl
  rw [count_sql_eq]
  simp only [Store.updatePolicy, h.representable, hrevision, h.identity, h.execution, h.profile,
    h.free, hid, bind, Except.bind, pure, Except.pure, Bool.not_true, Bool.false_eq_true, if_false]

theorem checks_of_update {next : Database} {fence : Store.CountFence}
    (h : Store.updatePolicy native db policy expectedRevision fence = .ok next) :
    PassesWriteChecks native db policy expectedRevision := by
  obtain ⟨-, hidentity, hexecution, hprofile, -, hfree, -⟩ := Store.updatePolicy_ok h
  simp only [Store.updatePolicy, bind_eq_ok] at h
  obtain ⟨row, hrow, revision, hrevision, -⟩ := h
  exact ⟨(policyParams_ok hrow).1 ▸ hrow, (u64ToSql_ok.mp hrevision).1, hidentity, hexecution,
    hprofile, hfree⟩

theorem revision_is_iff {id : PolicyId} :
    RevisionIs db id expected ↔ (db.policies.find? id).map (·.revision) = some expected :=
  Option.map_eq_some_iff.symm

theorem update_policy_ok_iff :
    Store.updatePolicy native db policy expectedRevision (some (counted, expected)) =
        .ok { db with policies := db.policies.put (policyRow policy) } ↔
      PassesWriteChecks native db policy expectedRevision ∧
        RevisionIs db policy.id expectedRevision ∧
        expected = counted.countSql db policy.id := by
  rw [revision_is_iff]
  constructor
  · intro h
    have hchecks := checks_of_update h
    rw [update_policy_of_checks hchecks, ite_error_eq_ok, ite_error_eq_ok, not_not, not_not] at h
    exact ⟨hchecks, h.1, h.2.1⟩
  · rintro ⟨hchecks, hrevision, hcount⟩
    rw [update_policy_of_checks hchecks, if_neg (not_not.mpr hrevision),
      if_neg (not_not.mpr hcount)]

theorem update_policy_error {error : StoreError}
    (hchecks : PassesWriteChecks native db policy expectedRevision)
    (h : Store.updatePolicy native db policy expectedRevision (some (counted, expected)) =
      .error error) :
    NamesPolicyDifference db policy.id expectedRevision counted expected error := by
  rw [update_policy_of_checks hchecks] at h
  constructor
  · intro hmissing
    rw [hmissing, if_pos (by simp), Store.conflictOrMissing, hmissing] at h
    exact (Except.error.inj h).symm
  · intro stored hstored hrevision
    rw [hstored, if_pos (by simpa using hrevision), Store.conflictOrMissing, hstored] at h
    exact (Except.error.inj h).symm
  · intro hrevision
    rw [if_neg (not_not.mpr (revision_is_iff.mp hrevision))] at h
    split_ifs at h with hcount
    exact ⟨(Except.error.inj h).symm, hcount⟩

variable {id : HostId} {root newRoot : Option LocalAbsolutePath}

theorem set_runner_root_ok_iff {next : Database} :
    Store.setRunnerRootOverride db id root newRoot expected = .ok next ↔
      ∃ stored, db.hosts.find? id = some stored ∧
        stored.runnerRootOverride = root.map (·.text) ∧ expected = uncleanedEphemeralSql db ∧
        next = { db with
          hosts := db.hosts.put { stored with runnerRootOverride := newRoot.map (·.text) } } := by
  rw [uncleaned_ephemeral_sql_eq, Store.setRunnerRootOverride]
  cases hstored : db.hosts.find? id with
  | none => simp
  | some stored =>
    simp only [ite_error_eq_ok, not_not, Except.ok.injEq, Option.some.injEq, exists_eq_left']
    rw [eq_comm (b := next)]

theorem set_runner_root_error {error : StoreError}
    (h : Store.setRunnerRootOverride db id root newRoot expected = .error error) :
    NamesRootDifference db id (root.map (·.text)) expected error := by
  rw [Store.setRunnerRootOverride, ← uncleaned_ephemeral_sql_eq] at h
  constructor
  · intro hmissing
    rw [hmissing] at h
    exact (Except.error.inj h).symm
  · intro stored hstored hroot
    simp only [hstored] at h
    rw [if_pos hroot] at h
    exact (Except.error.inj h).symm
  · intro stored hstored hroot
    simp only [hstored] at h
    rw [if_neg (not_not.mpr hroot)] at h
    split_ifs at h with hcount
    exact ⟨(Except.error.inj h).symm, hcount⟩

theorem refused_unchanged {op : StoreOp} {error : StoreError}
    (h : op.run native db = .error error) :
    op.exec native db = db := by
  rw [StoreOp.exec, h]

/-- The fences of the two guarded writes agree with the domain: the sub-selects are the counts
over the attempts a caller loads, a write that passes its other checks happens exactly where both
figures are the expected ones, and a refused one leaves the store as it was and names the figure
that differed. -/
theorem count_fences_agree (native : PathPlatform) (db : Database) :
    (∀ loaded, Store.attempts db = .ok loaded → CountsAgree db loaded) ∧
    (∀ (policy : ScalePolicy) (expectedRevision : Nat) (counted : CountedAttempts)
      (expected : Nat),
      let write := Store.updatePolicy native db policy expectedRevision (some (counted, expected))
      (write = .ok { db with policies := db.policies.put (policyRow policy) } ↔
        PassesWriteChecks native db policy expectedRevision ∧
          RevisionIs db policy.id expectedRevision ∧
          expected = counted.countSql db policy.id) ∧
      ∀ error, write = .error error →
        (StoreOp.updatePolicy policy expectedRevision (some (counted, expected))).exec native db
          = db ∧
        (PassesWriteChecks native db policy expectedRevision →
          NamesPolicyDifference db policy.id expectedRevision counted expected error)) ∧
    (∀ (id : HostId) (root newRoot : Option LocalAbsolutePath) (expected : Nat),
      let write := Store.setRunnerRootOverride db id root newRoot expected
      (∀ next, write = .ok next ↔ ∃ stored, db.hosts.find? id = some stored ∧
        stored.runnerRootOverride = root.map (·.text) ∧ expected = uncleanedEphemeralSql db ∧
        next = { db with
          hosts := db.hosts.put { stored with runnerRootOverride := newRoot.map (·.text) } }) ∧
      ∀ error, write = .error error →
        (StoreOp.setRunnerRootOverride id root newRoot expected).exec native db = db ∧
        NamesRootDifference db id (root.map (·.text)) expected error) := by
  refine ⟨fun loaded hloaded ↦ counts_agree hloaded, ?_, ?_⟩
  · intro policy expectedRevision counted expected write
    refine ⟨update_policy_ok_iff, fun error herror ↦ ⟨refused_unchanged herror, ?_⟩⟩
    exact fun hchecks ↦ update_policy_error hchecks herror
  · intro id root newRoot expected write
    refine ⟨fun next ↦ set_runner_root_ok_iff, fun error herror ↦ ⟨refused_unchanged herror, ?_⟩⟩
    exact set_runner_root_error herror

/-- A host, a native profile on it and one attempt of the profile. -/
def oneAttemptStored : Database :=
  StoreOp.execAll .unix [.putHost (hostOf .linux), .insertPolicy linuxProfile,
    .recordAttempt (.allocate ⟨1⟩ linuxProfile.id "/r/1" 9)] Database.empty

/-- The profile moved to virtual machines. -/
def isolatedProfile : ScalePolicy :=
  { linuxProfile with
    executionPolicy := .isolated .virtualMachine ⟨"vm-version:1"⟩ ⟨100, 256, 1024⟩
    revision := 2 }

/-- The attempt counts for its own policy and for the host. -/
theorem one_attempt_counted :
    ∃ loaded, Store.attempts oneAttemptStored = .ok loaded ∧ CountsAgree oneAttemptStored loaded ∧
      CountedAttempts.active.countSql oneAttemptStored linuxProfile.id = 1 ∧
      uncleanedEphemeralSql oneAttemptStored = 1 :=
  ⟨_, rfl, (count_fences_agree .unix oneAttemptStored).1 _ rfl, by decide,
    by decide⟩

/-- A write whose revision and count both match is refused where it also changes the execution
mode under an attempt left to clean. -/
theorem matching_fence_refused : ¬ ∀ (native : PathPlatform) (db : Database)
    (policy : ScalePolicy) (expectedRevision : Nat) (counted : CountedAttempts) (expected : Nat),
    (∃ next, Store.updatePolicy native db policy expectedRevision (some (counted, expected)) =
      .ok next) ↔
    RevisionIs db policy.id expectedRevision ∧ expected = counted.countSql db policy.id := by
  intro hclaim
  have hmatch : RevisionIs oneAttemptStored isolatedProfile.id 1 :=
    revision_is_iff.mpr (by decide)
  have hcount : 1 = CountedAttempts.uncleaned.countSql oneAttemptStored isolatedProfile.id := by
    decide
  obtain ⟨next, hnext⟩ :=
    (hclaim .unix oneAttemptStored isolatedProfile 1 .uncleaned 1).mpr ⟨hmatch, hcount⟩
  have hrefused : Store.updatePolicy .unix oneAttemptStored isolatedProfile 1
      (some (.uncleaned, 1)) = .error (.executionUncleanedCountChanged linuxProfile.id 0 1) := rfl
  rw [hrefused] at hnext
  cases hnext

end RunnerManager.Domain
