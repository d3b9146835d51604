import RunnerManager.Agent.Ports
import Mathlib.Order.Bounds.Basic

/-!
# Persistent slots

A persistent attempt leases one slot of its policy until it is cleaned. Three layers decide
what a lease is: the query `slot_leases_for_policy`, the search `lowest_free_slot`, and the
partial unique index behind `record_attempt`. Read `leases_exclusive` first: the index holds in
every database that transactions reach. `lowest_free_slot_spec` then says what a search over
the query's answer finds.
-/

namespace RunnerManager.Agent

open RunnerManager.Domain RunnerManager.Result

/-! ## Choosing a slot -/

/-- A `u16` that is not zero. -/
def nonZeroU16 (n : Nat) : Option NonZeroU16 :=
  if h : 0 < n ∧ n < 2 ^ 16 then some ⟨n, h⟩ else none

def lowestFreeSlot (leases : List RunnerAttempt) (ceiling : NonZeroU16) : Option NonZeroU16 :=
  let held := leases.filterMap fun attempt ↦ attempt.workspace.slotNumber
  ((List.range' 1 ceiling.val).find? fun slot ↦ !held.contains slot).bind nonZeroU16

/-- What the placement asks the filesystem and the platform. An error carries its rendered
text. -/
structure RootPorts where
  defaultRunnerRoot : Option LocalAbsolutePath
  /-- `RootPreflight::check` of a repository root beside the host root; the answer is the leaf
  directory to create. -/
  check : Option LocalAbsolutePath → String → LocalAbsolutePath → Except String (Option String)
  createDir : String → Except String Unit
  createOrValidateSlot : String → Except String Unit
  verifyContainment : LocalAbsolutePath → String → Except String Unit
  acceptReusableSlot : String → Except String Unit
  /-- How a refused child name is rendered. -/
  derivedName : LocalPathError → String

/-- A failure that carries its own sentence. -/
def failedWith (detail : String) : LifecycleError :=
  .failed (.other detail)

/-- `LocalAbsolutePath::join_child`, as text. -/
def joinChild (root : LocalAbsolutePath) (name : String) : Except LocalPathError String :=
  if name = "" ∨ name = "." ∨ name = ".." ∨ name.toList.any root.platform.isSeparator then
    .error (.notASingleComponent name)
  else
    (validateComponent name.toList root.platform).map fun _ ↦
      root.text ++ root.platform.separator.toString ++ name

section Placement

variable (native : PathPlatform) (ports : RootPorts) (hostId : HostId) (db : Database)

def configuredHostRoot : Except LifecycleError (Option LocalAbsolutePath) :=
  match db.hosts.find? hostId with
  | none => .error (failedWith "host not found")
  | some row =>
    match hostFromRow native row with
    | .error _ => .error .journal
    | .ok host => .ok host.runnerRootOverride

def resolvableHostRoot : Except LifecycleError (Option LocalAbsolutePath) := do
  let configured ← configuredHostRoot native hostId db
  return configured <|> ports.defaultRunnerRoot

/-- The root itself is created when only its last component is missing. -/
def createLeaf (leaf : Option String) : Except LifecycleError Unit :=
  match leaf with
  | none => .ok ()
  | some leaf => (ports.createDir leaf).mapError fun source ↦ failedWith
      ("the persistent workspace root " ++ leaf ++ " could not be created: " ++ source)

/-- The directory of a chosen slot: the root is checked, then the slot is created or accepted
for reuse. -/
def prepareSlot (policy : ScalePolicy) (root : LocalAbsolutePath) (slot : NonZeroU16) :
    Except LifecycleError Placement := do
  let hostRoot ← resolvableHostRoot native ports hostId db
  let leaf ← (ports.check hostRoot policy.target.slug root).mapError failedWith
  createLeaf ports leaf
  let path ← (joinChild root ("s" ++ toString slot.val)).mapError fun error ↦
    failedWith (ports.derivedName error)
  (ports.createOrValidateSlot path).mapError failedWith
  (ports.verifyContainment root path).mapError failedWith
  (ports.acceptReusableSlot path).mapError failedWith
  return { runtime := path, workspace := .persistentSlot slot }

/-- The refusal when every slot is leased. -/
def everySlotLeased (policy : ScalePolicy) (ceiling : NonZeroU16) : LifecycleError :=
  failedWith ("every persistent slot s1 to s" ++ toString ceiling.val ++ " for "
    ++ policy.target.slug ++ " is leased by an attempt that has not been cleaned, so no slot is "
    ++ "free; raise the repository's max capacity, or finish cleaning a concluded attempt")

def allocatePersistentSlot (policy : ScalePolicy) (root : LocalAbsolutePath) :
    Except LifecycleError Placement :=
  match policy.mode.maxCapacity with
  | none => .error (failedWith
      "a persistent workspace needs the policy's max_capacity to bound its slots")
  | some ceiling =>
    match Store.slotLeasesForPolicy db policy.id with
    | .error _ => .error .journal
    | .ok leases =>
      match lowestFreeSlot leases ceiling with
      | none => .error (everySlotLeased policy ceiling)
      | some slot => prepareSlot native ports hostId db policy root slot

end Placement

/-! ## Leases -/

/-- An uncleaned persistent attempt of the policy has the slot. -/
def SlotHeld (db : Database) (policy : PolicyId) (slot : Nat) : Prop :=
  ∃ row ∈ db.attempts.rows,
    row.policyId = policy ∧ row.leases = true ∧ row.workspaceSlot.map (·.val) = some slot

/-- No two uncleaned persistent attempts of one policy have one slot. -/
def LeasesExclusive (db : Database) : Prop :=
  ∀ a ∈ db.attempts.rows, ∀ b ∈ db.attempts.rows, a.leases = true → b.leases = true →
    a.policyId = b.policyId → a.workspaceSlot = b.workspaceSlot → a.workspaceSlot.isSome →
    a = b

theorem slot_is_free_iff {db : Database} {row : PersistedAttempt} :
    Store.slotIsFree db row = true ↔ ∀ other ∈ db.attempts.rows, other.id ≠ row.id →
      row.leases = true → other.leases = true → other.policyId = row.policyId →
      other.workspaceSlot = row.workspaceSlot → row.workspaceSlot.isSome = false := by
  simp only [Store.slotIsFree, List.all_eq_true, Bool.or_eq_true, decide_eq_true_eq,
    Bool.not_eq_true', Bool.and_eq_false_iff, decide_eq_false_iff_not]
  refine forall₂_congr fun other _ ↦ ?_
  cases row.leases <;> cases other.leases <;> simp
  tauto

theorem leases_exclusive_put {db : Database} {row : PersistedAttempt} (hdb : LeasesExclusive db)
    (hfree : Store.slotIsFree db row = true) :
    LeasesExclusive { db with attempts := db.attempts.put row } := by
  rw [slot_is_free_iff] at hfree
  intro a ha b hb hleaseA hleaseB hpolicy hslot hsome
  rw [Table.mem_put] at ha hb
  rcases ha with rfl | ⟨ha, hida⟩ <;> rcases hb with rfl | ⟨hb, hidb⟩
  · rfl
  · have hnone := hfree b hb hidb hleaseA hleaseB hpolicy.symm hslot.symm
    simp [hnone] at hsome
  · have hnone := hfree a ha hida hleaseB hleaseA hpolicy hslot
    simp [← hslot, hsome] at hnone
  · exact hdb a ha b hb hleaseA hleaseB hpolicy hslot hsome

theorem leases_exclusive_step {native : PathPlatform} {op : StoreOp} {db next : Database}
    (hdb : LeasesExclusive db) (hrun : op.run native db = .ok next) : LeasesExclusive next := by
  cases op with
  | putHost host =>
    cases hrun
    exact hdb
  | setRunnerRootOverride id expected newRoot expectedUncleaned =>
    obtain ⟨_, _, rfl⟩ := Store.setRunnerRootOverride_ok hrun
    exact hdb
  | insertPolicy policy =>
    obtain ⟨_, _, _, _, rfl⟩ := Store.insertPolicy_ok hrun
    exact hdb
  | updatePolicy policy expectedRevision fence =>
    obtain ⟨_, _, _, _, _, _, rfl⟩ := Store.updatePolicy_ok hrun
    exact hdb
  | removePolicy id expectedRevision =>
    obtain ⟨_, rfl⟩ := Store.removePolicy_ok hrun
    exact hdb
  | removeAttempt id =>
    cases hrun
    intro a ha b hb
    exact hdb a (Table.mem_erase.mp ha).1 b (Table.mem_erase.mp hb).1
  | recordAttempt attempt =>
    obtain ⟨row, _, _, hfree, rfl⟩ := Store.recordAttempt_ok hrun
    exact leases_exclusive_put hdb hfree

theorem leases_exclusive (native : PathPlatform) (ops : List StoreOp) :
    LeasesExclusive (StoreOp.execAll native ops Database.empty) := by
  refine StoreOp.exec_all_induction native (fun op db next ↦ leases_exclusive_step) ops ?_
  intro a ha
  cases ha

/-! ## The query and the search agree with the index -/

theorem slot_of_lease {row : PersistedAttempt} {attempt : RunnerAttempt}
    (hread : attemptFromRow row = .ok attempt) (hlease : row.leases = true) :
    attempt.workspace.slotNumber = row.workspaceSlot.map (·.val) := by
  simp only [attemptFromRow, mapError_eq_ok, PersistedAttempt.fromPersisted, bind_eq_ok,
    pure_eq_ok] at hread
  obtain ⟨workspace, hworkspace, _, _, _, _, _, _, _, _, _, _, _, _, rfl⟩ := hread
  have hkind : row.normalise.workspaceKind = .persistent := by
    simp only [PersistedAttempt.leases, Bool.and_eq_true, decide_eq_true_eq] at hlease
    exact hlease.1
  rw [hkind] at hworkspace
  show workspace.slotNumber = row.normalise.workspaceSlot.map (·.val)
  cases hslot : row.normalise.workspaceSlot with
  | none =>
    rw [hslot] at hworkspace
    cases hworkspace
  | some slot =>
    rw [hslot] at hworkspace
    simp only [AttemptWorkspace.fromPersisted] at hworkspace
    split_ifs at hworkspace with hpos
    cases hworkspace
    rfl

theorem slot_held_iff {db : Database} {id : PolicyId} {leases : List RunnerAttempt}
    (hleases : Store.slotLeasesForPolicy db id = .ok leases) (slot : Nat) :
    (∃ attempt ∈ leases, attempt.workspace.slotNumber = some slot) ↔ SlotHeld db id slot := by
  constructor
  · rintro ⟨attempt, hattempt, hslot⟩
    obtain ⟨row, hrow, hattemptRow⟩ := exists_row_of_mapM hleases hattempt
    simp only [List.mem_filter, Table.mem_orderBy, Bool.and_eq_true, decide_eq_true_eq] at hrow
    exact ⟨row, hrow.1, hrow.2.1, hrow.2.2, by rw [← slot_of_lease hattemptRow hrow.2.2, hslot]⟩
  · rintro ⟨row, hrow, hpolicy, hlease, hslot⟩
    have hmem : row ∈ (db.attempts.orderBy fun a b ↦ a.createdAt < b.createdAt
        ∨ a.createdAt = b.createdAt ∧ a.id.value ≤ b.id.value).filter
          fun row ↦ row.policyId = id && row.leases := by
      simp [hrow, hpolicy, hlease]
    obtain ⟨attempt, hattempt, hattemptRow⟩ := exists_value_of_mapM hleases hmem
    exact ⟨attempt, hattempt, by rw [slot_of_lease hattemptRow hlease, hslot]⟩

/-- The slots of a policy's range that no uncleaned attempt holds. -/
def FreeSlots (db : Database) (policy : PolicyId) (ceiling : NonZeroU16) : Set Nat :=
  {slot | 1 ≤ slot ∧ slot ≤ ceiling.val ∧ ¬ SlotHeld db policy slot}

/-- The search finds the least free slot of the range. -/
theorem lowest_free_slot_some {db : Database} {id : PolicyId} {leases : List RunnerAttempt}
    (hleases : Store.slotLeasesForPolicy db id = .ok leases) (ceiling slot : NonZeroU16) :
    lowestFreeSlot leases ceiling = some slot ↔ IsLeast (FreeSlots db id ceiling) slot.val := by
  have hheld : ∀ n, n ∈ leases.filterMap (fun attempt ↦ attempt.workspace.slotNumber) ↔
      SlotHeld db id n := by
    intro n
    rw [← slot_held_iff hleases, List.mem_filterMap]
  have hnonzero : ∀ n, nonZeroU16 n = some slot ↔ n = slot.val := by
    intro n
    unfold nonZeroU16
    have hslot := slot.property
    split_ifs with h
    · rw [Option.some.injEq, Subtype.ext_iff]
    · simp only [false_iff]
      rintro rfl
      exact h hslot
  simp only [lowestFreeSlot, Option.bind_eq_some_iff, hnonzero, exists_eq_right,
    List.find?_range'_eq_some, List.mem_range'_1, Bool.not_eq_true', Bool.not_not,
    List.contains_iff_mem, hheld, ← Bool.not_eq_true]
  constructor
  · rintro ⟨hfree, hrange, hbelow⟩
    refine ⟨⟨hrange.1, by omega, hfree⟩, ?_⟩
    rintro n ⟨hpos, -, hn⟩
    by_contra hlt
    exact hn (hbelow n hpos (by omega))
  · rintro ⟨⟨hpos, hle, hfree⟩, hleast⟩
    refine ⟨hfree, ⟨hpos, by omega⟩, ?_⟩
    intro n hn hlt
    by_contra hnot
    have := hleast ⟨hn, by omega, hnot⟩
    omega

theorem lowest_free_slot_none {db : Database} {id : PolicyId} {leases : List RunnerAttempt}
    (hleases : Store.slotLeasesForPolicy db id = .ok leases) (ceiling : NonZeroU16) :
    lowestFreeSlot leases ceiling = none ↔ FreeSlots db id ceiling = ∅ := by
  rw [Set.eq_empty_iff_forall_notMem]
  constructor
  · intro hnone n hn
    -- A range with a free slot has a least one, and the search would have found it.
    classical
    have hex : ∃ n, n ∈ FreeSlots db id ceiling := ⟨n, hn⟩
    have hmem : Nat.find hex ∈ FreeSlots db id ceiling := Nat.find_spec hex
    have hbound : 0 < Nat.find hex ∧ Nat.find hex < 2 ^ 16 :=
      ⟨hmem.1, Nat.lt_of_le_of_lt hmem.2.1 ceiling.property.2⟩
    have hfound := (lowest_free_slot_some hleases ceiling ⟨Nat.find hex, hbound⟩).mpr
      ⟨hmem, fun m hm ↦ Nat.find_min' hex hm⟩
    rw [hnone] at hfound
    cases hfound
  · intro hempty
    cases hslot : lowestFreeSlot leases ceiling with
    | none => rfl
    | some slot =>
      have hleast := (lowest_free_slot_some hleases ceiling slot).mp hslot
      exact (hempty slot.val hleast.1).elim

/-! ## Leases over every history -/

/-- Which allocation an identity belongs to; a host process belongs to none. -/
def allocationOf : AttemptExecution → Option (Backend × ImageReference × String)
  | .native _ => none
  | .isolated providerKind _ resolvedImage generation =>
    some (providerKind, resolvedImage, generation)

/-- The allocation stays, and a process or environment that is known stays. -/
def ExecutionAdvances (stored next : AttemptExecution) : Prop :=
  stored.isNative = next.isNative ∧ allocationOf stored = allocationOf next ∧
    (stored.processId.isSome → stored.processId = next.processId) ∧
    (stored.environmentId.isSome → stored.environmentId = next.environmentId)

theorem can_advance_iff (stored next : AttemptExecution) :
    stored.canAdvanceTo next = true ↔ ExecutionAdvances stored next := by
  cases stored with
  | native old =>
    cases next <;> cases old <;>
      simp [AttemptExecution.canAdvanceTo, ExecutionAdvances, allocationOf,
        AttemptExecution.isNative, AttemptExecution.processId, AttemptExecution.environmentId]
  | isolated providerKind environmentId resolvedImage generation =>
    cases next <;> cases environmentId <;>
      simp [AttemptExecution.canAdvanceTo, ExecutionAdvances, allocationOf,
        AttemptExecution.isNative, AttemptExecution.processId, AttemptExecution.environmentId,
        and_assoc]

/-- What a journal write of `attempt` would store. -/
def writtenRow (db : Database) (attempt : RunnerAttempt) : PersistedAttempt :=
  Store.upsertAttempt (db.attempts.find? attempt.id) attempt.toPersisted.normalise

/-- The write would give one slot to two attempts, or move a journalled execution identity
back. -/
def BreaksLeases (db : Database) (attempt : RunnerAttempt) : Prop :=
  ¬ LeasesExclusive { db with attempts := db.attempts.put (writtenRow db attempt) } ∨
    ∃ stored, db.attempts.find? attempt.id = some stored ∧
      ¬ ExecutionAdvances stored.execution (writtenRow db attempt).execution

/-- How slots are leased in one database. -/
structure SlotLeasing (native : PathPlatform) (db : Database) : Prop where
  exclusive : LeasesExclusive db
  refuses : ∀ attempt, BreaksLeases db attempt →
    (∃ error, Store.recordAttempt db attempt = .error error) ∧
      StoreOp.exec native db (.recordAttempt attempt) = db
  /-- An accepted write changes one row, and there neither the workspace nor the allocation
  time. -/
  keeps : ∀ attempt next, Store.recordAttempt db attempt = .ok next →
    next.hosts = db.hosts ∧ next.policies = db.policies ∧
    (∀ id, id ≠ attempt.id → next.attempts.find? id = db.attempts.find? id) ∧
    ∃ row, next.attempts.find? attempt.id = some row ∧ row.policyId = attempt.policyId ∧
      ∀ stored, db.attempts.find? attempt.id = some stored →
        row.workspaceKind = stored.workspaceKind ∧ row.workspaceSlot = stored.workspaceSlot ∧
          row.createdAt = stored.createdAt ∧ ExecutionAdvances stored.execution row.execution
  /-- An allocation prepares the least free slot and refuses when there is none; a lease that
  cannot be read back is a journal failure. -/
  allocates : ∀ (ports : RootPorts) (hostId : HostId) (policy : ScalePolicy)
    (root : LocalAbsolutePath) (ceiling : NonZeroU16), policy.mode.maxCapacity = some ceiling →
    ((∃ error, Store.slotLeasesForPolicy db policy.id = .error error) ∧
      allocatePersistentSlot native ports hostId db policy root = .error .journal) ∨
    (FreeSlots db policy.id ceiling = ∅ ∧
      allocatePersistentSlot native ports hostId db policy root =
        .error (everySlotLeased policy ceiling)) ∨
    ∃ slot : NonZeroU16, IsLeast (FreeSlots db policy.id ceiling) slot.val ∧
      allocatePersistentSlot native ports hostId db policy root =
        prepareSlot native ports hostId db policy root slot ∧
      ∀ placement, allocatePersistentSlot native ports hostId db policy root = .ok placement →
        placement.workspace = .persistentSlot slot

theorem record_refused {native : PathPlatform} {db : Database} (hdb : LeasesExclusive db)
    {attempt : RunnerAttempt} (hbreaks : BreaksLeases db attempt) :
    (∃ error, Store.recordAttempt db attempt = .error error) ∧
      StoreOp.exec native db (.recordAttempt attempt) = db := by
  cases hrun : Store.recordAttempt db attempt with
  | error error => exact ⟨⟨error, rfl⟩, by simp [StoreOp.exec, StoreOp.run, hrun]⟩
  | ok next =>
    exfalso
    obtain ⟨row, rfl, hadvance, hfree, -⟩ := Store.recordAttempt_ok hrun
    rcases hbreaks with hshared | ⟨stored, hstored, hback⟩
    · exact hshared (leases_exclusive_put hdb hfree)
    · refine hback ((can_advance_iff _ _).mp ?_)
      simpa [writtenRow, Store.upsertAttempt, hstored] using hadvance stored hstored

theorem record_keeps {db next : Database} {attempt : RunnerAttempt}
    (hrun : Store.recordAttempt db attempt = .ok next) :
    next.hosts = db.hosts ∧ next.policies = db.policies ∧
    (∀ id, id ≠ attempt.id → next.attempts.find? id = db.attempts.find? id) ∧
    ∃ row, next.attempts.find? attempt.id = some row ∧ row.policyId = attempt.policyId ∧
      ∀ stored, db.attempts.find? attempt.id = some stored →
        row.workspaceKind = stored.workspaceKind ∧ row.workspaceSlot = stored.workspaceSlot ∧
          row.createdAt = stored.createdAt ∧ ExecutionAdvances stored.execution row.execution := by
  obtain ⟨row, rfl, hadvance, -, rfl⟩ := Store.recordAttempt_ok hrun
  have hid : (writtenRow db attempt).id = attempt.id := by
    unfold writtenRow Store.upsertAttempt
    cases db.attempts.find? attempt.id <;> rfl
  have hpolicy : (writtenRow db attempt).policyId = attempt.policyId := by
    unfold writtenRow Store.upsertAttempt
    cases db.attempts.find? attempt.id <;> rfl
  refine ⟨rfl, rfl, fun id hne ↦ ?_, writtenRow db attempt, ?_, hpolicy, fun stored hstored ↦ ?_⟩
  · exact (Table.find?_put (writtenRow db attempt) id).trans (if_neg (by rwa [hid]))
  · exact (Table.find?_put (writtenRow db attempt) attempt.id).trans (if_pos hid.symm)
  · have hexecution := (can_advance_iff _ _).mp (hadvance stored hstored)
    have hrow : writtenRow db attempt =
        Store.upsertAttempt (some stored) attempt.toPersisted.normalise := by
      rw [writtenRow, hstored]
    rw [hrow]
    exact ⟨rfl, rfl, rfl, hexecution⟩

theorem prepare_slot_workspace {native : PathPlatform} {ports : RootPorts} {hostId : HostId}
    {db : Database} {policy : ScalePolicy} {root : LocalAbsolutePath} {slot : NonZeroU16}
    {placement : Placement}
    (h : prepareSlot native ports hostId db policy root slot = .ok placement) :
    placement.workspace = .persistentSlot slot := by
  simp only [prepareSlot, bind_eq_ok, pure_eq_ok] at h
  obtain ⟨_, _, _, _, _, _, _, _, _, _, _, _, _, _, rfl⟩ := h
  rfl

theorem allocate_cases {native : PathPlatform} {db : Database} (ports : RootPorts)
    (hostId : HostId) {policy : ScalePolicy} (root : LocalAbsolutePath) {ceiling : NonZeroU16}
    (hceiling : policy.mode.maxCapacity = some ceiling) :
    ((∃ error, Store.slotLeasesForPolicy db policy.id = .error error) ∧
      allocatePersistentSlot native ports hostId db policy root = .error .journal) ∨
    (FreeSlots db policy.id ceiling = ∅ ∧
      allocatePersistentSlot native ports hostId db policy root =
        .error (everySlotLeased policy ceiling)) ∨
    ∃ slot : NonZeroU16, IsLeast (FreeSlots db policy.id ceiling) slot.val ∧
      allocatePersistentSlot native ports hostId db policy root =
        prepareSlot native ports hostId db policy root slot ∧
      ∀ placement, allocatePersistentSlot native ports hostId db policy root = .ok placement →
        placement.workspace = .persistentSlot slot := by
  unfold allocatePersistentSlot
  rw [hceiling]
  cases hleases : Store.slotLeasesForPolicy db policy.id with
  | error error => exact .inl ⟨⟨error, rfl⟩, rfl⟩
  | ok leases =>
    right
    cases hslot : lowestFreeSlot leases ceiling with
    | none => exact .inl ⟨(lowest_free_slot_none hleases ceiling).mp hslot, by simp [hslot]⟩
    | some slot =>
      refine .inr ⟨slot, (lowest_free_slot_some hleases ceiling slot).mp hslot,
        by simp [hslot], fun placement hplacement ↦ ?_⟩
      simp only [hslot] at hplacement
      exact prepare_slot_workspace hplacement

/-- Slots are leased so in every database that transactions reach. -/
theorem slot_leasing (native : PathPlatform) (ops : List StoreOp) :
    SlotLeasing native (StoreOp.execAll native ops Database.empty) where
  exclusive := leases_exclusive native ops
  refuses _ := record_refused (leases_exclusive native ops)
  keeps _ _ := record_keeps
  allocates ports hostId _ root _ := allocate_cases ports hostId root

/-- A second journal write of attempt 1 under another policy, another slot and another
allocation time is accepted. -/
theorem rewritten_allocation_accepted :
    ∃ (ops : List StoreOp) (attempt : RunnerAttempt) (stored : PersistedAttempt) (next : Database),
      (StoreOp.execAll .unix ops Database.empty).attempts.find? attempt.id = some stored ∧
      attempt.policyId ≠ stored.policyId ∧ attempt.workspace.slotColumn ≠ stored.workspaceSlot ∧
      attempt.workspace.kind ≠ stored.workspaceKind ∧ attempt.createdAt ≠ stored.createdAt ∧
      Store.recordAttempt (StoreOp.execAll .unix ops Database.empty) attempt = .ok next :=
  ⟨[.recordAttempt (.allocateIn ⟨1⟩ ⟨2⟩ "/r/s1" (.persistentSlot ⟨1, by decide⟩) 5)],
    .allocateIn ⟨1⟩ ⟨3⟩ "/r/1" .ephemeral 6, _, _, rfl, by decide, by decide, by decide, by decide,
    rfl⟩

end RunnerManager.Agent
