import RunnerManager.Domain.CountFence

/-!
# The execution mode of a policy with attempts left to clean

`ensure_execution_mutation_safe` couples two tables: an update of a policy may change its execution
mode only where the journal holds no uncleaned attempt of it. Read `execution_kept` first, one
accepted transaction of any client; a run follows by induction on its moments.
-/

namespace RunnerManager.Domain

open RunnerManager.Result

/-- The journal holds an attempt of the policy that is left to clean. -/
def HasUncleaned (db : Database) (id : PolicyId) : Prop :=
  ∃ row ∈ db.attempts.rows, row.policyId = id ∧ row.state ≠ .cleaned

instance (db : Database) (id : PolicyId) : Decidable (HasUncleaned db id) :=
  List.decidableBEx _ db.attempts.rows

def executionOf (db : Database) (id : PolicyId) : Option ExecutionPolicy :=
  (db.policies.find? id).map (·.executionPolicy)

/-- The store after the first transactions of a run. -/
def StoreOp.moment (native : PathPlatform) (start : Database) (ops : List StoreOp) (k : Nat) :
    Database :=
  StoreOp.execAll native (ops.take k) start

variable {native : PathPlatform} {db next : Database} {id : PolicyId}

theorem execution_of_row {row : PolicyRow} {stored : ScalePolicy}
    (h : policyFromRow native row = .ok stored) : stored.executionPolicy = row.executionPolicy := by
  simp only [policyFromRow, bind_eq_ok] at h
  obtain ⟨target, -, h⟩ := h
  split_ifs at h with htrim
  · cases h
  · simp only [bind_eq_ok] at h
    obtain ⟨label, -, name, -, root, -, policy, hpolicy, h⟩ := h
    split_ifs at h with hselector
    · cases h
    · cases h
      simp only [mapError_eq_ok, ScalePolicy.fromPersisted, bind_eq_ok, pure_eq_ok] at hpolicy
      obtain ⟨mode, -, _, -, workspace, -, _, -, rfl⟩ := hpolicy
      rfl

theorem uncleaned_count_ne_zero (h : HasUncleaned db id) :
    policyAttemptCount db .uncleaned id ≠ 0 := by
  obtain ⟨row, hrow, hpolicy, hstate⟩ := h
  have hpos : 0 < db.attempts.rows.countP fun row ↦
      row.policyId = id && CountedAttempts.uncleaned.selects row := by
    rw [List.countP_pos_iff]
    exact ⟨row, hrow, by simp [hpolicy, hstate, CountedAttempts.selects]⟩
  have hmax : 0 < u16Max := by decide
  show min _ u16Max ≠ 0
  omega

theorem execution_of_safe (h : HasUncleaned db id) {policy : ScalePolicy} (hid : policy.id = id)
    {row : PolicyRow} (hrow : db.policies.find? id = some row)
    (hsafe : ensureExecutionMutationSafe native db policy = .ok ()) :
    policy.executionPolicy = row.executionPolicy := by
  subst hid
  simp only [ensureExecutionMutationSafe, hrow, bind_eq_ok] at hsafe
  obtain ⟨stored, hstored, hsafe⟩ := hsafe
  rw [← execution_of_row hstored]
  by_cases hsame : stored.executionPolicy = policy.executionPolicy
  · exact hsame.symm
  · rw [if_neg hsame, if_pos (uncleaned_count_ne_zero h)] at hsafe
    cases hsafe

theorem change_refused (h : HasUncleaned db id) {policy : ScalePolicy} (hid : policy.id = id)
    {row : PolicyRow} (hrow : db.policies.find? id = some row)
    (hchange : policy.executionPolicy ≠ row.executionPolicy) (expectedRevision : Nat)
    (fence : Store.CountFence) :
    (∃ error, Store.updatePolicy native db policy expectedRevision fence = .error error) ∧
      (StoreOp.updatePolicy policy expectedRevision fence).exec native db = db := by
  have hrefused : ∃ error,
      Store.updatePolicy native db policy expectedRevision fence = .error error := by
    cases hrun : Store.updatePolicy native db policy expectedRevision fence with
    | error e => exact ⟨e, rfl⟩
    | ok next =>
      obtain ⟨-, -, hsafe, -⟩ := Store.updatePolicy_ok hrun
      exact absurd (execution_of_safe h hid hrow hsafe) hchange
  obtain ⟨error, herror⟩ := hrefused
  have hrun : (StoreOp.updatePolicy policy expectedRevision fence).run native db =
      .error error := herror
  exact ⟨⟨error, herror⟩, refused_unchanged hrun⟩

/-- One accepted transaction, other than the removal of the policy, keeps its execution mode
while an attempt is left to clean. -/
theorem execution_kept (h : HasUncleaned db id) {mode : ExecutionPolicy}
    (hmode : executionOf db id = some mode) {op : StoreOp}
    (hkept : ∀ revision, op ≠ .removePolicy id revision) (hrun : op.run native db = .ok next) :
    executionOf next id = some mode := by
  obtain ⟨row, hrow, rfl⟩ := Option.map_eq_some_iff.mp hmode
  cases op with
  | putHost host =>
    cases hrun
    exact hmode
  | setRunnerRootOverride host expected newRoot expectedUncleaned =>
    obtain ⟨_, _, rfl⟩ := Store.setRunnerRootOverride_ok hrun
    exact hmode
  | insertPolicy policy =>
    -- The policy is stored already, so another one was inserted.
    obtain ⟨-, -, hfresh, -, rfl⟩ := Store.insertPolicy_ok hrun
    have hne : id ≠ policy.id := by
      rintro rfl
      rw [hrow] at hfresh
      cases hfresh
    have hother : (db.policies.put (policyRow policy)).find? id = db.policies.find? id := by
      rw [Table.find?_put]
      exact if_neg hne
    rwa [executionOf, hother]
  | updatePolicy policy expectedRevision fence =>
    obtain ⟨-, -, hsafe, -, -, -, rfl⟩ := Store.updatePolicy_ok hrun
    rw [executionOf, Table.find?_put]
    split_ifs with hid
    · have hsame := execution_of_safe h hid.symm hrow hsafe
      exact congrArg some hsame
    · exact hmode
  | removePolicy other expectedRevision =>
    obtain ⟨-, rfl⟩ := Store.removePolicy_ok hrun
    have hne : id ≠ other := by
      rintro rfl
      exact hkept expectedRevision rfl
    have hother := (db.policies.find?_erase other id).trans (if_neg hne)
    rwa [executionOf, hother]
  | recordAttempt attempt =>
    obtain ⟨_, -, -, -, rfl⟩ := Store.recordAttempt_ok hrun
    exact hmode
  | removeAttempt attempt =>
    cases hrun
    exact hmode

variable {start : Database} {ops : List StoreOp}

theorem StoreOp.moment_succ (k : Nat) :
    StoreOp.moment native start ops (k + 1) = StoreOp.moment native start ops k ∨
      ∃ op ∈ ops, StoreOp.moment native start ops (k + 1) =
        op.exec native (StoreOp.moment native start ops k) := by
  simp only [StoreOp.moment, StoreOp.execAll, List.take_add_one]
  cases hop : ops[k]? with
  | none => exact .inl (by rw [Option.toList_none, List.append_nil])
  | some op =>
    refine .inr ⟨op, List.mem_of_getElem? hop, ?_⟩
    rw [List.foldl_append]
    rfl

theorem execution_kept_between (hkept : ∀ revision, .removePolicy id revision ∉ ops)
    {first last : Nat} (hle : first ≤ last)
    (huncleaned : ∀ k, first ≤ k → k < last → HasUncleaned (StoreOp.moment native start ops k) id)
    {mode : ExecutionPolicy}
    (hmode : executionOf (StoreOp.moment native start ops first) id = some mode) :
    executionOf (StoreOp.moment native start ops last) id = some mode := by
  induction last, hle using Nat.le_induction with
  | base => exact hmode
  | succ k hk ih =>
    have hbefore := ih fun i hi hlt ↦ huncleaned i hi (Nat.lt_succ_of_lt hlt)
    rcases StoreOp.moment_succ k with hsame | ⟨op, hop, hnext⟩
    · rwa [hsame]
    · rw [hnext, StoreOp.exec]
      cases hrun : op.run native (StoreOp.moment native start ops k) with
      | error e => exact hbefore
      | ok next =>
        refine execution_kept (huncleaned k hk (Nat.lt_succ_self k)) hbefore ?_ hrun
        rintro revision rfl
        exact hkept revision hop

/-- In every run of transactions of any clients that does not remove the policy, its execution
mode stands still for as long as an attempt of it is left to clean, and at every such moment an
update that would change the mode is refused and changes nothing. -/
theorem execution_fenced_while_uncleaned (native : PathPlatform) (start : Database)
    (ops : List StoreOp) (id : PolicyId) (hkept : ∀ revision, .removePolicy id revision ∉ ops) :
    let moment := StoreOp.moment native start ops
    (∀ first last, first ≤ last → (∀ k, first ≤ k → k < last → HasUncleaned (moment k) id) →
      ∀ mode, executionOf (moment first) id = some mode →
        executionOf (moment last) id = some mode) ∧
    ∀ k, HasUncleaned (moment k) id → ∀ mode, executionOf (moment k) id = some mode →
      ∀ policy : ScalePolicy, policy.id = id → policy.executionPolicy ≠ mode →
        ∀ expectedRevision fence,
          (∃ error, Store.updatePolicy native (moment k) policy expectedRevision fence =
            .error error) ∧
          (StoreOp.updatePolicy policy expectedRevision fence).exec native (moment k) =
            moment k := by
  refine ⟨fun first last hle huncleaned mode hmode ↦
    execution_kept_between hkept hle huncleaned hmode, ?_⟩
  intro k huncleaned mode hmode policy hid hchange expectedRevision fence
  obtain ⟨row, hrow, rfl⟩ := Option.map_eq_some_iff.mp hmode
  exact change_refused huncleaned hid hrow hchange expectedRevision fence

/-- The first attempt of a profile is cleaned, the profile moves to virtual machines and a second
attempt starts. -/
def movedBetweenAttempts : List StoreOp :=
  let first := RunnerAttempt.allocate ⟨1⟩ linuxProfile.id "/r/1" 9
  [.putHost (hostOf .linux), .insertPolicy linuxProfile, .recordAttempt first,
    .recordAttempt ((AttemptOp.clean 11).exec ((AttemptOp.conclude .orphaned 10).exec first)),
    .updatePolicy isolatedProfile 1 none,
    .recordAttempt (.allocate ⟨2⟩ linuxProfile.id "/r/2" 12)]

/-- A policy whose attempt stays uncleaned from its record on keeps its mode, and the update to
virtual machines is refused. -/
theorem one_attempt_fences :
    executionOf (StoreOp.moment .unix Database.empty (movedBetweenAttempts.take 3) 3)
      linuxProfile.id = some .native ∧
    (StoreOp.updatePolicy isolatedProfile 1 none).exec .unix
      (StoreOp.moment .unix Database.empty (movedBetweenAttempts.take 3) 3) =
        StoreOp.moment .unix Database.empty (movedBetweenAttempts.take 3) 3 := by
  have hfenced := execution_fenced_while_uncleaned .unix Database.empty
    (movedBetweenAttempts.take 3) linuxProfile.id (by
      intro revision hmem
      simp [movedBetweenAttempts] at hmem)
  refine ⟨hfenced.1 3 3 (Nat.le_refl 3) (fun k hk hlt ↦ absurd hlt (Nat.not_lt.mpr hk)) .native
    (by decide), ?_⟩
  exact (hfenced.2 3 (by decide) .native (by decide) isolatedProfile rfl
    (by decide) 1 none).2

/-- Between two attempts with none left to clean the mode may change, so it need not be the same
at the first and at the last moment with an uncleaned attempt. -/
theorem mode_moves_between_attempts : ¬ ∀ (native : PathPlatform) (start : Database)
    (ops : List StoreOp) (id : PolicyId) (first last : Nat),
    (∀ revision, .removePolicy id revision ∉ ops) → first ≤ last →
    HasUncleaned (StoreOp.moment native start ops first) id →
    HasUncleaned (StoreOp.moment native start ops last) id →
    executionOf (StoreOp.moment native start ops first) id =
      executionOf (StoreOp.moment native start ops last) id := by
  intro hclaim
  have hsame := hclaim .unix Database.empty movedBetweenAttempts linuxProfile.id 3 6 (by
      intro revision hmem
      simp [movedBetweenAttempts] at hmem)
    (by decide) (by decide) (by decide)
  have hfirst : executionOf (StoreOp.moment .unix Database.empty movedBetweenAttempts 3)
      linuxProfile.id = some .native := by decide
  have hlast : executionOf (StoreOp.moment .unix Database.empty movedBetweenAttempts 6)
      linuxProfile.id = some isolatedProfile.executionPolicy := by decide
  rw [hfirst, hlast] at hsame
  cases hsame

end RunnerManager.Domain
