import RunnerManager.Domain.StoreRead

/-!
# The store returns what was written

`Ledger` is what the three tables are for: the value last written under each id. `Refines`
relates a database to it, and `refines_run` says that proper transactions keep the relation.
Every query re-validates each row against the host and against its siblings, so the relation
carries those checks for every stored policy: read `profiles_put` first, where one write is
checked against all the others.
-/

namespace RunnerManager.Domain

open RunnerManager.Text RunnerManager.Result

/-! ## What was written -/

/-- The values last written. -/
structure Ledger where
  hosts : HostId → Option Host
  policies : PolicyId → Option ScalePolicy
  attempts : AttemptId → Option RunnerAttempt

namespace Ledger

/-- Nothing was written. -/
def empty : Ledger where
  hosts := fun _ ↦ none
  policies := fun _ ↦ none
  attempts := fun _ ↦ none

/-- What a journal write leaves: no instant precedes the allocation, and a journalled attempt
keeps its workspace and its allocation time. -/
def journalled (stored : Option RunnerAttempt) (attempt : RunnerAttempt) : RunnerAttempt :=
  match stored with
  | none => attempt.clockNormalised
  | some stored => RunnerAttempt.clockNormalised { attempt.clockNormalised with
      workspace := stored.workspace, createdAt := stored.createdAt }

/-- The ledger after an accepted transaction. -/
def write (ledger : Ledger) : StoreOp → Ledger
  | .putHost host => { ledger with hosts := Function.update ledger.hosts host.id (some host) }
  | .setRunnerRootOverride id _ newRoot _ => { ledger with
      hosts := Function.update ledger.hosts id
        ((ledger.hosts id).map fun host ↦ { host with runnerRootOverride := newRoot }) }
  | .insertPolicy policy | .updatePolicy policy _ _ => { ledger with
      policies := Function.update ledger.policies policy.id (some policy) }
  | .removePolicy id _ => { ledger with policies := Function.update ledger.policies id none }
  | .recordAttempt attempt => { ledger with
      attempts := Function.update ledger.attempts attempt.id
        (some (journalled (ledger.attempts attempt.id) attempt)) }
  | .removeAttempt id => { ledger with attempts := Function.update ledger.attempts id none }

/-- The database and the ledger after a transaction; a refused one writes to neither. -/
def runOne (native : PathPlatform) (state : Database × Ledger) (op : StoreOp) :
    Database × Ledger :=
  match op.run native state.1 with
  | .ok next => (next, state.2.write op)
  | .error _ => state

/-- The database and the ledger after a sequence of transactions. -/
def runAll (native : PathPlatform) (ops : List StoreOp) (start : Database × Ledger) :
    Database × Ledger :=
  ops.foldl (runOne native) start

end Ledger

/-- No named profile loses the host facts its selector was derived from. -/
def KeepsFacts (db : Database) (host : Host) : Prop :=
  ∀ row, db.hosts.find? host.id = some row → ∀ policy : ScalePolicy,
    policyRow policy ∈ db.policies.rows → policy.hostId = host.id →
    policy.profileName.isDefault = false → policy.routingLabels.isSome = true →
    row.os = host.os ∧ row.architecture = host.architecture

/-- The values the domain's own constructors and mutators build, written on the platform they
are for. -/
def ProperWrite (native : PathPlatform) (db : Database) : StoreOp → Prop
  | .putHost host => host.Readable native ∧ KeepsFacts db host
  | .setRunnerRootOverride _ _ newRoot _ => NativeRoot native newRoot
  | .insertPolicy policy | .updatePolicy policy _ _ =>
    policy.Storable ∧ NativeRoot native policy.workspacePolicy.root
  | .recordAttempt attempt => WellFormed attempt ∧ attempt.EnvironmentKnown
  | .removePolicy _ _ | .removeAttempt _ => True

/-- Every accepted transaction of a sequence is proper. -/
def ProperRun (native : PathPlatform) : Database → List StoreOp → Prop
  | _, [] => True
  | db, op :: ops =>
    ((∃ next, op.run native db = .ok next) → ProperWrite native db op) ∧
      ProperRun native (op.exec native db) ops

/-! ## Profiles check each other -/

/-- The checks of one profile, over readable rows. -/
def ProfileFits (native : PathPlatform) (db : Database) (policy : ScalePolicy) : Prop :=
  checkHostSelector native db policy = .ok () ∧
    ∀ sibling : ScalePolicy, policyRow sibling ∈ db.policies.rows →
      isSibling policy (policyRow sibling) = true → checkSibling policy sibling = .ok ()

/-- Every row is the row of a policy that is read back. -/
def RowsReadable (native : PathPlatform) (db : Database) : Prop :=
  ∀ row ∈ db.policies.rows, ∃ policy : ScalePolicy, row = policyRow policy ∧
    policy.Storable ∧ NativeRoot native policy.workspacePolicy.root

variable {native : PathPlatform} {db : Database}

theorem profile_fits_iff (hrows : RowsReadable native db) {policy : ScalePolicy} :
    validateProfileInTarget native db policy = .ok () ↔ ProfileFits native db policy := by
  simp only [validateProfileInTarget, bind_eq_ok, forM_eq_ok, List.mem_filter, ProfileFits]
  constructor
  · rintro ⟨_, hhost, hsiblings⟩
    refine ⟨hhost, fun sibling hmem hsibling ↦ ?_⟩
    obtain ⟨stored, hread, hcheck⟩ := hsiblings (policyRow sibling) ⟨hmem, hsibling⟩
    obtain ⟨-, rfl⟩ := policy_read_iff.mp hread
    exact hcheck
  · rintro ⟨hhost, hsiblings⟩
    refine ⟨(), hhost, fun row ⟨hmem, hsibling⟩ ↦ ?_⟩
    obtain ⟨stored, rfl, hstorable, hnative⟩ := hrows row hmem
    exact ⟨stored, policy_read_iff.mpr ⟨⟨hstorable, hnative⟩, rfl⟩,
      hsiblings stored hmem hsibling⟩

theorem sibling_symm {a b : ScalePolicy} (h : isSibling a (policyRow b) = true) :
    isSibling b (policyRow a) = true := by
  simp only [isSibling, Bool.and_eq_true, decide_eq_true_eq] at h ⊢
  obtain ⟨⟨⟨hhost, hscope⟩, hslug⟩, hid⟩ := h
  refine ⟨⟨⟨hhost.symm, hscope.symm⟩, ?_⟩, fun heq ↦ hid heq.symm⟩
  rw [eqIgnoreAsciiCase, beq_iff_eq] at hslug ⊢
  exact hslug.symm

theorem check_sibling_symm {a b : ScalePolicy} (h : checkSibling a b = .ok ()) :
    checkSibling b a = .ok () := by
  unfold checkSibling at h ⊢
  by_cases hname : b.profileName = a.profileName
  · rw [if_pos hname.symm]
  · rw [if_neg hname] at h
    rw [if_neg fun heq ↦ hname heq.symm]
    cases hown : a.routingLabels with
    | none => cases b.routingLabels <;> rfl
    | some own =>
      cases hother : b.routingLabels with
      | none => rfl
      | some other =>
        simp only [hown, hother] at h ⊢
        split_ifs at h with hsame hleft hright
        rw [if_neg fun heq ↦ hsame heq.symm, if_neg hright, if_neg hleft]

theorem policy_row_injective {a b : ScalePolicy} (hstorable : a.Storable)
    (hnative : NativeRoot native a.workspacePolicy.root) (h : policyRow b = policyRow a) :
    b = a := by
  have hread : policyFromRow native (policyRow a) = .ok a :=
    policy_read_iff.mpr ⟨⟨hstorable, hnative⟩, rfl⟩
  rw [← h] at hread
  exact (policy_read_iff.mp hread).2.symm

/-- A checked write fits itself and leaves every other stored profile fitting. -/
theorem profiles_put {policy : ScalePolicy} (hstorable : policy.Storable)
    (hnative : NativeRoot native policy.workspacePolicy.root)
    (hfits : ProfileFits native db policy) {other : ScalePolicy}
    (hother : other = policy ∨ policyRow other ∈ db.policies.rows ∧ other.id ≠ policy.id ∧
      ProfileFits native db other) :
    ProfileFits native { db with policies := db.policies.put (policyRow policy) } other := by
  rcases hother with rfl | ⟨hmem, hne, hhost, hsiblings⟩
  · refine ⟨hfits.1, fun sibling hsibling hrelated ↦ ?_⟩
    rcases Table.mem_put.mp hsibling with heq | ⟨hsibling, -⟩
    · obtain rfl := policy_row_injective hstorable hnative heq
      simp [isSibling, policyRow, ScalePolicy.toPersisted] at hrelated
    · exact hfits.2 sibling hsibling hrelated
  · refine ⟨hhost, fun sibling hsibling hrelated ↦ ?_⟩
    rcases Table.mem_put.mp hsibling with heq | ⟨hsibling, -⟩
    · obtain rfl := policy_row_injective hstorable hnative heq
      -- The new profile was checked against `other`, and the check is symmetric.
      exact check_sibling_symm (hfits.2 other hmem (sibling_symm hrelated))
    · exact hsiblings sibling hsibling hrelated

/-! ## The selector of a named profile -/

/-- Every host row is the row of a host that is read back. -/
def HostsReadable (native : PathPlatform) (db : Database) : Prop :=
  ∀ row ∈ db.hosts.rows, ∃ host : Host, row = hostParams host ∧ host.Readable native

/-- The selector is derived from the facts of this host. -/
def SelectorFrom (policy : ScalePolicy) (os : Os) (arch : Arch) : Prop :=
  ∀ labels ∈ policy.routingLabels, labels.hostLabel =
    (RoutingLabels.deriveForProfile policy.requestedHostLabel os arch
      policy.profileName).hostLabel

theorem check_host_selector_iff (hhosts : HostsReadable native db) {policy : ScalePolicy} :
    checkHostSelector native db policy = .ok () ↔
      (policy.profileName.isDefault = false → ∃ row, db.hosts.find? policy.hostId = some row ∧
        SelectorFrom policy row.os row.architecture) := by
  unfold checkHostSelector
  cases hdefault : policy.profileName.isDefault with
  | true => simp
  | false =>
    cases hrow : db.hosts.find? policy.hostId with
    | none => simp
    | some row =>
      obtain ⟨host, rfl, hreadable⟩ := hhosts row (Table.find?_eq_some_iff.mp hrow).1
      have hos : (hostParams host).os = host.os := rfl
      have harch : (hostParams host).architecture = host.architecture := rfl
      simp only [Bool.false_eq_true, if_false, host_read hreadable, bind, Except.bind,
        SelectorFrom, forall_const, Option.some.injEq, exists_eq_left', hos, harch]
      cases hlabels : policy.routingLabels with
      | none => simp
      | some labels =>
        by_cases hsame : labels.hostLabel = (RoutingLabels.deriveForProfile
            policy.requestedHostLabel host.os host.architecture policy.profileName).hostLabel
        · simp [hsame]
        · simp [hsame]

theorem profiles_put_host (hhosts : HostsReadable native db) {host : Host}
    (hreadable : host.Readable native) {policy : ScalePolicy}
    (hfacts : policy.hostId = host.id → policy.profileName.isDefault = false →
      policy.routingLabels.isSome = true → ∀ row, db.hosts.find? host.id = some row →
      row.os = host.os ∧ row.architecture = host.architecture)
    (hfits : ProfileFits native db policy) :
    ProfileFits native { db with hosts := db.hosts.put (hostParams host) } policy := by
  have hnext : HostsReadable native { db with hosts := db.hosts.put (hostParams host) } := by
    intro row hrow
    rcases Table.mem_put.mp hrow with rfl | ⟨hrow, -⟩
    · exact ⟨host, rfl, hreadable⟩
    · exact hhosts row hrow
  refine ⟨(check_host_selector_iff hnext).mpr fun hnamed ↦ ?_, hfits.2⟩
  obtain ⟨row, hrow, hselector⟩ := (check_host_selector_iff hhosts).mp hfits.1 hnamed
  have hlookup : (db.hosts.put (hostParams host)).find? policy.hostId =
      if policy.hostId = host.id then some (hostParams host) else db.hosts.find? policy.hostId :=
    Table.find?_put (hostParams host) policy.hostId
  by_cases hsame : policy.hostId = host.id
  · refine ⟨hostParams host, hlookup.trans (if_pos hsame), fun labels hlabels ↦ ?_⟩
    have hsome : policy.routingLabels.isSome = true :=
      Option.isSome_iff_exists.mpr ⟨labels, hlabels⟩
    rw [hsame] at hrow
    obtain ⟨hos, harch⟩ := hfacts hsame hnamed hsome row hrow
    show labels.hostLabel = (RoutingLabels.deriveForProfile policy.requestedHostLabel host.os
      host.architecture policy.profileName).hostLabel
    rw [← hos, ← harch]
    exact hselector labels hlabels
  · exact ⟨row, (hlookup.trans (if_neg hsame)).trans hrow, hselector⟩

/-! ## The refinement -/

def StoresHost (native : PathPlatform) (row : HostRow) (host : Host) : Prop :=
  row = hostParams host ∧ host.Readable native

def StoresPolicy (native : PathPlatform) (row : PolicyRow) (policy : ScalePolicy) : Prop :=
  row = policyRow policy ∧ policy.Storable ∧ NativeRoot native policy.workspacePolicy.root

/-- A row and the attempt it is read back as. -/
def StoresAttempt (row : PersistedAttempt) (attempt : RunnerAttempt) : Prop :=
  ∃ written : RunnerAttempt, row = written.toPersisted ∧ WellFormed written ∧
    written.EnvironmentKnown ∧ attempt = written.clockNormalised

theorem clock_normalised_idem (attempt : RunnerAttempt) :
    attempt.clockNormalised.clockNormalised = attempt.clockNormalised := by
  cases hterminal : attempt.terminalAt <;>
    simp [RunnerAttempt.clockNormalised, hterminal]

namespace WellFormed

theorem clockNormalised {attempt : RunnerAttempt} (h : WellFormed attempt) :
    WellFormed attempt.clockNormalised where
  outcome := h.outcome
  terminalAt := (Option.isSome_map ..).trans h.terminalAt
  outcomeState := h.outcomeState
  phase := h.phase
  process := h.process
  execution := h.execution

theorem rebase {attempt : RunnerAttempt} (h : WellFormed attempt) (workspace : AttemptWorkspace)
    (createdAt : Timestamp) : WellFormed { attempt with workspace, createdAt } where
  outcome := h.outcome
  terminalAt := h.terminalAt
  outcomeState := h.outcomeState
  phase := h.phase
  process := h.process
  execution := h.execution

end WellFormed

/-- The tables hold what the ledger says, and every stored profile passes its checks. -/
structure Refines (native : PathPlatform) (db : Database) (ledger : Ledger) : Prop where
  hosts : db.hosts.Holds (StoresHost native) ledger.hosts
  policies : db.policies.Holds (StoresPolicy native) ledger.policies
  attempts : db.attempts.Holds StoresAttempt ledger.attempts
  profiles : ∀ id policy, ledger.policies id = some policy → ProfileFits native db policy

namespace Refines

variable {ledger : Ledger}

theorem rows_readable (h : Refines native db ledger) : RowsReadable native db := by
  intro row hrow
  obtain ⟨policy, -, hstores⟩ := h.policies.value_of_mem hrow
  exact ⟨policy, hstores⟩

theorem hosts_readable (h : Refines native db ledger) : HostsReadable native db := by
  intro row hrow
  obtain ⟨host, -, hstores⟩ := h.hosts.value_of_mem hrow
  exact ⟨host, hstores⟩

theorem policy_row_mem (h : Refines native db ledger) {id : PolicyId} {policy : ScalePolicy}
    (hpolicy : ledger.policies id = some policy) :
    policyRow policy ∈ db.policies.rows ∧ policy.id = id := by
  obtain ⟨row, hfind, rfl, -⟩ := h.policies.row_of_value hpolicy
  exact Table.find?_eq_some_iff.mp hfind

theorem put_host (h : Refines native db ledger) {host : Host} (hreadable : host.Readable native)
    (hfacts : KeepsFacts db host) :
    Refines native { db with hosts := db.hosts.put (hostParams host) }
      { ledger with hosts := Function.update ledger.hosts host.id (some host) } where
  hosts := h.hosts.put ⟨rfl, hreadable⟩
  policies := h.policies
  attempts := h.attempts
  profiles := by
    intro id policy hpolicy
    refine profiles_put_host h.hosts_readable hreadable ?_ (h.profiles id policy hpolicy)
    intro hhost hnamed hlabels row hrow
    exact hfacts row hrow policy (h.policy_row_mem hpolicy).1 hhost hnamed hlabels

theorem put_policy (h : Refines native db ledger) {policy : ScalePolicy}
    (hproper : policy.Storable ∧ NativeRoot native policy.workspacePolicy.root)
    (hvalid : validateProfileInTarget native db policy = .ok ()) :
    Refines native { db with policies := db.policies.put (policyRow policy) }
      { ledger with policies := Function.update ledger.policies policy.id (some policy) } where
  hosts := h.hosts
  policies := h.policies.put ⟨rfl, hproper⟩
  attempts := h.attempts
  profiles := by
    intro id other hother
    have hupdate : Function.update ledger.policies policy.id (some policy) id = some other := hother
    have hfits := (profile_fits_iff h.rows_readable).mp hvalid
    refine profiles_put hproper.1 hproper.2 hfits ?_
    by_cases hid : id = policy.id
    · subst hid
      rw [Function.update_self, Option.some.injEq] at hupdate
      exact .inl hupdate.symm
    · rw [Function.update_of_ne hid] at hupdate
      obtain ⟨hmem, hotherId⟩ := h.policy_row_mem hupdate
      exact .inr ⟨hmem, hotherId ▸ hid, h.profiles id other hupdate⟩

theorem remove_policy (h : Refines native db ledger) (id : PolicyId) :
    Refines native { db with policies := db.policies.erase id }
      { ledger with policies := Function.update ledger.policies id none } where
  hosts := h.hosts
  policies := h.policies.erase id
  attempts := h.attempts
  profiles := by
    intro other policy hpolicy
    have hupdate : Function.update ledger.policies id none other = some policy := hpolicy
    by_cases hid : other = id
    · subst hid
      rw [Function.update_self] at hupdate
      cases hupdate
    · rw [Function.update_of_ne hid] at hupdate
      obtain ⟨hhost, hsiblings⟩ := h.profiles other policy hupdate
      exact ⟨hhost, fun sibling hmem ↦ hsiblings sibling (Table.mem_erase.mp hmem).1⟩

theorem record_attempt (h : Refines native db ledger) {attempt : RunnerAttempt}
    (hwf : WellFormed attempt) (henvironment : attempt.EnvironmentKnown) {next : Database}
    (hrun : Store.recordAttempt db attempt = .ok next) :
    Refines native next (ledger.write (.recordAttempt attempt)) := by
  obtain ⟨row, hrow, -, -, rfl⟩ := Store.recordAttempt_ok hrun
  rw [normalise_toPersisted hwf] at hrow
  obtain ⟨hid, hstores⟩ : row.id = attempt.id ∧
      StoresAttempt row (Ledger.journalled (ledger.attempts attempt.id) attempt) := by
    have hrel := h.attempts attempt.id
    cases hfind : db.attempts.find? attempt.id with
    | none =>
      rw [hfind] at hrow hrel
      cases hledger : ledger.attempts attempt.id with
      | none =>
        exact ⟨by rw [hrow]; rfl, attempt.clockNormalised, hrow, hwf.clockNormalised,
          henvironment, (clock_normalised_idem attempt).symm⟩
      | some other =>
        rw [hledger] at hrel
        cases hrel
    | some stored =>
      rw [hfind] at hrow hrel
      cases hledger : ledger.attempts attempt.id with
      | none =>
        rw [hledger] at hrel
        cases hrel
      | some other =>
        rw [hledger] at hrel
        cases hrel with
        | some hstored =>
          obtain ⟨written, rfl, -, -, rfl⟩ := hstored
          exact ⟨by rw [hrow]; rfl, { attempt.clockNormalised with
              workspace := written.workspace, createdAt := written.createdAt }, hrow,
            hwf.clockNormalised.rebase written.workspace written.createdAt, henvironment, rfl⟩
  refine ⟨h.hosts, h.policies, ?_, h.profiles⟩
  have hput := h.attempts.put hstores
  rwa [hid] at hput

/-- A proper transaction keeps the refinement. -/
theorem step (h : Refines native db ledger) {op : StoreOp} (hproper : ProperWrite native db op)
    {next : Database} (hrun : op.run native db = .ok next) :
    Refines native next (ledger.write op) := by
  cases op with
  | putHost host =>
    cases hrun
    exact h.put_host hproper.1 hproper.2
  | setRunnerRootOverride id expected newRoot expectedUncleaned =>
    obtain ⟨row, hfind, rfl⟩ := Store.setRunnerRootOverride_ok hrun
    obtain ⟨host, hhost, rfl, hreadable⟩ :=
      h.hosts.value_of_mem (Table.find?_eq_some_iff.mp hfind).1
    have hid : host.id = id := (Table.find?_eq_some_iff.mp hfind).2
    have hledger : ledger.hosts id = some host := by
      rw [← hid]
      exact hhost
    subst hid
    -- The row is that of the same host under its new root, so no fact changes.
    have hrerooted : ({ host with runnerRootOverride := newRoot } : Host).Readable native :=
      ⟨hreadable.trimmed, hreadable.named, hproper⟩
    have hwritten := h.put_host hrerooted (by
        intro row hrow policy _ _ _ _
        rw [hfind] at hrow
        cases hrow
        exact ⟨rfl, rfl⟩)
    simp only [Ledger.write, hledger, Option.map_some]
    exact hwritten
  | insertPolicy policy =>
    obtain ⟨-, hvalid, -, -, rfl⟩ := Store.insertPolicy_ok hrun
    exact h.put_policy hproper hvalid
  | updatePolicy policy expectedRevision fence =>
    obtain ⟨-, -, -, hvalid, -, -, rfl⟩ := Store.updatePolicy_ok hrun
    exact h.put_policy hproper hvalid
  | removePolicy id expectedRevision =>
    obtain ⟨-, rfl⟩ := Store.removePolicy_ok hrun
    exact h.remove_policy id
  | recordAttempt attempt => exact h.record_attempt hproper.1 hproper.2 hrun
  | removeAttempt id =>
    cases hrun
    exact ⟨h.hosts, h.policies, h.attempts.erase id, h.profiles⟩

end Refines

/-- A sequence of proper transactions keeps the refinement. -/
theorem refines_run (ops : List StoreOp) {ledger : Ledger} (h : Refines native db ledger)
    (hproper : ProperRun native db ops) :
    Refines native (Ledger.runAll native ops (db, ledger)).1
      (Ledger.runAll native ops (db, ledger)).2 := by
  induction ops generalizing db ledger with
  | nil => exact h
  | cons op ops ih =>
    obtain ⟨hwrite, hrest⟩ := hproper
    show Refines native (Ledger.runAll native ops (Ledger.runOne native (db, ledger) op)).1
      (Ledger.runAll native ops (Ledger.runOne native (db, ledger) op)).2
    rw [Ledger.runOne]
    rw [StoreOp.exec] at hrest
    cases hrun : op.run native db with
    | error e =>
      rw [hrun] at hrest
      exact ih h hrest
    | ok next =>
      rw [hrun] at hrest
      exact ih (h.step (hwrite ⟨next, hrun⟩) hrun) hrest

/-! ## Every query returns the ledger -/

/-- Every query succeeds and lists exactly what was last written, once. -/
structure Returns (native : PathPlatform) (db : Database) (ledger : Ledger) : Prop where
  hosts : ∃ hosts, Store.hosts native db = .ok hosts ∧ (hosts.map Host.id).Nodup ∧
    ∀ host, host ∈ hosts ↔ ledger.hosts host.id = some host
  policies : ∃ policies, Store.policies native db = .ok policies ∧
    (policies.map ScalePolicy.id).Nodup ∧
    ∀ policy, policy ∈ policies ↔ ledger.policies policy.id = some policy
  attempts : ∃ attempts, Store.attempts db = .ok attempts ∧
    (attempts.map RunnerAttempt.id).Nodup ∧
    ∀ attempt, attempt ∈ attempts ↔ ledger.attempts attempt.id = some attempt

theorem Refines.returns {ledger : Ledger} (h : Refines native db ledger) :
    Returns native db ledger where
  hosts := by
    refine h.hosts.read_orderBy fun row _ host _ hstores ↦ ?_
    obtain ⟨rfl, hreadable⟩ := hstores
    exact ⟨host_read hreadable, rfl⟩
  policies := by
    refine h.policies.read_orderBy fun row _ policy hpolicy hstores ↦ ?_
    obtain ⟨rfl, hproper⟩ := hstores
    have hfits := (profile_fits_iff h.rows_readable).mpr (h.profiles _ policy hpolicy)
    refine ⟨?_, rfl⟩
    simp only [Store.readPolicy, policy_read_iff.mpr ⟨hproper, rfl⟩, hfits, bind, Except.bind,
      pure, Except.pure]
  attempts := by
    rw [Store.attempts, Store.attemptsWhere, List.filter_true]
    refine h.attempts.read_orderBy fun row _ attempt _ hstores ↦ ?_
    obtain ⟨written, rfl, hwf, henvironment, rfl⟩ := hstores
    refine ⟨?_, rfl⟩
    have hreload : written.toPersisted.normalise.fromPersisted = .ok written.clockNormalised :=
      (reload_iff hwf).mpr henvironment
    rw [attemptFromRow, hreload]
    rfl

/-- After proper transactions on an empty database, every query returns what was last
written. -/
theorem store_returns_ledger (native : PathPlatform) (ops : List StoreOp)
    (hproper : ProperRun native Database.empty ops) :
    Returns native (Ledger.runAll native ops (Database.empty, Ledger.empty)).1
      (Ledger.runAll native ops (Database.empty, Ledger.empty)).2 := by
  refine (refines_run ops ?_ hproper).returns
  exact ⟨.empty, .empty, .empty, fun id policy hpolicy ↦ by cases hpolicy⟩

/-- An attempt whose host clock stepped back between two operations. -/
def clockSteppedBack : RunnerAttempt :=
  (AttemptOp.jitReceived 5).exec (.allocate ⟨1⟩ ⟨2⟩ "/r/1" 9)

/-- A host of the given operating system. -/
def hostOf (os : Os) : Host where
  id := ⟨1⟩
  displayName := "build"
  os := os
  architecture := .x64
  hostCapacity := ⟨2, two_nonZero⟩
  serviceStartMode := .boot
  refreshInterval := ⟨30, thirty_interval⟩
  runnerRootOverride := none
  createdAt := 0

/-- A named profile whose selector was derived on Linux. -/
def linuxProfile : ScalePolicy where
  id := ⟨7⟩
  target := .repository ⟨⟨"acme", acme_owner⟩, ⟨"app", app_repo⟩⟩
  installationId := 3
  hostId := ⟨1⟩
  requestedHostLabel := ⟨"build", build_label⟩
  profileName := ⟨"gpu", gpu_profile⟩
  mode := .autoscale {
    routingLabels := .deriveForProfile ⟨"build", build_label⟩ .linux .x64 ⟨"gpu", gpu_profile⟩
    minCapacity := 0
    maxCapacity := ⟨1, one_nonZero⟩
    ordered := zero_ordered_one }
  enabled := true
  state := .active
  cachePolicy := .retainRunnerPackage
  workspacePolicy := .ephemeral
  executionPolicy := .native
  revision := 1

/-- A host, a profile on it and an attempt are returned as written, the attempt's clock
repaired. -/
theorem store_returns_profile :
    Returns .unix
      (Ledger.runAll .unix [.putHost (hostOf .linux), .insertPolicy linuxProfile,
        .recordAttempt clockSteppedBack] (Database.empty, Ledger.empty)).1
      (Ledger.runAll .unix [.putHost (hostOf .linux), .insertPolicy linuxProfile,
        .recordAttempt clockSteppedBack] (Database.empty, Ledger.empty)).2 := by
  refine store_returns_ledger .unix _ ⟨fun _ ↦ ⟨⟨by decide, by decide, ?_⟩, ?_⟩,
    fun _ ↦ ⟨⟨rfl, rfl, rfl⟩, ?_⟩, fun _ ↦ ⟨⟨rfl, rfl, ?_, fun _ ↦ rfl, rfl, rfl⟩, ?_⟩, trivial⟩
  · intro path hpath
    cases hpath
  · intro row hrow
    cases hrow
  · intro path hpath
    cases hpath
  · intro outcome houtcome
    cases houtcome
  · intro _ hisolated
    cases hisolated

/-- An attempt whose clock stepped back is not returned as written, and a host write that
changes the facts of a profile makes the profile unreadable. -/
theorem accepted_writes_not_returned :
    (∃ db attempts, Store.recordAttempt Database.empty clockSteppedBack = .ok db ∧
      Store.attempts db = .ok attempts ∧ clockSteppedBack ∉ attempts) ∧
    (∃ db next, Store.insertPolicy .unix
        (StoreOp.execAll .unix [.putHost (hostOf .linux)] Database.empty) linuxProfile = .ok db ∧
      Store.putHost db (hostOf .macOs) = .ok next ∧
      Store.policies .unix next = .error (.corruptProfileSelector ⟨7⟩)) := by
  refine ⟨⟨_, _, rfl, rfl, by decide⟩, ⟨_, _, rfl, rfl, ?_⟩⟩
  rfl

end RunnerManager.Domain
