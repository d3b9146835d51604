import RunnerManager.Domain.StoreRead

/-!
# Concurrent policy edits

Any number of clients read a policy, apply mutators to the copy they read, and write the copy
back under the revision they read. Read `Coherent` first: a version some client still holds is
either the stored one or older than it, and `coherent_run` says that every interleaving keeps
that. A successful write therefore replaces the version it was computed from.
-/

namespace RunnerManager.Domain

open RunnerManager.Result

/-! ## Clients -/

/-- A client's copy: the version it read and the mutators it applied since. -/
structure Session where
  base : ScalePolicy
  edits : List PolicyOp

/-- The copy a client would write back. -/
def Session.draft (session : Session) : ScalePolicy :=
  session.edits.foldl (fun policy op ↦ op.exec policy) session.base

/-- The database, the policy ids inserted so far, and every client's copy. -/
structure Clients (C : Type) where
  db : Database
  used : Finset PolicyId
  sessions : C → Option Session

/-- One serialised step of one client, or of the rest of the program. -/
inductive ClientAction (C : Type) where
  | read (client : C) (id : PolicyId)
  | readAll (client : C) (id : PolicyId)
  | edit (client : C) (op : PolicyOp)
  | update (client : C) (fence : Store.CountFence)
  | remove (client : C)
  | insert (policy : ScalePolicy)
  | putHost (host : Host)
  | setRunnerRootOverride (id : HostId) (expected newRoot : Option LocalAbsolutePath)
      (expectedUncleaned : Nat)
  | recordAttempt (attempt : RunnerAttempt)
  | removeAttempt (id : AttemptId)

namespace Clients

variable {C : Type} [DecidableEq C] (native : PathPlatform)

/-- Nothing stored and nothing read. -/
def start : Clients C where
  db := .empty
  used := ∅
  sessions := fun _ ↦ none

def hold (s : Clients C) (client : C) (session : Session) : Clients C :=
  { s with sessions := Function.update s.sessions client (some session) }

/-- The rest of the program runs a transaction. -/
def transact (s : Clients C) (op : StoreOp) : Clients C :=
  { s with db := op.exec native s.db }

/-- One step. A client without a copy has nothing to edit or write, and an id that was
inserted before is not inserted again. -/
def step (s : Clients C) : ClientAction C → Clients C
  | .read client id =>
    match Store.policy native s.db id with
    | .ok (some policy) => s.hold client ⟨policy, []⟩
    | _ => s
  | .readAll client id =>
    match Store.policies native s.db with
    | .ok policies =>
      match policies.find? fun policy ↦ policy.id = id with
      | some policy => s.hold client ⟨policy, []⟩
      | none => s
    | .error _ => s
  | .edit client op =>
    match s.sessions client with
    | some session => s.hold client { session with edits := session.edits ++ [op] }
    | none => s
  | .update client fence =>
    match s.sessions client with
    | some session =>
      s.transact native (.updatePolicy session.draft session.base.revision fence)
    | none => s
  | .remove client =>
    match s.sessions client with
    | some session => s.transact native (.removePolicy session.base.id session.base.revision)
    | none => s
  | .insert policy =>
    if policy.id ∈ s.used then s
    else
      match Store.insertPolicy native s.db policy with
      | .ok next => { s with db := next, used := insert policy.id s.used }
      | .error _ => s
  | .putHost host => s.transact native (.putHost host)
  | .setRunnerRootOverride id expected newRoot expectedUncleaned =>
    s.transact native (.setRunnerRootOverride id expected newRoot expectedUncleaned)
  | .recordAttempt attempt => s.transact native (.recordAttempt attempt)
  | .removeAttempt id => s.transact native (.removeAttempt id)

def run (actions : List (ClientAction C)) : Clients C :=
  actions.foldl (step native) start

end Clients

/-! ## Mutators advance the revision -/

theorem revision_advances (op : PolicyOp) {policy : ScalePolicy}
    (hbound : policy.revision < u64Max) (hchanged : op.exec policy ≠ policy) :
    policy.revision < (op.exec policy).revision := by
  rcases op.exec_cases policy with hsame | hmutated
  · exact absurd hsame hchanged
  · rw [hmutated.advances.2, ScalePolicy.nextRevision]
    omega

/-- A draft is the version read, or a later one of the same policy. -/
theorem draft_cases (session : Session) (hbound : session.base.revision < u64Max) :
    session.draft.id = session.base.id ∧
      (session.draft = session.base ∨ session.base.revision < session.draft.revision) := by
  obtain ⟨base, edits⟩ := session
  have hroom : base.revision < u64Max := hbound
  clear hbound
  suffices h : ∀ policy : ScalePolicy, policy.id = base.id →
      (policy = base ∨ base.revision < policy.revision) →
      (edits.foldl (fun policy op ↦ op.exec policy) policy).id = base.id ∧
        (edits.foldl (fun policy op ↦ op.exec policy) policy = base ∨
          base.revision < (edits.foldl (fun policy op ↦ op.exec policy) policy).revision) from
    h base rfl (.inl rfl)
  induction edits with
  | nil => exact fun policy hid hpolicy ↦ ⟨hid, hpolicy⟩
  | cons op edits ih =>
    intro policy hid hpolicy
    refine ih (op.exec policy) ?_ ?_
    · rcases op.exec_cases policy with hsame | hmutated
      · rwa [hsame]
      · rw [hmutated.advances.1.id, hid]
    · rcases op.exec_cases policy with hsame | hmutated
      · rwa [hsame]
      · right
        -- The revision saturates at a value above every revision the database holds.
        have hnext : (op.exec policy).revision = min (policy.revision + 1) u64Max :=
          hmutated.advances.2
        have hbase : base.revision ≤ policy.revision := by
          rcases hpolicy with rfl | hlt <;> omega
        omega

/-! ## What every interleaving keeps -/

/-- A version of a policy that was stored once: the stored one, or older than it. -/
def Behind {C : Type} (s : Clients C) (version : ScalePolicy) : Prop :=
  version.id ∈ s.used ∧ version.revision ≤ i64Max ∧
    ∀ row, s.db.policies.find? version.id = some row →
      version.revision ≤ row.revision ∧
        (row.revision = version.revision → row = policyRow version)

/-- Every stored row holds a policy whose id was inserted, and every client's version is
behind. -/
structure Coherent {C : Type} (s : Clients C) : Prop where
  rows : ∀ row ∈ s.db.policies.rows, row.id ∈ s.used ∧
    ∃ policy : ScalePolicy, row = policyRow policy ∧ policy.revision ≤ i64Max
  held : ∀ client session, s.sessions client = some session → Behind s session.base

namespace Coherent

variable {C : Type} {native : PathPlatform} {s : Clients C}

theorem of_same_policies (h : Coherent s) {db : Database}
    (hpolicies : db.policies = s.db.policies) :
    Coherent { s with db } where
  rows := by
    intro row hrow
    exact h.rows row (hpolicies ▸ hrow)
  held := by
    intro client session hsession
    obtain ⟨hused, hbound, hrow⟩ := h.held client session hsession
    exact ⟨hused, hbound, fun row hfind ↦ hrow row (hpolicies ▸ hfind)⟩

theorem hold [DecidableEq C] (h : Coherent s) (client : C) {session : Session}
    (hsession : Behind s session.base) : Coherent (s.hold client session) where
  rows := h.rows
  held := by
    intro other otherSession hother
    have hupdate : Function.update s.sessions client (some session) other =
        some otherSession := hother
    by_cases hclient : other = client
    · subst hclient
      rw [Function.update_self, Option.some.injEq] at hupdate
      exact hupdate ▸ hsession
    · rw [Function.update_of_ne hclient] at hupdate
      exact h.held other otherSession hupdate

theorem read [DecidableEq C] (h : Coherent s) (client : C) {row : PolicyRow}
    (hrow : row ∈ s.db.policies.rows) {policy : ScalePolicy}
    (hread : policyFromRow native row = .ok policy) :
    Coherent (s.hold client ⟨policy, []⟩) := by
  obtain ⟨hused, stored, rfl, hbound⟩ := h.rows row hrow
  obtain ⟨-, rfl⟩ := policy_read_iff.mp hread
  refine h.hold client ⟨hused, hbound, fun other hother ↦ ?_⟩
  have hself : s.db.policies.find? policy.id = some (policyRow policy) :=
    Table.mem_iff_find?.mp hrow
  rw [hself, Option.some.injEq] at hother
  subst hother
  exact ⟨Nat.le_refl _, fun _ ↦ rfl⟩

theorem row_eq (h : Coherent s) {client : C} {session : Session}
    (hsession : s.sessions client = some session) {row : PolicyRow}
    (hrow : s.db.policies.find? session.base.id = some row)
    (hrevision : row.revision = session.base.revision) : row = policyRow session.base :=
  ((h.held client session hsession).2.2 row hrow).2 hrevision

theorem draft_cases (h : Coherent s) {client : C} {session : Session}
    (hsession : s.sessions client = some session) : session.draft.id = session.base.id ∧
      (session.draft = session.base ∨ session.base.revision < session.draft.revision) := by
  refine Domain.draft_cases session ?_
  have hbound := (h.held client session hsession).2.1
  have hroom : i64Max < u64Max := by decide
  omega

/-- A client's successful write keeps every other version behind. -/
theorem update (h : Coherent s) {client : C} {session : Session} {fence : Store.CountFence}
    (hsession : s.sessions client = some session) {next : Database}
    (hrun : Store.updatePolicy native s.db session.draft session.base.revision fence = .ok next) :
    Coherent { s with db := next } := by
  obtain ⟨hbound, -, -, -, ⟨stored, hstored, hrevision⟩, -, rfl⟩ := Store.updatePolicy_ok hrun
  obtain ⟨hid, hdraft⟩ := h.draft_cases hsession
  rw [hid] at hstored
  have hstoredRow := h.row_eq hsession hstored hrevision
  have hlookup (id : PolicyId) : (s.db.policies.put (policyRow session.draft)).find? id =
      if id = session.base.id then some (policyRow session.draft)
      else s.db.policies.find? id := by
    rw [← hid]
    exact Table.find?_put (policyRow session.draft) id
  constructor
  · intro row hrow
    rcases Table.mem_put.mp hrow with rfl | ⟨hrow, -⟩
    · refine ⟨?_, session.draft, rfl, hbound⟩
      show session.draft.id ∈ s.used
      rw [hid]
      exact (h.held client session hsession).1
    · exact h.rows row hrow
  · intro other otherSession hother
    obtain ⟨hused, hotherBound, hbehind⟩ := h.held other otherSession hother
    refine ⟨hused, hotherBound, fun row hrow ↦ ?_⟩
    have hfound := (hlookup otherSession.base.id).symm.trans hrow
    by_cases hsame : otherSession.base.id = session.base.id
    · rw [if_pos hsame, Option.some.injEq] at hfound
      subst hfound
      obtain ⟨hle, heq⟩ := hbehind stored (hsame ▸ hstored)
      -- An unchanged draft writes the stored row again; a changed one writes a later revision.
      rcases hdraft with hunchanged | hlater
      · rw [hunchanged, ← hstoredRow]
        exact ⟨hle, heq⟩
      · have hlt : otherSession.base.revision < session.draft.revision := by omega
        exact ⟨hlt.le, fun hsameRevision ↦ absurd hsameRevision hlt.ne'⟩
    · rw [if_neg hsame] at hfound
      exact hbehind row hfound

theorem remove (h : Coherent s) (id : PolicyId) :
    Coherent { s with db := { s.db with policies := s.db.policies.erase id } } where
  rows := by
    intro row hrow
    exact h.rows row (Table.mem_erase.mp hrow).1
  held := by
    intro client session hsession
    obtain ⟨hused, hbound, hbehind⟩ := h.held client session hsession
    refine ⟨hused, hbound, fun row hrow ↦ ?_⟩
    have hfound := (Table.find?_erase id session.base.id).symm.trans hrow
    split_ifs at hfound
    exact hbehind row hfound

theorem insert (h : Coherent s) {policy : ScalePolicy} (hfresh : policy.id ∉ s.used)
    {next : Database} (hrun : Store.insertPolicy native s.db policy = .ok next) :
    Coherent { s with db := next, used := insert policy.id s.used } := by
  obtain ⟨hbound, -, -, -, rfl⟩ := Store.insertPolicy_ok hrun
  constructor
  · intro row hrow
    rcases Table.mem_put.mp hrow with rfl | ⟨hrow, -⟩
    · exact ⟨Finset.mem_insert_self _ _, policy, rfl, hbound⟩
    · obtain ⟨hused, hpolicy⟩ := h.rows row hrow
      exact ⟨Finset.mem_insert_of_mem hused, hpolicy⟩
  · intro client session hsession
    obtain ⟨hused, hsessionBound, hbehind⟩ := h.held client session hsession
    refine ⟨Finset.mem_insert_of_mem hused, hsessionBound, fun row hrow ↦ ?_⟩
    have hne : session.base.id ≠ policy.id := fun heq ↦ hfresh (heq ▸ hused)
    have hfound := (Table.find?_put (policyRow policy) session.base.id).symm.trans hrow
    exact hbehind row ((if_neg hne).symm.trans hfound)

end Coherent

section

variable {C : Type} [DecidableEq C] (native : PathPlatform)

theorem parsed_of_read {db : Database} {row : PolicyRow} {policy : ScalePolicy}
    (h : Store.readPolicy native db row = .ok policy) : policyFromRow native row = .ok policy := by
  simp only [Store.readPolicy, bind_eq_ok, pure_eq_ok] at h
  obtain ⟨_, hparsed, _, _, rfl⟩ := h
  exact hparsed

theorem coherent_step {s : Clients C} (h : Coherent s) (action : ClientAction C) :
    Coherent (s.step native action) := by
  cases action with
  | read client id =>
    simp only [Clients.step, Store.policy]
    cases hfind : s.db.policies.find? id with
    | none => exact h
    | some row =>
      cases hread : Store.readPolicy native s.db row with
      | error e => simpa [hread, Except.map] using h
      | ok policy =>
        have hrow := (Table.find?_eq_some_iff.mp hfind).1
        simpa [hread, Except.map] using h.read client hrow (parsed_of_read native hread)
  | readAll client id =>
    simp only [Clients.step]
    cases hall : Store.policies native s.db with
    | error e => exact h
    | ok policies =>
      cases hfind : policies.find? fun policy ↦ policy.id = id with
      | none => simpa [hfind] using h
      | some policy =>
        obtain ⟨row, hrow, hread⟩ :=
          exists_row_of_mapM hall (List.mem_of_find?_eq_some hfind)
        simpa [hfind] using
          h.read client (Table.mem_orderBy.mp hrow) (parsed_of_read native hread)
  | edit client op =>
    simp only [Clients.step]
    cases hsession : s.sessions client with
    | none => exact h
    | some session => exact h.hold client (h.held client session hsession)
  | update client fence =>
    simp only [Clients.step]
    cases hsession : s.sessions client with
    | none => exact h
    | some session =>
      simp only [Clients.transact, StoreOp.exec, StoreOp.run]
      cases hrun : Store.updatePolicy native s.db session.draft session.base.revision fence with
      | error e => exact h
      | ok next => exact h.update hsession hrun
  | remove client =>
    simp only [Clients.step]
    cases hsession : s.sessions client with
    | none => exact h
    | some session =>
      simp only [Clients.transact, StoreOp.exec, StoreOp.run]
      cases hrun : Store.removePolicy s.db session.base.id session.base.revision with
      | error e => exact h
      | ok next =>
        obtain ⟨-, rfl⟩ := Store.removePolicy_ok hrun
        exact h.remove session.base.id
  | insert policy =>
    simp only [Clients.step]
    split_ifs with hused
    · exact h
    · cases hrun : Store.insertPolicy native s.db policy with
      | error e => exact h
      | ok next => exact h.insert hused hrun
  | putHost host => exact h.of_same_policies rfl
  | removeAttempt id => exact h.of_same_policies rfl
  | setRunnerRootOverride id expected newRoot expectedUncleaned =>
    refine h.of_same_policies ?_
    simp only [StoreOp.exec, StoreOp.run]
    cases hrun : Store.setRunnerRootOverride s.db id expected newRoot expectedUncleaned with
    | error e => rfl
    | ok next =>
      obtain ⟨_, _, rfl⟩ := Store.setRunnerRootOverride_ok hrun
      rfl
  | recordAttempt attempt =>
    refine h.of_same_policies ?_
    simp only [StoreOp.exec, StoreOp.run]
    cases hrun : Store.recordAttempt s.db attempt with
    | error e => rfl
    | ok next =>
      obtain ⟨_, _, _, _, rfl⟩ := Store.recordAttempt_ok hrun
      rfl

theorem coherent_run (actions : List (ClientAction C)) : Coherent (Clients.run native actions) := by
  have hstart : Coherent (Clients.start : Clients C) :=
    { rows := fun row hrow ↦ by cases hrow
      held := fun client session hsession ↦ by cases hsession }
  suffices h : ∀ s : Clients C, Coherent s → Coherent (actions.foldl (Clients.step native) s) from
    h _ hstart
  induction actions with
  | nil => exact fun s h ↦ h
  | cons action actions ih => exact fun s h ↦ ih _ (coherent_step native h action)

/-! ## No lost update -/

theorem stale_update_refused {db : Database} {policy : ScalePolicy} {expected : Nat}
    {fence : Store.CountFence}
    (hstale : (db.policies.find? policy.id).map (·.revision) ≠ some expected) :
    (∃ error, Store.updatePolicy native db policy expected fence = .error error) ∧
      StoreOp.exec native db (.updatePolicy policy expected fence) = db := by
  cases hrun : Store.updatePolicy native db policy expected fence with
  | error error => exact ⟨⟨error, rfl⟩, by simp [StoreOp.exec, StoreOp.run, hrun]⟩
  | ok next =>
    obtain ⟨-, -, -, -, ⟨stored, hstored, hrevision⟩, -, -⟩ := Store.updatePolicy_ok hrun
    simp [hstored, hrevision] at hstale

theorem stale_removal_refused {db : Database} {id : PolicyId} {expected : Nat}
    (hstale : (db.policies.find? id).map (·.revision) ≠ some expected) :
    (∃ error, Store.removePolicy db id expected = .error error) ∧
      StoreOp.exec native db (.removePolicy id expected) = db := by
  cases hrun : Store.removePolicy db id expected with
  | error error => exact ⟨⟨error, rfl⟩, by simp [StoreOp.exec, StoreOp.run, hrun]⟩
  | ok next =>
    obtain ⟨⟨stored, hstored, hrevision⟩, -⟩ := Store.removePolicy_ok hrun
    simp [hstored, hrevision] at hstale

/-- What a reached state promises of the next write of any client. -/
structure NoLostUpdate (s : Clients C) : Prop where
  /-- A successful update replaces the version its draft was computed from, and nothing else. -/
  updates : ∀ client session fence next, s.sessions client = some session →
    Store.updatePolicy native s.db session.draft session.base.revision fence = .ok next →
    s.db.policies.find? session.draft.id = some (policyRow session.base) ∧
      next = { s.db with policies := s.db.policies.put (policyRow session.draft) }
  /-- A successful removal removes the version that was read, and nothing else. -/
  removals : ∀ client session next, s.sessions client = some session →
    Store.removePolicy s.db session.base.id session.base.revision = .ok next →
    s.db.policies.find? session.base.id = some (policyRow session.base) ∧
      next = { s.db with policies := s.db.policies.erase session.base.id }
  staleUpdates : ∀ (policy : ScalePolicy) expected fence,
    (s.db.policies.find? policy.id).map (·.revision) ≠ some expected →
    (∃ error, Store.updatePolicy native s.db policy expected fence = .error error) ∧
      StoreOp.exec native s.db (.updatePolicy policy expected fence) = s.db
  staleRemovals : ∀ id expected, (s.db.policies.find? id).map (·.revision) ≠ some expected →
    (∃ error, Store.removePolicy s.db id expected = .error error) ∧
      StoreOp.exec native s.db (.removePolicy id expected) = s.db

omit [DecidableEq C] in
theorem Coherent.no_lost_update {s : Clients C} (h : Coherent s) : NoLostUpdate native s where
  updates := by
    intro client session fence next hsession hrun
    obtain ⟨-, -, -, -, ⟨stored, hstored, hrevision⟩, -, hnext⟩ := Store.updatePolicy_ok hrun
    refine ⟨?_, hnext⟩
    rw [(h.draft_cases hsession).1] at hstored ⊢
    rw [hstored, h.row_eq hsession hstored hrevision]
  removals := by
    intro client session next hsession hrun
    obtain ⟨⟨stored, hstored, hrevision⟩, hnext⟩ := Store.removePolicy_ok hrun
    refine ⟨?_, hnext⟩
    rw [hstored, h.row_eq hsession hstored hrevision]
  staleUpdates := fun _ _ _ ↦ stale_update_refused native
  staleRemovals := fun _ _ ↦ stale_removal_refused native

/-- In every interleaving a successful write was computed from exactly the version it
replaces, and every mutator that changes a persisted field advances the revision. -/
theorem no_lost_policy_update (actions : List (ClientAction C)) :
    NoLostUpdate native (Clients.run native actions) ∧
      ∀ (op : PolicyOp) (policy : ScalePolicy), policy.revision < u64Max →
        (op.exec policy).toPersisted ≠ policy.toPersisted →
        policy.revision < (op.exec policy).revision := by
  refine ⟨(coherent_run native actions).no_lost_update native, fun op policy hbound hchanged ↦ ?_⟩
  refine revision_advances op hbound fun hsame ↦ hchanged ?_
  rw [hsame]

end

end RunnerManager.Domain
