import RunnerManager.App.Workspace

/-!
# Runner roots stay apart

The host's root and the persistent roots of the policies are assigned to their holders by
`rootOf`. Read `roots_apart_iff` first: along a run, no two holders' roots ever overlap exactly
when every write's new root is apart from the roots its validation did not compare it with.
Those are the roots configured after the validation, the roots of other profiles of the same
repository, and for a reset all of them. `shared_by_profiles` is a run of one operator where two
profiles of a repository end up with one root.
-/

namespace RunnerManager.App

open RunnerManager.Domain RunnerManager.Platform RunnerManager.Result RunnerManager.Mutation

/-! ## The roots in force -/

/-- Who a root belongs to. -/
inductive Holder where
  | host
  | policy (id : PolicyId)
deriving DecidableEq

section Roots

variable (machine : Machine)

def defaultText : Option String :=
  (defaultRunnerRoot machine).toOption.map (·.text)

/-- The effective host runner root of a store. -/
def hostText (hosts : List HostRow) : Option String :=
  match hosts with
  | [] => defaultText machine
  | row :: _ => row.runnerRootOverride <|> defaultText machine

/-- The root each holder has in force. -/
def rootOf (db : Database) : Holder → Option String
  | .host => hostText machine db.hosts.rows
  | .policy id => (db.policies.find? id).bind (·.workspacePath)

/-- The directories of two different holders are apart, and so no directory lies below two of
them. -/
structure RootsApart (db : Database) : Prop where
  apart : ∀ a b, a ≠ b → ∀ x ∈ rootOf machine db a, ∀ y ∈ rootOf machine db b,
    overlapOf machine.toLowercase x y machine.native = .disjoint
  unshared : ∀ a b, a ≠ b → ∀ x ∈ rootOf machine db a, ∀ y ∈ rootOf machine db b,
    ∀ directory, Below machine.toLowercase machine.native directory x →
      ¬ Below machine.toLowercase machine.native directory y

variable {machine}

theorem RootsApart.of_apart {db : Database}
    (h : ∀ a b, a ≠ b → ∀ x ∈ rootOf machine db a, ∀ y ∈ rootOf machine db b,
      overlapOf machine.toLowercase x y machine.native = .disjoint) : RootsApart machine db where
  apart := h
  unshared a b hne x hx y hy _ hbelow := not_below_both (h a b hne x hx y hy) hbelow

theorem RootsApart.of_roots {db next : Database} (h : RootsApart machine db)
    (hroots : ∀ holder, ∀ x ∈ rootOf machine next holder, x ∈ rootOf machine db holder) :
    RootsApart machine next :=
  .of_apart fun a b hne x hx y hy ↦ h.apart a b hne x (hroots a x hx) y (hroots b y hy)

theorem RootsApart.replace {db next : Database} {holder : Holder} {new : Option String}
    (h : RootsApart machine db)
    (hroots : rootOf machine next = Function.update (rootOf machine db) holder new)
    (hnew : ∀ x ∈ new, ∀ other, other ≠ holder → ∀ y ∈ rootOf machine db other,
      overlapOf machine.toLowercase x y machine.native = .disjoint) : RootsApart machine next := by
  refine .of_apart fun a b hne x hx y hy ↦ ?_
  rw [hroots] at hx hy
  by_cases ha : a = holder
  · subst ha
    rw [Function.update_self] at hx
    rw [Function.update_of_ne hne.symm] at hy
    exact hnew x hx b hne.symm y hy
  · rw [Function.update_of_ne ha] at hx
    by_cases hb : b = holder
    · subst hb
      rw [Function.update_self] at hy
      exact overlapOf_disjoint_comm.mp (hnew y hy a ha x hx)
    · rw [Function.update_of_ne hb] at hy
      exact h.apart a b hne x hx y hy

end Roots

/-! ## What a validation compared -/

namespace Pending

/-- Whose root a change sets. -/
def holder : Pending → Holder
  | hostRoot .. => .host
  | workspace policy .. => .policy policy.id

/-- The root in force after the change; a reset puts the platform default in force. -/
def newRoot (machine : Machine) : Pending → Option String
  | hostRoot _ _ _ requested _ _ => requested.map (·.text) <|> defaultText machine
  | workspace policy .. => policy.workspacePolicy.root.map (·.text)

/-- The validation compared the new root with this one. A reset compares nothing, and a
repository's own slug is skipped. -/
def Compared : Pending → Holder → String → Prop
  | hostRoot _ _ policies requested _ _, other, text =>
    requested ≠ none ∧ ∃ policy ∈ policies, other = .policy policy.id ∧
      ∃ root, policy.workspacePolicy.root = some root ∧ root.text = text
  | workspace _ _ target host policies _ _, other, text =>
    (other = .host ∧ ∃ root, host.effective = some root ∧ root.text = text) ∨
    ∃ policy ∈ policies, other = .policy policy.id ∧ policy.target.slug ≠ target.slug ∧
      ∃ root, policy.workspacePolicy.root = some root ∧ root.text = text

/-- The new root is apart from every root it was compared with. -/
def Validated (machine : Machine) (pending : Pending) : Prop :=
  ∀ x ∈ pending.newRoot machine, ∀ other y, pending.Compared other y →
    overlapOf machine.toLowercase x y machine.native = .disjoint

/-- The new root is apart from the roots now in force that it was not compared with. -/
def Covered (machine : Machine) (db : Database) (pending : Pending) : Prop :=
  ∀ x ∈ pending.newRoot machine, ∀ other, other ≠ pending.holder → ∀ y ∈ rootOf machine db other,
    ¬ pending.Compared other y → overlapOf machine.toLowercase x y machine.native = .disjoint

theorem rootOf_write {machine : Machine} {db next : Database} {pending : Pending}
    (h : pending.write machine db = .ok next) :
    rootOf machine next =
      Function.update (rootOf machine db) pending.holder (pending.newRoot machine) := by
  cases pending with
  | hostRoot id previous policies requested affected created =>
    obtain ⟨row, -, rfl⟩ := Store.setRunnerRootOverride_ok (mapError_eq_ok.mp h)
    funext other
    cases other with
    | host => rfl
    | policy id => rfl
  | workspace policy expectedRevision target host policies affected created =>
    obtain ⟨-, -, -, -, -, -, rfl⟩ := Store.updatePolicy_ok (mapError_eq_ok.mp h)
    funext other
    cases other with
    | host => rfl
    | policy id =>
      show ((db.policies.put (policyRow policy)).find? id).bind (·.workspacePath) = _
      rw [Table.find?_put]
      by_cases hid : id = policy.id
      · subst hid
        rw [if_pos (show policy.id = (policyRow policy).id from rfl)]
        simp [holder, newRoot, policyRow, ScalePolicy.toPersisted]
      · rw [if_neg (show ¬ id = (policyRow policy).id from hid), Function.update_of_ne]
        · rfl
        · simpa [holder] using hid

end Pending

/-! ## Every validated change is apart from what it was compared with -/

section Prepare

variable {machine : Machine} {db : Database}

theorem validatedLeaf_disjoint {host : HostRoot} {policies : List ScalePolicy}
    {cache : Option LocalAbsolutePath} {owner : RootOwner} {root : LocalAbsolutePath}
    {created : Option String}
    (h : validatedLeaf machine host policies cache owner root = .ok created) :
    ∀ entry ∈ (preflightAgainstEverything host policies cache).others, entry.1 ≠ owner →
      overlapOf machine.toLowercase root.text entry.2.text machine.native = .disjoint := by
  simp only [validatedLeaf, bind_eq_ok] at h
  obtain ⟨checked, hcheck, -⟩ := h
  exact (RootPreflight.check_disjoint (mapError_eq_ok.mp hcheck)).2

theorem mem_preflight_policy {host : HostRoot} {policies : List ScalePolicy}
    {cache : Option LocalAbsolutePath} {policy : ScalePolicy} {root : LocalAbsolutePath}
    (hpolicy : policy ∈ policies) (hroot : policy.workspacePolicy.root = some root) :
    (RootOwner.repository policy.target.slug, root) ∈
      (preflightAgainstEverything host policies cache).others := by
  simp only [preflightAgainstEverything, List.mem_append, List.mem_flatMap]
  exact .inl (.inr ⟨policy, hpolicy, by simp [hroot]⟩)

theorem mem_preflight_host {host : HostRoot} {policies : List ScalePolicy}
    {cache : Option LocalAbsolutePath} {root : LocalAbsolutePath}
    (hroot : host.effective = some root) :
    (RootOwner.host, root) ∈ (preflightAgainstEverything host policies cache).others := by
  simp [preflightAgainstEverything, hroot]

theorem prepareHostRoot_validated {host : Host} {requested cache : Option LocalAbsolutePath}
    {pending : Pending} (h : prepareHostRoot machine db host requested cache = .ok pending) :
    pending.Validated machine := by
  simp only [prepareHostRoot, bind_eq_ok, ite_error_eq_ok] at h
  obtain ⟨affected, -, -, h⟩ := h
  cases requested with
  | none =>
    cases h
    rintro x - other y ⟨hnone, -⟩
    exact absurd rfl hnone
  | some root =>
    simp only [bind_eq_ok, pure_eq_ok] at h
    obtain ⟨policies, -, created, hleaf, rfl⟩ := h
    intro x hx other y hcompared
    obtain ⟨-, policy, hpolicy, -, path, hpath, rfl⟩ := hcompared
    obtain rfl : root.text = x := Option.some.inj hx
    exact validatedLeaf_disjoint hleaf (.repository policy.target.slug, path)
      (mem_preflight_policy hpolicy hpath) (by simp)

theorem withWorkspace_ok {policy draft : ScalePolicy} {workspace : WorkspacePolicy}
    (h : withWorkspace policy workspace = .ok draft) :
    draft.workspacePolicy = workspace ∧ draft.id = policy.id ∧ draft.target = policy.target := by
  simp only [withWorkspace, mapError_eq_ok, answer, ScalePolicy.setWorkspacePolicy, bind_apply,
    get_apply, ScalePolicy.require] at h
  cases hpermitted : workspace.permittedFor policy.target.scope with
  | error e => simp [hpermitted] at h
  | ok u =>
    cases hvalid : policy.executionPolicy.validate policy.target.scope workspace with
    | error e => simp [hpermitted, hvalid] at h
    | ok u =>
      by_cases hsame : policy.workspacePolicy = workspace
      · have hdraft : policy = draft := by simpa [hpermitted, hvalid, hsame] using h
        subst hdraft
        exact ⟨hsame, rfl, rfl⟩
      · simp only [hpermitted, hvalid, ne_eq, hsame, not_false_eq_true, if_true, pure_apply,
          set_apply, Except.ok.injEq] at h
        subst h
        exact ⟨rfl, rfl, rfl⟩

theorem prepareWorkspace_validated {target : ScaleTarget} {profile : Option String}
    {kind : WorkspaceKind} {path cache : Option LocalAbsolutePath} {pending : Pending}
    (h : prepareWorkspace machine db target profile kind path cache = .ok (some pending)) :
    pending.Validated machine := by
  simp only [prepareWorkspace, bind_eq_ok, ite_error_eq_ok] at h
  obtain ⟨policies, -, policy, -, host, -, affected, -, -, requested, -, draft, hdraft, created,
    hleaf, h⟩ := h
  obtain ⟨hworkspace, -, -⟩ := withWorkspace_ok hdraft
  split_ifs at h
  · cases h
  · cases h
    intro x hx other y hcompared
    obtain ⟨root, hroot, rfl⟩ : ∃ root, requested.root = some root ∧ root.text = x := by
      simpa [Pending.newRoot, hworkspace] using hx
    rw [requestedLeaf, hroot] at hleaf
    obtain ⟨-, path, hpath, rfl⟩ | ⟨policy, hpolicy, -, hslug, path, hpath, rfl⟩ := hcompared
    · exact validatedLeaf_disjoint hleaf (.host, path) (mem_preflight_host hpath) (by simp)
    · exact validatedLeaf_disjoint hleaf (.repository policy.target.slug, path)
        (mem_preflight_policy hpolicy hpath) (by simpa using hslug)

end Prepare

/-! ## Steps -/

section Steps

variable {C : Type} [DecidableEq C] {machine : Machine} {s : Operators C}

/-- Every change a client has still to write was validated. -/
def AllValidated (machine : Machine) (s : Operators C) : Prop :=
  ∀ client pending, s.pending client = some pending → pending.Validated machine

theorem AllValidated.hold (h : AllValidated machine s) (db : Database) (client : C)
    {pending : Option Pending} (hpending : ∀ p ∈ pending, p.Validated machine) :
    AllValidated machine ({ s with db }.hold client pending) := by
  intro other p hp
  by_cases hother : other = client
  · subst hother
    exact hpending p (by simpa [Operators.hold] using hp)
  · exact h other p (by simpa [Operators.hold, hother] using hp)

theorem AllValidated.step (h : AllValidated machine s) (action : OperatorAction C) :
    AllValidated machine (s.step machine action) := by
  cases action with
  | prepareHostRoot client requested cache seed =>
    simp only [Operators.step]
    split
    · exact h.hold s.db client (by simp)
    · split
      · next hprepare =>
        exact h.hold _ client (by simpa using prepareHostRoot_validated hprepare)
      · exact h.hold _ client (by simp)
  | prepareWorkspace client target profile kind path cache =>
    simp only [Operators.step]
    split
    · next pending hprepare =>
      refine h.hold s.db client ?_
      rintro p rfl
      exact prepareWorkspace_validated hprepare
    · exact h.hold s.db client (by simp)
  | write client =>
    simp only [Operators.step]
    split
    · split
      · exact h.hold _ client (by simp)
      · exact h.hold s.db client (by simp)
    · exact h
  | insertPolicy policy =>
    simp only [Operators.step]
    split_ifs
    · exact h
    · exact h
  | removePolicy | recordAttempt | removeAttempt => exact h

theorem all_validated_run (actions : List (OperatorAction C)) :
    AllValidated machine (Operators.run machine actions) := by
  induction actions using List.reverseRecOn with
  | nil =>
    intro client pending h
    cases h
  | append_singleton actions action ih =>
    rw [Operators.run, List.foldl_append]
    exact ih.step action

/-- The host row a command creates puts no other root in force. -/
theorem rootOf_localHostOrCreate {db next : Database} {seed : HostSeed} {host : Host}
    (h : localHostOrCreate machine.native db seed = .ok (host, next)) :
    rootOf machine next = rootOf machine db := by
  simp only [localHostOrCreate, bind_eq_ok] at h
  obtain ⟨found, hfound, h⟩ := h
  cases found with
  | some stored =>
    cases h
    rfl
  | none =>
    -- the store records no host, so the default was in force before
    have hrows : db.hosts.rows = [] := by
      simp only [localHost, bind_eq_ok, mapError_eq_ok] at hfound
      obtain ⟨hosts, hread, hnone⟩ := hfound
      have hempty : hosts = [] := by
        rcases hosts with _ | ⟨_, _ | _⟩
        · rfl
        · cases hnone
        · cases hnone
      subst hempty
      have hordered := List.forall₂_nil_right_iff.mp (mapM_eq_ok.mp hread)
      have hlength := congrArg List.length hordered
      rw [Table.orderBy, List.length_insertionSort] at hlength
      exact List.eq_nil_of_length_eq_zero hlength
    simp only [createLocalHost, bind_eq_ok, mapError_eq_ok, pure_eq_ok] at h
    obtain ⟨created, hcreated, stored, hstored, h⟩ := h
    cases h
    cases hstored
    have hoverride : host.runnerRootOverride = none := by
      simp only [Host.new, ite_error_eq_ok] at hcreated
      obtain ⟨-, hcreated⟩ := hcreated
      cases hcreated
      rfl
    funext holder
    cases holder with
    | host => simp [rootOf, hostText, hrows, Table.put, hostParams, hoverride]
    | policy id => rfl

theorem rootOf_transact {op : StoreOp} {db : Database}
    (hop : ∀ next, op.run machine.native db = .ok next →
      ∀ holder, ∀ x ∈ rootOf machine next holder, x ∈ rootOf machine db holder) :
    ∀ holder, ∀ x ∈ rootOf machine (op.exec machine.native db) holder,
      x ∈ rootOf machine db holder := by
  rw [StoreOp.exec]
  cases hrun : op.run machine.native db with
  | ok next => exact hop next hrun
  | error e => exact fun _ _ hx ↦ hx

theorem rootOf_insertPolicy {db next : Database} {policy : ScalePolicy}
    (hworkspace : policy.workspacePolicy = .ephemeral)
    (h : Store.insertPolicy machine.native db policy = .ok next) :
    ∀ holder, ∀ x ∈ rootOf machine next holder, x ∈ rootOf machine db holder := by
  obtain ⟨-, -, -, -, rfl⟩ := Store.insertPolicy_ok h
  intro holder x hx
  cases holder with
  | host => exact hx
  | policy id =>
    change x ∈ ((db.policies.put (policyRow policy)).find? id).bind (·.workspacePath) at hx
    rw [Table.find?_put] at hx
    split_ifs at hx with hid
    · simp [policyRow, ScalePolicy.toPersisted, hworkspace, WorkspacePolicy.root] at hx
    · exact hx

theorem rootOf_removePolicy {db next : Database} {id : PolicyId} {expectedRevision : Nat}
    (h : Store.removePolicy db id expectedRevision = .ok next) :
    ∀ holder, ∀ x ∈ rootOf machine next holder, x ∈ rootOf machine db holder := by
  obtain ⟨-, rfl⟩ := Store.removePolicy_ok h
  intro holder x hx
  cases holder with
  | host => exact hx
  | policy other =>
    change x ∈ ((db.policies.erase id).find? other).bind (·.workspacePath) at hx
    rw [Table.find?_erase] at hx
    split_ifs at hx with hid
    · simp at hx
    · exact hx

/-- The roots a write is not compared with are apart from the root it puts in force. -/
def WriteCovered (machine : Machine) (s : Operators C) : OperatorAction C → Prop
  | .write client => ∀ pending next, s.pending client = some pending →
      pending.write machine s.db = .ok next → pending.Covered machine s.db
  | _ => True

/-- Only a write puts a root in force. -/
theorem rootOf_step {action : OperatorAction C} (hwrite : ∀ client, action ≠ .write client) :
    ∀ holder, ∀ x ∈ rootOf machine (s.step machine action).db holder,
      x ∈ rootOf machine s.db holder := by
  cases action with
  | prepareHostRoot client requested cache seed =>
    simp only [Operators.step]
    split
    · exact fun _ _ hx ↦ hx
    · next host next hlocal =>
      have hroots := rootOf_localHostOrCreate hlocal
      split
      · exact fun holder x hx ↦ hroots ▸ hx
      · exact fun holder x hx ↦ hroots ▸ hx
  | prepareWorkspace client target profile kind path cache =>
    simp only [Operators.step]
    split
    · exact fun _ _ hx ↦ hx
    · exact fun _ _ hx ↦ hx
  | write client => exact absurd rfl (hwrite client)
  | insertPolicy policy =>
    simp only [Operators.step]
    split_ifs with hworkspace
    · exact rootOf_transact fun next hrun ↦ rootOf_insertPolicy hworkspace hrun
    · exact fun _ _ hx ↦ hx
  | removePolicy id expectedRevision =>
    exact rootOf_transact fun next hrun ↦ rootOf_removePolicy hrun
  | recordAttempt attempt =>
    refine rootOf_transact fun next hrun ↦ ?_
    obtain ⟨_, -, -, -, rfl⟩ := Store.recordAttempt_ok hrun
    exact fun _ _ hx ↦ hx
  | removeAttempt id =>
    refine rootOf_transact fun next hrun ↦ ?_
    cases hrun
    exact fun _ _ hx ↦ hx

theorem apart_write_iff {db next : Database} {pending : Pending} (h : RootsApart machine db)
    (hvalidated : pending.Validated machine) (hwrite : pending.write machine db = .ok next) :
    RootsApart machine next ↔ pending.Covered machine db := by
  have hroots := Pending.rootOf_write hwrite
  constructor
  · intro hnext x hx other hother y hy _
    refine hnext.apart pending.holder other hother.symm x ?_ y ?_
    · rw [hroots, Function.update_self]
      exact hx
    · rw [hroots, Function.update_of_ne hother]
      exact hy
  · intro hcovered
    refine h.replace hroots fun x hx other hother y hy ↦ ?_
    by_cases hcompared : pending.Compared other y
    · exact hvalidated x hx other y hcompared
    · exact hcovered x hx other hother y hy hcompared

theorem apart_step_iff (h : RootsApart machine s.db) (hvalidated : AllValidated machine s)
    (action : OperatorAction C) :
    RootsApart machine (s.step machine action).db ↔ WriteCovered machine s action := by
  by_cases hwrite : ∃ client, action = .write client
  · obtain ⟨client, rfl⟩ := hwrite
    simp only [Operators.step, WriteCovered]
    cases hpending : s.pending client with
    | none => exact iff_of_true h (by simp)
    | some pending =>
      cases hrun : pending.write machine s.db with
      | error e =>
        simp only [hrun]
        refine iff_of_true h fun other next hother hok ↦ ?_
        cases hother
        rw [hrun] at hok
        cases hok
      | ok next =>
        simp only [hrun]
        show RootsApart machine next ↔ _
        rw [apart_write_iff h (hvalidated client pending hpending) hrun]
        constructor
        · intro hcovered other next' hother _
          cases hother
          exact hcovered
        · intro hmeets
          exact hmeets pending next rfl hrun
  · have hother : ∀ client, action ≠ .write client := fun client heq ↦ hwrite ⟨client, heq⟩
    refine iff_of_true (h.of_roots (rootOf_step hother)) ?_
    cases action with
    | write client => exact absurd rfl (hother client)
    | prepareHostRoot | prepareWorkspace | insertPolicy | removePolicy | recordAttempt
    | removeAttempt => trivial

omit [DecidableEq C] in
theorem roots_apart_start : RootsApart machine (Operators.start : Operators C).db := by
  refine .of_apart fun a b hne x hx y hy ↦ ?_
  cases a with
  | policy id => cases hx
  | host =>
    cases b with
    | policy id => cases hy
    | host => exact absurd rfl hne

/-- Along a run the roots in force are always apart exactly when every write of the run is
apart from the roots its validation did not compare it with. -/
theorem roots_apart_iff (machine : Machine) (actions : List (OperatorAction C)) :
    (∀ pre, pre <+: actions → RootsApart machine (Operators.run machine pre).db) ↔
      ∀ pre action, pre ++ [action] <+: actions →
        WriteCovered machine (Operators.run machine pre) action := by
  have hstep : ∀ pre (action : OperatorAction C), Operators.run machine (pre ++ [action]) =
      (Operators.run machine pre).step machine action := by
    intro pre action
    rw [Operators.run, List.foldl_append]
    rfl
  constructor
  · intro hapart pre action hpre
    have hbefore := hapart pre ((List.prefix_append pre [action]).trans hpre)
    have hafter := hapart _ hpre
    rw [hstep] at hafter
    exact (apart_step_iff hbefore (all_validated_run pre) action).mp hafter
  · intro hmeets pre hpre
    -- by induction on the prefix, taking its last step off
    induction pre using List.reverseRecOn with
    | nil => exact roots_apart_start
    | append_singleton pre action ih =>
      have hbefore := ih ((List.prefix_append pre [action]).trans hpre)
      rw [hstep]
      exact (apart_step_iff hbefore (all_validated_run pre) action).mpr (hmeets pre action hpre)

end Steps

/-! ## Two profiles of one repository -/

/-- A machine whose directories all exist and accept entries. -/
def plainMachine : Machine where
  native := .unix
  macos := false
  systemDirectory := .error .notFound
  toLowercase := fun c ↦ [c]
  appPaths := ⟨"/etc/rm", "/var/rm", "/log/rm", "/var/rm/run"⟩
  fs := {
    symlinkMetadata := fun _ ↦ .ok .directory
    canonicalize := .ok
    isDir := fun _ ↦ true
    identify := fun _ ↦ .ok ⟨"ext4", .isLocal⟩
    isWritable := fun _ ↦ .ok true
    createDir := fun _ ↦ .ok ()
    runsAsSuperuser := false
    isOnPrivacyGatedVolume := fun _ ↦ false
    isReadOnly := fun _ ↦ false }

def sharedTarget : ScaleTarget :=
  .repository ⟨⟨"o", by decide⟩, ⟨"r", by decide⟩⟩

/-- The directory both profiles are given. -/
def sharedRoot : LocalAbsolutePath :=
  ⟨"/srv/w", .unix, by decide⟩

/-- A newly added profile of the repository. -/
def addedProfile (id : Nat) (profile : ProfileName) : ScalePolicy where
  id := ⟨id⟩
  target := sharedTarget
  installationId := 0
  hostId := ⟨0⟩
  requestedHostLabel := ⟨"h", by decide⟩
  profileName := profile
  mode := .monitorOnly
  enabled := false
  state := .pending
  cachePolicy := .retainRunnerPackage
  workspacePolicy := .ephemeral
  executionPolicy := .native
  revision := 0

/-- One operator adds two profiles and gives both the same persistent workspace. The second
validation skips the first profile's root, which is registered under the same slug. -/
def sharedRun : List (OperatorAction Unit) :=
  [.prepareHostRoot () none none ⟨⟨0⟩, "h", .linux, .x64, 0⟩,
    .insertPolicy (addedProfile 1 .default),
    .insertPolicy (addedProfile 2 ⟨"gpu", gpu_profile⟩),
    .prepareWorkspace () sharedTarget (some "default") .persistent (some sharedRoot) none,
    .write (),
    .prepareWorkspace () sharedTarget (some "gpu") .persistent (some sharedRoot) none,
    .write ()]

/-- The roots of two different policies can be one directory. -/
theorem shared_by_profiles :
    ¬ ∀ actions : List (OperatorAction Unit),
      RootsApart plainMachine (Operators.run plainMachine actions).db := by
  intro h
  obtain ⟨hfirst, hsecond⟩ :
      rootOf plainMachine (Operators.run plainMachine sharedRun).db (.policy ⟨1⟩) =
          some "/srv/w" ∧
        rootOf plainMachine (Operators.run plainMachine sharedRun).db (.policy ⟨2⟩) =
          some "/srv/w" := by
    decide +kernel
  have hapart := (h sharedRun).apart (.policy ⟨1⟩) (.policy ⟨2⟩) (by decide) _ hfirst _ hsecond
  exact absurd hapart (by decide +kernel)

end RunnerManager.App
