import RunnerManager.Domain.Policy
import RunnerManager.Lib.Result

/-!
# The life of a policy

The constructors of `crates/domain/src/policy.rs` and any sequence of mutator calls after one.
`Lawful` is what the load path and the reconciler rely on. Read `Storable.lawful` first: the rules
a row is read back by already imply the rest, so the run lemma carries only those. A refused
mutator leaves its policy alone, which `run_error` says for each of them.
-/

namespace RunnerManager.Domain

open RunnerManager.Text RunnerManager.Mutation RunnerManager.Result

namespace ScalePolicy

/-! ## Constructors -/

def newForHostLabel (id : PolicyId) (target : ScaleTarget) (installationId : Nat)
    (hostId : HostId) (requestedHostLabel : HostLabel) (mode : PolicyMode)
    (cachePolicy : CachePolicy) : ScalePolicy where
  id
  target
  installationId
  hostId
  requestedHostLabel
  profileName := .default
  mode
  enabled := false
  state := .pending
  cachePolicy
  workspacePolicy := .ephemeral
  executionPolicy := .native
  revision := 0

/-- `ScalePolicy::new`, which keeps the host label earlier callers used. -/
def new (id : PolicyId) (target : ScaleTarget) (installationId : Nat) (hostId : HostId)
    (mode : PolicyMode) (cachePolicy : CachePolicy) : ScalePolicy :=
  newForHostLabel id target installationId hostId ⟨"host", by decide⟩ mode cachePolicy

/-- What a named profile is constructed from. -/
structure NamedProfileSpec where
  requestedHostLabel : HostLabel
  os : Os
  arch : Arch
  profileName : ProfileName
  minCapacity : Nat
  maxCapacity : NonZeroU16

def newNamed (id : PolicyId) (target : ScaleTarget) (installationId : Nat) (hostId : HostId)
    (spec : NamedProfileSpec) (cachePolicy : CachePolicy) : Except PolicyError ScalePolicy :=
  if spec.profileName.isDefault then .error .namedConstructorForDefault
  else do
    let labels := RoutingLabels.deriveForProfile spec.requestedHostLabel spec.os spec.arch
      spec.profileName
    let config ← AutoscaleConfig.new labels spec.minCapacity spec.maxCapacity
    let policy := newForHostLabel id target installationId hostId spec.requestedHostLabel
      (.autoscale config) cachePolicy
    return { policy with profileName := spec.profileName }

def newNamedMonitor (id : PolicyId) (target : ScaleTarget) (installationId : Nat)
    (hostId : HostId) (requestedHostLabel : HostLabel) (profileName : ProfileName)
    (cachePolicy : CachePolicy) : Except PolicyError ScalePolicy :=
  if profileName.isDefault then .error .namedConstructorForDefault
  else
    let policy := newForHostLabel id target installationId hostId requestedHostLabel .monitorOnly
      cachePolicy
    .ok { policy with profileName }

/-- The policies a constructor returns. -/
inductive Built : ScalePolicy → Prop
  | new (id target installationId hostId mode cachePolicy) :
      Built (new id target installationId hostId mode cachePolicy)
  | newForHostLabel (id target installationId hostId requestedHostLabel mode cachePolicy) :
      Built (newForHostLabel id target installationId hostId requestedHostLabel mode cachePolicy)
  | newNamed {id target installationId hostId spec cachePolicy policy}
      (h : newNamed id target installationId hostId spec cachePolicy = .ok policy) : Built policy
  | newNamedMonitor {id target installationId hostId requestedHostLabel profileName cachePolicy
      policy} (h : newNamedMonitor id target installationId hostId requestedHostLabel profileName
        cachePolicy = .ok policy) : Built policy

/-- The policy's selector, if it owns runners. -/
def selector (policy : ScalePolicy) : Option Label :=
  policy.routingLabels.map (·.hostLabel)

/-- What every policy obeys through its whole life. -/
structure Lawful (policy : ScalePolicy) : Prop where
  readBack : fromPersisted policy.toPersisted = .ok policy
  isolated : policy.executionPolicy.isNative = false →
    policy.target.scope = .repository ∧ policy.workspacePolicy = .ephemeral
  organization : policy.target.scope = .organization → policy.workspacePolicy = .ephemeral
  ordered : ∀ max ∈ policy.mode.maxCapacity, policy.mode.minCapacity ≤ max.val
  separate : ∀ labels ∈ policy.routingLabels, labels.hostLabel ∉ labels.additional
  named : policy.profileName.isDefault = false → ∀ labels ∈ policy.routingLabels,
    endsWithProfile labels policy.profileName = true
  starts : policy.mayStartRunners = true → policy.state = .active

variable {policy : ScalePolicy}

/-! ## The stored rules imply the others -/

theorem ephemeral_of_not_persistent {workspace : WorkspacePolicy}
    (h : workspace.isPersistent = false) : workspace = .ephemeral := by
  cases workspace with
  | ephemeral => rfl
  | persistent root => cases h

theorem isolated_of_validate {execution : ExecutionPolicy} {scope : TargetScope}
    {workspace : WorkspacePolicy} (h : execution.validate scope workspace = .ok ())
    (hisolated : execution.isNative = false) : scope = .repository ∧ workspace = .ephemeral := by
  cases execution with
  | native => cases hisolated
  | isolated backend image resources =>
    rw [ExecutionPolicy.validate, ite_error_eq_ok, ite_error_eq_ok, not_not] at h
    exact ⟨h.1, ephemeral_of_not_persistent (by simpa using h.2.1)⟩

theorem Storable.lawful (h : policy.Storable) : policy.Lawful where
  readBack := fromPersisted_toPersisted.mpr ⟨h, rfl⟩
  isolated := isolated_of_validate h.execution
  organization := by
    intro hscope
    have hpermitted := h.workspace
    rw [hscope, WorkspacePolicy.permittedFor, ite_error_eq_ok] at hpermitted
    exact ephemeral_of_not_persistent (by simpa using hpermitted.1)
  ordered := by
    intro max hmax
    cases hmode : policy.mode with
    | monitorOnly =>
      rw [hmode] at hmax
      cases hmax
    | autoscale config =>
      rw [hmode] at hmax
      cases hmax
      exact config.ordered
  separate := fun labels _ ↦ labels.separate
  named := by
    intro hnamed labels hlabels
    have hshape := h.selector
    rw [checkSelectorShape, show policy.mode.routingLabels = some labels from hlabels] at hshape
    simpa [ite_error_eq_ok, hnamed] using hshape
  starts := by
    intro hstarts
    simp only [mayStartRunners, PolicyState.admitsNewRunners, Bool.and_eq_true,
      decide_eq_true_eq] at hstarts
    exact hstarts.2

theorem storable_newForHostLabel (id : PolicyId) (target : ScaleTarget) (installationId : Nat)
    (hostId : HostId) (requestedHostLabel : HostLabel) (mode : PolicyMode)
    (cachePolicy : CachePolicy) : (newForHostLabel id target installationId hostId
      requestedHostLabel mode cachePolicy).Storable where
  selector := by
    have hdefault : ProfileName.default.isDefault = true := by decide
    cases mode with
    | monitorOnly => rfl
    | autoscale config =>
      simp [newForHostLabel, checkSelectorShape, PolicyMode.routingLabels, hdefault]
  workspace := by
    show WorkspacePolicy.permittedFor .ephemeral target.scope = _
    cases target.scope <;> rfl
  execution := rfl

theorem Storable.rename (h : policy.Storable) {profileName : ProfileName}
    (hshape : checkSelectorShape profileName policy.mode = .ok ()) :
    Storable { policy with profileName } :=
  ⟨hshape, h.workspace, h.execution⟩

theorem Built.storable (h : Built policy) : policy.Storable := by
  cases h with
  | new id target installationId hostId mode cachePolicy =>
    exact storable_newForHostLabel id target installationId hostId _ mode cachePolicy
  | newForHostLabel id target installationId hostId requestedHostLabel mode cachePolicy =>
    exact storable_newForHostLabel id target installationId hostId requestedHostLabel mode
      cachePolicy
  | @newNamed id target installationId hostId spec cachePolicy _ h =>
    simp only [ScalePolicy.newNamed, ite_error_eq_ok, bind_eq_ok, pure_eq_ok] at h
    obtain ⟨-, config, hconfig, rfl⟩ := h
    refine (storable_newForHostLabel id target installationId hostId spec.requestedHostLabel
      (.autoscale config) cachePolicy).rename ?_
    simp [ScalePolicy.newForHostLabel, checkSelectorShape, PolicyMode.routingLabels,
      new_routingLabels hconfig, endsWithProfile_derive]
  | @newNamedMonitor id target installationId hostId label profileName cachePolicy _ h =>
    simp only [ScalePolicy.newNamedMonitor, ite_error_eq_ok, Except.ok.injEq] at h
    obtain ⟨-, rfl⟩ := h
    exact (storable_newForHostLabel id target installationId hostId label .monitorOnly
      cachePolicy).rename rfl

end ScalePolicy

/-! ## Runs of mutators -/

namespace PolicyOp

open ScalePolicy

variable {policy next : ScalePolicy}

/-- The policy after a sequence of mutators, accepted or refused. -/
def execAll (ops : List PolicyOp) (policy : ScalePolicy) : ScalePolicy :=
  ops.foldl (fun policy op ↦ op.exec policy) policy

theorem execAll_append (first second : List PolicyOp) (policy : ScalePolicy) :
    execAll (first ++ second) policy = execAll second (execAll first policy) :=
  List.foldl_append

theorem execAll_induction {P : ScalePolicy → Prop}
    (hstep : ∀ op policy, P policy → P (PolicyOp.exec op policy)) (ops : List PolicyOp)
    (hstart : P policy) : P (execAll ops policy) := by
  induction ops generalizing policy with
  | nil => exact hstart
  | cons op ops ih => exact ih (hstep op policy hstart)

theorem execAll_storable (ops : List PolicyOp) (h : policy.Storable) :
    (execAll ops policy).Storable := by
  refine execAll_induction (fun op policy hpolicy ↦ ?_) ops h
  rcases op.exec_cases policy with hsame | hmutated
  · rwa [hsame]
  · exact hmutated.storable hpolicy

theorem transition_error {state : PolicyState} {error : PolicyError}
    (h : ScalePolicy.transitionTo state policy = .error error next) : next = policy := by
  rw [transitionTo_apply] at h
  split_ifs at h
  cases h
  rfl

/-- A refused mutator leaves the policy as it was. -/
theorem run_error {op : PolicyOp} {error : PolicyError} (h : op.run policy = .error error next) :
    next = policy := by
  cases op with
  | setExecutionPolicy execution =>
    simp only [run, ScalePolicy.setExecutionPolicy, bind_apply, get_apply, require] at h
    cases hvalid : execution.validate policy.target.scope policy.workspacePolicy with
    | error e =>
      rw [hvalid] at h
      cases h
      rfl
    | ok u =>
      rw [hvalid] at h
      split_ifs at h <;> cases h
  | setWorkspacePolicy workspace =>
    simp only [run, ScalePolicy.setWorkspacePolicy, bind_apply, get_apply, require] at h
    cases hpermitted : workspace.permittedFor policy.target.scope with
    | error e =>
      rw [hpermitted] at h
      cases h
      rfl
    | ok u =>
      cases hvalid : policy.executionPolicy.validate policy.target.scope workspace with
      | error e =>
        rw [hpermitted, hvalid] at h
        cases h
        rfl
      | ok u =>
        rw [hpermitted, hvalid] at h
        split_ifs at h <;> cases h
  | transitionTo state => exact transition_error h
  | authenticationFailed => exact transition_error h
  | reauthenticated => exact transition_error h
  | repairRequired => exact transition_error h
  | activate =>
    simp only [run, ScalePolicy.activate, bind_apply] at h
    cases hmove : ScalePolicy.transitionTo .active policy with
    | ok u moved =>
      rw [hmove] at h
      cases h
    | error e left =>
      rw [hmove] at h
      cases h
      exact transition_error hmove
  | requestDisable =>
    simp only [run, ScalePolicy.requestDisable, bind_apply] at h
    cases hmove : ScalePolicy.transitionTo .draining policy with
    | ok u moved =>
      rw [hmove] at h
      cases h
    | error e left =>
      rw [hmove] at h
      cases h
      exact transition_error hmove
  | drainCompleted activeAttempts =>
    simp only [run, ScalePolicy.drainCompleted, bind_apply, get_apply] at h
    by_cases hdraining : policy.state = .draining
    · rw [if_neg (not_not.mpr hdraining)] at h
      by_cases hdone : activeAttempts = 0
      · cases hmove : ScalePolicy.transitionTo .disabled policy with
        | ok u moved =>
          simp only [if_pos hdone, bind_apply, hmove] at h
          cases h
        | error e left =>
          simp only [if_pos hdone, bind_apply, hmove] at h
          cases h
          exact transition_error hmove
      · rw [if_neg hdone] at h
        cases h
    · rw [if_pos hdraining] at h
      cases h
      rfl
  | promoteToAutoscale labels minCapacity maxCapacity =>
    simp only [run, ScalePolicy.promoteToAutoscale, bind_apply, get_apply] at h
    cases hdefault : policy.profileName.isDefault <;> cases hmode : policy.mode.isAutoscale <;>
      cases hnew : AutoscaleConfig.new labels minCapacity maxCapacity <;>
        simp [hdefault, hmode, hnew] at h <;> exact h.2.symm
  | promoteNamedToAutoscale os arch minCapacity maxCapacity =>
    simp only [run, ScalePolicy.promoteNamedToAutoscale, bind_apply, get_apply] at h
    cases hdefault : policy.profileName.isDefault <;> cases hmode : policy.mode.isAutoscale <;>
      cases hnew : AutoscaleConfig.new (.deriveForProfile policy.requestedHostLabel os arch
          policy.profileName) minCapacity maxCapacity <;>
        simp [hdefault, hmode, hnew] at h <;> exact h.2.symm
  | setMaxCapacity maxCapacity =>
    simp only [run, ScalePolicy.setMaxCapacity, bind_apply, get_apply] at h
    cases hmode : policy.mode with
    | monitorOnly =>
      rw [hmode] at h
      cases h
      rfl
    | autoscale config =>
      cases hnew : AutoscaleConfig.new config.routingLabels config.minCapacity maxCapacity <;>
        simp [hmode, hnew] at h
      exact h.2.symm
  | addRoutingLabel label =>
    simp only [run, ScalePolicy.addRoutingLabel, bind_apply, get_apply] at h
    cases hmode : policy.mode with
    | monitorOnly =>
      rw [hmode] at h
      cases h
      rfl
    | autoscale config =>
      cases hadded : (config.routingLabels.add label).1 <;> simp [hmode, hadded] at h
  | removeRoutingLabel label =>
    simp only [run, ScalePolicy.removeRoutingLabel, bind_apply, get_apply] at h
    cases hmode : policy.mode with
    | monitorOnly =>
      rw [hmode] at h
      cases h
      rfl
    | autoscale config =>
      cases hremove : config.routingLabels.remove label with
      | error e =>
        simp [hmode, hremove] at h
        exact h.2.symm
      | ok answer =>
        obtain ⟨removed, labels⟩ := answer
        cases removed <;> simp [hmode, hremove] at h

theorem selector_of_mode {label : Label} (h : policy.selector = some label)
    (hmode : next.mode = policy.mode) : next.selector = some label := by
  rwa [ScalePolicy.selector, ScalePolicy.routingLabels, hmode]

theorem transition_mode (state : PolicyState) (policy : ScalePolicy) :
    (Mutation.exec (ScalePolicy.transitionTo state) policy).mode = policy.mode := by
  rw [Mutation.exec, transitionTo_apply]
  split_ifs <;> rfl

/-- No mutator changes a selector that is present. -/
theorem exec_selector (op : PolicyOp) {label : Label} (h : policy.selector = some label) :
    (op.exec policy).selector = some label := by
  obtain ⟨labels, hlabels, rfl⟩ := Option.map_eq_some_iff.mp h
  obtain ⟨config, hmode, rfl⟩ : ∃ config, policy.mode = .autoscale config ∧
      config.routingLabels = labels := by
    cases hmode : policy.mode with
    | monitorOnly =>
      rw [ScalePolicy.routingLabels, hmode] at hlabels
      cases hlabels
    | autoscale config =>
      rw [ScalePolicy.routingLabels, hmode] at hlabels
      exact ⟨config, rfl, Option.some.inj hlabels⟩
  have hauto : policy.mode.isAutoscale = true := by rw [hmode]; rfl
  cases op with
  | transitionTo state => exact selector_of_mode h (transition_mode state policy)
  | authenticationFailed => exact selector_of_mode h (transition_mode .authenticationFailed policy)
  | reauthenticated => exact selector_of_mode h (transition_mode .pending policy)
  | repairRequired => exact selector_of_mode h (transition_mode .repairRequired policy)
  | setExecutionPolicy execution =>
    refine selector_of_mode h ?_
    simp only [exec, Mutation.exec, run, ScalePolicy.setExecutionPolicy, bind_apply, get_apply,
      require]
    cases execution.validate policy.target.scope policy.workspacePolicy with
    | error e => rfl
    | ok u => by_cases hsame : policy.executionPolicy = execution <;> simp [hsame]
  | setWorkspacePolicy workspace =>
    refine selector_of_mode h ?_
    simp only [exec, Mutation.exec, run, ScalePolicy.setWorkspacePolicy, bind_apply, get_apply,
      require]
    cases workspace.permittedFor policy.target.scope with
    | error e => rfl
    | ok u =>
      cases policy.executionPolicy.validate policy.target.scope workspace with
      | error e => rfl
      | ok u => by_cases hsame : policy.workspacePolicy = workspace <;> simp [hsame]
  | activate =>
    refine selector_of_mode h ?_
    simp only [exec, Mutation.exec, run, ScalePolicy.activate, bind_apply, transitionTo_apply]
    by_cases hlegal : policy.state.canTransitionTo .active = true <;> simp [hlegal]
  | requestDisable =>
    refine selector_of_mode h ?_
    simp only [exec, Mutation.exec, run, ScalePolicy.requestDisable, bind_apply,
      transitionTo_apply]
    by_cases hlegal : policy.state.canTransitionTo .draining = true <;> simp [hlegal]
  | drainCompleted activeAttempts =>
    refine selector_of_mode h ?_
    simp only [exec, Mutation.exec, run, ScalePolicy.drainCompleted, bind_apply, get_apply]
    by_cases hdraining : policy.state = .draining
    · by_cases hdone : activeAttempts = 0
      · have hlegal : PolicyState.draining.canTransitionTo .disabled = true := by decide
        simp [hdraining, hdone, transitionTo_apply, hlegal]
      · simp [hdraining, hdone]
    · simp [hdraining]
  | promoteToAutoscale labels minCapacity maxCapacity =>
    -- A policy with a selector autoscales already, so it is not promoted.
    refine selector_of_mode h ?_
    simp only [exec, Mutation.exec, run, ScalePolicy.promoteToAutoscale, bind_apply, get_apply]
    cases hdefault : policy.profileName.isDefault <;> simp [hauto]
  | promoteNamedToAutoscale os arch minCapacity maxCapacity =>
    refine selector_of_mode h ?_
    simp only [exec, Mutation.exec, run, ScalePolicy.promoteNamedToAutoscale, bind_apply,
      get_apply]
    cases hdefault : policy.profileName.isDefault <;> simp [hauto]
  | setMaxCapacity maxCapacity =>
    simp only [exec, Mutation.exec, run, ScalePolicy.setMaxCapacity, bind_apply, get_apply, hmode]
    cases hnew : AutoscaleConfig.new config.routingLabels config.minCapacity maxCapacity with
    | error e => exact h
    | ok next => exact congrArg (some ·.hostLabel) (new_routingLabels hnew)
  | addRoutingLabel label =>
    simp only [exec, Mutation.exec, run, ScalePolicy.addRoutingLabel, bind_apply, get_apply,
      hmode]
    cases hadded : (config.routingLabels.add label).1 <;>
      exact congrArg some (RoutingLabels.add_hostLabel config.routingLabels label)
  | removeRoutingLabel label =>
    simp only [exec, Mutation.exec, run, ScalePolicy.removeRoutingLabel, bind_apply, get_apply,
      hmode]
    cases hremove : config.routingLabels.remove label with
    | error e => exact h
    | ok answer =>
      obtain ⟨removed, labels⟩ := answer
      have hhost := (RoutingLabels.remove_facts hremove).1
      cases removed <;> exact congrArg some hhost

theorem execAll_selector (ops : List PolicyOp) {label : Label}
    (h : policy.selector = some label) : (execAll ops policy).selector = some label :=
  execAll_induction (P := fun policy ↦ policy.selector = some label)
    (fun op _ hpolicy ↦ exec_selector op hpolicy) ops h

end PolicyOp

/-- Every policy a constructor returned obeys the rules after any sequence of mutators, accepted or
refused: it is read back as it is, its selector never changes once present, and a refused mutator
leaves it exactly as it was. -/
theorem policy_life_lawful {policy : ScalePolicy} (hbuilt : policy.Built) (ops : List PolicyOp) :
    (PolicyOp.execAll ops policy).Lawful ∧
    (∀ (later : List PolicyOp) (label : Label),
      (PolicyOp.execAll ops policy).selector = some label →
      (PolicyOp.execAll (ops ++ later) policy).selector = some label) ∧
    ∀ (op : PolicyOp) (error : PolicyError) (left : ScalePolicy),
      op.run (PolicyOp.execAll ops policy) = .error error left →
        left = PolicyOp.execAll ops policy := by
  refine ⟨(PolicyOp.execAll_storable ops hbuilt.storable).lawful, ?_, ?_⟩
  · intro later label hlabel
    rw [PolicyOp.execAll_append]
    exact PolicyOp.execAll_selector later hlabel
  · intro op error left hrun
    exact PolicyOp.run_error hrun

/-- A named monitor profile of a repository that is promoted, armed and refused a second
promotion. -/
theorem promoted_profile_lawful : ∃ policy,
    ScalePolicy.newNamedMonitor ⟨7⟩ (.repository ⟨⟨"acme", by decide⟩, ⟨"app", by decide⟩⟩) 3 ⟨1⟩
      ⟨"build", by decide⟩ ⟨"gpu", by decide⟩ .retainRunnerPackage = .ok policy ∧
    (PolicyOp.execAll [.promoteNamedToAutoscale .linux .x64 0 ⟨2, by decide⟩, .activate,
      .promoteNamedToAutoscale .windows .x64 0 ⟨2, by decide⟩] policy).Lawful := by
  have hnew : ScalePolicy.newNamedMonitor ⟨7⟩
      (.repository ⟨⟨"acme", by decide⟩, ⟨"app", by decide⟩⟩) 3 ⟨1⟩ ⟨"build", by decide⟩
      ⟨"gpu", by decide⟩ .retainRunnerPackage = .ok _ := rfl
  exact ⟨_, hnew, (policy_life_lawful (.newNamedMonitor hnew) _).1⟩

end RunnerManager.Domain
