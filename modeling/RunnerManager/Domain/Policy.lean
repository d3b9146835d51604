import Mathlib.Data.Finset.Basic
import RunnerManager.Domain.Execution
import RunnerManager.Lib.Mutation

/-!
# Scale policies

`crates/domain/src/policy.rs`: routing labels, the two policy modes, the policy states and the
mutators of a policy. The revision is the optimistic-concurrency token of the stored row, so
the fact the store relies on is `PolicyOp.exec_cases`: a mutator leaves the policy alone or
advances its revision.
-/

namespace RunnerManager.Domain

open RunnerManager.Text RunnerManager.Mutation

/-! ## Routing labels -/

/-- The states of a policy. -/
inductive PolicyState where
  | pending
  | active
  | draining
  | disabled
  | repairRequired
  | authenticationFailed
deriving DecidableEq

/-- The labels a policy's runners register with. The host label is the policy's routing
identity and never stands among the optional ones. -/
structure RoutingLabels where
  hostLabel : Label
  additional : Finset Label
  separate : hostLabel ∉ additional
deriving DecidableEq

/-- Why a policy or a change to it is refused. -/
inductive PolicyError where
  | invalid (error : ValidationError)
  | workspace (error : WorkspaceError)
  | execution (error : ExecutionError)
  | autoscaleWithoutRoutingLabels
  | autoscaleWithoutMaxCapacity
  | monitorOnlyWithMinCapacity (min : Nat)
  | invertedCapacityRange (min max : Nat)
  | illegalTransition (source target : PolicyState)
  | alreadyAutoscale
  | notAutoscale
  | hostLabelNotRemovable (label : Label)
  | invalidProfileSelector
  | namedConstructorForDefault
  | namedProfileNeedsDerivedSelector
deriving DecidableEq

namespace RoutingLabels

/-- `RoutingLabels::from_parts`: a repeated host label is dropped. -/
def fromParts (hostLabel : Label) (additional : Finset Label) : RoutingLabels where
  hostLabel
  additional := additional.erase hostLabel
  separate := Finset.notMem_erase hostLabel additional

def fromHostLabel (hostLabel : Label) : RoutingLabels :=
  fromParts hostLabel ∅

/-- Add an optional label; the answer is whether the set changed. -/
def add (labels : RoutingLabels) (label : Label) : Bool × RoutingLabels :=
  if h : label = labels.hostLabel then (false, labels)
  else (label ∉ labels.additional, {
    labels with
    additional := insert label labels.additional
    separate := by
      rw [Finset.mem_insert, not_or]
      exact ⟨fun heq ↦ h heq.symm, labels.separate⟩ })

/-- Remove an optional label; the answer is whether the set changed. -/
def remove (labels : RoutingLabels) (label : Label) :
    Except PolicyError (Bool × RoutingLabels) :=
  if label = labels.hostLabel then .error (.hostLabelNotRemovable label)
  else .ok (label ∈ labels.additional, {
    labels with
    additional := labels.additional.erase label
    separate := fun hmem ↦ labels.separate (Finset.mem_of_mem_erase hmem) })

@[ext]
theorem ext {a b : RoutingLabels} (hhost : a.hostLabel = b.hostLabel)
    (hadditional : a.additional = b.additional) : a = b := by
  cases a
  cases b
  simp_all

theorem add_unchanged {labels : RoutingLabels} {label : Label}
    (h : (labels.add label).1 = false) : (labels.add label).2 = labels := by
  unfold add at h ⊢
  split_ifs with hhost
  · rfl
  · rw [dif_neg hhost] at h
    have hmem : label ∈ labels.additional := by simpa using h
    exact ext rfl (Finset.insert_eq_of_mem hmem)

@[simp]
theorem add_hostLabel (labels : RoutingLabels) (label : Label) :
    (labels.add label).2.hostLabel = labels.hostLabel := by
  unfold add
  split_ifs <;> rfl

theorem remove_facts {labels result : RoutingLabels} {label : Label} {removed : Bool}
    (h : labels.remove label = .ok (removed, result)) :
    result.hostLabel = labels.hostLabel ∧ (removed = false → result = labels) := by
  unfold remove at h
  split_ifs at h
  simp only [Except.ok.injEq, Prod.mk.injEq] at h
  obtain ⟨hremoved, rfl⟩ := h
  refine ⟨rfl, fun hfalse ↦ ?_⟩
  rw [hfalse, decide_eq_false_iff_not] at hremoved
  exact ext rfl (Finset.erase_eq_of_notMem hremoved)

@[simp]
theorem fromParts_parts (labels : RoutingLabels) :
    fromParts labels.hostLabel labels.additional = labels := by
  obtain ⟨hostLabel, additional, separate⟩ := labels
  simp [fromParts, Finset.erase_eq_of_notMem separate]

end RoutingLabels

/-! ## Derived selectors -/

theorem length_le_byteLen (cs : List Char) : cs.length ≤ byteLen cs := by
  induction cs with
  | nil => exact Nat.zero_le _
  | cons c cs ih =>
    have hsize : 0 < c.utf8Size := Char.utf8Size_pos c
    simp only [byteLen, List.map_cons, List.sum_cons, List.length_cons] at ih ⊢
    omega

theorem slug_facts {what : String} {text : List Char}
    (h : (checkName what 64 slugChar text).map foldAscii = .ok text) :
    (∀ c ∈ text, slugChar c = true) ∧ foldAscii text = text ∧ text.length ≤ 64 := by
  cases hcheck : checkName what 64 slugChar text with
  | error e => simp [hcheck, Except.map] at h
  | ok trimmed =>
    have htext : foldAscii trimmed = text := by simpa [hcheck, Except.map] using h
    have hname := (check_name_iff.mp hcheck).2.foldAscii
    rw [htext] at hname
    refine ⟨hname.characters, ?_, (length_le_byteLen text).trans hname.bounded⟩
    rw [← htext, foldAscii_foldAscii]

theorem token_facts (os : Os) (arch : Arch) :
    (∀ c ∈ os.labelToken.toList ++ arch.labelToken.toList, slugChar c = true) ∧
      foldAscii os.labelToken.toList = os.labelToken.toList ∧
      foldAscii arch.labelToken.toList = arch.labelToken.toList ∧
      os.labelToken.toList.length ≤ 5 ∧ arch.labelToken.toList.length ≤ 5 := by
  have hslugs : (os.labelToken.toList ++ arch.labelToken.toList).all slugChar = true := by
    cases os <;> cases arch <;> decide
  refine ⟨List.all_eq_true.mp hslugs, ?_⟩
  cases os <;> cases arch <;> decide

theorem check_label_self {text : List Char} (hne : text ≠ [])
    (hslug : ∀ c ∈ text, slugChar c = true) (hfold : foldAscii text = text)
    (hlength : text.length ≤ 256) : checkLabel text = .ok text := by
  have hplain {c : Char} (h : slugChar c = true) :
      isWhitespace c = false ∧ (c == ',' || isControl c) = false := by
    have hascii : repoChar c = true := by
      simp only [slugChar, repoChar, Bool.or_eq_true] at h ⊢
      exact .inl h
    have hc : c.toNat < 128 := repoChar_ascii hascii
    exact ascii_induction (P := fun c ↦ slugChar c = true →
      isWhitespace c = false ∧ (c == ',' || isControl c) = false) (by decide) hc h
  have htrim : trim text = text := trim_eq_self fun c hc ↦ (hplain (hslug c hc)).1
  have hfind : text.find? (fun c ↦ c == ',' || isControl c) = none := by
    rw [List.find?_eq_none]
    intro c hc
    simp [(hplain (hslug c hc)).2]
  simp [checkLabel, htrim, hne, hfind, hfold, Nat.not_lt.mpr hlength]

namespace RoutingLabels

/-- The text `rm-<host>-<os>-<arch>` followed by `suffix`. -/
def selector (hostLabel : HostLabel) (os : Os) (arch : Arch) (suffix : List Char) : List Char :=
  ['r', 'm', '-'] ++ hostLabel.text.toList ++ ['-'] ++ os.labelToken.toList ++ ['-']
    ++ arch.labelToken.toList ++ suffix

theorem check_selector (hostLabel : HostLabel) (os : Os) (arch : Arch) {suffix : List Char}
    (hslug : ∀ c ∈ suffix, slugChar c = true) (hfold : foldAscii suffix = suffix)
    (hlength : suffix.length ≤ 65) :
    checkLabel (selector hostLabel os arch suffix) = .ok (selector hostLabel os arch suffix) := by
  obtain ⟨hhostslug, hhostfold, hhostlength⟩ := slug_facts hostLabel.canonical
  obtain ⟨htokens, hosfold, harchfold, hoslength, harchlength⟩ := token_facts os arch
  apply check_label_self
  · simp [selector]
  · intro c hc
    simp only [selector, List.mem_append] at hc
    obtain (((((hc | hc) | hc) | hc) | hc) | hc) | hc := hc
    · have hslugs : ['r', 'm', '-'].all slugChar = true := by decide
      exact List.all_eq_true.mp hslugs c hc
    · exact hhostslug c hc
    · rw [List.mem_singleton.mp hc]
      decide
    · exact htokens c (List.mem_append_left _ hc)
    · rw [List.mem_singleton.mp hc]
      decide
    · exact htokens c (List.mem_append_right _ hc)
    · exact hslug c hc
  · have happend (a b : List Char) : foldAscii (a ++ b) = foldAscii a ++ foldAscii b :=
      List.map_append
    have hfront : foldAscii ['r', 'm', '-'] = ['r', 'm', '-'] := by decide
    have hdash : foldAscii ['-'] = ['-'] := by decide
    simp only [selector, happend, hfront, hdash, hhostfold, hosfold, harchfold, hfold]
  · simp only [selector, List.length_append, List.length_cons, List.length_nil]
    omega

/-- `RoutingLabels::derive`: the selector of the unnamed profile. -/
def derive (hostLabel : HostLabel) (os : Os) (arch : Arch) : RoutingLabels :=
  fromHostLabel ⟨String.ofList (selector hostLabel os arch []), by
    simpa using @check_selector hostLabel os arch [] (by simp) rfl (by simp)⟩

/-- `RoutingLabels::derive_for_profile`: the selector of a named profile. -/
def deriveForProfile (hostLabel : HostLabel) (os : Os) (arch : Arch)
    (profile : ProfileName) : RoutingLabels :=
  fromHostLabel ⟨String.ofList (selector hostLabel os arch ('-' :: profile.text.toList)), by
    obtain ⟨hslug, hfold, hlength⟩ := slug_facts profile.canonical
    rw [String.toList_ofList]
    refine check_selector hostLabel os arch ?_ ?_ ?_
    · rw [List.forall_mem_cons]
      exact ⟨by decide, hslug⟩
    · show Char.toLower '-' :: foldAscii profile.text.toList = _
      rw [hfold]
      rfl
    · rw [List.length_cons]
      omega⟩

end RoutingLabels

/-! ## Modes and states -/

/-- What an autoscaling policy is configured with. -/
structure AutoscaleConfig where
  routingLabels : RoutingLabels
  minCapacity : Nat
  maxCapacity : NonZeroU16
  ordered : minCapacity ≤ maxCapacity.val
deriving DecidableEq

theorem zero_ordered_one : 0 ≤ (⟨1, one_nonZero⟩ : NonZeroU16).val := by decide

theorem zero_ordered_two : 0 ≤ (⟨2, two_nonZero⟩ : NonZeroU16).val := by decide

namespace AutoscaleConfig

def new (routingLabels : RoutingLabels) (minCapacity : Nat) (maxCapacity : NonZeroU16) :
    Except PolicyError AutoscaleConfig :=
  if h : maxCapacity.val < minCapacity then
    .error (.invertedCapacityRange minCapacity maxCapacity)
  else .ok { routingLabels, minCapacity, maxCapacity, ordered := Nat.not_lt.mp h }

@[simp]
theorem new_parts (config : AutoscaleConfig) :
    new config.routingLabels config.minCapacity config.maxCapacity = .ok config := by
  simp [new, Nat.not_lt.mpr config.ordered]

end AutoscaleConfig

/-- Whether a policy may own runners. -/
inductive PolicyMode where
  | monitorOnly
  | autoscale (config : AutoscaleConfig)
deriving DecidableEq

namespace PolicyMode

/-- The mode's label column. -/
def routingLabels : PolicyMode → Option RoutingLabels
  | monitorOnly => none
  | autoscale config => some config.routingLabels

/-- The mode's floor column. -/
def minCapacity : PolicyMode → Nat
  | monitorOnly => 0
  | autoscale config => config.minCapacity

/-- The mode's ceiling column. -/
def maxCapacity : PolicyMode → Option NonZeroU16
  | monitorOnly => none
  | autoscale config => some config.maxCapacity

/-- Whether the policy owns runners. -/
def isAutoscale : PolicyMode → Bool
  | monitorOnly => false
  | autoscale _ => true

/-- Rebuild a stored mode from its three columns. -/
def fromPersisted (routingLabels : Option RoutingLabels) (minCapacity : Nat)
    (maxCapacity : Option NonZeroU16) : Except PolicyError PolicyMode :=
  match routingLabels, maxCapacity with
  | none, none =>
    if minCapacity ≠ 0 then .error (.monitorOnlyWithMinCapacity minCapacity)
    else .ok monitorOnly
  | some _, none => .error .autoscaleWithoutMaxCapacity
  | none, some _ => .error .autoscaleWithoutRoutingLabels
  | some labels, some max => (AutoscaleConfig.new labels minCapacity max).map autoscale

@[simp]
theorem fromPersisted_columns (mode : PolicyMode) :
    fromPersisted mode.routingLabels mode.minCapacity mode.maxCapacity = .ok mode := by
  cases mode with
  | monitorOnly => rfl
  | autoscale config => simp [fromPersisted, routingLabels, minCapacity, maxCapacity, Except.map]

end PolicyMode

namespace PolicyState

/-- Every edge a policy may take. -/
def legal : List (PolicyState × PolicyState) :=
  [(pending, active), (pending, repairRequired), (active, draining), (draining, disabled),
    (disabled, pending), (pending, authenticationFailed), (active, authenticationFailed),
    (draining, authenticationFailed), (disabled, authenticationFailed),
    (repairRequired, authenticationFailed), (authenticationFailed, pending)]

/-- Whether `LEGAL` holds the edge. -/
def canTransitionTo (state next : PolicyState) : Bool :=
  legal.contains (state, next)

/-- Whether new runners may be started. -/
def admitsNewRunners (state : PolicyState) : Bool :=
  state = active

end PolicyState

/-! ## The policy -/

/-- One target's scaling configuration on one host. -/
structure ScalePolicy where
  id : PolicyId
  target : ScaleTarget
  installationId : Nat
  hostId : HostId
  requestedHostLabel : HostLabel
  profileName : ProfileName
  mode : PolicyMode
  enabled : Bool
  state : PolicyState
  cachePolicy : CachePolicy
  workspacePolicy : WorkspacePolicy
  executionPolicy : ExecutionPolicy
  revision : Nat
deriving DecidableEq

/-- The flat fields a policy is stored as. -/
structure PersistedPolicy where
  id : PolicyId
  target : ScaleTarget
  installationId : Nat
  hostId : HostId
  requestedHostLabel : HostLabel
  profileName : ProfileName
  routingLabels : Option RoutingLabels
  minCapacity : Nat
  maxCapacity : Option NonZeroU16
  enabled : Bool
  state : PolicyState
  cachePolicy : CachePolicy
  workspaceKind : WorkspaceKind
  workspaceRoot : Option LocalAbsolutePath
  executionPolicy : ExecutionPolicy
  revision : Nat
deriving DecidableEq

def endsWithProfile (labels : RoutingLabels) (profile : ProfileName) : Bool :=
  ('-' :: profile.text.toList).isSuffixOf labels.hostLabel.text.toList

namespace ScalePolicy

/-- The policy's routing labels, if it owns runners. -/
def routingLabels (policy : ScalePolicy) : Option RoutingLabels :=
  policy.mode.routingLabels

def mayStartRunners (policy : ScalePolicy) : Bool :=
  policy.mode.isAutoscale && policy.enabled && policy.state.admitsNewRunners

def toPersisted (policy : ScalePolicy) : PersistedPolicy where
  id := policy.id
  target := policy.target
  installationId := policy.installationId
  hostId := policy.hostId
  requestedHostLabel := policy.requestedHostLabel
  profileName := policy.profileName
  routingLabels := policy.mode.routingLabels
  minCapacity := policy.mode.minCapacity
  maxCapacity := policy.mode.maxCapacity
  enabled := policy.enabled
  state := policy.state
  cachePolicy := policy.cachePolicy
  workspaceKind := policy.workspacePolicy.kind
  workspaceRoot := policy.workspacePolicy.root
  executionPolicy := policy.executionPolicy
  revision := policy.revision

/-- The selector of a named profile is at least shaped like one. -/
def checkSelectorShape (profile : ProfileName) (mode : PolicyMode) : Except PolicyError Unit :=
  match mode.routingLabels with
  | some labels =>
    if !profile.isDefault && !endsWithProfile labels profile then
      .error .invalidProfileSelector
    else .ok ()
  | none => .ok ()

def fromPersisted (fields : PersistedPolicy) : Except PolicyError ScalePolicy := do
  let mode ← PolicyMode.fromPersisted fields.routingLabels fields.minCapacity fields.maxCapacity
  checkSelectorShape fields.profileName mode
  let workspacePolicy ← (WorkspacePolicy.fromPersisted fields.workspaceKind fields.workspaceRoot
    fields.target.scope).mapError .workspace
  (fields.executionPolicy.validate fields.target.scope workspacePolicy).mapError .execution
  return {
    id := fields.id
    target := fields.target
    installationId := fields.installationId
    hostId := fields.hostId
    requestedHostLabel := fields.requestedHostLabel
    profileName := fields.profileName
    mode
    enabled := fields.enabled
    state := fields.state
    cachePolicy := fields.cachePolicy
    workspacePolicy
    executionPolicy := fields.executionPolicy
    revision := fields.revision }

/-- What `from_persisted` asks of a policy. -/
structure Storable (policy : ScalePolicy) : Prop where
  selector : checkSelectorShape policy.profileName policy.mode = .ok ()
  workspace : policy.workspacePolicy.permittedFor policy.target.scope = .ok ()
  execution : policy.executionPolicy.validate policy.target.scope policy.workspacePolicy = .ok ()

theorem fromPersisted_toPersisted {policy result : ScalePolicy} :
    fromPersisted policy.toPersisted = .ok result ↔ policy.Storable ∧ result = policy := by
  have hmode := PolicyMode.fromPersisted_columns policy.mode
  constructor
  · intro h
    simp only [fromPersisted, toPersisted, hmode, bind, Except.bind] at h
    cases hselector : checkSelectorShape policy.profileName policy.mode with
    | error e => simp [hselector] at h
    | ok u =>
      cases hworkspace : WorkspacePolicy.fromPersisted policy.workspacePolicy.kind
          policy.workspacePolicy.root policy.target.scope with
      | error e => simp [hselector, hworkspace, Except.mapError] at h
      | ok workspace =>
        obtain ⟨hpermitted, rfl⟩ := WorkspacePolicy.from_persisted_columns.mp hworkspace
        cases hexecution : policy.executionPolicy.validate policy.target.scope
            policy.workspacePolicy with
        | error e => simp [hselector, hworkspace, hexecution, Except.mapError] at h
        | ok v =>
          simp only [hselector, hworkspace, hexecution, Except.mapError, pure, Except.pure,
            Except.ok.injEq] at h
          exact ⟨⟨hselector, hpermitted, hexecution⟩, h.symm⟩
  · rintro ⟨hstorable, rfl⟩
    have hworkspace := WorkspacePolicy.from_persisted_columns.mpr ⟨hstorable.workspace, rfl⟩
    simp only [fromPersisted, toPersisted, hmode, hstorable.selector, hworkspace,
      hstorable.execution, bind, Except.bind, Except.mapError, pure, Except.pure]

/-! ## Mutators -/

/-- `u64::saturating_add` of one. -/
def nextRevision (revision : Nat) : Nat :=
  min (revision + 1) u64Max

/-- Lift a check into a mutator. -/
def require {ε : Type} (wrap : ε → PolicyError) (check : Except ε Unit) :
    EStateM PolicyError ScalePolicy Unit :=
  match check with
  | .ok () => pure ()
  | .error e => throw (wrap e)

def setExecutionPolicy (execution : ExecutionPolicy) : EStateM PolicyError ScalePolicy Unit := do
  let policy ← get
  require .execution (execution.validate policy.target.scope policy.workspacePolicy)
  if policy.executionPolicy ≠ execution then
    set { policy with executionPolicy := execution, revision := nextRevision policy.revision }

def setWorkspacePolicy (workspace : WorkspacePolicy) : EStateM PolicyError ScalePolicy Unit := do
  let policy ← get
  require .workspace (workspace.permittedFor policy.target.scope)
  require .execution (policy.executionPolicy.validate policy.target.scope workspace)
  if policy.workspacePolicy ≠ workspace then
    set { policy with workspacePolicy := workspace, revision := nextRevision policy.revision }

def transitionTo (next : PolicyState) : EStateM PolicyError ScalePolicy Unit := do
  let policy ← get
  if !policy.state.canTransitionTo next then throw (.illegalTransition policy.state next)
  set { policy with state := next, revision := nextRevision policy.revision }

def activate : EStateM PolicyError ScalePolicy Unit := do
  transitionTo .active
  modify fun policy ↦ { policy with enabled := true }

def requestDisable : EStateM PolicyError ScalePolicy PolicyState := do
  transitionTo .draining
  modify fun policy ↦ { policy with enabled := false }
  return (← get).state

def drainCompleted (activeAttempts : Nat) : EStateM PolicyError ScalePolicy PolicyState := do
  let policy ← get
  if policy.state ≠ .draining then throw (.illegalTransition policy.state .disabled)
  if activeAttempts = 0 then transitionTo .disabled
  return (← get).state

def promoteToAutoscale (labels : RoutingLabels) (minCapacity : Nat) (maxCapacity : NonZeroU16) :
    EStateM PolicyError ScalePolicy Unit := do
  let policy ← get
  if !policy.profileName.isDefault then throw .namedProfileNeedsDerivedSelector
  if policy.mode.isAutoscale then throw .alreadyAutoscale
  match AutoscaleConfig.new labels minCapacity maxCapacity with
  | .error e => throw e
  | .ok config =>
    set { policy with mode := .autoscale config, revision := nextRevision policy.revision }

def promoteNamedToAutoscale (os : Os) (arch : Arch) (minCapacity : Nat)
    (maxCapacity : NonZeroU16) : EStateM PolicyError ScalePolicy Unit := do
  let policy ← get
  if policy.profileName.isDefault then throw .namedConstructorForDefault
  if policy.mode.isAutoscale then throw .alreadyAutoscale
  let labels := RoutingLabels.deriveForProfile policy.requestedHostLabel os arch policy.profileName
  match AutoscaleConfig.new labels minCapacity maxCapacity with
  | .error e => throw e
  | .ok config =>
    set { policy with mode := .autoscale config, revision := nextRevision policy.revision }

/-- `ScalePolicy::set_max_capacity`, which advances the revision even for the same ceiling. -/
def setMaxCapacity (maxCapacity : NonZeroU16) : EStateM PolicyError ScalePolicy Unit := do
  let policy ← get
  match policy.mode with
  | .monitorOnly => throw .notAutoscale
  | .autoscale config =>
    match AutoscaleConfig.new config.routingLabels config.minCapacity maxCapacity with
    | .error e => throw e
    | .ok config =>
      set { policy with mode := .autoscale config, revision := nextRevision policy.revision }

def addRoutingLabel (label : Label) : EStateM PolicyError ScalePolicy Bool := do
  let policy ← get
  match policy.mode with
  | .monitorOnly => throw .notAutoscale
  | .autoscale config =>
    let (added, labels) := config.routingLabels.add label
    set { policy with mode := .autoscale { config with routingLabels := labels } }
    if added then
      modify fun policy ↦ { policy with revision := nextRevision policy.revision }
    return added

def removeRoutingLabel (label : Label) : EStateM PolicyError ScalePolicy Bool := do
  let policy ← get
  match policy.mode with
  | .monitorOnly => throw .notAutoscale
  | .autoscale config =>
    match config.routingLabels.remove label with
    | .error e => throw e
    | .ok (removed, labels) =>
      set { policy with mode := .autoscale { config with routingLabels := labels } }
      if removed then
        modify fun policy ↦ { policy with revision := nextRevision policy.revision }
      return removed

end ScalePolicy

/-- The public mutators of a policy. -/
inductive PolicyOp where
  | setExecutionPolicy (execution : ExecutionPolicy)
  | setWorkspacePolicy (workspace : WorkspacePolicy)
  | transitionTo (next : PolicyState)
  | activate
  | requestDisable
  | drainCompleted (activeAttempts : Nat)
  | authenticationFailed
  | reauthenticated
  | repairRequired
  | promoteToAutoscale (labels : RoutingLabels) (minCapacity : Nat) (maxCapacity : NonZeroU16)
  | promoteNamedToAutoscale (os : Os) (arch : Arch) (minCapacity : Nat) (maxCapacity : NonZeroU16)
  | setMaxCapacity (maxCapacity : NonZeroU16)
  | addRoutingLabel (label : Label)
  | removeRoutingLabel (label : Label)

/-- The mutator as the source performs it, without its answer. -/
def PolicyOp.run : PolicyOp → EStateM PolicyError ScalePolicy Unit
  | setExecutionPolicy execution => ScalePolicy.setExecutionPolicy execution
  | setWorkspacePolicy workspace => ScalePolicy.setWorkspacePolicy workspace
  | transitionTo next => ScalePolicy.transitionTo next
  | activate => ScalePolicy.activate
  | requestDisable => do let _ ← ScalePolicy.requestDisable
  | drainCompleted activeAttempts => do let _ ← ScalePolicy.drainCompleted activeAttempts
  | authenticationFailed => ScalePolicy.transitionTo .authenticationFailed
  | reauthenticated => ScalePolicy.transitionTo .pending
  | repairRequired => ScalePolicy.transitionTo .repairRequired
  | promoteToAutoscale labels minCapacity maxCapacity =>
    ScalePolicy.promoteToAutoscale labels minCapacity maxCapacity
  | promoteNamedToAutoscale os arch minCapacity maxCapacity =>
    ScalePolicy.promoteNamedToAutoscale os arch minCapacity maxCapacity
  | setMaxCapacity maxCapacity => ScalePolicy.setMaxCapacity maxCapacity
  | addRoutingLabel label => do let _ ← ScalePolicy.addRoutingLabel label
  | removeRoutingLabel label => do let _ ← ScalePolicy.removeRoutingLabel label

/-! ## What a mutator can do -/

/-- The fields no mutator writes. -/
structure SamePolicy (a b : ScalePolicy) : Prop where
  id : a.id = b.id
  target : a.target = b.target
  installationId : a.installationId = b.installationId
  hostId : a.hostId = b.hostId
  requestedHostLabel : a.requestedHostLabel = b.requestedHostLabel
  profileName : a.profileName = b.profileName
  cachePolicy : a.cachePolicy = b.cachePolicy

/-- The changes a mutator makes; each one advances the revision. -/
inductive Mutated (policy : ScalePolicy) : ScalePolicy → Prop
  | execution (execution : ExecutionPolicy)
      (hvalid : execution.validate policy.target.scope policy.workspacePolicy = .ok ()) :
      Mutated policy { policy with
        executionPolicy := execution, revision := ScalePolicy.nextRevision policy.revision }
  | workspace (workspace : WorkspacePolicy)
      (hpermitted : workspace.permittedFor policy.target.scope = .ok ())
      (hvalid : policy.executionPolicy.validate policy.target.scope workspace = .ok ()) :
      Mutated policy { policy with
        workspacePolicy := workspace, revision := ScalePolicy.nextRevision policy.revision }
  | state (state : PolicyState) (enabled : Bool) :
      Mutated policy { policy with
        state, enabled, revision := ScalePolicy.nextRevision policy.revision }
  | mode (mode : PolicyMode)
      (hselector : ScalePolicy.checkSelectorShape policy.profileName policy.mode = .ok () →
        ScalePolicy.checkSelectorShape policy.profileName mode = .ok ()) :
      Mutated policy { policy with
        mode, revision := ScalePolicy.nextRevision policy.revision }

namespace Mutated

variable {policy next : ScalePolicy}

theorem advances (h : Mutated policy next) :
    SamePolicy next policy ∧ next.revision = ScalePolicy.nextRevision policy.revision := by
  cases h <;> exact ⟨⟨rfl, rfl, rfl, rfl, rfl, rfl, rfl⟩, rfl⟩

theorem storable (h : Mutated policy next) (hpolicy : policy.Storable) : next.Storable := by
  cases h with
  | execution execution hvalid => exact ⟨hpolicy.selector, hpolicy.workspace, hvalid⟩
  | workspace workspace hpermitted hvalid => exact ⟨hpolicy.selector, hpermitted, hvalid⟩
  | state state enabled => exact ⟨hpolicy.selector, hpolicy.workspace, hpolicy.execution⟩
  | mode mode hselector =>
    exact ⟨hselector hpolicy.selector, hpolicy.workspace, hpolicy.execution⟩

end Mutated

namespace ScalePolicy

variable {policy : ScalePolicy}

theorem checkSelectorShape_congr {profile : ProfileName} {a b : AutoscaleConfig}
    (h : a.routingLabels.hostLabel = b.routingLabels.hostLabel) :
    checkSelectorShape profile (.autoscale a) = checkSelectorShape profile (.autoscale b) := by
  have hshape : endsWithProfile a.routingLabels profile
      = endsWithProfile b.routingLabels profile := by
    rw [endsWithProfile, endsWithProfile, h]
  show (if _ then _ else _) = _
  rw [hshape]
  rfl

theorem endsWithProfile_derive (hostLabel : HostLabel) (os : Os) (arch : Arch)
    (profile : ProfileName) :
    endsWithProfile (.deriveForProfile hostLabel os arch profile) profile = true := by
  rw [endsWithProfile, List.isSuffixOf_iff_suffix]
  show _ <:+ (String.ofList (RoutingLabels.selector hostLabel os arch _)).toList
  rw [String.toList_ofList]
  exact List.suffix_append _ _

theorem new_routingLabels {labels : RoutingLabels} {minCapacity : Nat} {maxCapacity : NonZeroU16}
    {config : AutoscaleConfig}
    (h : AutoscaleConfig.new labels minCapacity maxCapacity = .ok config) :
    config.routingLabels = labels := by
  unfold AutoscaleConfig.new at h
  split_ifs at h
  cases h
  rfl

theorem transitionTo_apply (next : PolicyState) (policy : ScalePolicy) :
    transitionTo next policy =
      if policy.state.canTransitionTo next = true then
        .ok () { policy with state := next, revision := nextRevision policy.revision }
      else .error (.illegalTransition policy.state next) policy := by
  simp only [transitionTo, bind_apply, get_apply]
  by_cases hlegal : policy.state.canTransitionTo next = true <;> simp [hlegal]

end ScalePolicy

namespace PolicyOp

open ScalePolicy

/-- The policy after a mutator, accepted or refused. -/
def exec (op : PolicyOp) (policy : ScalePolicy) : ScalePolicy :=
  Mutation.exec op.run policy

theorem transition_cases (next : PolicyState) (policy : ScalePolicy) :
    Mutation.exec (ScalePolicy.transitionTo next) policy = policy ∨
      Mutated policy (Mutation.exec (ScalePolicy.transitionTo next) policy) := by
  rw [Mutation.exec, transitionTo_apply]
  split_ifs with hlegal
  · exact .inr (.state next policy.enabled)
  · exact .inl rfl

/-- A mutator leaves the policy alone or makes one of the listed changes. -/
theorem exec_cases (op : PolicyOp) (policy : ScalePolicy) :
    op.exec policy = policy ∨ Mutated policy (op.exec policy) := by
  cases op with
  | setExecutionPolicy execution =>
    simp only [exec, Mutation.exec, run, ScalePolicy.setExecutionPolicy, bind_apply, get_apply,
      require]
    cases hvalid : execution.validate policy.target.scope policy.workspacePolicy with
    | error e => exact .inl rfl
    | ok u =>
      by_cases hsame : policy.executionPolicy = execution
      · exact .inl (by simp [hsame])
      · exact .inr (by simpa [hsame] using Mutated.execution execution hvalid)
  | setWorkspacePolicy workspace =>
    simp only [exec, Mutation.exec, run, ScalePolicy.setWorkspacePolicy, bind_apply, get_apply,
      require]
    cases hpermitted : workspace.permittedFor policy.target.scope with
    | error e => exact .inl rfl
    | ok u =>
      cases hvalid : policy.executionPolicy.validate policy.target.scope workspace with
      | error e => exact .inl rfl
      | ok u =>
        by_cases hsame : policy.workspacePolicy = workspace
        · exact .inl (by simp [hsame])
        · exact .inr (by simpa [hsame] using Mutated.workspace workspace hpermitted hvalid)
  | transitionTo next => exact transition_cases next policy
  | authenticationFailed => exact transition_cases .authenticationFailed policy
  | reauthenticated => exact transition_cases .pending policy
  | repairRequired => exact transition_cases .repairRequired policy
  | activate =>
    simp only [exec, Mutation.exec, run, ScalePolicy.activate, bind_apply, transitionTo_apply]
    by_cases hlegal : policy.state.canTransitionTo .active = true
    · exact .inr (by simpa [hlegal] using Mutated.state .active true)
    · exact .inl (by simp [hlegal])
  | requestDisable =>
    simp only [exec, Mutation.exec, run, ScalePolicy.requestDisable, bind_apply,
      transitionTo_apply]
    by_cases hlegal : policy.state.canTransitionTo .draining = true
    · exact .inr (by simpa [hlegal] using Mutated.state .draining false)
    · exact .inl (by simp [hlegal])
  | drainCompleted activeAttempts =>
    simp only [exec, Mutation.exec, run, ScalePolicy.drainCompleted, bind_apply, get_apply]
    by_cases hdraining : policy.state = .draining
    · by_cases hdone : activeAttempts = 0
      · have hlegal : PolicyState.draining.canTransitionTo .disabled = true := by decide
        exact .inr (by
          simpa [hdraining, hdone, transitionTo_apply, hlegal] using
            Mutated.state .disabled policy.enabled)
      · exact .inl (by simp [hdraining, hdone])
    · exact .inl (by simp [hdraining])
  | promoteToAutoscale labels minCapacity maxCapacity =>
    simp only [exec, Mutation.exec, run, ScalePolicy.promoteToAutoscale, bind_apply, get_apply]
    cases hdefault : policy.profileName.isDefault with
    | false => exact .inl (by simp)
    | true =>
      cases hmode : policy.mode.isAutoscale with
      | true => exact .inl (by simp)
      | false =>
        cases hnew : AutoscaleConfig.new labels minCapacity maxCapacity with
        | error e => exact .inl (by simp)
        | ok config =>
          refine .inr (Mutated.mode (.autoscale config) fun _ ↦ ?_)
          simp [checkSelectorShape, PolicyMode.routingLabels, hdefault]
  | promoteNamedToAutoscale os arch minCapacity maxCapacity =>
    simp only [exec, Mutation.exec, run, ScalePolicy.promoteNamedToAutoscale, bind_apply,
      get_apply]
    cases hdefault : policy.profileName.isDefault with
    | true => exact .inl (by simp)
    | false =>
      cases hmode : policy.mode.isAutoscale with
      | true => exact .inl (by simp)
      | false =>
        cases hnew : AutoscaleConfig.new (.deriveForProfile policy.requestedHostLabel os
            arch policy.profileName) minCapacity maxCapacity with
        | error e => exact .inl (by simp)
        | ok config =>
          refine .inr ?_
          simp only [Bool.false_eq_true, if_false]
          refine Mutated.mode (.autoscale config) fun _ ↦ ?_
          simp [checkSelectorShape, PolicyMode.routingLabels, new_routingLabels hnew,
            endsWithProfile_derive]
  | setMaxCapacity maxCapacity =>
    simp only [exec, Mutation.exec, run, ScalePolicy.setMaxCapacity, bind_apply, get_apply]
    cases hmode : policy.mode with
    | monitorOnly => exact .inl rfl
    | autoscale config =>
      cases hnew : AutoscaleConfig.new config.routingLabels config.minCapacity
          maxCapacity with
      | error e => exact .inl (by simp [hnew])
      | ok next =>
        refine .inr ?_
        simp only [hnew, set_apply]
        refine Mutated.mode (.autoscale next) fun hselector ↦ ?_
        rw [hmode] at hselector
        rwa [checkSelectorShape_congr (b := config) (by rw [new_routingLabels hnew])]
  | addRoutingLabel label =>
    simp only [exec, Mutation.exec, run, ScalePolicy.addRoutingLabel, bind_apply, get_apply]
    cases hmode : policy.mode with
    | monitorOnly => exact .inl rfl
    | autoscale config =>
      cases hadded : (config.routingLabels.add label).1 with
      | false =>
        refine .inl ?_
        simp [hadded, RoutingLabels.add_unchanged hadded, ← hmode]
      | true =>
        refine .inr ?_
        simp only [hadded, set_apply, bind_apply, if_true, modify_apply, pure_apply]
        refine Mutated.mode (.autoscale { config with
          routingLabels := (config.routingLabels.add label).2 }) fun hselector ↦ ?_
        rw [hmode] at hselector
        rwa [checkSelectorShape_congr (b := config) (by simp)]
  | removeRoutingLabel label =>
    simp only [exec, Mutation.exec, run, ScalePolicy.removeRoutingLabel, bind_apply, get_apply]
    cases hmode : policy.mode with
    | monitorOnly => exact .inl rfl
    | autoscale config =>
      cases hremove : config.routingLabels.remove label with
      | error e => exact .inl (by simp [hremove])
      | ok answer =>
        obtain ⟨removed, labels⟩ := answer
        obtain ⟨hhost, hunchanged⟩ := RoutingLabels.remove_facts hremove
        cases removed with
        | false =>
          refine .inl ?_
          simp [hremove, hunchanged rfl, ← hmode]
        | true =>
          refine .inr ?_
          simp only [hremove, set_apply, bind_apply, if_true, modify_apply, pure_apply]
          refine Mutated.mode (.autoscale { config with routingLabels := labels })
            fun hselector ↦ ?_
          rw [hmode] at hselector
          rwa [checkSelectorShape_congr (b := config) hhost]

end PolicyOp

end RunnerManager.Domain
