import RunnerManager.Domain.Store

/-!
# Rows are read back

Every query parses its rows again, so a written value comes back only where its columns pass
the domain's own checks. Read `policy_read_iff` first: a policy's columns are read back as the
policy itself, or not at all.
-/

namespace RunnerManager.Domain

open RunnerManager.Text RunnerManager.Result

variable {native : PathPlatform}

/-- A configured root is one of the platform the program runs on. -/
def NativeRoot (native : PathPlatform) (root : Option LocalAbsolutePath) : Prop :=
  ∀ path ∈ root, path.platform = native

theorem read_path_iff {root result : Option LocalAbsolutePath} :
    readPath native (root.map (·.text)) = .ok result ↔ NativeRoot native root ∧ result = root := by
  cases root with
  | none => simp [readPath, NativeRoot, eq_comm]
  | some path =>
    simp only [Option.map_some, readPath, map_eq_ok, LocalAbsolutePath.parseFor_text_iff,
      NativeRoot, Option.mem_def, Option.some.injEq, forall_eq']
    constructor
    · rintro ⟨_, ⟨hplatform, rfl⟩, rfl⟩
      exact ⟨hplatform, rfl⟩
    · rintro ⟨hplatform, rfl⟩
      exact ⟨path, ⟨hplatform, rfl⟩, rfl⟩

/-- A host whose row is read back as the host. -/
structure Host.Readable (native : PathPlatform) (host : Host) : Prop where
  trimmed : trim host.displayName.toList = host.displayName.toList
  named : host.displayName.toList ≠ []
  root : NativeRoot native host.runnerRootOverride

theorem host_read {host : Host} (h : host.Readable native) :
    hostFromRow native (hostParams host) = .ok host := by
  have hroot : readPath native (hostParams host).runnerRootOverride =
      .ok host.runnerRootOverride := read_path_iff.mpr ⟨h.root, rfl⟩
  have hfloor : ¬ host.refreshInterval.val < 30 := Nat.not_lt.mpr host.refreshInterval.property.1
  simp only [hostFromRow, hroot]
  simp [Host.new, hostParams, h.trimmed, h.named, RefreshInterval.fromSecs, hfloor,
    Except.mapError, bind, Except.bind, pure, Except.pure]

theorem profile_name_trimmed (profile : ProfileName) :
    trim profile.text.toList = profile.text.toList := by
  obtain ⟨trimmed, hcheck, hfold⟩ := map_eq_ok.mp profile.canonical
  rw [← hfold, trim_foldAscii, (check_name_iff.mp hcheck).2.trimmed]

theorem policy_read_iff {policy result : ScalePolicy} :
    policyFromRow native (policyRow policy) = .ok result ↔
      (policy.Storable ∧ NativeRoot native policy.workspacePolicy.root) ∧ result = policy := by
  have htarget : ScaleTarget.read (policyRow policy).targetScope (policyRow policy).targetSlug =
      .ok policy.target := ScaleTarget.read_slug policy.target
  have hlabel : HostLabel.new (policyRow policy).requestedHostLabel =
      .ok policy.requestedHostLabel := Canonical.new_text _ _
  have hname : ProfileName.new (policyRow policy).profileName = .ok policy.profileName :=
    Canonical.new_text _ _
  have htrim : trim (policyRow policy).profileName.toList =
      (policyRow policy).profileName.toList := profile_name_trimmed policy.profileName
  have hfields : (policyRow policy).fields policy.target policy.requestedHostLabel
      policy.profileName policy.workspacePolicy.root = policy.toPersisted := by
    have hlabels : ((policyRow policy).routingLabels.map fun labels ↦
        RoutingLabels.fromParts labels.1 labels.2) = policy.routingLabels := by
      show (Option.map _ policy.routingLabels).map _ = _
      cases policy.routingLabels <;> simp
    rw [PolicyRow.fields, hlabels]
    rfl
  have hselector : (policyRow policy).profileSelector =
      policy.routingLabels.map (·.hostLabel.text) := rfl
  have hroot : readPath native (policyRow policy).workspacePath =
      readPath native (policy.workspacePolicy.root.map (·.text)) := rfl
  simp only [policyFromRow, htarget, htrim, hlabel, hname, hroot, Except.mapError, bind,
    Except.bind, ne_eq, not_true_eq_false, if_false]
  cases hread : readPath native (policy.workspacePolicy.root.map (·.text)) with
  | error e =>
    simp only [reduceCtorEq, false_iff, not_and]
    intro hpolicy
    rw [read_path_iff.mpr ⟨hpolicy.2, rfl⟩] at hread
    cases hread
  | ok root =>
    obtain ⟨hnative, rfl⟩ := read_path_iff.mp hread
    simp only [hfields]
    cases hpersisted : ScalePolicy.fromPersisted policy.toPersisted with
    | error e =>
      simp only [reduceCtorEq, false_iff, not_and]
      intro hpolicy
      rw [ScalePolicy.fromPersisted_toPersisted.mpr ⟨hpolicy.1, rfl⟩] at hpersisted
      cases hpersisted
    | ok stored =>
      obtain ⟨hstorable, rfl⟩ := ScalePolicy.fromPersisted_toPersisted.mp hpersisted
      simp [hselector, hstorable, hnative, pure, Except.pure, eq_comm]

end RunnerManager.Domain
