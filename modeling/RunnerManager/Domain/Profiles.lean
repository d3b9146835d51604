import RunnerManager.Domain.StoreClosure

/-!
# Profiles of one host and target

Any number of policies may share a host and a target, one for each profile. Read
`ProfilesSeparate` first: their selectors differ and no one's optional labels hold another's
selector, so a job of one profile is never taken by a runner of another. A write is checked
against the rows present when it is made, and `separate_put` says that this one-sided check is
enough. The rows themselves need not be readable: a write whose siblings are not is refused.
-/

namespace RunnerManager.Domain

open RunnerManager.Text RunnerManager.Result

variable {native : PathPlatform} {db next : Database}

/-! ## Targets -/

theorem eqIgnoreAsciiCase_iff {a b : String} :
    eqIgnoreAsciiCase a b = true ↔ foldAscii a.toList = foldAscii b.toList := by
  rw [eqIgnoreAsciiCase, beq_iff_eq]

namespace ScaleTarget

/-- The folded names of a target. -/
def folded : ScaleTarget → List (List Char)
  | repository value => [foldAscii value.owner.text.toList, foldAscii value.repo.text.toList]
  | organization value => [foldAscii value.text.toList]

theorem same_iff {a b : ScaleTarget} : a.same b = true ↔ a.folded = b.folded := by
  cases a <;> cases b <;> simp [same, eqIgnoreAsciiCase_iff, folded]

theorem same_refl (target : ScaleTarget) : target.same target = true := by
  rw [same_iff]

theorem same_symm {a b : ScaleTarget} (h : a.same b = true) : b.same a = true := by
  rw [same_iff] at h ⊢
  exact h.symm

theorem same_trans {a b c : ScaleTarget} (hab : a.same b = true) (hbc : b.same c = true) :
    a.same c = true := by
  rw [same_iff] at hab hbc ⊢
  exact hab.trans hbc

theorem columns_of_same {a b : ScaleTarget} (h : a.same b = true) :
    a.scope = b.scope ∧ eqIgnoreAsciiCase a.slug b.slug = true := by
  rw [same_iff] at h
  cases a <;> cases b <;>
    simp only [folded, List.cons.injEq, and_true, reduceCtorEq, and_false] at h
  · refine ⟨rfl, ?_⟩
    rw [eqIgnoreAsciiCase_iff]
    simp only [slug, OwnerRepo.slug, String.toList_append, foldAscii, List.map_append] at h ⊢
    rw [h.1, h.2]
  · rw [eqIgnoreAsciiCase_iff]
    exact ⟨rfl, h⟩

end ScaleTarget

/-! ## Separation -/

/-- Neither profile's runner answers to the other's selector. -/
def LabelsApart (a b : ScalePolicy) : Prop :=
  ∀ own ∈ a.routingLabels, ∀ other ∈ b.routingLabels,
    own.hostLabel ≠ other.hostLabel ∧ own.hostLabel ∉ other.additional ∧
      other.hostLabel ∉ own.additional

theorem LabelsApart.symm {a b : ScalePolicy} (h : LabelsApart a b) : LabelsApart b a := by
  intro own hown other hother
  obtain ⟨hne, hleft, hright⟩ := h other hother own hown
  exact ⟨hne.symm, hright, hleft⟩

theorem labelsApart_of_check {candidate sibling : ScalePolicy}
    (h : checkSibling candidate sibling = .ok ())
    (hprofile : candidate.profileName ≠ sibling.profileName) : LabelsApart candidate sibling := by
  intro own hown other hother
  rw [Option.mem_def] at hown hother
  simp only [checkSibling, if_neg hprofile.symm, hown, hother, ite_error_eq_ok] at h
  exact ⟨h.1, h.2.1, h.2.2.1⟩

/-- What the store promises of the policies of each host and target. -/
structure ProfilesSeparate (db : Database) : Prop where
  written : ∀ row ∈ db.policies.rows, ∃ policy : ScalePolicy, row = policyRow policy
  selectors : ∀ a b : ScalePolicy, policyRow a ∈ db.policies.rows →
    policyRow b ∈ db.policies.rows → a.hostId = b.hostId → a.target.same b.target = true →
    a.profileName ≠ b.profileName → LabelsApart a b
  profiles : ∀ a b : ScalePolicy, policyRow a ∈ db.policies.rows →
    policyRow b ∈ db.policies.rows → a.hostId = b.hostId → a.target.same b.target = true →
    a.profileName = b.profileName → a.id = b.id

theorem identity_of_row {a b : ScalePolicy} (h : policyRow a = policyRow b) :
    a.id = b.id ∧ a.hostId = b.hostId ∧ a.target = b.target ∧ a.profileName = b.profileName ∧
      a.routingLabels = b.routingLabels := by
  have htarget : ScaleTarget.read a.target.scope a.target.slug =
      ScaleTarget.read b.target.scope b.target.slug :=
    congrArg (fun row ↦ ScaleTarget.read row.targetScope row.targetSlug) h
  rw [ScaleTarget.read_slug, ScaleTarget.read_slug, Except.ok.injEq] at htarget
  have hparts : a.routingLabels.map (fun labels ↦ (labels.hostLabel, labels.additional)) =
      b.routingLabels.map fun labels ↦ (labels.hostLabel, labels.additional) :=
    congrArg PolicyRow.routingLabels h
  refine ⟨congrArg PolicyRow.id h, congrArg PolicyRow.hostId h, htarget,
    Canonical.ext (congrArg PolicyRow.profileName h), Option.map_injective ?_ hparts⟩
  intro left right hsame
  obtain ⟨hhost, hadditional⟩ := Prod.mk.inj hsame
  exact RoutingLabels.ext hhost hadditional

/-! ## One write -/

theorem candidate_apart {policy stored : ScalePolicy}
    (hvalid : validateProfileInTarget native db policy = .ok ())
    (hfree : Store.profileIsFree db (policyRow policy) = true)
    (hstored : policyRow stored ∈ db.policies.rows) (hid : stored.id ≠ policy.id)
    (hhost : policy.hostId = stored.hostId) (htarget : policy.target.same stored.target = true) :
    policy.profileName ≠ stored.profileName ∧ LabelsApart policy stored := by
  obtain ⟨hscope, hslug⟩ := ScaleTarget.columns_of_same htarget
  rw [eqIgnoreAsciiCase_iff] at hslug
  have hprofile : policy.profileName ≠ stored.profileName := by
    intro hsame
    have hindex := List.all_eq_true.mp hfree (policyRow stored) hstored
    have hcolumns : (policyRow stored).id = stored.id ∧ (policyRow policy).id = policy.id ∧
        (policyRow stored).hostId = (policyRow policy).hostId ∧
        (policyRow stored).targetScope = (policyRow policy).targetScope ∧
        eqIgnoreAsciiCase (policyRow stored).targetSlug (policyRow policy).targetSlug = true ∧
        eqIgnoreAsciiCase (policyRow stored).profileName (policyRow policy).profileName = true := by
      refine ⟨rfl, rfl, hhost.symm, hscope.symm, eqIgnoreAsciiCase_iff.mpr hslug.symm, ?_⟩
      rw [eqIgnoreAsciiCase_iff]
      exact congrArg (fun name : ProfileName ↦ foldAscii name.text.toList) hsame.symm
    simp [hcolumns, hid] at hindex
  have hsibling : isSibling policy (policyRow stored) = true := by
    simp only [isSibling, Bool.and_eq_true, decide_eq_true_eq]
    exact ⟨⟨⟨hhost.symm, hscope.symm⟩, eqIgnoreAsciiCase_iff.mpr hslug.symm⟩, hid⟩
  simp only [validateProfileInTarget, bind_eq_ok, forM_eq_ok, List.mem_filter] at hvalid
  obtain ⟨_, -, hsiblings⟩ := hvalid
  obtain ⟨sibling, hread, hcheck⟩ := hsiblings (policyRow stored) ⟨hstored, hsibling⟩
  -- What the check read is what was written.
  obtain ⟨-, rfl⟩ := policy_read_iff.mp hread
  exact ⟨hprofile, labelsApart_of_check hcheck hprofile⟩

theorem separate_put {policy : ScalePolicy} (h : ProfilesSeparate db)
    (hvalid : validateProfileInTarget native db policy = .ok ())
    (hfree : Store.profileIsFree db (policyRow policy) = true) :
    ProfilesSeparate { db with policies := db.policies.put (policyRow policy) } where
  written := by
    intro row hrow
    rcases Table.mem_put.mp hrow with rfl | ⟨hrow, -⟩
    · exact ⟨policy, rfl⟩
    · exact h.written row hrow
  selectors := by
    intro a b ha hb hhost htarget hprofile
    rcases Table.mem_put.mp ha with hnewA | ⟨ha, hneA⟩
    · obtain ⟨-, hhostA, htargetA, hprofileA, hlabelsA⟩ := identity_of_row hnewA
      rw [hhostA] at hhost
      rw [htargetA] at htarget
      rcases Table.mem_put.mp hb with hnewB | ⟨hb, hneB⟩
      · obtain ⟨-, -, -, hprofileB, -⟩ := identity_of_row hnewB
        exact absurd (hprofileA.trans hprofileB.symm) hprofile
      · have hapart := (candidate_apart hvalid hfree hb hneB hhost htarget).2
        rwa [LabelsApart, ← hlabelsA] at hapart
    · rcases Table.mem_put.mp hb with hnewB | ⟨hb, hneB⟩
      · obtain ⟨-, hhostB, htargetB, -, hlabelsB⟩ := identity_of_row hnewB
        rw [hhostB] at hhost
        rw [htargetB] at htarget
        have hapart := (candidate_apart hvalid hfree ha hneA hhost.symm
          (ScaleTarget.same_symm htarget)).2.symm
        rwa [LabelsApart, ← hlabelsB] at hapart
      · exact h.selectors a b ha hb hhost htarget hprofile
  profiles := by
    intro a b ha hb hhost htarget hprofile
    rcases Table.mem_put.mp ha with hnewA | ⟨ha, hneA⟩
    · obtain ⟨hidA, hhostA, htargetA, hprofileA, -⟩ := identity_of_row hnewA
      rcases Table.mem_put.mp hb with hnewB | ⟨hb, hneB⟩
      · exact hidA.trans (identity_of_row hnewB).1.symm
      · rw [hhostA] at hhost
        rw [htargetA] at htarget
        exact absurd (hprofileA.symm.trans hprofile)
          (candidate_apart hvalid hfree hb hneB hhost htarget).1
    · rcases Table.mem_put.mp hb with hnewB | ⟨hb, hneB⟩
      · obtain ⟨-, hhostB, htargetB, hprofileB, -⟩ := identity_of_row hnewB
        rw [hhostB] at hhost
        rw [htargetB] at htarget
        exact absurd (hprofileB.symm.trans hprofile.symm)
          (candidate_apart hvalid hfree ha hneA hhost.symm (ScaleTarget.same_symm htarget)).1
      · exact h.profiles a b ha hb hhost htarget hprofile

theorem separate_erase (h : ProfilesSeparate db) (id : PolicyId) :
    ProfilesSeparate { db with policies := db.policies.erase id } where
  written row hrow := h.written row (Table.mem_erase.mp hrow).1
  selectors a b ha hb := h.selectors a b (Table.mem_erase.mp ha).1 (Table.mem_erase.mp hb).1
  profiles a b ha hb := h.profiles a b (Table.mem_erase.mp ha).1 (Table.mem_erase.mp hb).1

theorem separate_run {op : StoreOp} (h : ProfilesSeparate db) (hrun : op.run native db = .ok next) :
    ProfilesSeparate next := by
  cases op with
  | insertPolicy policy =>
    obtain ⟨-, hvalid, -, hfree, rfl⟩ := Store.insertPolicy_ok hrun
    exact separate_put h hvalid hfree
  | updatePolicy policy revision fence =>
    obtain ⟨-, -, -, hvalid, -, hfree, rfl⟩ := Store.updatePolicy_ok hrun
    exact separate_put h hvalid hfree
  | removePolicy id revision =>
    obtain ⟨-, rfl⟩ := Store.removePolicy_ok hrun
    exact separate_erase h id
  | putHost host =>
    cases hrun
    exact { h with }
  | setRunnerRootOverride id expected newRoot uncleaned =>
    obtain ⟨_, -, rfl⟩ := Store.setRunnerRootOverride_ok hrun
    exact { h with }
  | recordAttempt attempt =>
    obtain ⟨_, -, -, -, rfl⟩ := Store.recordAttempt_ok hrun
    exact { h with }
  | removeAttempt id =>
    cases hrun
    exact { h with }

/-! ## Identity -/

/-- What a policy keeps from its insertion: the host, the target, the profile, and the selector
once it has one. -/
structure SameIdentity (stored later : ScalePolicy) : Prop where
  host : stored.hostId = later.hostId
  target : stored.target.same later.target = true
  profile : stored.profileName = later.profileName
  selector : ∀ own ∈ stored.routingLabels, ∃ other ∈ later.routingLabels,
    other.hostLabel = own.hostLabel

namespace SameIdentity

variable {a b c : ScalePolicy}

theorem refl (a : ScalePolicy) : SameIdentity a a where
  host := rfl
  target := a.target.same_refl
  profile := rfl
  selector own hown := ⟨own, hown, rfl⟩

theorem trans (hab : SameIdentity a b) (hbc : SameIdentity b c) : SameIdentity a c where
  host := hab.host.trans hbc.host
  target := ScaleTarget.same_trans hab.target hbc.target
  profile := hab.profile.trans hbc.profile
  selector := by
    intro own hown
    obtain ⟨middle, hmiddle, hsame⟩ := hab.selector own hown
    obtain ⟨other, hother, hlast⟩ := hbc.selector middle hmiddle
    exact ⟨other, hother, hlast.trans hsame⟩

theorem iff_sameProfileIdentity : sameProfileIdentity a b = true ↔ SameIdentity a b := by
  simp only [sameProfileIdentity, Bool.and_eq_true, Bool.or_eq_true, decide_eq_true_eq,
    Option.isNone_iff_eq_none]
  constructor
  · rintro ⟨⟨⟨hprofile, hhost⟩, htarget⟩, hlabels⟩
    refine ⟨hhost, htarget, hprofile, ?_⟩
    intro own hown
    rw [Option.mem_def] at hown
    rcases hlabels with hnone | hsame
    · rw [hnone] at hown
      cases hown
    · rw [hown, Option.map_some] at hsame
      obtain ⟨other, hother, hlabel⟩ := Option.map_eq_some_iff.mp hsame.symm
      exact ⟨other, hother, hlabel⟩
  · intro h
    refine ⟨⟨⟨h.profile, h.host⟩, h.target⟩, ?_⟩
    cases hown : a.routingLabels with
    | none => exact .inl rfl
    | some own =>
      obtain ⟨other, hother, hlabel⟩ := h.selector own hown
      rw [Option.mem_def] at hother
      rw [hother, Option.map_some, Option.map_some, hlabel]
      exact .inr rfl

end SameIdentity

theorem update_keeps_identity {stored policy : ScalePolicy}
    (hidentity : ensureProfileIdentity native db policy = .ok ())
    (hstored : policyRow stored ∈ db.policies.rows) (hid : stored.id = policy.id) :
    SameIdentity stored policy := by
  have hfind : db.policies.find? policy.id = some (policyRow stored) :=
    Table.find?_eq_some_iff.mpr ⟨hstored, hid⟩
  simp only [ensureProfileIdentity, hfind, bind_eq_ok] at hidentity
  obtain ⟨found, hread, hcheck⟩ := hidentity
  obtain ⟨-, rfl⟩ := policy_read_iff.mp hread
  split_ifs at hcheck with hsame
  exact SameIdentity.iff_sameProfileIdentity.mp hsame

theorem identity_run {op : StoreOp} (hrun : op.run native db = .ok next)
    {a : ScalePolicy} (ha : policyRow a ∈ db.policies.rows)
    (hkept : ∀ revision, op ≠ .removePolicy a.id revision) :
    ∃ b : ScalePolicy, b.id = a.id ∧ policyRow b ∈ next.policies.rows ∧ SameIdentity a b := by
  cases op with
  | insertPolicy policy =>
    obtain ⟨-, -, hfresh, -, rfl⟩ := Store.insertPolicy_ok hrun
    have hne : (policyRow a).id ≠ policy.id := Table.find?_eq_none_iff.mp hfresh _ ha
    exact ⟨a, rfl, Table.mem_put.mpr (.inr ⟨ha, hne⟩), .refl a⟩
  | updatePolicy policy revision fence =>
    obtain ⟨-, hidentity, -, -, -, -, rfl⟩ := Store.updatePolicy_ok hrun
    by_cases hid : a.id = policy.id
    · exact ⟨policy, hid.symm, Table.mem_put.mpr (.inl rfl),
        update_keeps_identity hidentity ha hid⟩
    · exact ⟨a, rfl, Table.mem_put.mpr (.inr ⟨ha, hid⟩), .refl a⟩
  | removePolicy id revision =>
    obtain ⟨-, rfl⟩ := Store.removePolicy_ok hrun
    have hne : (policyRow a).id ≠ id := fun heq ↦ hkept revision (by rw [← heq]; rfl)
    exact ⟨a, rfl, Table.mem_erase.mpr ⟨ha, hne⟩, .refl a⟩
  | putHost host =>
    cases hrun
    exact ⟨a, rfl, ha, .refl a⟩
  | setRunnerRootOverride id expected newRoot uncleaned =>
    obtain ⟨_, -, rfl⟩ := Store.setRunnerRootOverride_ok hrun
    exact ⟨a, rfl, ha, .refl a⟩
  | recordAttempt attempt =>
    obtain ⟨_, -, -, -, rfl⟩ := Store.recordAttempt_ok hrun
    exact ⟨a, rfl, ha, .refl a⟩
  | removeAttempt id =>
    cases hrun
    exact ⟨a, rfl, ha, .refl a⟩

theorem identity_execAll (ops : List StoreOp) {a : ScalePolicy}
    (ha : policyRow a ∈ db.policies.rows)
    (hkept : ∀ op ∈ ops, ∀ revision, op ≠ .removePolicy a.id revision) :
    ∃ b : ScalePolicy, b.id = a.id ∧
      policyRow b ∈ (StoreOp.execAll native ops db).policies.rows ∧ SameIdentity a b := by
  induction ops generalizing db a with
  | nil => exact ⟨a, rfl, ha, .refl a⟩
  | cons op ops ih =>
    rw [List.forall_mem_cons] at hkept
    show ∃ b : ScalePolicy, b.id = a.id ∧
      policyRow b ∈ (StoreOp.execAll native ops (op.exec native db)).policies.rows ∧
      SameIdentity a b
    rw [StoreOp.exec]
    cases hrun : op.run native db with
    | error e => exact ih ha hkept.2
    | ok next =>
      obtain ⟨middle, hid, hmiddle, hfirst⟩ := identity_run hrun ha hkept.1
      obtain ⟨b, hidB, hb, hrest⟩ := ih hmiddle (by rw [hid]; exact hkept.2)
      exact ⟨b, hidB.trans hid, hb, hfirst.trans hrest⟩

/-! ## Every reachable store -/

def StoreOp.Writes (op : StoreOp) (policy : ScalePolicy) : Prop :=
  op = .insertPolicy policy ∨ ∃ revision fence, op = .updatePolicy policy revision fence

/-- The write would leave two profiles of a host and target overlapping, or change what a stored
policy keeps. -/
def BreaksProfiles (db : Database) (policy : ScalePolicy) : Prop :=
  ¬ ProfilesSeparate { db with policies := db.policies.put (policyRow policy) } ∨
    ∃ stored : ScalePolicy, policyRow stored ∈ db.policies.rows ∧ stored.id = policy.id ∧
      ¬ SameIdentity stored policy

theorem breaking_write_refused (h : ProfilesSeparate db) {op : StoreOp} {policy : ScalePolicy}
    (hop : op.Writes policy) (hbreaks : BreaksProfiles db policy) :
    (∃ e, op.run native db = .error e) ∧ op.exec native db = db := by
  have hrefused : ∀ next, op.run native db ≠ .ok next := by
    intro next hrun
    rcases hop with rfl | ⟨revision, fence, rfl⟩
    · obtain ⟨-, hvalid, hfresh, hfree, -⟩ := Store.insertPolicy_ok hrun
      rcases hbreaks with hoverlap | ⟨stored, hstored, hid, -⟩
      · exact hoverlap (separate_put h hvalid hfree)
      · exact Table.find?_eq_none_iff.mp hfresh _ hstored hid
    · obtain ⟨-, hidentity, -, hvalid, -, hfree, -⟩ := Store.updatePolicy_ok hrun
      rcases hbreaks with hoverlap | ⟨stored, hstored, hid, hchanged⟩
      · exact hoverlap (separate_put h hvalid hfree)
      · exact hchanged (update_keeps_identity hidentity hstored hid)
  cases hrun : op.run native db with
  | ok next => exact absurd hrun (hrefused next)
  | error e => exact ⟨⟨e, rfl⟩, by rw [StoreOp.exec, hrun]⟩

/-- In every store any clients reach, the profiles of a host and target are separate, every
policy keeps its identity for as long as it is stored, and a write that would break either is
refused and changes nothing. -/
theorem sibling_separation (native : PathPlatform) (ops : List StoreOp) :
    ProfilesSeparate (StoreOp.execAll native ops .empty) ∧
    (∀ (more : List StoreOp) (a : ScalePolicy),
      policyRow a ∈ (StoreOp.execAll native ops .empty).policies.rows →
      (∀ op ∈ more, ∀ revision, op ≠ .removePolicy a.id revision) →
      ∃ b : ScalePolicy, b.id = a.id ∧ SameIdentity a b ∧
        policyRow b ∈ (StoreOp.execAll native (ops ++ more) .empty).policies.rows) ∧
    ∀ (op : StoreOp) (policy : ScalePolicy), op.Writes policy →
      BreaksProfiles (StoreOp.execAll native ops .empty) policy →
      (∃ e, op.run native (StoreOp.execAll native ops .empty) = .error e) ∧
        op.exec native (StoreOp.execAll native ops .empty) =
          StoreOp.execAll native ops .empty := by
  have hempty : ProfilesSeparate .empty := by
    refine ⟨?_, ?_, ?_⟩
    · intro row hrow
      cases hrow
    · intro a b ha
      cases ha
    · intro a b ha
      cases ha
  have hseparate : ProfilesSeparate (StoreOp.execAll native ops .empty) :=
    StoreOp.exec_all_induction native (fun _ _ _ hdb hrun ↦ separate_run hdb hrun) ops hempty
  refine ⟨hseparate, ?_, ?_⟩
  · intro more a ha hkept
    obtain ⟨b, hid, hb, hidentity⟩ := identity_execAll more ha hkept
    refine ⟨b, hid, hidentity, ?_⟩
    rwa [StoreOp.execAll, List.foldl_append]
  · intro op policy hop hbreaks
    exact breaking_write_refused hseparate hop hbreaks

end RunnerManager.Domain
