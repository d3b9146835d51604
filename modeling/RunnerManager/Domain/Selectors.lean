import RunnerManager.Domain.Policy

/-!
# Derived selectors

`RoutingLabels::derive` and `derive_for_profile` join a host label, two platform tokens and a
profile name with `-`, which host labels and profile names may hold themselves. Read
`same_or_nested` first: two derivations share a selector although they differ exactly where one
host label continues the other by its platform and the profile carries on from there. The store
refuses such a pair on one host and target.
-/

namespace RunnerManager.Domain

open RunnerManager.Text

/-- What a selector is derived from; without a profile, by `derive`. -/
structure Derivation where
  hostLabel : HostLabel
  os : Os
  arch : Arch
  profile : Option ProfileName

namespace Derivation

def labels (d : Derivation) : RoutingLabels :=
  match d.profile with
  | none => .derive d.hostLabel d.os d.arch
  | some profile => .deriveForProfile d.hostLabel d.os d.arch profile

def profileName (d : Derivation) : ProfileName :=
  d.profile.getD .default

/-- Host, platform and profile are the same. -/
def Same (a b : Derivation) : Prop :=
  a.hostLabel = b.hostLabel ∧ a.os = b.os ∧ a.arch = b.arch ∧ a.profileName = b.profileName

def platform (d : Derivation) : List Char :=
  '-' :: (d.os.labelToken.toList ++ '-' :: d.arch.labelToken.toList)

/-- The profile part of a selector. -/
def suffix (d : Derivation) : List Char :=
  match d.profile with
  | none => []
  | some profile => '-' :: profile.text.toList

/-- One host label is the other followed by the other's platform and some text, and the other's
profile part is that text followed by the first one's platform and profile part. -/
def NestedIn (a b : Derivation) : Prop :=
  ∃ rest, b.hostLabel.text.toList = a.hostLabel.text.toList ++ a.platform ++ rest ∧
    a.suffix = rest ++ b.platform ++ b.suffix

variable {a b : Derivation}

theorem labels_text (d : Derivation) : d.labels.hostLabel.text.toList =
    ['r', 'm', '-'] ++ (d.hostLabel.text.toList ++ (d.platform ++ d.suffix)) := by
  obtain ⟨hostLabel, os, arch, profile⟩ := d
  cases profile with
  | none =>
    show (String.ofList (RoutingLabels.selector hostLabel os arch [])).toList = _
    simp [RoutingLabels.selector, platform, suffix]
  | some profile =>
    show (String.ofList (RoutingLabels.selector hostLabel os arch
      ('-' :: profile.text.toList))).toList = _
    simp [RoutingLabels.selector, platform, suffix]

theorem labels_eq_iff : a.labels.hostLabel = b.labels.hostLabel ↔
    a.hostLabel.text.toList ++ (a.platform ++ a.suffix) =
      b.hostLabel.text.toList ++ (b.platform ++ b.suffix) := by
  rw [← List.append_right_inj ['r', 'm', '-'], ← labels_text, ← labels_text, String.toList_inj]
  exact ⟨congrArg _, Canonical.ext⟩

/-! ## Where the parts begin -/

theorem os_token_no_dash (os : Os) : '-' ∉ os.labelToken.toList := by
  cases os <;> decide

theorem arch_token_no_dash (arch : Arch) : '-' ∉ arch.labelToken.toList := by
  cases arch <;> decide

theorem tokens_differ {os : Os} {arch : Arch} {x y : List Char} :
    arch.labelToken.toList ++ x ≠ os.labelToken.toList ++ y := by
  cases os <;> cases arch <;> simp [Os.labelToken, Arch.labelToken]

theorem suffix_head (d : Derivation) (c : Char) (rest : List Char) (h : d.suffix = c :: rest) :
    c = '-' := by
  unfold suffix at h
  split at h
  · cases h
  · exact (List.cons.inj h).1.symm

theorem parts_of_eq (h : a.platform ++ a.suffix = b.platform ++ b.suffix) :
    a.os = b.os ∧ a.arch = b.arch ∧ a.suffix = b.suffix := by
  simp only [platform, List.cons_append, List.append_assoc, List.cons.injEq, true_and] at h
  have hos : a.os = b.os := by
    revert h
    cases a.os <;> cases b.os <;> simp [Os.labelToken]
  rw [hos] at h
  have htail := (List.cons.inj (List.append_cancel_left h)).2
  -- An architecture token that continues another does not continue with the separator.
  have harch : a.arch = b.arch := by
    have hleft := a.suffix_head
    have hright := b.suffix_head
    revert htail hleft hright
    cases a.suffix <;> cases b.suffix <;> cases a.arch <;> cases b.arch <;>
      simp [Arch.labelToken] <;> grind
  rw [harch] at htail
  exact ⟨hos, harch, List.append_cancel_left htail⟩

theorem nested_of_longer {more : List Char} (hmore : more ≠ [])
    (hhost : b.hostLabel.text.toList = a.hostLabel.text.toList ++ more)
    (h : a.platform ++ a.suffix = more ++ (b.platform ++ b.suffix)) : a.NestedIn b := by
  rcases List.append_eq_append_iff.mp h with ⟨rest, rfl, hrest⟩ | ⟨rest, hplatform, hrest⟩
  · exact ⟨rest, by rw [hhost, List.append_assoc], by rw [hrest, List.append_assoc]⟩
  · cases rest with
    | nil =>
      rw [List.append_nil] at hplatform
      refine ⟨[], by rw [hhost, hplatform, List.append_nil], ?_⟩
      rw [List.nil_append] at hrest ⊢
      exact hrest.symm
    | cons c rest =>
      -- The longer host label would stop inside the platform, before a separator.
      simp only [platform, List.cons_append, List.cons.injEq] at hrest
      obtain ⟨rfl, hrest⟩ := hrest
      cases more with
      | nil => exact absurd rfl hmore
      | cons d more =>
        rw [platform, List.cons_append, List.cons.injEq,
          List.append_cons_inj_of_notMem (os_token_no_dash _) (arch_token_no_dash _)]
          at hplatform
        obtain ⟨-, -, -, rfl⟩ := hplatform
        rw [List.append_assoc] at hrest
        exact absurd hrest.symm tokens_differ

theorem same_of_eq_host (hhost : a.hostLabel.text.toList = b.hostLabel.text.toList)
    (h : a.platform ++ a.suffix = b.platform ++ b.suffix) : a.Same b := by
  obtain ⟨hos, harch, hsuffix⟩ := parts_of_eq h
  refine ⟨Canonical.ext (String.toList_inj.mp hhost), hos, harch, ?_⟩
  obtain ⟨_, _, _, profile⟩ := a
  obtain ⟨_, _, _, other⟩ := b
  cases profile <;> cases other
  · rfl
  · cases hsuffix
  · cases hsuffix
  · exact Canonical.ext (String.toList_inj.mp (List.cons.inj hsuffix).2)

/-- Equal selectors come from the same derivation or from a nested pair. -/
theorem same_or_nested (h : a.labels.hostLabel = b.labels.hostLabel) :
    a.Same b ∨ a.NestedIn b ∨ b.NestedIn a := by
  rw [labels_eq_iff] at h
  rcases List.append_eq_append_iff.mp h with ⟨more, hhost, hmore⟩ | ⟨more, hhost, hmore⟩
  · cases more with
    | nil => exact .inl (same_of_eq_host (by simpa using hhost.symm) hmore)
    | cons c more => exact .inr (.inl (nested_of_longer (List.cons_ne_nil c more) hhost hmore))
  · cases more with
    | nil => exact .inl (same_of_eq_host (by simpa using hhost) hmore.symm)
    | cons c more => exact .inr (.inr (nested_of_longer (List.cons_ne_nil c more) hhost hmore))

theorem NestedIn.labels_eq (h : a.NestedIn b) : a.labels.hostLabel = b.labels.hostLabel := by
  obtain ⟨rest, hhost, hsuffix⟩ := h
  rw [labels_eq_iff, hhost, hsuffix]
  simp

theorem NestedIn.host_ne (h : a.NestedIn b) : a.hostLabel ≠ b.hostLabel := by
  obtain ⟨rest, hhost, -⟩ := h
  intro hsame
  have hlength := congrArg List.length hhost
  rw [hsame, platform] at hlength
  simp only [List.length_append, List.length_cons] at hlength
  omega

theorem NestedIn.profile_ne_none (h : a.NestedIn b) : a.profile ≠ none := by
  obtain ⟨rest, -, hsuffix⟩ := h
  intro hnone
  rw [suffix, hnone] at hsuffix
  have hlength := congrArg List.length hsuffix
  simp only [platform, List.length_append, List.length_cons, List.length_nil] at hlength
  omega

/-- Two derivations that give equal selectors are the same exactly where neither is nested in the
other, so on one host label, and where both are made by `derive`, they always are. -/
theorem derived_selectors_separate (a b : Derivation) :
    ((a.labels.hostLabel = b.labels.hostLabel → a.Same b) ↔
      ¬ a.NestedIn b ∧ ¬ b.NestedIn a) ∧
    (a.labels.hostLabel = b.labels.hostLabel →
      a.hostLabel = b.hostLabel ∨ a.profile = none ∧ b.profile = none → a.Same b) := by
  have hcases : a.labels.hostLabel = b.labels.hostLabel → ¬ a.NestedIn b → ¬ b.NestedIn a →
      a.Same b := by
    intro hlabels hleft hright
    rcases same_or_nested hlabels with hsame | hnested | hnested
    · exact hsame
    · exact absurd hnested hleft
    · exact absurd hnested hright
  refine ⟨⟨fun hseparate ↦ ⟨?_, ?_⟩, fun hapart hlabels ↦ hcases hlabels hapart.1 hapart.2⟩, ?_⟩
  · exact fun hnested ↦ hnested.host_ne (hseparate hnested.labels_eq).1
  · exact fun hnested ↦ hnested.host_ne (hseparate hnested.labels_eq.symm).1.symm
  · rintro hlabels (hhost | ⟨hleft, hright⟩)
    · exact hcases hlabels (fun h ↦ h.host_ne hhost) fun h ↦ h.host_ne hhost.symm
    · exact hcases hlabels (fun h ↦ h.profile_ne_none hleft) fun h ↦ h.profile_ne_none hright

/-- The profile `linux-x64` of host `a` and the unnamed profile of host `a-linux-x64` share a
selector. -/
theorem selector_shared_by_two_hosts : ¬ ∀ a b : Derivation,
    a.labels.hostLabel = b.labels.hostLabel → a.Same b := by
  intro hclaim
  have hsame := hclaim ⟨⟨"a", by decide⟩, .linux, .x64, some ⟨"linux-x64", by decide⟩⟩
    ⟨⟨"a-linux-x64", by decide⟩, .linux, .x64, none⟩ (by decide)
  exact absurd hsame.1 (by decide)

end Derivation

end RunnerManager.Domain
