import RunnerManager.Domain.Path

/-!
# The domain's value types

`crates/domain/src/model.rs`: identifiers, host facts, labels, targets and the host row.
Every validated text carries the fact that its own validator returns it unchanged, so a
column holding it is read back as the same value. Read `checkName` first: logins, host
labels and profile names are that one check at different bounds.
-/

namespace RunnerManager.Domain

open RunnerManager.Text

/-- An instant, in nanoseconds since the epoch. -/
abbrev Timestamp := Int

/-- A signed length of time, in nanoseconds. -/
abbrev Elapsed := Int

/-- Identifies one physical machine running one agent. -/
structure HostId where
  value : Nat
deriving DecidableEq

/-- Identifies one `ScalePolicy`. -/
structure PolicyId where
  value : Nat
deriving DecidableEq

/-- Identifies one `RunnerAttempt`. -/
structure AttemptId where
  value : Nat
deriving DecidableEq

/-- A value that would violate a documented constraint. -/
inductive ValidationError where
  | empty (what : String)
  | tooLong (what : String) (max actual : Nat)
  | illegalCharacter (what : String) (found : Char)
  | illegalEdge (what : String) (edge : Char)
  | malformedOwnerRepo (got : String) (slashes : Nat)
  | belowFloor (what : String) (min actual : Nat)
  | unrecognised (what got : String)
deriving DecidableEq

/-- A `NonZeroU16`. -/
abbrev NonZeroU16 := {n : Nat // 0 < n ∧ n < 2 ^ 16}

theorem nonZeroU16_of {n : {n : Nat // n < 2 ^ 16}} (h : 0 < n.val) : 0 < n.val ∧ n.val < 2 ^ 16 :=
  ⟨h, n.property⟩

theorem one_nonZero : 0 < 1 ∧ 1 < 2 ^ 16 := by decide

theorem two_nonZero : 0 < 2 ∧ 2 < 2 ^ 16 := by decide

/-- The largest `u16`. -/
def u16Max : Nat := 2 ^ 16 - 1

/-- The largest `u64`. -/
def u64Max : Nat := 2 ^ 64 - 1

/-- The host operating systems this product supports. -/
inductive Os where
  | windows
  | macOs
  | linux
deriving DecidableEq

/-- The token an operating system contributes to a derived routing label. -/
def Os.labelToken : Os → String
  | windows => "win"
  | macOs => "osx"
  | linux => "linux"

/-- The host architectures this product supports. -/
inductive Arch where
  | x64
  | arm64
  | arm32
deriving DecidableEq

/-- The token an architecture contributes to a derived routing label. -/
def Arch.labelToken : Arch → String
  | x64 => "x64"
  | arm64 => "arm64"
  | arm32 => "arm"

/-- When the installed service starts. -/
inductive StartMode where
  | boot
  | login
deriving DecidableEq

/-- Whether the verified runner package is kept between attempts. -/
inductive CachePolicy where
  | retainRunnerPackage
  | discardRunnerPackage
deriving DecidableEq

/-! ## Validated texts -/

/-- The check logins, host labels and profile names share: trimmed, not empty, at most
`max` bytes, every character allowed and no `-` at either end. -/
def checkName (what : String) (max : Nat) (allowed : Char → Bool) (raw : List Char) :
    Except ValidationError (List Char) :=
  let trimmed := trim raw
  if trimmed = [] then .error (.empty what)
  else if max < byteLen trimmed then .error (.tooLong what max (byteLen trimmed))
  else
    match trimmed.find? (fun c ↦ !allowed c) with
    | some found => .error (.illegalCharacter what found)
    | none =>
      if trimmed.head? = some '-' ∨ trimmed.getLast? = some '-' then
        .error (.illegalEdge what '-')
      else .ok trimmed

/-- The alphabet of host labels and profile names. -/
def slugChar (c : Char) : Bool :=
  isAsciiAlphanumeric c || c == '-' || c == '_'

def loginChar (c : Char) : Bool :=
  isAsciiAlphanumeric c || c == '-'

def repoChar (c : Char) : Bool :=
  isAsciiAlphanumeric c || c == '-' || c == '_' || c == '.'

theorem repoChar_ascii {c : Char} (h : repoChar c = true) : c.toNat < 128 := by
  simp only [repoChar, Bool.or_eq_true, beq_iff_eq] at h
  obtain ((h | rfl) | rfl) | rfl := h
  · exact alphanumeric_ascii h
  all_goals decide

/-- `HostLabel::new`. -/
def checkHostLabel (raw : List Char) : Except ValidationError (List Char) :=
  (checkName "a host label" 64 slugChar raw).map foldAscii

/-- `ProfileName::new`. -/
def checkProfileName (raw : List Char) : Except ValidationError (List Char) :=
  (checkName "a profile name" 64 slugChar raw).map foldAscii

/-- `validate_login`, which keeps the spelling. -/
def validateLogin (what : String) (raw : List Char) : Except ValidationError (List Char) :=
  checkName what 39 loginChar raw

/-- `Label::new`: the bound is measured after folding. -/
def checkLabel (raw : List Char) : Except ValidationError (List Char) :=
  let trimmed := trim raw
  if trimmed = [] then .error (.empty "a label")
  else
    match trimmed.find? (fun c ↦ c == ',' || isControl c) with
    | some found => .error (.illegalCharacter "a label" found)
    | none =>
      let folded := foldAscii trimmed
      if 256 < folded.length then .error (.tooLong "a label" 256 folded.length)
      else .ok folded

def validateRepoName (raw : List Char) : Except ValidationError (List Char) :=
  let what := "a repository name"
  let trimmed := trim raw
  if trimmed = [] then .error (.empty what)
  else if 100 < byteLen trimmed then .error (.tooLong what 100 (byteLen trimmed))
  else if trimmed = ['.'] ∨ trimmed = ['.', '.'] then
    .error (.unrecognised what (String.ofList trimmed))
  else
    match trimmed.find? (fun c ↦ !repoChar c) with
    | some found => .error (.illegalCharacter what found)
    | none => .ok trimmed

/-! ## Every validator accepts its own output -/

/-- What `checkName` promises of the text it returns. -/
structure IsName (max : Nat) (allowed : Char → Bool) (text : List Char) : Prop where
  trimmed : trim text = text
  nonempty : text ≠ []
  bounded : byteLen text ≤ max
  characters : ∀ c ∈ text, allowed c = true
  first : text.head? ≠ some '-'
  last : text.getLast? ≠ some '-'

section

variable {what : String} {max : Nat} {allowed : Char → Bool} {raw text : List Char}

theorem check_name_iff : checkName what max allowed raw = .ok text ↔
    text = trim raw ∧ IsName max allowed text := by
  constructor
  · intro h
    simp only [checkName] at h
    cases hfind : (trim raw).find? (fun c ↦ !allowed c) with
    | some found =>
      rw [hfind] at h
      split_ifs at h
    | none =>
      rw [hfind] at h
      split_ifs at h with hempty hlong hedge
      cases h
      rw [not_or] at hedge
      refine ⟨rfl, trim_trim raw, hempty, by omega, fun c hc ↦ ?_, hedge.1, hedge.2⟩
      simpa using List.find?_eq_none.mp hfind c hc
  · rintro ⟨rfl, hname⟩
    have hfind : (trim raw).find? (fun c ↦ !allowed c) = none := by
      rw [List.find?_eq_none]
      intro c hc
      simp [hname.characters c hc]
    simp [checkName, hname.nonempty, hfind, hname.first, hname.last,
      Nat.not_lt.mpr hname.bounded]

theorem check_name_self (h : IsName max allowed text) :
    checkName what max allowed text = .ok text := by
  rw [check_name_iff]
  exact ⟨h.trimmed.symm, h⟩

end

/-- What folding keeps of an ASCII character: its size, and each class that a check asks about. -/
theorem toLower_ascii {c : Char} (hc : c.toNat < 128) :
    c.toLower.utf8Size = c.utf8Size ∧ (c.toLower = '-' ↔ c = '-') ∧
      (slugChar c = true → slugChar c.toLower = true) ∧
      (c.toLower == ',' || isControl c.toLower) = (c == ',' || isControl c) :=
  ascii_induction (P := fun c ↦ c.toLower.utf8Size = c.utf8Size ∧ (c.toLower = '-' ↔ c = '-') ∧
    (slugChar c = true → slugChar c.toLower = true) ∧
    (c.toLower == ',' || isControl c.toLower) = (c == ',' || isControl c)) (by decide) hc

theorem byteLen_foldAscii (cs : List Char) : byteLen (foldAscii cs) = byteLen cs := by
  have hsize (c : Char) : c.toLower.utf8Size = c.utf8Size := by
    by_cases hc : c.toNat < 128
    · exact (toLower_ascii hc).1
    · rw [toLower_eq_self hc]
  simp [byteLen, foldAscii, Function.comp_def, hsize]

theorem toLower_eq_dash (c : Char) : c.toLower = '-' ↔ c = '-' := by
  by_cases hc : c.toNat < 128
  · exact (toLower_ascii hc).2.1
  · rw [toLower_eq_self hc]

theorem slugChar_toLower {c : Char} (h : slugChar c = true) : slugChar c.toLower = true := by
  by_cases hc : c.toNat < 128
  · exact (toLower_ascii hc).2.2.1 h
  · rwa [toLower_eq_self hc]

theorem IsName.foldAscii {max : Nat} {text : List Char} (h : IsName max slugChar text) :
    IsName max slugChar (foldAscii text) where
  trimmed := by rw [trim_foldAscii, h.trimmed]
  nonempty := by simpa [Text.foldAscii] using h.nonempty
  bounded := by
    rw [byteLen_foldAscii]
    exact h.bounded
  characters := by
    intro c hc
    obtain ⟨d, hd, rfl⟩ := List.mem_map.mp hc
    exact slugChar_toLower (h.characters d hd)
  first := by
    have hfirst := h.first
    simpa [Text.foldAscii, List.head?_map, toLower_eq_dash] using hfirst
  last := by
    have hlast := h.last
    simpa [Text.foldAscii, List.getLast?_map, toLower_eq_dash] using hlast

theorem check_slug_idem {what : String} {raw text : List Char}
    (h : (checkName what 64 slugChar raw).map foldAscii = .ok text) :
    (checkName what 64 slugChar text).map foldAscii = .ok text := by
  cases hcheck : checkName what 64 slugChar raw with
  | error e => simp [hcheck, Except.map] at h
  | ok trimmed =>
    have htext : foldAscii trimmed = text := by simpa [hcheck, Except.map] using h
    rw [check_name_iff] at hcheck
    have hname := hcheck.2.foldAscii
    rw [htext] at hname
    rw [check_name_self hname, Except.map, ← htext, foldAscii_foldAscii]

theorem label_char_toLower (c : Char) :
    (c.toLower == ',' || isControl c.toLower) = (c == ',' || isControl c) := by
  by_cases hc : c.toNat < 128
  · exact (toLower_ascii hc).2.2.2
  · rw [toLower_eq_self hc]

theorem check_label_idem {raw text : List Char} (h : checkLabel raw = .ok text) :
    checkLabel text = .ok text := by
  simp only [checkLabel] at h
  cases hfind : (trim raw).find? (fun c ↦ c == ',' || isControl c) with
  | some found =>
    rw [hfind] at h
    split_ifs at h
  | none =>
    rw [hfind] at h
    split_ifs at h with hempty hlong
    cases h
    have hne : foldAscii (trim raw) ≠ [] := by simpa [foldAscii] using hempty
    have hfold : (foldAscii (trim raw)).find? (fun c ↦ c == ',' || isControl c) = none := by
      rw [List.find?_eq_none] at hfind ⊢
      intro c hc
      obtain ⟨d, hd, rfl⟩ := List.mem_map.mp hc
      rw [label_char_toLower]
      exact hfind d hd
    simp only [checkLabel, trim_foldAscii, trim_trim, if_neg hne, hfold, foldAscii_foldAscii,
      if_neg hlong]

theorem validate_repo_name_idem {raw text : List Char} (h : validateRepoName raw = .ok text) :
    validateRepoName text = .ok text := by
  have htext : text = trim raw := by
    unfold validateRepoName at h
    simp only at h
    split_ifs at h
    split at h
    · cases h
    · cases h
      rfl
  subst htext
  have hsame : validateRepoName (trim raw) = validateRepoName raw := by
    simp only [validateRepoName, trim_trim]
  rw [hsame, h]

/-! ## Labels, targets and the host -/

abbrev Label := Canonical checkLabel

/-- The operator's half of a routing label. -/
abbrev HostLabel := Canonical checkHostLabel

/-- A case-insensitive profile identity. -/
abbrev ProfileName := Canonical checkProfileName

def Label.new (raw : String) : Except ValidationError Label :=
  Canonical.new check_label_idem raw

def HostLabel.new (raw : String) : Except ValidationError HostLabel :=
  Canonical.new check_slug_idem raw

namespace ProfileName

def new (raw : String) : Except ValidationError ProfileName :=
  Canonical.new check_slug_idem raw

/-- The profile a policy has when none is named. -/
def default : ProfileName := ⟨"default", by decide⟩

def isDefault (profile : ProfileName) : Bool :=
  profile.text == "default"

end ProfileName

/-- Which scope a target has. -/
inductive TargetScope where
  | repository
  | organization
deriving DecidableEq

/-- One repository. -/
structure OwnerRepo where
  owner : Canonical (validateLogin "a repository owner")
  repo : Canonical validateRepoName
deriving DecidableEq

abbrev Org := Canonical (validateLogin "an organization login")

/-- What one policy scales for. -/
inductive ScaleTarget where
  | repository (value : OwnerRepo)
  | organization (value : Org)
deriving DecidableEq

theorem validate_login_idem {what : String} {raw text : List Char}
    (h : validateLogin what raw = .ok text) : validateLogin what text = .ok text :=
  check_name_self (check_name_iff.mp h).2

namespace OwnerRepo

def new (owner repo : String) : Except ValidationError OwnerRepo := do
  let owner ← Canonical.new validate_login_idem owner
  let repo ← Canonical.new validate_repo_name_idem repo
  return { owner, repo }

/-- `OwnerRepo::parse`: exactly one `owner/repo` pair. -/
def parse (raw : String) : Except ValidationError OwnerRepo :=
  let trimmed := trim raw.toList
  let slashes := trimmed.count '/'
  if slashes ≠ 1 then .error (.malformedOwnerRepo (String.ofList trimmed) slashes)
  else new (String.ofList (trimmed.takeWhile (· != '/')))
    (String.ofList ((trimmed.dropWhile (· != '/')).drop 1))

/-- The repository as an operator would type it. -/
def slug (value : OwnerRepo) : String :=
  value.owner.text ++ "/" ++ value.repo.text

theorem repo_characters {raw text : List Char} (h : validateRepoName raw = .ok text) :
    ∀ c ∈ text, repoChar c = true := by
  simp only [validateRepoName] at h
  cases hfind : (trim raw).find? (fun c ↦ !repoChar c) with
  | some found =>
    rw [hfind] at h
    split_ifs at h
  | none =>
    rw [hfind] at h
    split_ifs at h
    cases h
    intro c hc
    simpa using List.find?_eq_none.mp hfind c hc

theorem repoChar_visible {c : Char} (h : repoChar c = true) :
    isWhitespace c = false ∧ c ≠ '/' :=
  ascii_induction (P := fun c ↦ repoChar c = true → isWhitespace c = false ∧ c ≠ '/')
    (by decide) (repoChar_ascii h) h

/-- A repository is read back from its slug. -/
theorem parse_slug (value : OwnerRepo) : parse value.slug = .ok value := by
  have howner : ∀ c ∈ value.owner.text.toList, repoChar c = true := by
    intro c hc
    have hlogin := (check_name_iff.mp value.owner.canonical).2.characters c hc
    simp only [loginChar, Bool.or_eq_true] at hlogin
    simp only [repoChar, Bool.or_eq_true]
    tauto
  have hrepo := repo_characters value.repo.canonical
  have hslug : value.slug.toList = value.owner.text.toList ++ '/' :: value.repo.text.toList := by
    simp [slug]
  have htrim : trim value.slug.toList = value.slug.toList := by
    refine trim_eq_self fun c hc ↦ ?_
    rw [hslug, List.mem_append, List.mem_cons] at hc
    obtain hc | rfl | hc := hc
    · exact (repoChar_visible (howner c hc)).1
    · decide
    · exact (repoChar_visible (hrepo c hc)).1
  have hfree : ∀ {cs : List Char}, (∀ c ∈ cs, repoChar c = true) → '/' ∉ cs :=
    fun hcs hmem ↦ (repoChar_visible (hcs _ hmem)).2 rfl
  have htake : value.slug.toList.takeWhile (· != '/') = value.owner.text.toList := by
    rw [hslug, List.takeWhile_append_of_pos, List.takeWhile_cons_of_neg (by simp), List.append_nil]
    exact fun c hc ↦ by simpa using (repoChar_visible (howner c hc)).2
  have hdrop : value.slug.toList.dropWhile (· != '/') = '/' :: value.repo.text.toList := by
    rw [hslug, List.dropWhile_append_of_pos, List.dropWhile_cons_of_neg (by simp)]
    exact fun c hc ↦ by simpa using (repoChar_visible (howner c hc)).2
  have hcount : value.slug.toList.count '/' = 1 := by
    rw [hslug, List.count_append, List.count_cons_self, List.count_eq_zero.mpr (hfree howner),
      List.count_eq_zero.mpr (hfree hrepo)]
  simp [parse, htrim, hcount, htake, hdrop, new, bind, Except.bind, pure, Except.pure]

end OwnerRepo

namespace ScaleTarget

def scope : ScaleTarget → TargetScope
  | repository _ => .repository
  | organization _ => .organization

/-- The target as an operator would type it. -/
def slug : ScaleTarget → String
  | repository value => value.slug
  | organization value => value.text

/-- Rebuild a target from its scope and slug columns. -/
def read (scope : TargetScope) (slug : String) : Except ValidationError ScaleTarget :=
  match scope with
  | .repository => (OwnerRepo.parse slug).map repository
  | .organization => (Canonical.new validate_login_idem slug).map organization

/-- GitHub's comparison: the scopes agree and the names agree up to ASCII case. -/
def same : ScaleTarget → ScaleTarget → Bool
  | repository a, repository b =>
    eqIgnoreAsciiCase a.owner.text b.owner.text && eqIgnoreAsciiCase a.repo.text b.repo.text
  | organization a, organization b => eqIgnoreAsciiCase a.text b.text
  | _, _ => false

theorem read_slug (target : ScaleTarget) : read target.scope target.slug = .ok target := by
  cases target with
  | repository value => simp [read, scope, slug, OwnerRepo.parse_slug, Except.map]
  | organization value => simp [read, scope, slug, Except.map]

end ScaleTarget

/-- Seconds between two refreshes of a target, at least thirty. -/
abbrev RefreshInterval := {secs : Nat // 30 ≤ secs ∧ secs < 2 ^ 16}

theorem thirty_interval : 30 ≤ 30 ∧ 30 < 2 ^ 16 := by decide

theorem sixty_interval : 30 ≤ 60 ∧ 60 < 2 ^ 16 := by decide

/-- `RefreshInterval::from_secs` of a `u16`. -/
def RefreshInterval.fromSecs (secs : Nat) (h : secs < 2 ^ 16) :
    Except ValidationError RefreshInterval :=
  if hfloor : secs < 30 then .error (.belowFloor "refresh interval (seconds)" 30 secs)
  else .ok ⟨secs, Nat.not_lt.mp hfloor, h⟩

/-- One machine running one agent. Its fields are public, so nothing but `Host.new` keeps
the display name trimmed. -/
structure Host where
  id : HostId
  displayName : String
  os : Os
  architecture : Arch
  hostCapacity : NonZeroU16
  serviceStartMode : StartMode
  refreshInterval : RefreshInterval
  runnerRootOverride : Option LocalAbsolutePath
  createdAt : Timestamp
deriving DecidableEq

/-- `Host::new`: a newly registered host has every default. -/
def Host.new (id : HostId) (displayName : String) (os : Os) (architecture : Arch)
    (hostCapacity : NonZeroU16) (createdAt : Timestamp) : Except ValidationError Host :=
  let trimmed := trim displayName.toList
  if trimmed = [] then .error (.empty "a host display name")
  else .ok {
    id
    displayName := String.ofList trimmed
    os
    architecture
    hostCapacity
    serviceStartMode := .boot
    refreshInterval := ⟨60, by decide⟩
    runnerRootOverride := none
    createdAt }

/-! ## Names in canonical form -/

theorem acme_owner : validateLogin "a repository owner" "acme".toList = .ok "acme".toList := by
  decide

theorem octo_owner : validateLogin "a repository owner" "octo".toList = .ok "octo".toList := by
  decide

theorem app_repo : validateRepoName "app".toList = .ok "app".toList := by decide

theorem widgets_repo : validateRepoName "widgets".toList = .ok "widgets".toList := by decide

theorem build_label : checkHostLabel "build".toList = .ok "build".toList := by decide

theorem gpu_profile : checkProfileName "gpu".toList = .ok "gpu".toList := by decide

end RunnerManager.Domain
