import RunnerManager.Platform.CacheNamespace
import RunnerManager.Lib.Table

/-!
# What an operator sets for the caches

`CacheConfig` and `select` of `crates/platform/src/dependency_cache.rs`. A section of `targets` is
accepted when its key reads as a target, and is looked up by the lower case of a target's slug.
Read `PlainKey` first: it is what a key has to be for the two to be one. The TOML library and
`Path::is_absolute` are parameters.
-/

namespace RunnerManager.Platform

open RunnerManager.Text RunnerManager.Domain

/-! ## Tools -/

inductive RunnerPlatform where
  | windows
  | macOs
  | linux
deriving DecidableEq

/-- `Platforms`: everywhere, or everywhere but on Windows. -/
inductive Platforms where
  | all
  | unix
deriving DecidableEq

def Platforms.includes : Platforms → RunnerPlatform → Bool
  | all, _ => true
  | unix, platform => platform ≠ .windows

/-- `CacheTool`, as far as a selection looks at it: where its variables are set. -/
structure CacheTool where
  id : String
  defaultEnabled : Bool
  setOn : List Platforms
deriving DecidableEq

def CacheTool.appliesTo (tool : CacheTool) (platform : RunnerPlatform) : Bool :=
  tool.setOn.any (·.includes platform)

def tools : List CacheTool :=
  [⟨"git", false, [.all]⟩, ⟨"xdg", true, [.unix]⟩, ⟨"tool-cache", true, [.all, .all]⟩,
    ⟨"dotnet", true, [.all]⟩, ⟨"npm", true, [.all]⟩, ⟨"pnpm", true, [.all, .all]⟩,
    ⟨"yarn", true, [.all]⟩, ⟨"bun", true, [.all]⟩, ⟨"deno", true, [.all]⟩,
    ⟨"node-gyp", true, [.all, .all]⟩, ⟨"electron", true, [.all, .all]⟩,
    ⟨"electron-builder", true, [.all]⟩, ⟨"playwright", true, [.all, .all]⟩,
    ⟨"cypress", true, [.all]⟩, ⟨"nuget", true, [.all, .all, .all, .all]⟩, ⟨"pip", true, [.all]⟩,
    ⟨"uv", true, [.all]⟩, ⟨"go", true, [.all, .all]⟩, ⟨"composer", true, [.all]⟩,
    ⟨"cocoapods", true, [.unix]⟩, ⟨"ccache", true, [.all]⟩, ⟨"poetry", false, [.all]⟩,
    ⟨"cargo", false, [.all]⟩, ⟨"gradle", false, [.all]⟩, ⟨"maven", false, [.all]⟩,
    ⟨"pub", false, [.all]⟩, ⟨"bundler", false, [.all]⟩]

def tool (id : String) : Option CacheTool :=
  tools.find? (·.id = id)

/-! ## The configuration -/

/-- A `BTreeMap` with texts as its keys. -/
abbrev TextMap (α : Type) := Table (Prod.fst : String × α → String)

def TextMap.get {α : Type} (map : TextMap α) (key : String) : Option α :=
  (map.find? key).map (·.2)

structure TargetCacheConfig where
  enabled : Option Bool
  sharedName : Option String
  tools : TextMap Bool
deriving DecidableEq

def TargetCacheConfig.isEmpty (config : TargetCacheConfig) : Bool :=
  config.enabled.isNone && config.sharedName.isNone && config.tools.rows.isEmpty

structure CacheConfig where
  enabled : Option Bool
  root : Option String
  maxSizeGib : Option Nat
  tools : TextMap Bool
  targets : TextMap TargetCacheConfig
deriving DecidableEq

/-- `CacheError`, as far as a configuration causes it. -/
inductive CacheError where
  | parse
  | unknownTool (id : String)
  | invalidNamespace (name : String)
  | invalidTarget (key : String)
  | invalidRoot (root : String)
deriving DecidableEq

/-- The `toml` crate, and `Path::is_absolute`. -/
structure CacheLibrary where
  fromToml : String → Option CacheConfig
  toToml : CacheConfig → Option String
  isAbsolute : String → Bool

def targetKey (target : ScaleTarget) : String :=
  asciiLower target.slug

/-- The target a key of `targets` reads as. -/
def readTarget (key : String) : Except ValidationError ScaleTarget :=
  match (OwnerRepo.parse key).map ScaleTarget.repository with
  | .ok target => .ok target
  | .error _ => (Canonical.new validate_login_idem key).map ScaleTarget.organization

namespace CacheConfig

variable (lib : CacheLibrary)

def validateRootText (root : String) : Except CacheError Unit :=
  let network := "\\\\".toList.isPrefixOf root.toList || "//".toList.isPrefixOf root.toList
  if network || root.toList.any isWhitespace || !lib.isAbsolute root then
    .error (.invalidRoot root)
  else .ok ()

/-- An id that `tools` lists. -/
def validateTool (id : String) : Except CacheError Unit :=
  if (tool id).isNone then .error (.unknownTool id) else .ok ()

/-- A section of `targets`. -/
def validateTarget (entry : String × TargetCacheConfig) : Except CacheError Unit := do
  match readTarget entry.1 with
  | .error _ => .error (.invalidTarget entry.1)
  | .ok _ =>
    match entry.2.sharedName with
    | some name => if validateNamespaceName name then .ok () else .error (.invalidNamespace name)
    | none => .ok ()

/-- The configured root, if there is one. -/
def validateRoot : Option String → Except CacheError Unit
  | some root => validateRootText lib root
  | none => .ok ()

def validate (config : CacheConfig) : Except CacheError Unit := do
  validateRoot lib config.root
  (config.tools.rows.map (·.1) ++
    config.targets.rows.flatMap fun entry ↦ entry.2.tools.rows.map (·.1)).forM validateTool
  config.targets.rows.forM validateTarget

def parse (text : String) : Except CacheError CacheConfig :=
  match lib.fromToml text with
  | none => .error .parse
  | some config => do
    validate lib config
    return config

/-- The sections that say something. -/
def retained (config : CacheConfig) : CacheConfig :=
  { config with targets :=
      ⟨config.targets.rows.filter fun entry ↦ !entry.2.isEmpty,
        config.targets.nodup.sublist (List.filter_sublist.map _)⟩ }

/-- The comment that `save` begins with. -/
def header : String :=
  "# Dependency caches for native runners. Edited by `runner-manager host cache`,\n" ++
    "# `repo cache` and `org cache`; see `host cache show`.\n"

/-- `CacheConfig::save`, as the text it writes. -/
def save (config : CacheConfig) : Except CacheError String := do
  validate lib config.retained
  match lib.toToml config.retained with
  | none => .error .parse
  | some text => return header ++ text

def target (config : CacheConfig) (value : ScaleTarget) : Option TargetCacheConfig :=
  config.targets.get (targetKey value)

end CacheConfig

/-! ## Selections -/

/-- `ToolSource`, without what defers to the operator. -/
inductive ToolSource where
  | default
  | host
  | target
deriving DecidableEq

structure ToolState where
  tool : CacheTool
  enabled : Bool
  source : ToolSource
deriving DecidableEq

structure Selection where
  disabled : Option String
  space : Namespace
  tools : List ToolState
deriving DecidableEq

def organizationOptIn : String :=
  "organization policies accept jobs from every repository in the organization, so they get a " ++
    "cache only with `org cache set-enabled ORG --enabled true`"

def isRepository : ScaleTarget → Bool
  | .repository _ => true
  | .organization _ => false

/-- What one tool is for a target with the settings `own`. -/
def toolState (config : CacheConfig) (own : Option TargetCacheConfig) (tool : CacheTool) :
    ToolState :=
  let state : ToolState := ⟨tool, tool.defaultEnabled, .default⟩
  let state := match config.tools.get tool.id with
    | some enabled => { state with enabled, source := .host }
    | none => state
  match own.bind fun own ↦ own.tools.get tool.id with
  | some enabled => { state with enabled, source := .target }
  | none => state

def select (config : CacheConfig) (value : ScaleTarget) (platform : RunnerPlatform) : Selection :=
  let own := config.target value
  let space := match own.bind (·.sharedName) with
    | some name => Namespace.shared name
    | none => .ofTarget value
  let disabled :=
    if !config.enabled.getD true then some "caches are turned off on this host"
    else
      match own.bind (·.enabled), value with
      | some true, _ => none
      | some false, _ => some "caches are turned off for this target"
      | none, .repository _ => none
      | none, .organization _ => some organizationOptIn
  let tools := (tools.filter fun tool ↦
    tool.appliesTo platform && (tool.id ≠ "git" || isRepository value)).map (toolState config own)
  ⟨disabled, space, tools⟩

/-! ## What a configuration is to do -/

/-- A key names a target the way GitHub compares names. -/
def Names (key : String) (value : ScaleTarget) : Prop :=
  ∃ named, readTarget key = .ok named ∧ named.same value = true

/-- A key as `target_key` spells it: in lower case, and without white space. -/
def PlainKey (key : String) : Prop :=
  asciiLower key = key ∧ ∀ c ∈ key.toList, isWhitespace c = false

/-- What is documented of the library: comments are skipped, and what is written is read back. -/
def CacheLibrary.Lawful (lib : CacheLibrary) : Prop :=
  ∀ config text, lib.toToml config = some text →
    lib.fromToml (CacheConfig.header ++ text) = some config

/-- The settings of a configuration reach their targets. -/
structure SettingsReach (lib : CacheLibrary) (config : CacheConfig) : Prop where
  used : ∀ entry ∈ config.targets.rows, ∀ value, Names entry.1 value →
    config.target value = some entry.2
  off : ∀ entry ∈ config.targets.rows, ∀ value platform, Names entry.1 value →
    entry.2.enabled = some false → (select config value platform).disabled.isSome
  applied : ∀ entry ∈ config.targets.rows, ∀ value platform name, Names entry.1 value →
    entry.2.sharedName = some name → (select config value platform).space = .shared name
  one : ∀ a ∈ config.targets.rows, ∀ b ∈ config.targets.rows, ∀ value, Names a.1 value →
    Names b.1 value → a.1 = b.1
  saved : ∀ text, CacheConfig.save lib config = .ok text →
    ∃ loaded, CacheConfig.parse lib text = .ok loaded ∧
      ∀ value platform, select loaded value platform = select config value platform

/-! ### Keys -/

section

variable {key : String} {value other : ScaleTarget}

theorem login_characters {what : String} (login : Canonical (validateLogin what)) :
    ∀ c ∈ login.text.toList, repoChar c = true := by
  intro c hc
  have hchar := (check_name_iff.mp login.canonical).2.characters c hc
  simp only [loginChar, Bool.or_eq_true] at hchar
  simp only [repoChar, Bool.or_eq_true]
  tauto

theorem new_eq_ok {check : List Char → Except ValidationError (List Char)}
    (hidem : ∀ {raw text}, check raw = .ok text → check text = .ok text) {raw : String}
    {result : Canonical check} (h : Canonical.new hidem raw = .ok result) :
    check raw.toList = .ok result.text.toList := by
  unfold Canonical.new at h
  split at h
  · cases h
  · next text hcheck =>
    cases h
    show check raw.toList = .ok (String.ofList text).toList
    rw [String.toList_ofList]
    exact hcheck

theorem repo_text {raw text : List Char} (h : validateRepoName raw = .ok text) :
    text = trim raw := by
  simp only [validateRepoName] at h
  split_ifs at h
  split at h
  · cases h
  · cases h
    rfl

/-- A text without white space that reads as a repository is its slug. -/
theorem slug_of_parse {repository : OwnerRepo} (hplain : ∀ c ∈ key.toList, isWhitespace c = false)
    (h : OwnerRepo.parse key = .ok repository) : repository.slug = key := by
  have htrim : trim key.toList = key.toList := trim_eq_self hplain
  unfold OwnerRepo.parse at h
  simp only [htrim] at h
  split_ifs at h with hslashes
  unfold OwnerRepo.new at h
  obtain ⟨owner, howner, h⟩ := Result.bind_eq_ok.mp h
  obtain ⟨repo, hrepo, h⟩ := Result.bind_eq_ok.mp h
  cases h
  have hfirst := (check_name_iff.mp (new_eq_ok _ howner)).1
  have hsecond := repo_text (new_eq_ok _ hrepo)
  rw [String.toList_ofList, trim_eq_self fun c hc ↦
    hplain c ((List.takeWhile_prefix _).subset hc)] at hfirst
  rw [String.toList_ofList, trim_eq_self fun c hc ↦
    hplain c ((List.dropWhile_suffix _).subset (List.mem_of_mem_drop hc))] at hsecond
  have hsplit : key.toList.takeWhile (· != '/') ++ key.toList.dropWhile (· != '/') = key.toList :=
    List.takeWhile_append_dropWhile
  refine String.toList_inj.mp ?_
  have hslug : (OwnerRepo.slug ⟨owner, repo⟩).toList =
      owner.text.toList ++ '/' :: repo.text.toList := by
    simp [OwnerRepo.slug]
  rw [hslug, hfirst, hsecond]
  cases hrest : key.toList.dropWhile (· != '/') with
  | nil =>
    have hnone := List.dropWhile_eq_nil_iff.mp hrest
    have hcount : key.toList.count '/' = 0 :=
      List.count_eq_zero.mpr fun hmem ↦ by simpa using hnone '/' hmem
    omega
  | cons c rest =>
    have hc : c = '/' := by
      have hhead := List.head?_dropWhile_not (· != '/') key.toList
      rw [hrest] at hhead
      simpa using hhead
    rw [hrest, hc] at hsplit
    exact hsplit

theorem slug_of_read (hplain : ∀ c ∈ key.toList, isWhitespace c = false)
    (h : readTarget key = .ok value) : value.slug = key := by
  unfold readTarget at h
  cases hparse : OwnerRepo.parse key with
  | ok repository =>
    rw [hparse] at h
    cases h
    exact slug_of_parse hplain hparse
  | error e =>
    rw [hparse] at h
    obtain ⟨org, horg, rfl⟩ := Result.map_eq_ok.mp h
    have htext := (check_name_iff.mp (new_eq_ok _ horg)).1
    rw [trim_eq_self hplain] at htext
    exact String.toList_inj.mp htext

theorem slug_visible (value : ScaleTarget) : ∀ c ∈ value.slug.toList, isWhitespace c = false := by
  cases value with
  | repository value =>
    intro c hc
    have hslug : (ScaleTarget.repository value).slug.toList =
        value.owner.text.toList ++ '/' :: value.repo.text.toList := by
      simp [ScaleTarget.slug, OwnerRepo.slug]
    rw [hslug, List.mem_append, List.mem_cons] at hc
    rcases hc with hc | rfl | hc
    · exact (OwnerRepo.repoChar_visible (login_characters value.owner c hc)).1
    · decide
    · exact (OwnerRepo.repoChar_visible (OwnerRepo.repo_characters value.repo.canonical c hc)).1
  | organization org =>
    exact fun c hc ↦ (OwnerRepo.repoChar_visible (login_characters org c hc)).1

theorem toList_asciiLower (text : String) : (asciiLower text).toList = foldAscii text.toList :=
  String.toList_ofList

theorem targetKey_plain (value : ScaleTarget) : PlainKey (targetKey value) := by
  constructor
  · refine String.toList_inj.mp ?_
    unfold targetKey
    rw [toList_asciiLower, toList_asciiLower, foldAscii_foldAscii]
  · intro c hc
    unfold targetKey at hc
    rw [toList_asciiLower] at hc
    obtain ⟨original, horiginal, rfl⟩ := List.mem_map.mp hc
    rw [isWhitespace_toLower]
    exact slug_visible value original horiginal

theorem slash_not_mem {name : String} (h : ∀ c ∈ name.toList, repoChar c = true) :
    '/' ∉ foldAscii name.toList := by
  intro hmem
  obtain ⟨c, hc, hslash⟩ := List.mem_map.mp hmem
  have hchar := h c hc
  exact ascii_induction (P := fun c ↦ repoChar c = true → c.toLower ≠ '/') (by decide)
    (repoChar_ascii hchar) hchar hslash

theorem toList_targetKey_repository (value : OwnerRepo) :
    (targetKey (.repository value)).toList =
      foldAscii value.owner.text.toList ++ '/' :: foldAscii value.repo.text.toList := by
  unfold targetKey
  rw [toList_asciiLower]
  simp [ScaleTarget.slug, OwnerRepo.slug, foldAscii]

theorem repository_key_ne (value : OwnerRepo) (org : Org) :
    targetKey (.repository value) ≠ targetKey (.organization org) := by
  intro h
  have hlists := congrArg String.toList h
  rw [toList_targetKey_repository] at hlists
  have horg : (targetKey (.organization org)).toList = foldAscii org.text.toList :=
    toList_asciiLower _
  rw [horg] at hlists
  exact slash_not_mem (login_characters org) (hlists ▸ by simp)

theorem same_iff_key : value.same other = true ↔ targetKey value = targetKey other := by
  cases value with
  | repository value =>
    cases other with
    | repository other =>
      rw [← String.toList_inj, toList_targetKey_repository, toList_targetKey_repository]
      simp only [ScaleTarget.same, eqIgnoreAsciiCase, Bool.and_eq_true, beq_iff_eq]
      rw [List.append_cons_inj_of_notMem (slash_not_mem (login_characters value.owner))
        (slash_not_mem (OwnerRepo.repo_characters value.repo.canonical))]
      simp
    | organization org => exact iff_of_false (fun h ↦ nomatch h) (repository_key_ne value org)
  | organization org =>
    cases other with
    | repository other =>
      exact iff_of_false (fun h ↦ nomatch h) (repository_key_ne other org).symm
    | organization other =>
      rw [← String.toList_inj]
      simp [ScaleTarget.same, eqIgnoreAsciiCase, targetKey, ScaleTarget.slug,
        toList_asciiLower]

theorem names_iff_of_plain (hplain : PlainKey key) {named : ScaleTarget}
    (h : readTarget key = .ok named) : Names key value ↔ key = targetKey value := by
  have hkey : targetKey named = key := by
    unfold targetKey
    rw [slug_of_read hplain.2 h, hplain.1]
  constructor
  · rintro ⟨found, hfound, hsame⟩
    rw [h] at hfound
    cases hfound
    rw [← hkey]
    exact same_iff_key.mp hsame
  · intro heq
    exact ⟨named, h, same_iff_key.mpr (hkey.trans heq)⟩

end

/-! ### Selections -/

section

variable {lib : CacheLibrary} {config : CacheConfig} {value : ScaleTarget}

theorem read_of_validate (h : CacheConfig.validate lib config = .ok ())
    {entry : String × TargetCacheConfig} (hentry : entry ∈ config.targets.rows) :
    ∃ named, readTarget entry.1 = .ok named := by
  unfold CacheConfig.validate at h
  obtain ⟨-, -, h⟩ := Result.bind_eq_ok.mp h
  obtain ⟨-, -, h⟩ := Result.bind_eq_ok.mp h
  have hsection := Result.forM_eq_ok.mp h entry hentry
  unfold CacheConfig.validateTarget at hsection
  cases hread : readTarget entry.1 with
  | ok named => exact ⟨named, rfl⟩
  | error e =>
    rw [hread] at hsection
    cases hsection

theorem validate_retained (h : CacheConfig.validate lib config = .ok ()) :
    CacheConfig.validate lib config.retained = .ok () := by
  unfold CacheConfig.validate at h ⊢
  obtain ⟨_, hroot, h⟩ := Result.bind_eq_ok.mp h
  obtain ⟨_, htools, h⟩ := Result.bind_eq_ok.mp h
  refine Result.bind_eq_ok.mpr ⟨(), hroot, Result.bind_eq_ok.mpr ⟨(), ?_, ?_⟩⟩
  · refine Result.forM_eq_ok.mpr fun id hid ↦ Result.forM_eq_ok.mp htools id ?_
    rw [List.mem_append] at hid ⊢
    refine hid.imp_right fun hmem ↦ ?_
    obtain ⟨entry, hentry, hid⟩ := List.mem_flatMap.mp hmem
    exact List.mem_flatMap.mpr ⟨entry, List.mem_of_mem_filter hentry, hid⟩
  · exact Result.forM_eq_ok.mpr fun entry hentry ↦
      Result.forM_eq_ok.mp h entry (List.mem_of_mem_filter hentry)

theorem target_retained (config : CacheConfig) (value : ScaleTarget) :
    config.retained.target value = (config.target value).filter fun own ↦ !own.isEmpty := by
  unfold CacheConfig.target TextMap.get
  cases hfind : config.targets.find? (targetKey value) with
  | none =>
    have hnone : config.retained.targets.find? (targetKey value) = none := by
      rw [Table.find?_eq_none_iff] at hfind ⊢
      exact fun entry hentry ↦ hfind entry (List.mem_of_mem_filter hentry)
    rw [hnone]
    rfl
  | some entry =>
    obtain ⟨hentry, hkey⟩ := Table.find?_eq_some_iff.mp hfind
    by_cases hempty : entry.2.isEmpty = true
    · have hnone : config.retained.targets.find? (targetKey value) = none := by
        rw [Table.find?_eq_none_iff]
        intro other hother hsame
        obtain ⟨hmem, hfull⟩ := List.mem_filter.mp hother
        rw [config.targets.eq_of_key hmem hentry (hsame.trans hkey.symm), hempty] at hfull
        cases hfull
      rw [hnone]
      simp [Option.filter, hempty]
    · have hsome : config.retained.targets.find? (targetKey value) = some entry :=
        Table.find?_eq_some_iff.mpr ⟨List.mem_filter.mpr ⟨hentry, by simpa using hempty⟩, hkey⟩
      rw [hsome]
      simp [Option.filter, hempty]

theorem bind_filter_empty {α : Type} {own : Option TargetCacheConfig}
    {f : TargetCacheConfig → Option α} (hf : ∀ config, config.isEmpty = true → f config = none) :
    (own.filter fun own ↦ !own.isEmpty).bind f = own.bind f := by
  cases own with
  | none => rfl
  | some config =>
    by_cases hempty : config.isEmpty = true
    · simp [Option.filter, hempty, hf config hempty]
    · simp [Option.filter, hempty]

theorem isEmpty_iff {own : TargetCacheConfig} : own.isEmpty = true ↔
    own.enabled = none ∧ own.sharedName = none ∧ own.tools.rows = [] := by
  simp [TargetCacheConfig.isEmpty, and_assoc]

theorem select_retained (config : CacheConfig) (value : ScaleTarget) (platform : RunnerPlatform) :
    select config.retained value platform = select config value platform := by
  have hname : (config.retained.target value).bind (·.sharedName) =
      (config.target value).bind (·.sharedName) := by
    rw [target_retained, bind_filter_empty fun own h ↦ (isEmpty_iff.mp h).2.1]
  have henabled : (config.retained.target value).bind (·.enabled) =
      (config.target value).bind (·.enabled) := by
    rw [target_retained, bind_filter_empty fun own h ↦ (isEmpty_iff.mp h).1]
  have htool (tool : CacheTool) : toolState config.retained (config.retained.target value) tool =
      toolState config (config.target value) tool := by
    unfold toolState
    rw [target_retained, bind_filter_empty fun own h ↦ ?_]
    · rfl
    · unfold TextMap.get Table.find?
      rw [(isEmpty_iff.mp h).2.2]
      rfl
  unfold select
  dsimp only
  rw [hname, henabled, funext htool]
  rfl

theorem saved_of_parse (hlaw : lib.Lawful) (h : CacheConfig.validate lib config = .ok ())
    {text : String} (hsave : CacheConfig.save lib config = .ok text) :
    ∃ loaded, CacheConfig.parse lib text = .ok loaded ∧
      ∀ value platform, select loaded value platform = select config value platform := by
  have hvalid := validate_retained h
  unfold CacheConfig.save at hsave
  obtain ⟨_, -, hsave⟩ := Result.bind_eq_ok.mp hsave
  cases hwritten : lib.toToml config.retained with
  | none =>
    rw [hwritten] at hsave
    cases hsave
  | some written =>
    rw [hwritten] at hsave
    cases hsave
    refine ⟨config.retained, ?_, select_retained config⟩
    unfold CacheConfig.parse
    rw [hlaw _ _ hwritten]
    exact Result.bind_eq_ok.mpr ⟨(), hvalid, rfl⟩

end

/-- The settings of an accepted configuration reach their targets if and only if every key is in
lower case and without white space. -/
theorem settings_reach_iff {lib : CacheLibrary} {config : CacheConfig} {text : String}
    (hlaw : lib.Lawful) (hparse : CacheConfig.parse lib text = .ok config) :
    SettingsReach lib config ↔ ∀ entry ∈ config.targets.rows, PlainKey entry.1 := by
  have hvalid : CacheConfig.validate lib config = .ok () := by
    unfold CacheConfig.parse at hparse
    cases hread : lib.fromToml text with
    | none =>
      rw [hread] at hparse
      cases hparse
    | some found =>
      rw [hread] at hparse
      obtain ⟨_, hvalid, hsame⟩ := Result.bind_eq_ok.mp hparse
      cases hsame
      exact hvalid
  constructor
  · intro hreach entry hentry
    obtain ⟨named, hnamed⟩ := read_of_validate hvalid hentry
    have hself : Names entry.1 named := ⟨named, hnamed, same_iff_key.mpr rfl⟩
    -- the settings that are used stand under the plain key
    have hused := hreach.used entry hentry named hself
    unfold CacheConfig.target TextMap.get at hused
    obtain ⟨other, hfind, -⟩ := Option.map_eq_some_iff.mp hused
    obtain ⟨hother, hkey⟩ := Table.find?_eq_some_iff.mp hfind
    obtain ⟨found, hfound⟩ := read_of_validate hvalid hother
    have hplain : PlainKey other.1 := hkey ▸ targetKey_plain named
    have hnames : Names other.1 named := (names_iff_of_plain hplain hfound).mpr hkey
    rw [hreach.one entry hentry other hother named hself hnames]
    exact hplain
  · intro hplain
    have hnames {entry : String × TargetCacheConfig} (hentry : entry ∈ config.targets.rows)
        {value : ScaleTarget} (h : Names entry.1 value) : entry.1 = targetKey value := by
      obtain ⟨named, hnamed⟩ := read_of_validate hvalid hentry
      exact (names_iff_of_plain (hplain entry hentry) hnamed).mp h
    have hused (entry : String × TargetCacheConfig) (hentry : entry ∈ config.targets.rows)
        (value : ScaleTarget) (h : Names entry.1 value) : config.target value = some entry.2 := by
      unfold CacheConfig.target TextMap.get
      rw [Table.find?_eq_some_iff.mpr ⟨hentry, hnames hentry h⟩]
      rfl
    refine ⟨hused, ?_, ?_, ?_, fun text hsave ↦ saved_of_parse hlaw hvalid hsave⟩
    · intro entry hentry value platform hnamed hoff
      unfold select
      dsimp only
      rw [hused entry hentry value hnamed, Option.bind_some, hoff]
      cases config.enabled.getD true <;> rfl
    · intro entry hentry value platform name hnamed hname
      unfold select
      dsimp only
      rw [hused entry hentry value hnamed, Option.bind_some, hname]
    · intro a ha b hb value hfirst hsecond
      rw [hnames ha hfirst, hnames hb hsecond]

/-! ## One section, in two spellings -/

/-- A configuration that turns the caches of one target off. -/
def optOut (key : String) : CacheConfig where
  enabled := none
  root := none
  maxSizeGib := none
  tools := .empty
  targets := ⟨[(key, ⟨some false, none, .empty⟩)], by simp⟩

def optOutText (key : String) : String :=
  "[targets.\"" ++ key ++ "\"]\nenabled = false\n"

def readOptOut (header key text : String) : Option CacheConfig :=
  if text = optOutText key ∨ text = header ++ optOutText key then some (optOut key) else none

/-- A library that knows one section in two spellings. -/
def optOutLibrary : CacheLibrary where
  fromToml text :=
    (readOptOut CacheConfig.header "octo/widgets" text).or
      (readOptOut CacheConfig.header "Octo/Widgets" text)
  toToml config :=
    if config = optOut "octo/widgets" then some (optOutText "octo/widgets")
    else if config = optOut "Octo/Widgets" then some (optOutText "Octo/Widgets")
    else none
  isAbsolute root := root.startsWith "/"

theorem readOptOut_header (header key : String) :
    readOptOut header key (header ++ optOutText key) = some (optOut key) :=
  if_pos (Or.inr rfl)

theorem optOutText_head (key : String) : (optOutText key).toList.head? = some '[' := by
  simp [optOutText]

theorem readOptOut_other {header first second : String} (hhead : header.toList.head? = some '#')
    (h : optOutText second ≠ optOutText first) :
    readOptOut header first (header ++ optOutText second) = none := by
  refine if_neg ?_
  rintro (hsame | hsame)
  · -- a header begins with another character than a section
    have hfirst := optOutText_head first
    rw [← hsame, String.toList_append, List.head?_append, hhead] at hfirst
    cases hfirst
  · exact h (String.append_right_inj _ |>.mp hsame)

theorem header_head : CacheConfig.header.toList.head? = some '#' := by
  unfold CacheConfig.header
  rw [String.toList_append, String.toList_ofList]
  rfl

theorem optOutLibrary_lawful : optOutLibrary.Lawful := by
  have htexts : optOutText "Octo/Widgets" ≠ optOutText "octo/widgets" := by
    intro hsame
    have hkeys := (String.append_right_inj _).mp ((String.append_left_inj _).mp hsame)
    revert hkeys
    decide
  intro config text h
  simp only [optOutLibrary] at h ⊢
  split_ifs at h with hfirst hsecond
  · cases h
    rw [hfirst, readOptOut_header, Option.some_or]
  · cases h
    rw [hsecond, readOptOut_other header_head htexts, readOptOut_header, Option.none_or]

def octoWidgetsTarget : ScaleTarget :=
  .repository ⟨⟨"octo", octo_owner⟩, ⟨"widgets", widgets_repo⟩⟩

/-- A section in lower case is the one that is used. -/
theorem plain_section_used : SettingsReach optOutLibrary (optOut "octo/widgets") := by
  have hparse : CacheConfig.parse optOutLibrary (optOutText "octo/widgets") =
      .ok (optOut "octo/widgets") := by rfl
  refine (settings_reach_iff optOutLibrary_lawful hparse).mpr fun entry hentry ↦ ?_
  obtain rfl := List.mem_singleton.mp hentry
  exact ⟨by decide, by decide⟩

/-- A section in another spelling is accepted, and names the repository, whose caches stay on. -/
theorem spelled_section_ignored :
    CacheConfig.parse optOutLibrary (optOutText "Octo/Widgets") = .ok (optOut "Octo/Widgets") ∧
      Names "Octo/Widgets" octoWidgetsTarget ∧
      (select (optOut "Octo/Widgets") octoWidgetsTarget .linux).disabled = none ∧
      ¬ SettingsReach optOutLibrary (optOut "Octo/Widgets") := by
  have hnames : Names "Octo/Widgets" octoWidgetsTarget :=
    ⟨.repository ⟨⟨"Octo", by decide⟩, ⟨"Widgets", by decide⟩⟩, by rfl, by decide⟩
  have hon : (select (optOut "Octo/Widgets") octoWidgetsTarget .linux).disabled = none := by rfl
  refine ⟨by rfl, hnames, hon, fun hreach ↦ ?_⟩
  have hoff := hreach.off _ (List.mem_singleton_self _) octoWidgetsTarget .linux hnames rfl
  rw [hon] at hoff
  cases hoff

end RunnerManager.Platform
