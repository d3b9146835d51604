import RunnerManager.Domain.Path
import RunnerManager.Lib.Result
import Mathlib.Data.List.Basic
import Mathlib.Order.Compare

/-!
# Runner roots

`crates/platform/src/runner_root.rs`: how two roots lie to one another, and the preflight a
configured root has to pass. Read `overlapOf` and `RootPreflight.check` first. `check_disjoint`
is what the preflight promises: an accepted root is apart from every registered root of
another owner.

The filesystem is a record of answers; nothing is assumed about them. `char::to_lowercase` maps
one character to several, so the fold of Windows names is a parameter too.
-/

namespace RunnerManager.Platform

open RunnerManager.Domain RunnerManager.Result

/-! ## Owners -/

/-- Which setting a root came from. -/
inductive RootOwner where
  | host
  | repository (slug : String)
  | dependencyCache
deriving DecidableEq

namespace RootOwner

/-- The command that changes this root. -/
def remediation : RootOwner → String
  | host => "runner-manager host set-runtime-root --path <PATH>"
  | repository slug =>
    "runner-manager repo set-workspace " ++ slug ++ " --mode persistent --path <PATH>"
  | dependencyCache => "runner-manager host cache set-root --path <PATH>"

/-- `RootOwner::fmt`. -/
def display : RootOwner → String
  | host => "the host runner root"
  | repository slug => "the persistent workspace root for " ++ slug
  | dependencyCache => "the dependency-cache root"

end RootOwner

/-! ## Overlap -/

/-- How two paths sit relative to one another. -/
inductive Overlap where
  | disjoint
  | same
  | inside
  | contains
deriving DecidableEq

/-- The components an overlap test compares; a drive is an ordinary first component. -/
def componentsOf (path : String) (platform : PathPlatform) : List (List Char) :=
  (path.toList.splitOnP platform.isSeparator).filter fun component ↦
    component ≠ [] && component ≠ ['.']

section Overlap

variable (toLowercase : Char → List Char)

/-- Whether two components name one directory; only Windows folds case. -/
def sameComponent (left right : List Char) : PathPlatform → Bool
  | .windows => left.flatMap toLowercase = right.flatMap toLowercase
  | .unix => left = right

/-- The relation of two component lists. -/
def relationOf (left right : List (List Char)) (platform : PathPlatform) : Overlap :=
  let shared := ((left.zip right).takeWhile fun pair ↦
    sameComponent toLowercase pair.1 pair.2 platform).length
  if shared < min left.length right.length then .disjoint
  else
    match compare left.length right.length with
    | .eq => .same
    | .gt => .inside
    | .lt => .contains

def overlapOf (candidate other : String) (platform : PathPlatform) : Overlap :=
  relationOf toLowercase (componentsOf candidate platform) (componentsOf other platform) platform

end Overlap

/-! ## The filesystem -/

/-- The kinds of I/O failure the walk tells apart. -/
inductive IoError where
  | notFound
  | notADirectory
  | other (detail : String)
deriving DecidableEq

def IoError.meansAbsent : IoError → Bool
  | notFound | notADirectory => true
  | other _ => false

/-- What `symlink_metadata` says an entry is. -/
inductive FileType where
  | directory
  | file
  | symlink
deriving DecidableEq

/-- Whether a volume is proved to be on this machine. -/
inductive Locality where
  | isLocal
  | remote
  | unprovable
deriving DecidableEq

/-- What the host proved about a volume. -/
structure FilesystemIdentity where
  name : String
  locality : Locality
deriving DecidableEq

/-- Everything a change of roots asks the operating system. -/
structure Filesystem where
  symlinkMetadata : String → Except IoError FileType
  canonicalize : String → Except IoError String
  isDir : String → Bool
  identify : String → Except IoError FilesystemIdentity
  isWritable : String → Except IoError Bool
  createDir : String → Except IoError Unit
  runsAsSuperuser : Bool
  isOnPrivacyGatedVolume : String → Bool
  isReadOnly : String → Bool

/-- Why a root cannot be used. -/
inductive RunnerRootError where
  | systemDirectoryUnavailable (source : IoError)
  | systemDirectoryUnusable (got : String) (source : LocalPathError)
  | applicationRuntimeDirectoryUnusable (got : String) (source : LocalPathError)
  | foreignPlatform (got : String) (platform : PathPlatform)
  | inspect (path : String) (source : IoError)
  | existingFile (path : String)
  | symlinked (path : String)
  | missingParents (path deepestExisting : String)
  | parentIsNotADirectory (parent : String)
  | notWritable (path remediation : String)
  | deniedByPrivacyPolicy (requested refused remediation : String)
  | parentNotWritable (parent leaf remediation : String)
  | remoteFilesystem (path filesystem : String)
  | unprovableFilesystem (path filesystem : String)
  | resolvesToFilesystemRoot (path canonical : String)
  | overlaps (candidate : String) (relation : Overlap) (other otherOwner detail : String)
  | escapes (root child resolved : String)
deriving DecidableEq

/-! ## Canonical projection -/

/-- The root of a path as text, empty for a relative one, and its components. -/
def splitPath (platform : PathPlatform) (path : String) : List Char × List (List Char) :=
  match pathPrefix platform path.toList with
  | .ok (root, rest) => (root, componentsOf (String.ofList rest) platform)
  | .error _ => ([], componentsOf path platform)

/-- A root and components as text. -/
def joinPath (platform : PathPlatform) (root : List Char) (components : List (List Char)) :
    String :=
  String.ofList (root ++ [platform.separator].intercalate components)

/-- `PathBuf::push` of one component. -/
def push (platform : PathPlatform) (path : String) (component : List Char) : String :=
  if path.toList.getLast?.any platform.isSeparator then path ++ String.ofList component
  else path ++ String.singleton platform.separator ++ String.ofList component

/-- A path resolved as far as the filesystem can resolve it. -/
structure Projection where
  anchor : String
  anchorAsWritten : String
  canonical : String
  missing : Nat
deriving DecidableEq

/-- Remove the extended-length mark `canonicalize` adds on Windows. -/
def plain (platform : PathPlatform) (path : String) : String :=
  match platform with
  | .unix => path
  | .windows =>
    match path.toList with
    | '\\' :: '\\' :: '?' :: '\\' :: 'U' :: 'N' :: 'C' :: '\\' :: rest =>
      String.ofList ('\\' :: '\\' :: rest)
    | '\\' :: '\\' :: '?' :: '\\' :: rest => String.ofList rest
    | _ => path

section Projection

variable (fs : Filesystem) (platform : PathPlatform)

/-- The walk of `project` up to the deepest entry that exists. The components are innermost
first; those that are missing come back outermost first. -/
def deepestExisting (root : List Char) :
    List (List Char) → List (List Char) → Except RunnerRootError (String × List (List Char))
  | components, missing =>
    let cursor := joinPath platform root components.reverse
    match fs.symlinkMetadata cursor with
    | .ok _ => .ok (cursor, missing)
    | .error e =>
      if e.meansAbsent then
        match components with
        | [] => .error (.inspect cursor e)
        | name :: parents =>
          -- `file_name` has no answer for `..`
          if name = ['.', '.'] then .error (.inspect cursor e)
          else deepestExisting root parents (name :: missing)
      else .error (.inspect cursor e)

def project (path : String) : Except RunnerRootError Projection := do
  let (root, components) := splitPath platform path
  let (cursor, missing) ← deepestExisting fs platform root components.reverse []
  let anchor ← ((fs.canonicalize cursor).map (plain platform)).mapError (.inspect cursor)
  return {
    anchor
    anchorAsWritten := cursor
    canonical := missing.foldl (push platform) anchor
    missing := missing.length }

def canonicalText (path : String) : Option String :=
  match project fs platform path with
  | .ok projection => some projection.canonical
  | .error _ => none

def isFilesystemRoot (path : String) : Bool :=
  (splitPath platform path).2.isEmpty

end Projection

/-! ## Preflight -/

/-- The application directories a root is compared with. -/
structure AppPaths where
  configDir : String
  stateDir : String
  logsDir : String
  runtimeDir : String
deriving DecidableEq

/-- The machine the program runs on. The system directory is asked for on Windows only. -/
structure Machine where
  native : PathPlatform
  macos : Bool
  systemDirectory : Except IoError String
  toLowercase : Char → List Char
  appPaths : AppPaths
  fs : Filesystem

def windowsRunnerRootName : String := "rman"

/-- `default_runner_root`: the system drive's `rman` on Windows, the application's runtime
directory elsewhere. -/
def defaultRunnerRoot (machine : Machine) : Except RunnerRootError LocalAbsolutePath :=
  match machine.native with
  | .windows => do
    let raw ← machine.systemDirectory.mapError .systemDirectoryUnavailable
    let system ← (LocalAbsolutePath.parseFor raw .windows).mapError
      (.systemDirectoryUnusable raw)
    let volume := String.ofList (system.text.toList.take 3)
    (LocalAbsolutePath.parseFor (volume ++ windowsRunnerRootName) .windows).mapError
      (.systemDirectoryUnusable raw)
  | .unix =>
    (LocalAbsolutePath.parseFor machine.appPaths.runtimeDir .unix).mapError
      (.applicationRuntimeDirectoryUnusable machine.appPaths.runtimeDir)

/-- A root that passed the preflight. -/
structure PreflightedRoot where
  root : LocalAbsolutePath
  canonical : String
  found : Bool
  filesystem : FilesystemIdentity

def PreflightedRoot.leafToCreate (checked : PreflightedRoot) : Option String :=
  if checked.found then none else some checked.root.text

/-- The other configured roots of this host, with their owners. -/
structure RootPreflight where
  others : List (RootOwner × LocalAbsolutePath)

namespace RootPreflight

variable (machine : Machine)

def new : RootPreflight where
  others := []

/-- Register a root the candidate must not overlap. -/
def against (preflight : RootPreflight) (owner : RootOwner) (root : LocalAbsolutePath) :
    RootPreflight where
  others := preflight.others ++ [(owner, root)]

/-- The application-data directories a root may not collide with. -/
def protectedDirs : List (String × String) :=
  [("the application configuration directory", machine.appPaths.configDir),
    ("the application state directory", machine.appPaths.stateDir),
    ("the application log directory", machine.appPaths.logsDir)]

/-- A path as one pass of `reject_overlap` compares it. -/
def textOf (canonical : Bool) (path : String) : Option String :=
  if canonical then canonicalText machine.fs machine.native path else some path

/-- The `runtime` directory lies inside a protected one by the product's own layout. -/
def insideRuntime (candidate : String) (canonical : Bool) : Bool :=
  (textOf machine canonical machine.appPaths.runtimeDir).any fun runtime ↦
    match overlapOf machine.toLowercase candidate runtime machine.native with
    | .same | .inside => true
    | .disjoint | .contains => false

/-- Compare with one application directory. -/
def rejectProtected (candidate : String) (canonical : Bool) (entry : String × String) :
    Except RunnerRootError Unit :=
  match textOf machine canonical entry.2 with
  | none => .ok ()
  | some other =>
    let relation := overlapOf machine.toLowercase candidate other machine.native
    if relation = .disjoint ∨ relation = .inside ∧ insideRuntime machine candidate canonical then
      .ok ()
    else .error (.overlaps candidate relation other entry.1
      ("Runner workspaces are removed recursively and application data must survive that; "
        ++ "configure a directory outside the application data tree."))

/-- Compare with one registered root; a root of the candidate's own owner is skipped. -/
def rejectRegistered (owner : RootOwner) (candidate : String) (canonical : Bool)
    (entry : RootOwner × LocalAbsolutePath) : Except RunnerRootError Unit :=
  if entry.1 = owner then .ok ()
  else
    match textOf machine canonical entry.2.text with
    | none => .ok ()
    | some other =>
      let relation := overlapOf machine.toLowercase candidate other machine.native
      if relation = .disjoint then .ok ()
      else .error (.overlaps candidate relation other entry.1.display
        ("Two runner roots that contain one another can delete each other's workspaces; "
          ++ "configure directories that do not overlap."))

def rejectOverlap (preflight : RootPreflight) (owner : RootOwner) (candidate : String)
    (canonical : Bool) : Except RunnerRootError Unit := do
  (protectedDirs machine).forM (rejectProtected machine candidate canonical)
  preflight.others.forM (rejectRegistered machine owner candidate canonical)

/-- What the candidate itself is, before anything is resolved. -/
def checkEntry (candidate : String) : Except RunnerRootError Unit :=
  match machine.fs.symlinkMetadata candidate with
  | .ok .symlink => .error (.symlinked candidate)
  | .ok .file => .error (.existingFile candidate)
  | .ok .directory => .ok ()
  | .error e => if e.meansAbsent then .ok () else .error (.inspect candidate e)

/-- At most the last component may be missing, below a directory. -/
def checkMissing (candidate : String) (projection : Projection) : Except RunnerRootError Unit :=
  match projection.missing with
  | 0 => .ok ()
  | 1 =>
    if machine.fs.isDir projection.anchor then .ok ()
    else .error (.parentIsNotADirectory projection.anchorAsWritten)
  | _ => .error (.missingParents candidate projection.anchorAsWritten)

/-- A root is accepted only where locality is provable. -/
def checkLocality (projection : Projection) (filesystem : FilesystemIdentity) :
    Except RunnerRootError Unit :=
  match filesystem.locality with
  | .isLocal => .ok ()
  | .remote => .error (.remoteFilesystem projection.canonical filesystem.name)
  | .unprovable => .error (.unprovableFilesystem projection.canonical filesystem.name)

/-- Why an unwritable anchor is refused. -/
def notWritable (owner : RootOwner) (candidate : String) (projection : Projection) :
    RunnerRootError :=
  if machine.macos ∧ machine.fs.runsAsSuperuser
      ∧ machine.fs.isOnPrivacyGatedVolume projection.anchor
      ∧ ¬ machine.fs.isReadOnly projection.anchor then
    .deniedByPrivacyPolicy candidate projection.anchorAsWritten owner.remediation
  else if projection.missing = 0 then
    .notWritable projection.anchorAsWritten owner.remediation
  else .parentNotWritable projection.anchorAsWritten candidate owner.remediation

def check (preflight : RootPreflight) (owner : RootOwner) (root : LocalAbsolutePath) :
    Except RunnerRootError PreflightedRoot :=
  if root.platform ≠ machine.native then .error (.foreignPlatform root.text root.platform)
  else do
    preflight.rejectOverlap machine owner root.text false
    checkEntry machine root.text
    let projection ← project machine.fs machine.native root.text
    checkMissing machine root.text projection
    if isFilesystemRoot machine.native projection.canonical then
      .error (.resolvesToFilesystemRoot root.text projection.canonical)
    else
      let filesystem ← (machine.fs.identify projection.anchor).mapError
        (.inspect projection.anchor)
      checkLocality projection filesystem
      let writable ← (machine.fs.isWritable projection.anchor).mapError
        (.inspect projection.anchor)
      if !writable then .error (notWritable machine owner root.text projection)
      else
        preflight.rejectOverlap machine owner projection.canonical true
        return {
          root
          canonical := projection.canonical
          found := projection.missing = 0
          filesystem }

end RootPreflight
/-! ## Roots apart hold no directory in common -/

section Apart

variable {toLowercase : Char → List Char} {platform : PathPlatform}

/-- What two components that name one directory have in common. -/
def nameKey (toLowercase : Char → List Char) (platform : PathPlatform) (component : List Char) :
    List Char :=
  match platform with
  | .windows => component.flatMap toLowercase
  | .unix => component

theorem sameComponent_iff {left right : List Char} :
    sameComponent toLowercase left right platform = true ↔
      nameKey toLowercase platform left = nameKey toLowercase platform right := by
  cases platform <;> simp [sameComponent, nameKey]

/-- The keys of a path's components. -/
def pathKey (toLowercase : Char → List Char) (platform : PathPlatform) (path : String) :
    List (List Char) :=
  (componentsOf path platform).map (nameKey toLowercase platform)

theorem shared_lt_iff (left right : List (List Char)) :
    ((left.zip right).takeWhile fun pair ↦
        sameComponent toLowercase pair.1 pair.2 platform).length < min left.length right.length ↔
      ¬ left.map (nameKey toLowercase platform) <+: right.map (nameKey toLowercase platform) ∧
      ¬ right.map (nameKey toLowercase platform) <+: left.map (nameKey toLowercase platform) := by
  induction left generalizing right with
  | nil => simp
  | cons l left ih =>
    cases right with
    | nil => simp
    | cons r right =>
      simp only [List.zip_cons_cons, List.map_cons, List.cons_prefix_cons, List.length_cons]
      cases hsame : sameComponent toLowercase l r platform with
      | true =>
        have hkey := sameComponent_iff.mp hsame
        have hrest := ih right
        rw [List.takeWhile_cons_of_pos (by exact hsame), List.length_cons,
          Nat.add_min_add_right, Nat.add_lt_add_iff_right, hrest]
        simp [hkey]
      | false =>
        have hkey : ¬ nameKey toLowercase platform l = nameKey toLowercase platform r := by
          rw [← sameComponent_iff, hsame]
          simp
        have hkey' : ¬ nameKey toLowercase platform r = nameKey toLowercase platform l :=
          fun heq ↦ hkey heq.symm
        rw [List.takeWhile_cons_of_neg (by simp [hsame])]
        simp [hkey, hkey']

theorem overlapOf_disjoint_iff {a b : String} :
    overlapOf toLowercase a b platform = .disjoint ↔
      ¬ pathKey toLowercase platform a <+: pathKey toLowercase platform b ∧
      ¬ pathKey toLowercase platform b <+: pathKey toLowercase platform a := by
  simp only [overlapOf, relationOf, pathKey]
  rw [← shared_lt_iff]
  split_ifs with h
  · simp [h]
  · simp only [h, iff_false]
    split <;> simp

theorem overlapOf_disjoint_comm {a b : String} :
    overlapOf toLowercase a b platform = .disjoint ↔
      overlapOf toLowercase b a platform = .disjoint := by
  rw [overlapOf_disjoint_iff, overlapOf_disjoint_iff, and_comm]

/-- A directory lies at or below a root. -/
def Below (toLowercase : Char → List Char) (platform : PathPlatform) (directory root : String) :
    Prop :=
  overlapOf toLowercase directory root platform = .same ∨
    overlapOf toLowercase directory root platform = .inside

theorem Below.continues {directory root : String} (h : Below toLowercase platform directory root) :
    pathKey toLowercase platform root <+: pathKey toLowercase platform directory := by
  by_contra hnot
  have hnotDisjoint : ¬ overlapOf toLowercase directory root platform = .disjoint := by
    rcases h with h | h <;> simp [h]
  have hshorter : pathKey toLowercase platform directory <+: pathKey toLowercase platform root := by
    by_contra hother
    exact hnotDisjoint (overlapOf_disjoint_iff.mpr ⟨hother, hnot⟩)
  -- a strictly shorter path contains the other
  have hlt : (componentsOf directory platform).length < (componentsOf root platform).length := by
    have hle := hshorter.length_le
    have hne : (pathKey toLowercase platform directory).length ≠
        (pathKey toLowercase platform root).length := by
      intro heq
      exact hnot (hshorter.eq_of_length heq ▸ List.prefix_rfl)
    simp only [pathKey, List.length_map] at hle hne
    omega
  have hcontains : overlapOf toLowercase directory root platform = .contains := by
    have hshared := (@shared_lt_iff toLowercase platform (componentsOf directory platform)
      (componentsOf root platform)).not.mpr fun hboth ↦ hboth.1 hshorter
    simp only [overlapOf, relationOf]
    rw [if_neg hshared, Nat.compare_eq_lt.mpr hlt]
  rcases h with h | h <;> simp [hcontains] at h

theorem not_below_both {directory a b : String}
    (hapart : overlapOf toLowercase a b platform = .disjoint)
    (ha : Below toLowercase platform directory a) :
    ¬ Below toLowercase platform directory b := by
  intro hb
  obtain ⟨hnot, hnot'⟩ := overlapOf_disjoint_iff.mp hapart
  rcases List.prefix_or_prefix_of_prefix ha.continues hb.continues with h | h
  · exact hnot h
  · exact hnot' h

end Apart

/-! ## What the preflight promises -/

theorem RootPreflight.check_disjoint {machine : Machine} {preflight : RootPreflight}
    {owner : RootOwner} {root : LocalAbsolutePath} {checked : PreflightedRoot}
    (h : preflight.check machine owner root = .ok checked) :
    root.platform = machine.native ∧ ∀ entry ∈ preflight.others, entry.1 ≠ owner →
      overlapOf machine.toLowercase root.text entry.2.text machine.native = .disjoint := by
  simp only [check, ite_error_eq_ok, bind_eq_ok] at h
  obtain ⟨hnative, _, hlexical, -⟩ := h
  refine ⟨not_not.mp hnative, ?_⟩
  intro entry hentry howner
  simp only [rejectOverlap, bind_eq_ok] at hlexical
  obtain ⟨_, -, hothers⟩ := hlexical
  have hone := forM_eq_ok.mp hothers entry hentry
  rw [rejectRegistered, if_neg howner] at hone
  simp only [textOf, Bool.false_eq_true, if_false] at hone
  by_contra hrelation
  rw [if_neg hrelation] at hone
  cases hone

end RunnerManager.Platform
