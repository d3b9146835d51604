import RunnerManager.Agent.Package
import RunnerManager.Lib.FileTree
import RunnerManager.Lib.Program

/-!
# Extracting a runner package

`extract`, `extract_zip` and `extract_tar_gz` of `crates/agent/src/package.rs`, with their checks,
over a disk. Read `tarEntry` and `Unpacked` first.

An archive is what the `zip` and `tar` crates read from it. What `tar` does with an entry it is
handed is `Unpacked`: it makes the directories on the way, refuses a parent that is really outside
the root, and puts the entry there. The modes are those of Unix; elsewhere there are none.
-/

namespace RunnerManager.Agent.Package

open RunnerManager.FileTree

/-! ## The checks -/

def Path.steps (path : Path) : List (Component String) :=
  path.filterMap fun
    | .normal name => some (.normal name)
    | .parentDir => some .parent
    | .drive _ | .rootDir | .curDir => none

/-- What `is_inside` compares. -/
def Path.normalise (path : Path) : List String :=
  path.filterMap fun
    | .normal name => some name
    | .rootDir => some "/"
    | .drive text => some text
    | .curDir | .parentDir => none

def isInside (root candidate : Path) : Bool :=
  !candidate.contains .parentDir && root.normalise.isPrefixOf candidate.normalise

/-- The loop of `resolve_inside`. -/
def resolveNames (raw : String) : Path → Path → Except PackageError Path
  | resolved, [] => .ok resolved
  | resolved, .normal part :: rest => resolveNames raw (resolved ++ [.normal part]) rest
  | resolved, .curDir :: rest => resolveNames raw resolved rest
  | _, .parentDir :: _ | _, .rootDir :: _ | _, .drive _ :: _ => .error (.unsafeArchiveEntry raw)

def resolveInside (root relative : Path) (raw : String) : Except PackageError Path :=
  if relative.isAbsolute then .error (.unsafeArchiveEntry raw)
  else do
    let resolved ← resolveNames raw root relative
    if ¬ isInside root resolved then .error (.unsafeArchiveEntry raw) else .ok resolved

def entryDestination (root relative : Path) (raw : String) : Except PackageError (Option Path) := do
  let resolved ← resolveInside root relative raw
  return if resolved = root then none else some resolved

/-- `tar::EntryType`, as far as it is told apart. -/
inductive EntryType where
  | symlink
  | link
  | directory
  | other (flag : Nat)
deriving DecidableEq

/-- The loop of `resolve_link_target`. -/
def resolveTarget (raw : String) : Path → Path → Except PackageError Path
  | resolved, [] => .ok resolved
  | resolved, .normal part :: rest => resolveTarget raw (resolved ++ [.normal part]) rest
  | resolved, .curDir :: rest => resolveTarget raw resolved rest
  | resolved, .parentDir :: rest =>
    match resolved.parent with
    | some above => resolveTarget raw above rest
    | none => .error (.unsafeArchiveEntry raw)
  | _, .rootDir :: _ | _, .drive _ :: _ => .error (.unsafeArchiveEntry raw)

def resolveLinkTarget (into destination : Path) (kind : EntryType) (target : Path) (raw : String) :
    Except PackageError Unit :=
  if target.isAbsolute then .error (.unsafeArchiveEntry raw)
  else do
    let base := if kind = .symlink then destination.parent.getD into else into
    let resolved ← resolveTarget raw base target
    if ¬ isInside into resolved then .error (.unsafeArchiveEntry raw) else .ok ()

def policyMode (published : Nat) : Nat :=
  if published &&& 0o111 = 0 then 0o600 else 0o700

def intendedMode (isDirectory : Bool) (published : Option Nat) : Option Nat :=
  if isDirectory then some (policyMode (published.getD 0o700 ||| 0o100))
  else published.map policyMode

/-! ## Archives -/

/-- What is read of an entry of a tar archive. -/
structure TarEntry where
  path : Except String Path
  display : String
  kind : EntryType
  mode : Except String Nat
  linkName : Except String (Option Path)

/-- What is read of an entry of a zip archive. -/
structure ZipEntry where
  name : String
  enclosedName : Option Path
  isDir : Bool
  isSymlink : Bool
  unixMode : Option Nat

/-- An archive; an entry that cannot be read ends it. -/
inductive Archive where
  | unreadable (error : PackageError)
  | zip (entries : List (Except String ZipEntry))
  | tarGz (entries : List (Except String TarEntry))

/-- What the header of a tar entry says, once it passed the checks; `none` for the root. -/
def tarChecks (into : Path) (entry : TarEntry) : Except PackageError (Option (Path × Nat)) := do
  let relative ← entry.path.mapError .extract
  let mode ← entry.mode.mapError .extract
  let linkTarget ← entry.linkName.mapError .extract
  match ← entryDestination into relative entry.display with
  | none => return none
  | some destination =>
    if entry.kind = .symlink ∨ entry.kind = .link then
      match linkTarget with
      | none => .error (.unsafeArchiveEntry entry.display)
      | some target => do
        resolveLinkTarget into destination entry.kind target entry.display
        return some (destination, mode)
    else return some (destination, mode)

/-- What the name of a zip entry says, once it passed the checks. -/
def zipChecks (into : Path) (entry : ZipEntry) : Except PackageError (Option Path) := do
  let relative ← match entry.enclosedName with
    | some relative => .ok relative
    | none => .error (.unsafeArchiveEntry entry.name)
  match ← entryDestination into relative entry.name with
  | none => return none
  | some destination =>
    if ¬ entry.isDir ∧ entry.isSymlink then .error (.unsafeArchiveEntry entry.name)
    else return some destination

/-! ## Extraction -/

/-- What extraction asks of the operating system and of `tar`. -/
inductive ExtractCall where
  | createDirAll (path : Path)
  | createFile (path : Path)
  | copy (path : Path)
  | setPermissions (path : Path) (mode : Nat)
  | unpackIn (entry : TarEntry) (preserve : Bool) (mask : Nat)

def ExtractCall.answer : ExtractCall → Type
  | createDirAll _ | createFile _ | copy _ | setPermissions .. => Except String Unit
  | unpackIn .. => Except String Bool

abbrev Extract (α : Type) := Program ExtractCall ExtractCall.answer PackageError α

/-- Make a call that may fail. -/
def call {α : Type} (c : ExtractCall) (h : c.answer = Except String α)
    (wrap : String → PackageError) : Extract α := do
  let answer ← .perform c
  .ofExcept wrap (cast h answer)

def createDirAll (path : Path) : Extract Unit :=
  call (.createDirAll path) rfl (.io "create a runner package cache directory" path)

def applyModePolicy (path : Path) (mode : Option Nat) : Extract Unit :=
  match mode with
  | none => pure ()
  | some published => call (.setPermissions path (policyMode published)) rfl
      (.io "set permissions on an extracted runner package file" path)

def writeFile (path : Path) : Extract Unit := do
  match path.parent with
  | some parent => createDirAll parent
  | none => pure ()
  call (.createFile path) rfl (.io "create an extracted runner package file" path)
  call (.copy path) rfl (.io "write an extracted runner package file" path)

/-- One entry of `extract_zip`. -/
def zipEntry (into : Path) (entry : ZipEntry) : Extract Unit := do
  let checked ← .ofExcept id (zipChecks into entry)
  match checked with
  | none => pure ()
  | some destination =>
    if entry.isDir then do
      createDirAll destination
      applyModePolicy destination (intendedMode true entry.unixMode)
    else do
      writeFile destination
      applyModePolicy destination (intendedMode false entry.unixMode)

def extractZip (into : Path) : List (Except String ZipEntry) → Extract Unit
  | [] => pure ()
  | .error detail :: _ => .fail (.extract detail)
  | .ok entry :: rest => do
    zipEntry into entry
    extractZip into rest

/-- One entry of `extract_tar_gz`. -/
def tarEntry (into : Path) (entry : TarEntry) : Extract Unit := do
  let checked ← .ofExcept id (tarChecks into entry)
  match checked with
  | none => pure ()
  | some (destination, mode) => do
    let unpacked : Bool ← call (.unpackIn entry false 0o077) rfl .extract
    if ¬ unpacked then .fail (.unsafeArchiveEntry entry.display)
    else if entry.kind = .symlink ∨ entry.kind = .link then pure ()
    else applyModePolicy destination (intendedMode (entry.kind = .directory) (some mode))

def extractTarGz (into : Path) : List (Except String TarEntry) → Extract Unit
  | [] => pure ()
  | .error detail :: _ => .fail (.extract detail)
  | .ok entry :: rest => do
    tarEntry into entry
    extractTarGz into rest

def extract (into : Path) (archive : Archive) : Extract Unit := do
  createDirAll into
  match archive with
  | .unreadable error => .fail error
  | .zip entries => extractZip into entries
  | .tarGz entries => extractTarGz into entries

end RunnerManager.Agent.Package
