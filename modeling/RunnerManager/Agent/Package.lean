import RunnerManager.Domain.Model
import RunnerManager.Lib.Result

/-!
# Runner packages

`crates/agent/src/package.rs`: what a package is called, how it is packed, and everything that can
stop it reaching the cache. A version is read from a published filename and becomes a directory
name.
-/

namespace RunnerManager.Agent.Package

open RunnerManager.Domain RunnerManager.Text

/-- `std::path::Component`; `drive` is its `Prefix`. -/
inductive PathComponent where
  | drive (text : String)
  | rootDir
  | curDir
  | parentDir
  | normal (name : String)
deriving DecidableEq

abbrev Path := List PathComponent

namespace Path

/-- `Path::is_absolute`. On Windows a root without a drive is not absolute; whoever asks here
refuses its components as well. -/
def isAbsolute (path : Path) : Bool :=
  match path with
  | .rootDir :: _ | .drive _ :: .rootDir :: _ => true
  | _ => false

def parent (path : Path) : Option Path :=
  match path.getLast? with
  | some (.normal _) | some .curDir | some .parentDir => some path.dropLast
  | some .rootDir | some (.drive _) | none => none

def names (path : Path) : List String :=
  path.filterMap fun
    | .normal name => some name
    | _ => none

def join (path : Path) (names : List String) : Path :=
  path ++ names.map .normal

end Path

structure RunnerVersion where
  parts : List Nat
  raw : String
deriving DecidableEq

structure Sha256Hex where
  value : String
deriving DecidableEq

inductive PublishedChecksum where
  | absent
  | empty
  | malformed
deriving DecidableEq

/-- `PackageError`; the refusals of leases and prunes are left out. -/
inductive PackageError where
  | unsupportedHost (os : Os) (arch : Arch)
  | noPackagePublished (os : Os) (arch : Arch)
  | checksumAbsent (version : RunnerVersion) (os : Os) (arch : Arch) (published : PublishedChecksum)
  | checksumMismatch (version : RunnerVersion) (expected actual : Sha256Hex)
  | malformedDigest (raw : String)
  | versionRejected (version : Option RunnerVersion) (detail : Option String)
  | catalogUnavailable (detail : String)
  | download (detail : String)
  | unrecognisedVersion (raw : String)
  | unsupportedArchive (filename : String)
  | unsafeArchiveEntry (entry : String)
  | extract (detail : String)
  | io (what : String) (path : Path) (source : String)
  | exhausted (attempts : Nat) (source : PackageError)
deriving DecidableEq

def PackageError.isTerminal : PackageError → Bool
  | unsupportedHost .. | noPackagePublished .. | checksumAbsent .. | malformedDigest _
  | versionRejected .. | unrecognisedVersion _ | unsupportedArchive _ | unsafeArchiveEntry _ => true
  | checksumMismatch .. | catalogUnavailable _ | download _ | extract _ | io .. => false
  | exhausted .. => true

/-- `RunnerVersion::parse`: two to four numbers between dots. -/
def RunnerVersion.parse (raw : String) : Except PackageError RunnerVersion :=
  let segments := raw.toList.splitOn '.'
  if raw.toList = [] ∨ 64 < byteLen raw.toList then .error (.unrecognisedVersion raw)
  else if ∃ segment ∈ segments, segment = [] ∨ ¬ segment.all Char.isDigit
      ∨ u64Max < Nat.ofDigitChars 10 segment 0 then
    .error (.unrecognisedVersion raw)
  else if segments.length < 2 ∨ 4 < segments.length then .error (.unrecognisedVersion raw)
  else .ok ⟨segments.map (Nat.ofDigitChars 10 · 0), raw⟩

def Sha256Hex.parse (raw : String) : Except PackageError Sha256Hex :=
  let trimmed := trim raw.toList
  if byteLen trimmed ≠ 64 ∨ ¬ trimmed.all isAsciiHexdigit then
    .error (.malformedDigest (String.ofList trimmed))
  else .ok ⟨String.ofList (foldAscii trimmed)⟩

inductive ArchiveKind where
  | zip
  | tarGz
deriving DecidableEq

/-- `ArchiveKind::split`: the stem and the kind. -/
def ArchiveKind.split (filename : String) : Except PackageError (String × ArchiveKind) :=
  let lower := foldAscii filename.toList
  match [(".tar.gz", tarGz), (".tgz", tarGz), (".zip", zip)].find? fun candidate ↦
      candidate.1.toList.isSuffixOf lower with
  | some (suffix, kind) =>
    .ok (String.ofList (filename.toList.take
      (filename.toList.length - suffix.toList.length)), kind)
  | none => .error (.unsupportedArchive filename)

/-- `RunnerVersion::from_filename`: what follows the last `-` of the stem. -/
def RunnerVersion.fromFilename (filename : String) : Except PackageError RunnerVersion := do
  let (stem, _) ← ArchiveKind.split filename
  parse (String.ofList ((stem.toList.splitOn '-').getLastD stem.toList))

end RunnerManager.Agent.Package
