import RunnerManager.Lib.Text
import Mathlib.Data.List.Basic

/-!
# The coordinator protocol

`crates/coordinator-protocol/src/lib.rs`: the messages a host and its coordinator exchange. A
number field has the width the source gives it.
-/

namespace RunnerManager.Coordinator

open RunnerManager.Text

/-- An unsigned integer of `w` bits. -/
abbrev Unsigned (w : Nat) := {n : Nat // n < 2 ^ w}

theorem one_unsigned : 1 < 2 ^ 32 := by decide

def protocolVersion : Unsigned 32 := ⟨1, by decide⟩

def maxMessageBytes : Nat := 64 * 1024

/-- Whether a target is one repository or a whole organization. -/
inductive TargetScope where
  | repo
  | org
deriving DecidableEq

/-- A target as both sides name it. -/
structure TargetRef where
  scope : TargetScope
  name : String
deriving DecidableEq

def TargetRef.covers (target : TargetRef) (repository : String) : Bool :=
  match target.scope with
  | .repo => eqIgnoreAsciiCase target.name repository
  | .org => repository.toList.contains '/' &&
      eqIgnoreAsciiCase (String.ofList (repository.toList.takeWhile (· != '/'))) target.name

/-- One runner profile a host serves a target with. -/
structure Profile where
  name : String
  labels : List String
  enabled : Bool
deriving DecidableEq

/-- A target and the profiles that serve it. -/
structure Target where
  scope : TargetScope
  name : String
  profiles : List Profile
deriving DecidableEq

/-- What a host says about itself once authenticated. -/
structure Hello where
  protocolVersion : Unsigned 32
  hostId : String
  os : String
  arch : String
  cores : Unsigned 32
  ramBytes : Option (Unsigned 64)
  diskFreeBytes : Option (Unsigned 64)
  targets : List Target
deriving DecidableEq

/-- A host's periodic load report. -/
structure Heartbeat where
  freeSlots : Unsigned 32
  busySlots : Unsigned 32
  cpuLoadPercent : Option (Unsigned 32)
  freeRamBytes : Option (Unsigned 64)
  unfit : Bool
  draining : Bool
deriving DecidableEq

/-- Why the coordinator woke a host. -/
inductive WakeReason where
  | jobQueued
  | other
deriving DecidableEq

/-- Poll this target now. -/
structure Wake where
  target : TargetRef
  repository : String
  reason : WakeReason
  deliveryId : String
deriving DecidableEq

/-- Everything a host sends over the connection. -/
inductive HostMessage where
  | auth (protocolVersion : Unsigned 32) (hostId signature : String)
  | hello (value : Hello)
  | heartbeat (value : Heartbeat)
  | unknown
deriving DecidableEq

/-- Everything the coordinator sends over the connection. -/
inductive ServerMessage where
  | challenge (protocolVersion : Unsigned 32) (nonce : String)
  | welcome (protocolVersion heartbeatIntervalSecs : Unsigned 32)
  | wake (value : Wake)
  | unknown
deriving DecidableEq

end RunnerManager.Coordinator
