import RunnerManager.Coordinator.Protocol
import RunnerManager.Lib.Json

/-!
# Messages on the wire

The JSON of the coordinator protocol, as the derived codecs of
`crates/coordinator-protocol/src/lib.rs` write and read it: one object for each message, tagged
by `type`, with the names, defaults and unknown variants its attributes give. The text of a value
is written here; the parser of texts is a parameter. Read `accept_iff` first: what a peer writes
is accepted as it was meant exactly when it fits into one message.
-/

namespace RunnerManager.Coordinator

open Json Text

/-! ## Records -/

/-- A record is written as an object of its fields and read by their names. -/
abbrev Fields := List (String × Json)

/-- `TargetScope`. -/
def TargetScope.toJson : TargetScope → Json
  | repo => .string "repo"
  | org => .string "org"

def TargetScope.ofJson : Json → Option TargetScope
  | .string "repo" => some repo
  | .string "org" => some org
  | _ => none

/-- `TargetRef`. -/
def TargetRef.toJson (target : TargetRef) : Json :=
  .object [("scope", target.scope.toJson), ("name", .string target.name)]

def TargetRef.ofFields (fields : Fields) : Option TargetRef := do
  let scope ← readField "scope" TargetScope.ofJson none fields
  let name ← readField "name" readString none fields
  return { scope, name }

/-- `Profile`. -/
def Profile.toJson (profile : Profile) : Json :=
  .object [("name", .string profile.name), ("labels", .array (profile.labels.map .string)),
    ("enabled", .bool profile.enabled)]

def Profile.ofFields (fields : Fields) : Option Profile := do
  let name ← readField "name" readString none fields
  let labels ← readField "labels" (readList readString) none fields
  let enabled ← readField "enabled" readBool none fields
  return { name, labels, enabled }

/-- `Target`. -/
def Target.toJson (target : Target) : Json :=
  .object [("scope", target.scope.toJson), ("name", .string target.name),
    ("profiles", .array (target.profiles.map Profile.toJson))]

def Target.ofFields (fields : Fields) : Option Target := do
  let scope ← readField "scope" TargetScope.ofJson none fields
  let name ← readField "name" readString none fields
  let profiles ← readField "profiles" (readList (readObject Profile.ofFields)) (some []) fields
  return { scope, name, profiles }

def unsigned {w : Nat} (n : Unsigned w) : Json :=
  .number n.val

/-- `Hello`. -/
def Hello.fields (hello : Hello) : Fields :=
  [("protocol_version", unsigned hello.protocolVersion), ("host_id", .string hello.hostId),
    ("os", .string hello.os), ("arch", .string hello.arch), ("cores", unsigned hello.cores),
    ("ram_bytes", ofOption unsigned hello.ramBytes),
    ("disk_free_bytes", ofOption unsigned hello.diskFreeBytes),
    ("targets", .array (hello.targets.map Target.toJson))]

def Hello.ofFields (fields : Fields) : Option Hello := do
  let protocolVersion ← readField "protocol_version" (readUnsigned 32) none fields
  let hostId ← readField "host_id" readString none fields
  let os ← readField "os" readString none fields
  let arch ← readField "arch" readString none fields
  let cores ← readField "cores" (readUnsigned 32) none fields
  let ramBytes ← readField "ram_bytes" (readOption (readUnsigned 64)) (some none) fields
  let diskFreeBytes ← readField "disk_free_bytes" (readOption (readUnsigned 64)) (some none) fields
  let targets ← readField "targets" (readList (readObject Target.ofFields)) (some []) fields
  return { protocolVersion, hostId, os, arch, cores, ramBytes, diskFreeBytes, targets }

/-- `Heartbeat`, every field of which has a default. -/
def Heartbeat.fields (heartbeat : Heartbeat) : Fields :=
  [("free_slots", unsigned heartbeat.freeSlots), ("busy_slots", unsigned heartbeat.busySlots),
    ("cpu_load_percent", ofOption unsigned heartbeat.cpuLoadPercent),
    ("free_ram_bytes", ofOption unsigned heartbeat.freeRamBytes),
    ("unfit", .bool heartbeat.unfit), ("draining", .bool heartbeat.draining)]

def Heartbeat.ofFields (fields : Fields) : Option Heartbeat := do
  let freeSlots ← readField "free_slots" (readUnsigned 32) (some ⟨0, by decide⟩) fields
  let busySlots ← readField "busy_slots" (readUnsigned 32) (some ⟨0, by decide⟩) fields
  let cpuLoadPercent ← readField "cpu_load_percent" (readOption (readUnsigned 32)) (some none)
    fields
  let freeRamBytes ← readField "free_ram_bytes" (readOption (readUnsigned 64)) (some none) fields
  let unfit ← readField "unfit" readBool (some false) fields
  let draining ← readField "draining" readBool (some false) fields
  return { freeSlots, busySlots, cpuLoadPercent, freeRamBytes, unfit, draining }

/-- `WakeReason`: a reason this build does not know is still a reason. -/
def WakeReason.toJson : WakeReason → Json
  | jobQueued => .string "job_queued"
  | other => .string "other"

def WakeReason.ofJson : Json → Option WakeReason
  | .string "job_queued" => some jobQueued
  | .string _ => some other
  | _ => none

/-- `Wake`. -/
def Wake.fields (wake : Wake) : Fields :=
  [("target", wake.target.toJson), ("repository", .string wake.repository),
    ("reason", wake.reason.toJson), ("delivery_id", .string wake.deliveryId)]

def Wake.ofFields (fields : Fields) : Option Wake := do
  let target ← readField "target" (readObject TargetRef.ofFields) none fields
  let repository ← readField "repository" readString none fields
  let reason ← readField "reason" WakeReason.ofJson none fields
  let deliveryId ← readField "delivery_id" readString none fields
  return { target, repository, reason, deliveryId }

/-! ## Envelopes -/

def tagged (tag : String) (fields : Fields) : Json :=
  .object (("type", .string tag) :: fields)

/-- `HostMessage`. -/
def HostMessage.toJson : HostMessage → Json
  | auth protocolVersion hostId signature =>
    tagged "auth" [("protocol_version", unsigned protocolVersion), ("host_id", .string hostId),
      ("signature", .string signature)]
  | hello value => tagged "hello" value.fields
  | heartbeat value => tagged "heartbeat" value.fields
  | unknown => tagged "unknown" []

/-- The variant a tag selects; the tag itself is not a field of it. -/
def HostMessage.ofFields (fields : Fields) : Option HostMessage := do
  let tag ← readField "type" readString none fields
  let fields := fields.filter (·.1 ≠ "type")
  match tag with
  | "auth" => do
    let protocolVersion ← readField "protocol_version" (readUnsigned 32) none fields
    let hostId ← readField "host_id" readString none fields
    let signature ← readField "signature" readString none fields
    return auth protocolVersion hostId signature
  | "hello" => (Hello.ofFields fields).map hello
  | "heartbeat" => (Heartbeat.ofFields fields).map heartbeat
  | _ => some unknown

/-- `ServerMessage`. -/
def ServerMessage.toJson : ServerMessage → Json
  | challenge protocolVersion nonce =>
    tagged "challenge" [("protocol_version", unsigned protocolVersion),
      ("nonce", .string nonce)]
  | welcome protocolVersion heartbeatIntervalSecs =>
    tagged "welcome" [("protocol_version", unsigned protocolVersion),
      ("heartbeat_interval_secs", unsigned heartbeatIntervalSecs)]
  | wake value => tagged "wake" value.fields
  | unknown => tagged "unknown" []

def ServerMessage.ofFields (fields : Fields) : Option ServerMessage := do
  let tag ← readField "type" readString none fields
  let fields := fields.filter (·.1 ≠ "type")
  match tag with
  | "challenge" => do
    let protocolVersion ← readField "protocol_version" (readUnsigned 32) none fields
    let nonce ← readField "nonce" readString none fields
    return challenge protocolVersion nonce
  | "welcome" => do
    let protocolVersion ← readField "protocol_version" (readUnsigned 32) none fields
    let secs ← readField "heartbeat_interval_secs" (readUnsigned 32) none fields
    return welcome protocolVersion secs
  | "wake" => (Wake.ofFields fields).map wake
  | _ => some unknown

/-! ## Reading back -/

section

variable {fields : Fields}

theorem unsigned_reads (w : Nat) : ReadsBack (unsigned (w := w)) (readUnsigned w) :=
  readsBack_unsigned w

theorem optional_reads (w : Nat) :
    ReadsBack (ofOption (unsigned (w := w))) (readOption (readUnsigned w)) := by
  refine readsBack_option (unsigned_reads w) fun n h ↦ ?_
  cases h

theorem TargetScope.reads : ReadsBack toJson ofJson := by
  intro scope other h
  rw [h.atom (fun _ h ↦ by cases scope <;> cases h) fun _ h ↦ by cases scope <;> cases h]
  cases scope <;> rfl

theorem WakeReason.reads : ReadsBack toJson ofJson := by
  intro reason other h
  rw [h.atom (fun _ h ↦ by cases reason <;> cases h) fun _ h ↦ by cases reason <;> cases h]
  cases reason <;> rfl

theorem TargetRef.reads : ReadsBack toJson (readObject ofFields) := by
  refine readsBack_object fun target fields h ↦ ?_
  have hnodup : ["scope", "name"].Nodup := by decide
  have hscope : readField "scope" TargetScope.ofJson none fields = some target.scope :=
    h.readField hnodup 0 rfl TargetScope.reads
  have hname : readField "name" readString none fields = some target.name :=
    h.readField hnodup 1 rfl readsBack_string
  simp only [ofFields, hscope, hname, Option.bind_eq_bind, Option.bind_some]
  rfl

theorem Profile.reads : ReadsBack toJson (readObject ofFields) := by
  refine readsBack_object fun profile fields h ↦ ?_
  have hnodup : ["name", "labels", "enabled"].Nodup := by decide
  have hname : readField "name" readString none fields = some profile.name :=
    h.readField hnodup 0 rfl readsBack_string
  have hlabels : readField "labels" (readList readString) none fields = some profile.labels :=
    h.readField hnodup 1 rfl (readsBack_list readsBack_string)
  have henabled : readField "enabled" readBool none fields = some profile.enabled :=
    h.readField hnodup 2 rfl readsBack_bool
  simp only [ofFields, hname, hlabels, henabled, Option.bind_eq_bind, Option.bind_some]
  rfl

theorem Target.reads : ReadsBack toJson (readObject ofFields) := by
  refine readsBack_object fun target fields h ↦ ?_
  have hnodup : ["scope", "name", "profiles"].Nodup := by decide
  have hscope : readField "scope" TargetScope.ofJson none fields = some target.scope :=
    h.readField hnodup 0 rfl TargetScope.reads
  have hname : readField "name" readString none fields = some target.name :=
    h.readField hnodup 1 rfl readsBack_string
  have hprofiles : readField "profiles" (readList (readObject Profile.ofFields)) (some []) fields =
      some target.profiles := h.readField hnodup 2 rfl (readsBack_list Profile.reads)
  simp only [ofFields, hscope, hname, hprofiles, Option.bind_eq_bind, Option.bind_some]
  rfl

theorem Hello.ofFields_carries (hello : Hello) (h : Carries hello.fields fields) :
    ofFields fields = some hello := by
  have hnodup : ["protocol_version", "host_id", "os", "arch", "cores", "ram_bytes",
      "disk_free_bytes", "targets"].Nodup := by decide
  have hversion : readField "protocol_version" (readUnsigned 32) none fields =
      some hello.protocolVersion := h.readField hnodup 0 rfl (unsigned_reads 32)
  have hhost : readField "host_id" readString none fields = some hello.hostId :=
    h.readField hnodup 1 rfl readsBack_string
  have hos : readField "os" readString none fields = some hello.os :=
    h.readField hnodup 2 rfl readsBack_string
  have harch : readField "arch" readString none fields = some hello.arch :=
    h.readField hnodup 3 rfl readsBack_string
  have hcores : readField "cores" (readUnsigned 32) none fields = some hello.cores :=
    h.readField hnodup 4 rfl (unsigned_reads 32)
  have hram : readField "ram_bytes" (readOption (readUnsigned 64)) (some none) fields =
      some hello.ramBytes := h.readField hnodup 5 rfl (optional_reads 64)
  have hdisk : readField "disk_free_bytes" (readOption (readUnsigned 64)) (some none) fields =
      some hello.diskFreeBytes := h.readField hnodup 6 rfl (optional_reads 64)
  have htargets : readField "targets" (readList (readObject Target.ofFields)) (some []) fields =
      some hello.targets := h.readField hnodup 7 rfl (readsBack_list Target.reads)
  simp only [ofFields, hversion, hhost, hos, harch, hcores, hram, hdisk, htargets,
    Option.bind_eq_bind, Option.bind_some]
  rfl

theorem Heartbeat.ofFields_carries (heartbeat : Heartbeat) (h : Carries heartbeat.fields fields) :
    ofFields fields = some heartbeat := by
  have hnodup : ["free_slots", "busy_slots", "cpu_load_percent", "free_ram_bytes", "unfit",
      "draining"].Nodup := by decide
  have hfree : readField "free_slots" (readUnsigned 32) (some ⟨0, by decide⟩) fields =
      some heartbeat.freeSlots := h.readField hnodup 0 rfl (unsigned_reads 32)
  have hbusy : readField "busy_slots" (readUnsigned 32) (some ⟨0, by decide⟩) fields =
      some heartbeat.busySlots := h.readField hnodup 1 rfl (unsigned_reads 32)
  have hcpu : readField "cpu_load_percent" (readOption (readUnsigned 32)) (some none) fields =
      some heartbeat.cpuLoadPercent := h.readField hnodup 2 rfl (optional_reads 32)
  have hram : readField "free_ram_bytes" (readOption (readUnsigned 64)) (some none) fields =
      some heartbeat.freeRamBytes := h.readField hnodup 3 rfl (optional_reads 64)
  have hunfit : readField "unfit" readBool (some false) fields = some heartbeat.unfit :=
    h.readField hnodup 4 rfl readsBack_bool
  have hdraining : readField "draining" readBool (some false) fields = some heartbeat.draining :=
    h.readField hnodup 5 rfl readsBack_bool
  simp only [ofFields, hfree, hbusy, hcpu, hram, hunfit, hdraining, Option.bind_eq_bind,
    Option.bind_some]
  rfl

theorem Wake.ofFields_carries (wake : Wake) (h : Carries wake.fields fields) :
    ofFields fields = some wake := by
  have hnodup : ["target", "repository", "reason", "delivery_id"].Nodup := by decide
  have htarget : readField "target" (readObject TargetRef.ofFields) none fields =
      some wake.target := h.readField hnodup 0 rfl TargetRef.reads
  have hrepository : readField "repository" readString none fields = some wake.repository :=
    h.readField hnodup 1 rfl readsBack_string
  have hreason : readField "reason" WakeReason.ofJson none fields = some wake.reason :=
    h.readField hnodup 2 rfl WakeReason.reads
  have hdelivery : readField "delivery_id" readString none fields = some wake.deliveryId :=
    h.readField hnodup 3 rfl readsBack_string
  simp only [ofFields, htarget, hrepository, hreason, hdelivery, Option.bind_eq_bind,
    Option.bind_some]
  rfl

theorem tagged_inv {tag : String} {own : Fields} {other : Json} (names : List String)
    (hnames : own.map Prod.fst = names) (hnodup : ("type" :: names).Nodup)
    (h : Widens (tagged tag own) other) :
    ∃ fields, other = .object fields ∧ readField "type" readString none fields = some tag ∧
      Carries own (fields.filter (·.1 ≠ "type")) := by
  subst hnames
  obtain ⟨fields, rfl, hcarries⟩ := h.object_inv
  refine ⟨fields, rfl, ?_, hcarries.tail (List.nodup_cons.mp hnodup).1⟩
  exact hcarries.readField hnodup 0 rfl readsBack_string

theorem HostMessage.reads : ReadsBack toJson (readObject ofFields) := by
  intro message other h
  cases message with
  | auth protocolVersion hostId signature =>
    obtain ⟨fields, rfl, htag, hcarries⟩ := tagged_inv ["protocol_version", "host_id",
      "signature"] rfl (by decide) h
    have hnodup : ["protocol_version", "host_id", "signature"].Nodup := by decide
    have hversion : readField "protocol_version" (readUnsigned 32) none
        (fields.filter (·.1 ≠ "type")) = some protocolVersion :=
      hcarries.readField hnodup 0 rfl (unsigned_reads 32)
    have hhost : readField "host_id" readString none (fields.filter (·.1 ≠ "type")) =
        some hostId := hcarries.readField hnodup 1 rfl readsBack_string
    have hsignature : readField "signature" readString none (fields.filter (·.1 ≠ "type")) =
        some signature := hcarries.readField hnodup 2 rfl readsBack_string
    simp only [readObject, ofFields, htag, hversion, hhost, hsignature, Option.bind_eq_bind,
      Option.bind_some]
    rfl
  | hello value =>
    obtain ⟨fields, rfl, htag, hcarries⟩ := tagged_inv ["protocol_version", "host_id", "os",
      "arch", "cores", "ram_bytes", "disk_free_bytes", "targets"] rfl (by decide) h
    simp only [readObject, ofFields, htag, Hello.ofFields_carries value hcarries,
      Option.bind_eq_bind, Option.bind_some]
    rfl
  | heartbeat value =>
    obtain ⟨fields, rfl, htag, hcarries⟩ := tagged_inv ["free_slots", "busy_slots",
      "cpu_load_percent", "free_ram_bytes", "unfit", "draining"] rfl (by decide) h
    simp only [readObject, ofFields, htag, Heartbeat.ofFields_carries value hcarries,
      Option.bind_eq_bind, Option.bind_some]
    rfl
  | unknown =>
    obtain ⟨fields, rfl, htag, -⟩ := tagged_inv [] rfl (by decide) h
    simp only [readObject, ofFields, htag, Option.bind_eq_bind, Option.bind_some]
    rfl

theorem ServerMessage.reads : ReadsBack toJson (readObject ofFields) := by
  intro message other h
  cases message with
  | challenge protocolVersion nonce =>
    obtain ⟨fields, rfl, htag, hcarries⟩ := tagged_inv ["protocol_version", "nonce"] rfl
      (by decide) h
    have hnodup : ["protocol_version", "nonce"].Nodup := by decide
    have hversion : readField "protocol_version" (readUnsigned 32) none
        (fields.filter (·.1 ≠ "type")) = some protocolVersion :=
      hcarries.readField hnodup 0 rfl (unsigned_reads 32)
    have hnonce : readField "nonce" readString none (fields.filter (·.1 ≠ "type")) =
        some nonce := hcarries.readField hnodup 1 rfl readsBack_string
    simp only [readObject, ofFields, htag, hversion, hnonce, Option.bind_eq_bind,
      Option.bind_some]
    rfl
  | welcome protocolVersion secs =>
    obtain ⟨fields, rfl, htag, hcarries⟩ := tagged_inv ["protocol_version",
      "heartbeat_interval_secs"] rfl (by decide) h
    have hnodup : ["protocol_version", "heartbeat_interval_secs"].Nodup := by decide
    have hversion : readField "protocol_version" (readUnsigned 32) none
        (fields.filter (·.1 ≠ "type")) = some protocolVersion :=
      hcarries.readField hnodup 0 rfl (unsigned_reads 32)
    have hsecs : readField "heartbeat_interval_secs" (readUnsigned 32) none
        (fields.filter (·.1 ≠ "type")) = some secs :=
      hcarries.readField hnodup 1 rfl (unsigned_reads 32)
    simp only [readObject, ofFields, htag, hversion, hsecs, Option.bind_eq_bind,
      Option.bind_some]
    rfl
  | wake value =>
    obtain ⟨fields, rfl, htag, hcarries⟩ := tagged_inv ["target", "repository", "reason",
      "delivery_id"] rfl (by decide) h
    simp only [readObject, ofFields, htag, Wake.ofFields_carries value hcarries,
      Option.bind_eq_bind, Option.bind_some]
    rfl
  | unknown =>
    obtain ⟨fields, rfl, htag, -⟩ := tagged_inv [] rfl (by decide) h
    simp only [readObject, ofFields, htag, Option.bind_eq_bind, Option.bind_some]
    rfl

end

/-! ## Frames -/

/-- `ProtocolError::Malformed`, the one error of a frame. -/
inductive FrameError where
  | malformed
deriving DecidableEq

section

variable {α : Type} (parse : List Char → Option Json) (read : Fields → Option α)

/-- `decode`: a frame longer than the limit is refused before it is parsed. -/
def decode (text : List Char) : Except FrameError α :=
  if byteLen text > maxMessageBytes then .error .malformed
  else
    match parse text with
    | none => .error .malformed
    | some value =>
      match readObject read value with
      | none => .error .malformed
      | some message => .ok message

/-- What the other side makes of a frame: its socket refuses a message longer than the same
limit, and what it lets through is decoded. -/
def accept (text : List Char) : Except FrameError α :=
  if byteLen text > maxMessageBytes then .error .malformed
  else decode parse read text

variable {parse read} {write : α → Json}

/-- What is written for a message, with whatever fields added, is accepted as that message
exactly when it fits. -/
theorem accept_iff (hreads : ReadsBack write (readObject read)) {message : α} {value : Json}
    (hwidens : Widens (write message) value) (hparse : parse value.render = some value) :
    accept parse read value.render = .ok message ↔ value.size ≤ maxMessageBytes := by
  unfold accept decode
  rw [byteLen_render]
  by_cases hsize : value.size > maxMessageBytes
  · rw [if_pos hsize]
    constructor
    · intro h
      cases h
    · intro h
      omega
  · rw [if_neg hsize, if_neg hsize, hparse]
    have hread := hreads message value hwidens
    simp only [hread]
    constructor
    · intro _
      omega
    · intro _
      trivial

theorem accept_long {value : Json} (h : maxMessageBytes < value.size) :
    accept parse read value.render = .error .malformed := by
  unfold accept
  rw [byteLen_render, if_pos h]

end

def HostMessage.encode (message : HostMessage) : List Char :=
  message.toJson.render

def ServerMessage.encode (message : ServerMessage) : List Char :=
  message.toJson.render

end RunnerManager.Coordinator
