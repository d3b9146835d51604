import RunnerManager.Lib.Table
import RunnerManager.Coordinator.Protocol
import RunnerManager.Domain.Model
import Mathlib.Data.Finset.Basic

/-!
# The hosts connected right now

`crates/coordinator/src/registry.rs`, `webhook.rs` and the `/webhook` handler of `server.rs`: the
connections of the hosts, the recent delivery ids, and which hosts a queued job wakes. A channel is
the bounded queue between the registry and the task that serves one connection. The operations are
in the order of the source; `AppState.Steps` is what one of them does.
-/

namespace RunnerManager.Coordinator

open RunnerManager.Text RunnerManager.Domain

/-! ## Labels -/

/-- `RunsOn::from_job_labels(..).required_labels()`; no answer means that the labels cannot be
resolved. -/
def requiredLabels (job : List String) : Option (List Label) :=
  if job.any fun raw ↦ contains "$\x7b\x7b".toList raw.toList then none
  else
    let usable := job.filter fun raw ↦ !(trim raw.toList).isEmpty
    if usable.isEmpty then none else usable.mapM fun raw ↦ (Label.new raw).toOption

def labelsCover (profile job : List String) : Bool :=
  match requiredLabels job with
  | none => false
  | some required =>
    let offered := profile.filterMap fun label ↦ (Label.new label).toOption
    required.all fun label ↦ offered.contains label

def Target.reference (target : Target) : TargetRef :=
  ⟨target.scope, target.name⟩

/-- The target can take the job. -/
def Target.takes (target : Target) (repository : String) (labels : List String) : Bool :=
  target.reference.covers repository &&
    target.profiles.any fun profile ↦ profile.enabled && labelsCover profile.labels labels

def matchingTarget (hello : Hello) (repository : String) (labels : List String) :
    Option TargetRef :=
  (hello.targets.find? fun target ↦ target.takes repository labels).map Target.reference

/-! ## Channels -/

def outboundQueue : Nat := 64

def closeReplaced : Nat := 4409

inductive Outbound where
  | send (message : ServerMessage)
  | close (code : Nat) (reason : String)
deriving DecidableEq

/-- The queue of one connection, and whether the task that reads it is still there. -/
structure Channel where
  pending : List Outbound
  attached : Bool
deriving DecidableEq

/-- A message can be queued. -/
def Channel.hasRoom (channel : Channel) : Bool :=
  channel.attached && decide (channel.pending.length < outboundQueue)

/-- All channels, by their number. -/
abbrev Channels := Nat → Channel

/-- `try_send`: no answer means that the message was dropped. -/
def Channels.trySend (channels : Channels) (sender : Nat) (message : Outbound) : Option Channels :=
  let channel := channels sender
  if channel.hasRoom then
    some (Function.update channels sender { channel with pending := channel.pending ++ [message] })
  else none

/-! ## The registry -/

/-- `Connected`, with the host that it is kept under. -/
structure Connected where
  hostId : String
  connection : Nat
  sender : Nat
  hello : Option Hello
  heartbeat : Option Heartbeat
deriving DecidableEq

/-- `Registry`: at most one connection per host. -/
structure Registry where
  hosts : Table Connected.hostId
  next : Nat

namespace Registry

/-- `Registry::register`: the new connection, and what the replaced one is told. -/
def register (registry : Registry) (channels : Channels) (hostId : String) (sender : Nat) :
    Registry × Channels :=
  let connection := registry.next
  let previous := registry.hosts.find? hostId
  let hosts := registry.hosts.put ⟨hostId, connection, sender, none, none⟩
  match previous with
  | none => (⟨hosts, connection + 1⟩, channels)
  | some previous =>
    (⟨hosts, connection + 1⟩,
      (channels.trySend previous.sender (.close closeReplaced "replaced")).getD channels)

def unregister (registry : Registry) (hostId : String) (connection : Nat) : Registry :=
  if (registry.hosts.find? hostId).any fun current ↦ current.connection = connection then
    { registry with hosts := registry.hosts.erase hostId }
  else registry

/-- Change the current connection of a host, if it has this token. -/
def update (registry : Registry) (hostId : String) (connection : Nat)
    (change : Connected → Connected) : Registry :=
  match registry.hosts.find? hostId with
  | none => registry
  | some current =>
    if current.connection = connection then
      { registry with hosts := registry.hosts.put (change current) }
    else registry

def setHello (registry : Registry) (hostId : String) (connection : Nat) (hello : Hello) :
    Registry :=
  registry.update hostId connection fun current ↦ { current with hello := some hello }

def setHeartbeat (registry : Registry) (hostId : String) (connection : Nat)
    (heartbeat : Heartbeat) : Registry :=
  registry.update hostId connection fun current ↦ { current with heartbeat := some heartbeat }

end Registry

/-- The body of the loop of `Registry::wake_for_job`. -/
def wakeHost (repository : String) (labels : List String) (deliveryId : String)
    (state : Channels × Nat) (connected : Connected) : Channels × Nat :=
  match connected.hello.bind fun hello ↦ matchingTarget hello repository labels with
  | none => state
  | some target =>
    match state.1.trySend connected.sender
      (.send (.wake ⟨target, repository, .jobQueued, deliveryId⟩)) with
    | some channels => (channels, state.2 + 1)
    | none => state

/-- `Registry::wake_for_job` over the hosts in the order in which the map lists them: the channels
afterwards, and how many hosts were woken. -/
def wakeForJob (order : List Connected) (channels : Channels) (repository : String)
    (labels : List String) (deliveryId : String) : Channels × Nat :=
  order.foldl (wakeHost repository labels deliveryId) (channels, 0)

/-! ## Deliveries -/

def deliveryMemory : Nat := 10000

structure DeliveryLog where
  seen : Finset String
  order : List String
  capacity : Nat

namespace DeliveryLog

def new (capacity : Nat) : DeliveryLog :=
  ⟨∅, [], max capacity 1⟩

/-- Make room for one more id. -/
def evict (log : DeliveryLog) : DeliveryLog :=
  if log.order.length = log.capacity then
    match log.order with
    | [] => log
    | oldest :: order => { log with seen := log.seen.erase oldest, order }
  else log

def firstTime (log : DeliveryLog) (id : String) : Bool × DeliveryLog :=
  if id ∈ log.seen then (false, log)
  else
    let log := log.evict
    (true, { log with seen := insert id log.seen, order := log.order ++ [id] })

end DeliveryLog

def validDeliveryId (id : String) : Bool :=
  decide (1 ≤ byteLen id.toList) && decide (byteLen id.toList ≤ 64) &&
    id.toList.all fun c ↦ isAsciiAlphanumeric c || c == '-'

/-- `WorkflowJobEvent`, less the ids that are only logged. -/
structure WorkflowJobEvent where
  action : String
  labels : List String
  repository : String
deriving DecidableEq

def actionName (action : String) : String :=
  match action with
  | "queued" => "queued"
  | "waiting" => "waiting"
  | "in_progress" => "in_progress"
  | "completed" => "completed"
  | _ => "other"

/-- What the handler reads of a request; a header that is not text is not there. -/
structure WebhookRequest where
  body : List UInt8
  signature : Option String
  event : Option String
  delivery : Option String
deriving DecidableEq

/-- The libraries that the handler uses: the HMAC-SHA256 of a body under the webhook secret, and
the JSON reader of an event. -/
structure WebhookLibraries where
  hmac : List UInt8 → List UInt8
  readEvent : List UInt8 → Option WorkflowJobEvent

/-- The value of a hexadecimal digit. -/
def hexDigit (c : Char) : Option UInt8 :=
  if '0' ≤ c ∧ c ≤ '9' then some (c.toNat - '0'.toNat).toUInt8
  else if 'a' ≤ c ∧ c ≤ 'f' then some (c.toNat - 'a'.toNat + 10).toUInt8
  else if 'A' ≤ c ∧ c ≤ 'F' then some (c.toNat - 'A'.toNat + 10).toUInt8
  else none

/-- `hex::decode`. -/
def hexDecode : List Char → Option (List UInt8)
  | [] => some []
  | [_] => none
  | high :: low :: rest => do
    let high ← hexDigit high
    let low ← hexDigit low
    let rest ← hexDecode rest
    return (high * 16 + low) :: rest

def signatureValid (libraries : WebhookLibraries) (body : List UInt8) (header : Option String) :
    Bool :=
  match header.bind fun value ↦
    ((trim value.toList).dropPrefix? "sha256=".toList).bind hexDecode with
  | none => false
  | some expected => expected = libraries.hmac body

/-- The answers of the handler. -/
inductive WebhookStatus where
  | unauthorized
  | badRequest
  | ok
  | accepted
deriving DecidableEq

/-- The state that the handlers share, and the channels of the connections so far. -/
structure AppState where
  registry : Registry
  deliveries : DeliveryLog
  channels : Channels
  opened : Nat

namespace AppState

/-- Nothing is connected. -/
def initial : AppState where
  registry := ⟨.empty, 0⟩
  deliveries := .new deliveryMemory
  channels _ := ⟨[], false⟩
  opened := 0

/-- What the handler does with the first delivery of an id. -/
def handleEvent (s : AppState) (libraries : WebhookLibraries) (order : List Connected)
    (request : WebhookRequest) (event delivery : String) : WebhookStatus × AppState :=
  match event with
  | "ping" => (.ok, s)
  | "workflow_job" =>
    match libraries.readEvent request.body with
    | none => (.badRequest, s)
    | some job =>
      if actionName job.action = "queued" then
        (.ok, { s with
          channels := (wakeForJob order s.channels job.repository job.labels delivery).1 })
      else (.ok, s)
  | _ => (.accepted, s)

/-- `webhook`, where the map lists the hosts in this order. -/
def webhook (s : AppState) (libraries : WebhookLibraries) (order : List Connected)
    (request : WebhookRequest) : WebhookStatus × AppState :=
  if !signatureValid libraries request.body request.signature then (.unauthorized, s)
  else
    match request.event, request.delivery with
    | some event, some delivery =>
      if !validDeliveryId delivery then (.badRequest, s)
      else
        let (firstTime, deliveries) := s.deliveries.firstTime delivery
        let s := { s with deliveries }
        if !firstTime then (.ok, s)
        else s.handleEvent libraries order request event delivery
    | _, _ => (.badRequest, s)

/-- An event of a run. A connection opens its channel when it registers; the task that serves it
takes messages from the channel and drops it when it ends. -/
inductive Event where
  | register (hostId : String)
  | unregister (hostId : String) (connection : Nat)
  | setHello (hostId : String) (connection : Nat) (hello : Hello)
  | setHeartbeat (hostId : String) (connection : Nat) (heartbeat : Heartbeat)
  | webhook (request : WebhookRequest)
  | receive (channel : Nat)
  | detach (channel : Nat)
deriving DecidableEq

/-- A connection registers with a new channel. -/
def connect (s : AppState) (hostId : String) : AppState :=
  let channels := Function.update s.channels s.opened ⟨[], true⟩
  let (registry, channels) := s.registry.register channels hostId s.opened
  { s with registry, channels, opened := s.opened + 1 }

def onChannel (s : AppState) (channel : Nat) (change : Channel → Channel) : AppState :=
  { s with channels := Function.update s.channels channel (change (s.channels channel)) }

/-- What an event does. A map lists its hosts in any order. -/
def Steps (libraries : WebhookLibraries) (s : AppState) (event : Event) (t : AppState) :
    Prop :=
  match event with
  | .register hostId => t = s.connect hostId
  | .unregister hostId connection =>
    t = { s with registry := s.registry.unregister hostId connection }
  | .setHello hostId connection hello =>
    t = { s with registry := s.registry.setHello hostId connection hello }
  | .setHeartbeat hostId connection heartbeat =>
    t = { s with registry := s.registry.setHeartbeat hostId connection heartbeat }
  | .webhook request => ∃ order, order.Perm s.registry.hosts.rows ∧
      t = (s.webhook libraries order request).2
  | .receive channel =>
    t = s.onChannel channel fun channel ↦ { channel with pending := channel.pending.tail }
  | .detach channel => t = s.onChannel channel fun channel ↦ { channel with attached := false }

/-- The runs from the start, with the events so far. -/
inductive Runs (libraries : WebhookLibraries) : List Event → AppState → Prop
  | start : Runs libraries [] initial
  | step {events : List Event} {s t : AppState} {event : Event} (h : Runs libraries events s)
      (hstep : s.Steps libraries event t) : Runs libraries (events ++ [event]) t

end AppState

end RunnerManager.Coordinator
