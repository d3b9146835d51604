import RunnerManager.Coordinator.Registry
import Mathlib.Data.List.DropRight

/-!
# Which hosts a queued job wakes

What the registry holds is read off the events so far: the connection of a host is that of its
latest registration, unless that one was unregistered with its own token. Read `Current` and
`recent` first; `wake_routing` says which hosts a delivery is sent to.
-/

namespace RunnerManager.Coordinator

/-! ## The delivery ids -/

namespace DeliveryLog

variable {log : DeliveryLog} {accepted : List String} {id : String}

/-- The log remembers the last ids that were accepted. -/
structure Remembers (log : DeliveryLog) (accepted : List String) : Prop where
  positive : 0 < log.capacity
  order : log.order = accepted.rtake log.capacity
  seen : ∀ id, id ∈ log.seen ↔ id ∈ log.order
  nodup : log.order.Nodup

theorem remembers_new (capacity : Nat) : (new capacity).Remembers [] where
  positive := by
    show 0 < max capacity 1
    omega
  order := by simp [new, List.rtake]
  seen := by simp [new]
  nodup := List.nodup_nil

theorem evict_order (h : log.Remembers accepted) :
    log.evict.order ++ [id] = (accepted ++ [id]).rtake log.capacity := by
  have hlength : log.order.length = min log.capacity accepted.length := by
    rw [h.order, List.rtake, List.length_drop]
    omega
  have hpositive := h.positive
  unfold evict
  by_cases hfull : log.order.length = log.capacity
  · rw [if_pos hfull]
    have hlong : log.capacity ≤ accepted.length := by omega
    cases horder : log.order with
    | nil =>
      rw [horder, List.length_nil] at hfull
      omega
    | cons oldest order =>
      have hdrop : oldest :: order = accepted.drop (accepted.length - log.capacity) := by
        rw [← horder, h.order, List.rtake]
      have htail : order = accepted.drop (accepted.length - log.capacity + 1) := by
        rw [← List.tail_drop, ← hdrop, List.tail_cons]
      show order ++ [id] = _
      have hle : accepted.length - log.capacity + 1 ≤ accepted.length := by omega
      rw [List.rtake, List.length_append, List.length_singleton, htail,
        show accepted.length + 1 - log.capacity = accepted.length - log.capacity + 1 by omega,
        List.drop_append_of_le_length hle]
  · rw [if_neg hfull, h.order, List.rtake, List.rtake, List.length_append, List.length_singleton]
    have hshort : accepted.length < log.capacity := by omega
    rw [show accepted.length - log.capacity = 0 by omega,
      show accepted.length + 1 - log.capacity = 0 by omega, List.drop_zero, List.drop_zero]

theorem evict_capacity : log.evict.capacity = log.capacity := by
  unfold evict
  split
  · split <;> rfl
  · rfl

theorem evict_seen (h : log.Remembers accepted) :
    (∀ id, id ∈ log.evict.seen ↔ id ∈ log.evict.order) ∧ log.evict.order.Nodup ∧
      ∀ id ∈ log.evict.order, id ∈ log.order := by
  unfold evict
  by_cases hfull : log.order.length = log.capacity
  · rw [if_pos hfull]
    have hseen := h.seen
    have hnodup := h.nodup
    cases horder : log.order with
    | nil =>
      rw [horder, List.length_nil] at hfull
      have hpositive := h.positive
      omega
    | cons oldest order =>
      rw [horder] at hseen hnodup
      obtain ⟨holdest, hrest⟩ := List.nodup_cons.mp hnodup
      refine ⟨fun id ↦ ?_, hrest, fun id hid ↦ List.mem_cons_of_mem _ hid⟩
      show id ∈ log.seen.erase oldest ↔ id ∈ order
      rw [Finset.mem_erase, hseen id, List.mem_cons]
      constructor
      · rintro ⟨hne, heq | hid⟩
        · exact absurd heq hne
        · exact hid
      · intro hid
        exact ⟨fun heq ↦ holdest (heq ▸ hid), .inr hid⟩
  · rw [if_neg hfull]
    exact ⟨h.seen, h.nodup, fun _ hid ↦ hid⟩

theorem firstTime_spec (h : log.Remembers accepted) (id : String) :
    (id ∈ accepted.rtake log.capacity ∧ log.firstTime id = (false, log)) ∨
      (id ∉ accepted.rtake log.capacity ∧ (log.firstTime id).1 = true ∧
        (log.firstTime id).2.capacity = log.capacity ∧
        (log.firstTime id).2.Remembers (accepted ++ [id])) := by
  have hmem : id ∈ log.seen ↔ id ∈ accepted.rtake log.capacity := by
    rw [h.seen id, h.order]
  by_cases hid : id ∈ log.seen
  · exact .inl ⟨hmem.mp hid, by rw [firstTime, if_pos hid]⟩
  refine .inr ⟨fun hrecent ↦ hid (hmem.mpr hrecent), ?_⟩
  rw [firstTime, if_neg hid]
  obtain ⟨hseen, hnodup, hsubset⟩ := evict_seen h
  refine ⟨rfl, evict_capacity, ⟨?_, ?_, ?_, ?_⟩⟩
  · show 0 < log.evict.capacity
    rw [evict_capacity]
    exact h.positive
  · show log.evict.order ++ [id] = (accepted ++ [id]).rtake log.evict.capacity
    rw [evict_capacity, evict_order h]
  · intro other
    show other ∈ insert id log.evict.seen ↔ other ∈ log.evict.order ++ [id]
    rw [Finset.mem_insert, hseen other, List.mem_append, List.mem_singleton]
    exact Or.comm
  · show (log.evict.order ++ [id]).Nodup
    rw [List.nodup_append]
    refine ⟨hnodup, List.nodup_singleton id, fun a ha b hb ↦ ?_⟩
    rw [List.mem_singleton] at hb
    intro hab
    exact hid ((h.seen id).mpr (hsubset id (hb ▸ hab ▸ ha)))

end DeliveryLog

/-! ## The channels -/

section Channels

variable {channels : Channels} {repository deliveryId : String} {labels : List String}

/-- What a queued job does to the channel of one host. -/
def wakeChannel (repository : String) (labels : List String) (deliveryId : String)
    (connected : Connected) (channel : Channel) : Channel :=
  match connected.hello.bind fun hello ↦ matchingTarget hello repository labels with
  | none => channel
  | some target =>
    if channel.hasRoom then
      { channel with pending := channel.pending ++
          [.send (.wake ⟨target, repository, .jobQueued, deliveryId⟩)] }
    else channel

theorem wakeHost_channels (connected : Connected) (state : Channels × Nat) (channel : Nat) :
    (wakeHost repository labels deliveryId state connected).1 channel =
      if channel = connected.sender then
        wakeChannel repository labels deliveryId connected (state.1 connected.sender)
      else state.1 channel := by
  unfold wakeHost wakeChannel
  cases hmatch : connected.hello.bind fun hello ↦ matchingTarget hello repository labels with
  | none =>
    show state.1 channel = _
    split
    · next heq => rw [heq]
    · rfl
  | some target =>
    simp only [Channels.trySend]
    by_cases hroom : (state.1 connected.sender).hasRoom = true
    · simp only [hroom, if_true]
      by_cases hchannel : channel = connected.sender
      · subst hchannel
        rw [Function.update_self, if_pos rfl]
      · rw [Function.update_of_ne hchannel, if_neg hchannel]
    · simp only [hroom, Bool.false_eq_true, if_false]
      split
      · next heq => rw [heq]
      · rfl

theorem wakeLoop_channels {order : List Connected} {state : Channels × Nat}
    (hsenders : (order.map Connected.sender).Nodup) :
    (∀ connected ∈ order,
        (order.foldl (wakeHost repository labels deliveryId) state).1 connected.sender =
          wakeChannel repository labels deliveryId connected (state.1 connected.sender)) ∧
      ∀ channel, channel ∉ order.map Connected.sender →
        (order.foldl (wakeHost repository labels deliveryId) state).1 channel =
          state.1 channel := by
  induction order generalizing state with
  | nil =>
    refine ⟨fun connected hconnected ↦ ?_, fun _ _ ↦ rfl⟩
    cases hconnected
  | cons first rest ih =>
    rw [List.map_cons, List.nodup_cons] at hsenders
    obtain ⟨hfirst, hrest⟩ := hsenders
    have htail := @ih (wakeHost repository labels deliveryId state first) hrest
    obtain ⟨hinside, houtside⟩ := htail
    refine ⟨fun connected hconnected ↦ ?_, fun channel hchannel ↦ ?_⟩
    · rw [List.foldl_cons]
      rcases List.mem_cons.mp hconnected with rfl | hlater
      · rw [houtside _ hfirst, wakeHost_channels, if_pos rfl]
      · have hne : connected.sender ≠ first.sender := by
          intro heq
          exact hfirst (heq ▸ List.mem_map_of_mem hlater)
        rw [hinside connected hlater, wakeHost_channels, if_neg hne]
    · rw [List.map_cons, List.mem_cons, not_or] at hchannel
      rw [List.foldl_cons, houtside _ hchannel.2, wakeHost_channels, if_neg hchannel.1]

end Channels

/-! ## The events so far -/

namespace AppState

section History

variable {libraries : WebhookLibraries} {events : List Event} {s t : AppState} {event : Event}
  {hostId : String} {connection : Nat} {connected : Connected}

/-- How many connections have registered. -/
def registrations (events : List Event) : Nat :=
  events.countP fun event ↦
    match event with
    | .register _ => true
    | _ => false

def helloOf (hostId : String) (connection : Nat) : Event → Option Hello
  | .setHello host token hello => if host = hostId ∧ token = connection then some hello else none
  | _ => none

def heartbeatOf (hostId : String) (connection : Nat) : Event → Option Heartbeat
  | .setHeartbeat host token heartbeat =>
    if host = hostId ∧ token = connection then some heartbeat else none
  | _ => none

/-- The connection of the latest registration of a host, not yet unregistered with its token, and
what was last said with that token since. -/
def Current (events : List Event) (hostId : String) (connected : Connected) : Prop :=
  ∃ earlier later, events = earlier ++ .register hostId :: later ∧ .register hostId ∉ later ∧
    .unregister hostId connected.connection ∉ later ∧ connected.hostId = hostId ∧
    connected.connection = registrations earlier ∧ connected.sender = registrations earlier ∧
    connected.hello = (later.filterMap (helloOf hostId connected.connection)).getLast? ∧
    connected.heartbeat = (later.filterMap (heartbeatOf hostId connected.connection)).getLast?

/-- The connection after an event that neither replaces nor removes it. -/
def after (connected : Connected) (event : Event) : Connected :=
  { connected with
    hello := helloOf connected.hostId connected.connection event <|> connected.hello
    heartbeat := heartbeatOf connected.hostId connected.connection event <|> connected.heartbeat }

def fresh (events : List Event) (hostId : String) : Connected :=
  ⟨hostId, registrations events, registrations events, none, none⟩

theorem getLast?_filterMap_concat {α : Type} (f : Event → Option α) (later : List Event) :
    ((later ++ [event]).filterMap f).getLast? = (f event <|> (later.filterMap f).getLast?) := by
  rw [List.filterMap_append, List.getLast?_append]
  cases hf : f event with
  | none => simp [hf]
  | some value => simp [hf]

theorem current_concat : Current (events ++ [event]) hostId connected ↔
    event = .register hostId ∧ connected = fresh events hostId ∨
      event ≠ .register hostId ∧ ∃ before, Current events hostId before ∧
        event ≠ .unregister hostId before.connection ∧ connected = after before event := by
  constructor
  · rintro ⟨earlier, later, hevents, hregister, hunregister, hhost, htoken, hsender, hhello, hbeat⟩
    rcases List.eq_nil_or_concat later with rfl | ⟨before, last, rfl⟩
    · obtain ⟨rfl, hlast⟩ := List.append_inj' hevents rfl
      rw [List.cons.injEq] at hlast
      refine .inl ⟨hlast.1, ?_⟩
      obtain ⟨_, _, _, _, _⟩ := connected
      simp only [List.filterMap_nil, List.getLast?_nil] at hhello hbeat hhost htoken hsender
      subst hhost htoken hsender hhello hbeat
      rfl
    · rw [List.concat_eq_append] at hevents hregister hunregister hhello hbeat
      rw [← List.cons_append, ← List.append_assoc] at hevents
      obtain ⟨rfl, hlast⟩ := List.append_inj' hevents rfl
      rw [List.cons.injEq] at hlast
      obtain ⟨rfl, -⟩ := hlast
      rw [List.mem_append, not_or, List.mem_singleton] at hregister hunregister
      refine .inr ⟨fun heq ↦ hregister.2 heq.symm, ⟨hostId, connected.connection, connected.sender,
        (before.filterMap (helloOf hostId connected.connection)).getLast?,
        (before.filterMap (heartbeatOf hostId connected.connection)).getLast?⟩, ?_, ?_, ?_⟩
      · exact ⟨earlier, before, rfl, hregister.1, hunregister.1, rfl, htoken, hsender, rfl, rfl⟩
      · exact fun heq ↦ hunregister.2 heq.symm
      · rw [getLast?_filterMap_concat] at hhello hbeat
        obtain ⟨_, _, _, _, _⟩ := connected
        simp only at hhost hhello hbeat
        subst hhost hhello hbeat
        rfl
  · rintro (⟨rfl, rfl⟩ | ⟨hregister, before, hbefore, hunregister, rfl⟩)
    · exact ⟨events, [], rfl, List.not_mem_nil, List.not_mem_nil, rfl, rfl, rfl, rfl, rfl⟩
    · obtain ⟨earlier, later, rfl, hlater, hkept, rfl, htoken, hsender, hhello, hbeat⟩ := hbefore
      refine ⟨earlier, later ++ [event], by simp, ?_, ?_, rfl, htoken, hsender, ?_, ?_⟩
      · rw [List.mem_append, List.mem_singleton, not_or]
        exact ⟨hlater, fun heq ↦ hregister heq.symm⟩
      · rw [List.mem_append, List.mem_singleton, not_or]
        exact ⟨hkept, fun heq ↦ hunregister heq.symm⟩
      · rw [getLast?_filterMap_concat]
        show _ = (_ <|> (later.filterMap (helloOf before.hostId before.connection)).getLast?)
        rw [← hhello]
        rfl
      · rw [getLast?_filterMap_concat]
        show _ = (_ <|> (later.filterMap (heartbeatOf before.hostId before.connection)).getLast?)
        rw [← hbeat]
        rfl

end History

/-! ## What an event does -/

section Steps

variable {libraries : WebhookLibraries} {events : List Event} {s t : AppState} {event : Event}
  {hostId : String}

theorem find?_register (registry : Registry) (channels : Channels) (host : String) (sender : Nat)
    (hostId : String) :
    (registry.register channels host sender).1.hosts.find? hostId =
        (if hostId = host then some ⟨host, registry.next, sender, none, none⟩
          else registry.hosts.find? hostId) ∧
      (registry.register channels host sender).1.next = registry.next + 1 := by
  unfold Registry.register
  cases registry.hosts.find? host with
  | none => exact ⟨Table.find?_put _ _, rfl⟩
  | some previous => exact ⟨Table.find?_put _ _, rfl⟩

theorem find?_unregister (registry : Registry) (host : String) (token : Nat) (hostId : String) :
    (registry.unregister host token).hosts.find? hostId =
      if hostId = host then (registry.hosts.find? host).filter (·.connection ≠ token)
      else registry.hosts.find? hostId := by
  unfold Registry.unregister
  by_cases hhost : hostId = host
  · rw [if_pos hhost, hhost]
    cases hfind : registry.hosts.find? host with
    | none => simpa using hfind
    | some current =>
      by_cases htoken : current.connection = token
      · simp [Option.filter_some, htoken, Table.find?_erase]
      · simpa [Option.filter_some, htoken] using hfind
  · rw [if_neg hhost]
    split
    · exact (Table.find?_erase host hostId).trans (if_neg hhost)
    · rfl

theorem find?_update (registry : Registry) (host : String) (token : Nat)
    (change : Connected → Connected) (hchange : ∀ c, (change c).hostId = c.hostId)
    (hostId : String) :
    (registry.update host token change).hosts.find? hostId =
      if hostId = host then
        (registry.hosts.find? host).map fun c ↦ if c.connection = token then change c else c
      else registry.hosts.find? hostId := by
  unfold Registry.update
  cases hfind : registry.hosts.find? host with
  | none =>
    by_cases hhost : hostId = host
    · rw [if_pos hhost, hhost]
      exact hfind
    · rw [if_neg hhost]
  | some current =>
    have hkey : (change current).hostId = host :=
      (hchange current).trans (Table.key_of_find? hfind)
    by_cases htoken : current.connection = token
    · simp only [htoken, if_true, Option.map_some, Table.find?_put, hkey]
    · simp only [htoken, if_false, Option.map_some]
      by_cases hhost : hostId = host
      · rw [if_pos hhost, hhost, hfind]
      · rw [if_neg hhost]

theorem webhook_registry (order : List Connected) (request : WebhookRequest) :
    (s.webhook libraries order request).2.registry = s.registry ∧
      (s.webhook libraries order request).2.opened = s.opened := by
  unfold webhook
  split
  · exact ⟨rfl, rfl⟩
  split
  · split
    · exact ⟨rfl, rfl⟩
    dsimp only
    split
    · exact ⟨rfl, rfl⟩
    · unfold handleEvent
      repeat' split
      all_goals exact ⟨rfl, rfl⟩
  · exact ⟨rfl, rfl⟩

def Event.host : Event → Option String
  | .register host | .unregister host _ | .setHello host _ _ | .setHeartbeat host _ _ => some host
  | .webhook _ | .receive _ | .detach _ => none

def next (s : AppState) (event : Event) (hostId : String) : Option Connected :=
  if event = .register hostId then some ⟨hostId, s.registry.next, s.opened, none, none⟩
  else (s.registry.hosts.find? hostId).bind fun c ↦
    if event = .unregister hostId c.connection then none else some (after c event)

theorem next_of_other (h : event.host ≠ some hostId) :
    s.next event hostId = s.registry.hosts.find? hostId := by
  have hregister : event ≠ .register hostId := by
    rintro rfl
    exact h rfl
  rw [next, if_neg hregister]
  cases hfind : s.registry.hosts.find? hostId with
  | none => rfl
  | some c =>
    have hkey : c.hostId = hostId := Table.key_of_find? hfind
    have hunregister : event ≠ .unregister hostId c.connection := by
      rintro rfl
      exact h rfl
    rw [Option.bind_some, if_neg hunregister, Option.some.injEq]
    cases event with
    | setHello host token hello =>
      have hhost : host ≠ c.hostId := fun heq ↦ h (by rw [Event.host, heq, hkey])
      simp [after, helloOf, heartbeatOf, hhost]
    | setHeartbeat host token heartbeat =>
      have hhost : host ≠ c.hostId := fun heq ↦ h (by rw [Event.host, heq, hkey])
      simp [after, helloOf, heartbeatOf, hhost]
    | register | unregister | webhook | receive | detach => simp [after, helloOf, heartbeatOf]

theorem find?_of_other (hstep : s.Steps libraries event t) (h : event.host ≠ some hostId) :
    t.registry.hosts.find? hostId = s.registry.hosts.find? hostId := by
  cases event with
  | register host =>
    obtain rfl : t = s.connect host := hstep
    have hhost : hostId ≠ host := fun heq ↦ h (congrArg some heq.symm)
    exact (find?_register s.registry _ host s.opened hostId).1.trans (if_neg hhost)
  | unregister host token =>
    obtain rfl : t = { s with registry := s.registry.unregister host token } := hstep
    have hhost : hostId ≠ host := fun heq ↦ h (congrArg some heq.symm)
    exact (find?_unregister s.registry host token hostId).trans (if_neg hhost)
  | setHello host token hello =>
    obtain rfl : t = { s with registry := s.registry.setHello host token hello } := hstep
    have hhost : hostId ≠ host := fun heq ↦ h (congrArg some heq.symm)
    exact (find?_update s.registry host token (fun c ↦ { c with hello := some hello })
      (fun _ ↦ rfl) hostId).trans (if_neg hhost)
  | setHeartbeat host token heartbeat =>
    obtain rfl : t = { s with registry := s.registry.setHeartbeat host token heartbeat } := hstep
    have hhost : hostId ≠ host := fun heq ↦ h (congrArg some heq.symm)
    exact (find?_update s.registry host token (fun c ↦ { c with heartbeat := some heartbeat })
      (fun _ ↦ rfl) hostId).trans (if_neg hhost)
  | webhook request =>
    obtain ⟨order, -, rfl⟩ := hstep
    rw [(webhook_registry order request).1]
  | receive channel =>
    obtain rfl := hstep
    rfl
  | detach channel =>
    obtain rfl := hstep
    rfl

theorem next_eq_map (event : Event) (token : Nat) (change : Connected → Connected)
    (hregister : event ≠ .register hostId) (hunregister : ∀ token, event ≠ .unregister hostId token)
    (hchange : ∀ c, c.hostId = hostId →
      after c event = if c.connection = token then change c else c) :
    s.next event hostId = (s.registry.hosts.find? hostId).map fun c ↦
      if c.connection = token then change c else c := by
  rw [next, if_neg hregister]
  cases hfind : s.registry.hosts.find? hostId with
  | none => rfl
  | some c =>
    rw [Option.bind_some, if_neg (hunregister _), Option.map_some,
      hchange c (Table.key_of_find? hfind)]

theorem find?_steps (hstep : s.Steps libraries event t) (hostId : String) :
    t.registry.hosts.find? hostId = s.next event hostId := by
  by_cases hother : event.host ≠ some hostId
  · rw [find?_of_other hstep hother, next_of_other hother]
  rw [not_not] at hother
  cases event with
  | register host =>
    obtain rfl : host = hostId := Option.some.inj hother
    obtain rfl : t = s.connect host := hstep
    rw [next, if_pos rfl]
    exact (find?_register s.registry _ host s.opened host).1.trans (if_pos rfl)
  | unregister host token =>
    obtain rfl : host = hostId := Option.some.inj hother
    obtain rfl : t = { s with registry := s.registry.unregister host token } := hstep
    rw [next, if_neg (fun heq ↦ nomatch heq)]
    refine (find?_unregister s.registry host token host).trans ((if_pos rfl).trans ?_)
    cases s.registry.hosts.find? host with
    | none => rfl
    | some c =>
      rw [Option.bind_some, Option.filter_some]
      by_cases htoken : c.connection = token
      · simp [htoken]
      · simp [htoken, Ne.symm htoken, after, helloOf, heartbeatOf]
  | setHello host token hello =>
    obtain rfl : host = hostId := Option.some.inj hother
    obtain rfl : t = { s with registry := s.registry.setHello host token hello } := hstep
    rw [next_eq_map (.setHello host token hello) token
      (fun c ↦ { c with hello := some hello }) (fun h ↦ nomatch h) (fun _ h ↦ nomatch h)]
    · exact (find?_update s.registry host token (fun c ↦ { c with hello := some hello })
        (fun _ ↦ rfl) host).trans (if_pos rfl)
    · rintro c rfl
      by_cases htoken : c.connection = token
      · simp [htoken, after, helloOf, heartbeatOf]
      · simp [htoken, Ne.symm htoken, after, helloOf, heartbeatOf]
  | setHeartbeat host token heartbeat =>
    obtain rfl : host = hostId := Option.some.inj hother
    obtain rfl : t = { s with registry := s.registry.setHeartbeat host token heartbeat } := hstep
    rw [next_eq_map (.setHeartbeat host token heartbeat) token
      (fun c ↦ { c with heartbeat := some heartbeat }) (fun h ↦ nomatch h)
      (fun _ h ↦ nomatch h)]
    · exact (find?_update s.registry host token (fun c ↦ { c with heartbeat := some heartbeat })
        (fun _ ↦ rfl) host).trans (if_pos rfl)
    · rintro c rfl
      by_cases htoken : c.connection = token
      · simp [htoken, after, helloOf, heartbeatOf]
      · simp [htoken, Ne.symm htoken, after, helloOf, heartbeatOf]
  | webhook | receive | detach => cases hother

end Steps

/-! ## Runs -/

/-- The id of a request that the handler takes for a delivery. -/
def identified (libraries : WebhookLibraries) (request : WebhookRequest) : Option String :=
  if signatureValid libraries request.body request.signature then
    match request.event, request.delivery with
    | some _, some id => if validDeliveryId id then some id else none
    | _, _ => none
  else none

/-- The ids accepted after an event. -/
def accept (libraries : WebhookLibraries) (accepted : List String) : Event → List String
  | .webhook request =>
    match identified libraries request with
    | none => accepted
    | some id => if id ∈ accepted.rtake deliveryMemory then accepted else accepted ++ [id]
  | _ => accepted

/-- The ids accepted so far, the oldest first. -/
def accepted (libraries : WebhookLibraries) (events : List Event) : List String :=
  events.foldl (accept libraries) []

/-- The last accepted ids. -/
def recent (libraries : WebhookLibraries) (events : List Event) : List String :=
  (accepted libraries events).rtake deliveryMemory

section Runs

variable {libraries : WebhookLibraries} {events : List Event} {s t : AppState} {event : Event}
  {hostId : String} {order : List Connected} {request : WebhookRequest}

theorem webhook_cases (s : AppState) (libraries : WebhookLibraries) (order : List Connected)
    (request : WebhookRequest) :
    identified libraries request = none ∧ (s.webhook libraries order request).2 = s ∨
    ∃ id name, identified libraries request = some id ∧ request.event = some name ∧
      request.delivery = some id ∧ s.webhook libraries order request =
        if (s.deliveries.firstTime id).1 then
          { s with deliveries := (s.deliveries.firstTime id).2 }.handleEvent libraries order request
            name id
        else (.ok, { s with deliveries := (s.deliveries.firstTime id).2 }) := by
  unfold identified webhook
  by_cases hsigned : signatureValid libraries request.body request.signature = true
  · simp only [hsigned, if_true, Bool.not_true, Bool.false_eq_true, if_false]
    cases hevent : request.event with
    | none => exact .inl ⟨rfl, rfl⟩
    | some name =>
      cases hdelivery : request.delivery with
      | none => exact .inl ⟨rfl, rfl⟩
      | some id =>
        by_cases hvalid : validDeliveryId id = true
        · refine .inr ⟨id, name, by simp [hvalid], rfl, rfl, ?_⟩
          simp only [hvalid, Bool.not_true, Bool.false_eq_true, if_false]
          cases (s.deliveries.firstTime id).1 with
          | false => rfl
          | true => rfl
        · exact .inl ⟨by simp [hvalid], by simp [hvalid]⟩
  · exact .inl ⟨by simp [hsigned], by simp [hsigned]⟩

theorem handleEvent_deliveries (name id : String) :
    (s.handleEvent libraries order request name id).2.deliveries = s.deliveries := by
  unfold handleEvent
  repeat' split
  all_goals rfl

/-- What the state says is what the events so far say. -/
structure Routed (libraries : WebhookLibraries) (events : List Event) (s : AppState) : Prop where
  opened : s.opened = registrations events
  next : s.registry.next = registrations events
  current : ∀ hostId connected,
    s.registry.hosts.find? hostId = some connected ↔ Current events hostId connected
  capacity : s.deliveries.capacity = deliveryMemory
  remembers : s.deliveries.Remembers (accepted libraries events)

theorem routed_initial : Routed libraries [] initial where
  opened := rfl
  next := rfl
  current hostId connected := by
    refine ⟨(fun h ↦ nomatch h), ?_⟩
    rintro ⟨earlier, later, hevents, -⟩
    exact absurd hevents (List.append_ne_nil_of_right_ne_nil _ (List.cons_ne_nil _ _)).symm
  capacity := rfl
  remembers := DeliveryLog.remembers_new deliveryMemory

/-- Only a registration uses a token and a channel. -/
theorem counters_steps (hstep : s.Steps libraries event t)
    (hopened : s.opened = registrations events)
    (hnext : s.registry.next = registrations events) :
    t.opened = registrations (events ++ [event]) ∧
      t.registry.next = registrations (events ++ [event]) := by
  unfold registrations at hopened hnext ⊢
  rw [List.countP_append, List.countP_singleton]
  cases event with
  | register host =>
    obtain rfl : t = s.connect host := hstep
    refine ⟨congrArg (· + 1) hopened, ?_⟩
    exact (find?_register s.registry _ host s.opened host).2.trans (congrArg (· + 1) hnext)
  | unregister host token =>
    obtain rfl : t = { s with registry := s.registry.unregister host token } := hstep
    refine ⟨hopened, Eq.trans ?_ hnext⟩
    show (s.registry.unregister host token).next = s.registry.next
    unfold Registry.unregister
    split <;> rfl
  | setHello host token hello =>
    obtain rfl : t = { s with registry := s.registry.setHello host token hello } := hstep
    refine ⟨hopened, Eq.trans ?_ hnext⟩
    show (s.registry.update host token _).next = s.registry.next
    unfold Registry.update
    repeat' split
    all_goals rfl
  | setHeartbeat host token heartbeat =>
    obtain rfl : t = { s with registry := s.registry.setHeartbeat host token heartbeat } := hstep
    refine ⟨hopened, Eq.trans ?_ hnext⟩
    show (s.registry.update host token _).next = s.registry.next
    unfold Registry.update
    repeat' split
    all_goals rfl
  | webhook request =>
    obtain ⟨order, -, rfl⟩ := hstep
    obtain ⟨hregistry, hsame⟩ : (s.webhook libraries order request).2.registry = s.registry ∧ _ :=
      webhook_registry order request
    exact ⟨hsame.trans hopened, (congrArg Registry.next hregistry).trans hnext⟩
  | receive channel =>
    obtain rfl := hstep
    exact ⟨hopened, hnext⟩
  | detach channel =>
    obtain rfl := hstep
    exact ⟨hopened, hnext⟩

theorem deliveries_steps (hstep : s.Steps libraries event t)
    (hcapacity : s.deliveries.capacity = deliveryMemory)
    (h : s.deliveries.Remembers (accepted libraries events)) :
    t.deliveries.capacity = deliveryMemory ∧
      t.deliveries.Remembers (accepted libraries (events ++ [event])) := by
  unfold accepted at h ⊢
  rw [List.foldl_append, List.foldl_cons, List.foldl_nil]
  cases event with
  | webhook request =>
    obtain ⟨order, -, rfl⟩ := hstep
    rcases webhook_cases s libraries order request with
      ⟨hnone, hsame⟩ | ⟨id, name, hid, -, -, hwebhook⟩
    · rw [hsame, accept, hnone]
      exact ⟨hcapacity, h⟩
    · rw [accept, hid, hwebhook]
      have hspec := DeliveryLog.firstTime_spec h id
      rw [hcapacity] at hspec
      rcases hspec with ⟨hrecent, hfirst⟩ | ⟨hrecent, hfirst, hkeeps, hremembers⟩
      · simp only [hfirst, hrecent, if_true, Bool.false_eq_true, if_false]
        exact ⟨hcapacity, h⟩
      · rw [if_pos hfirst, handleEvent_deliveries]
        simp only [hrecent, if_false]
        exact ⟨hkeeps, hremembers⟩
  | register host =>
    obtain rfl : t = s.connect host := hstep
    exact ⟨hcapacity, h⟩
  | unregister | setHello | setHeartbeat | receive | detach =>
    obtain rfl := hstep
    exact ⟨hcapacity, h⟩

theorem Routed.step (h : Routed libraries events s) (hstep : s.Steps libraries event t) :
    Routed libraries (events ++ [event]) t := by
  obtain ⟨hopened, hnext⟩ := counters_steps hstep h.opened h.next
  obtain ⟨hcapacity, hremembers⟩ := deliveries_steps hstep h.capacity h.remembers
  refine ⟨hopened, hnext, fun hostId connected ↦ ?_, hcapacity, hremembers⟩
  rw [find?_steps hstep, current_concat, AppState.next]
  by_cases hregister : event = .register hostId
  · rw [if_pos hregister, h.next, h.opened, Option.some.injEq]
    refine ⟨fun heq ↦ .inl ⟨hregister, heq.symm⟩, ?_⟩
    rintro (⟨-, rfl⟩ | ⟨hne, -⟩)
    · rfl
    · exact absurd hregister hne
  · rw [if_neg hregister, Option.bind_eq_some_iff]
    constructor
    · rintro ⟨before, hfind, hafter⟩
      by_cases hunregister : event = .unregister hostId before.connection
      · rw [if_pos hunregister] at hafter
        cases hafter
      · rw [if_neg hunregister, Option.some.injEq] at hafter
        exact .inr ⟨hregister, before, (h.current hostId before).mp hfind, hunregister, hafter.symm⟩
    · rintro (⟨heq, -⟩ | ⟨-, before, hbefore, hunregister, rfl⟩)
      · exact absurd heq hregister
      · refine ⟨before, (h.current hostId before).mpr hbefore, ?_⟩
        rw [if_neg hunregister]

theorem routed_of_runs (h : Runs libraries events s) : Routed libraries events s := by
  induction h with
  | start => exact routed_initial
  | step _ hstep ih => exact ih.step hstep

end Runs

/-! ## The hosts a delivery wakes -/

/-- The connection has said that it serves a target that can take the job. -/
def Serves (connected : Connected) (target : Target) (repository : String) (labels : List String) :
    Prop :=
  (∃ hello, connected.hello = some hello ∧ target ∈ hello.targets) ∧
    target.reference.covers repository = true ∧
    ∃ profile ∈ target.profiles, profile.enabled = true ∧ labelsCover profile.labels labels = true

/-- The request is a delivery of a queued job. -/
structure Queues (libraries : WebhookLibraries) (request : WebhookRequest) (id : String)
    (job : WorkflowJobEvent) : Prop where
  signed : signatureValid libraries request.body request.signature = true
  event : request.event = some "workflow_job"
  delivery : request.delivery = some id
  valid : validDeliveryId id = true
  body : libraries.readEvent request.body = some job
  action : job.action = "queued"

section Wakes

variable {libraries : WebhookLibraries} {events : List Event} {s t : AppState}
  {repository deliveryId : String} {labels : List String} {connected : Connected}

/-- The first target that can take the job, if there is one. -/
theorem matchingTarget_cases :
    (∃ target, Serves connected target repository labels ∧
        connected.hello.bind (fun hello ↦ matchingTarget hello repository labels) =
          some target.reference) ∨
      (¬ ∃ target, Serves connected target repository labels) ∧
        connected.hello.bind (fun hello ↦ matchingTarget hello repository labels) = none := by
  -- What the loop tests of a target is what `Serves` says of it.
  have htakes (target : Target) : target.takes repository labels = true ↔
      target.reference.covers repository = true ∧ ∃ profile ∈ target.profiles,
        profile.enabled = true ∧ labelsCover profile.labels labels = true := by
    simp [Target.takes, List.any_eq_true]
  cases hhello : connected.hello with
  | none =>
    refine .inr ⟨?_, rfl⟩
    rintro ⟨target, ⟨hello, hsaid, -⟩, -⟩
    rw [hhello] at hsaid
    cases hsaid
  | some hello =>
    rw [Option.bind_some, matchingTarget]
    cases hfind : hello.targets.find? fun target ↦ target.takes repository labels with
    | none =>
      refine .inr ⟨?_, rfl⟩
      rintro ⟨target, ⟨said, hsaid, htarget⟩, hserves⟩
      rw [hhello, Option.some.injEq] at hsaid
      subst hsaid
      have hnot := List.find?_eq_none.mp hfind target htarget
      exact hnot ((htakes target).mpr hserves)
    | some target =>
      refine .inl ⟨target, ⟨⟨hello, hhello, List.mem_of_find?_eq_some hfind⟩, ?_⟩, rfl⟩
      have hsome := List.find?_some hfind
      exact (htakes target).mp hsome

/-- A registration is told apart from every other by how many came before. -/
theorem registration_inj {first second later rest : List Event} {a b : String}
    (h : first ++ .register a :: later = second ++ .register b :: rest)
    (hcount : registrations first = registrations second) : a = b := by
  -- Neither can be a proper part of the other: it would count one registration less.
  have hshort {first second later : List Event} {a : String}
      (hlist : second = first ++ .register a :: later) :
      registrations first < registrations second := by
    rw [hlist]
    unfold registrations
    rw [List.countP_append, List.countP_cons]
    simp only [if_true]
    omega
  rcases List.append_eq_append_iff.mp h with ⟨middle, hsecond, hrest⟩ | ⟨middle, hfirst, hrest⟩
  · cases middle with
    | nil =>
      rw [List.nil_append, List.cons.injEq] at hrest
      exact Event.register.inj hrest.1
    | cons head tail =>
      rw [List.cons_append, List.cons.injEq] at hrest
      rw [← hrest.1] at hsecond
      have hless := hshort hsecond
      omega
  · cases middle with
    | nil =>
      rw [List.nil_append, List.cons.injEq] at hrest
      exact (Event.register.inj hrest.1).symm
    | cons head tail =>
      rw [List.cons_append, List.cons.injEq] at hrest
      rw [← hrest.1] at hfirst
      have hless := hshort hfirst
      omega

theorem Routed.senders (h : Routed libraries events s) {order : List Connected}
    (horder : order.Perm s.registry.hosts.rows) : (order.map Connected.sender).Nodup := by
  refine (horder.map Connected.sender).nodup_iff.mpr ?_
  refine List.Nodup.map_on (fun a ha b hb hsender ↦ ?_) (List.Nodup.of_map _ s.registry.hosts.nodup)
  obtain ⟨earlierA, laterA, hA, -, -, -, -, hsenderA, -⟩ :=
    (h.current a.hostId a).mp (Table.mem_iff_find?.mp ha)
  obtain ⟨earlierB, laterB, hB, -, -, -, -, hsenderB, -⟩ :=
    (h.current b.hostId b).mp (Table.mem_iff_find?.mp hb)
  have hhost : a.hostId = b.hostId := by
    refine registration_inj (hA.symm.trans hB) ?_
    rw [← hsenderA, hsender, hsenderB]
  exact s.registry.hosts.eq_of_key ha hb hhost

theorem webhook_channels {order : List Connected} {request : WebhookRequest} {id : String}
    {job : WorkflowJobEvent} (h : Routed libraries events s)
    (hqueues : Queues libraries request id job) :
    (s.webhook libraries order request).2.channels =
      if id ∈ recent libraries events then s.channels
      else (wakeForJob order s.channels job.repository job.labels id).1 := by
  have hid : identified libraries request = some id := by
    simp [identified, hqueues.signed, hqueues.event, hqueues.delivery, hqueues.valid]
  rcases webhook_cases s libraries order request with
    ⟨hnone, -⟩ | ⟨found, name, hfound, hname, -, heq⟩
  · rw [hid] at hnone
    cases hnone
  rw [hid, Option.some.injEq] at hfound
  subst hfound
  rw [hqueues.event, Option.some.injEq] at hname
  subst hname
  rw [heq]
  have hspec := DeliveryLog.firstTime_spec h.remembers id
  rw [h.capacity] at hspec
  rcases hspec with ⟨hrecent, hfirst⟩ | ⟨hrecent, hfirst, -⟩
  · rw [hfirst, if_pos (show id ∈ recent libraries events from hrecent)]
    rfl
  · rw [if_pos hfirst, if_neg (show id ∉ recent libraries events from hrecent)]
    simp [handleEvent, hqueues.body, hqueues.action, actionName]

end Wakes

/-- The law of wake routing, at the end of a run. -/
structure WakeRouting (libraries : WebhookLibraries) (events : List Event) (s : AppState) :
    Prop where
  /-- The registry holds the connection of the latest registration, and nothing else. -/
  current : ∀ hostId connected,
    s.registry.hosts.find? hostId = some connected ↔ Current events hostId connected
  /-- A token that is not the current one changes nothing. -/
  stale : ∀ hostId token, (∀ connected, Current events hostId connected →
      connected.connection ≠ token) →
    ∀ event t, (event = .unregister hostId token ∨ (∃ hello, event = .setHello hostId token hello) ∨
      ∃ heartbeat, event = .setHeartbeat hostId token heartbeat) → s.Steps libraries event t → t = s
  /-- A new delivery is sent to the hosts that serve the job and have room, and to nobody else. -/
  woken : ∀ request id job t, Queues libraries request id job → id ∉ recent libraries events →
    s.Steps libraries (.webhook request) t →
    (∀ hostId connected, Current events hostId connected →
      ((∃ target, Serves connected target job.repository job.labels) ∧
          (s.channels connected.sender).hasRoom = true →
        ∃ target, Serves connected target job.repository job.labels ∧
          (t.channels connected.sender).pending = (s.channels connected.sender).pending ++
            [.send (.wake ⟨target.reference, job.repository, .jobQueued, id⟩)]) ∧
      (¬ ((∃ target, Serves connected target job.repository job.labels) ∧
          (s.channels connected.sender).hasRoom = true) →
        t.channels connected.sender = s.channels connected.sender)) ∧
    ∀ channel, (∀ hostId connected, Current events hostId connected → connected.sender ≠ channel) →
      t.channels channel = s.channels channel
  /-- A delivery among the last accepted ones wakes nobody. -/
  repeated : ∀ request id t, request.delivery = some id → id ∈ recent libraries events →
    s.Steps libraries (.webhook request) t → t.channels = s.channels

section Routing

variable {libraries : WebhookLibraries} {events : List Event} {s t : AppState}

theorem Routed.stale (h : Routed libraries events s) {hostId : String} {token : Nat}
    (hstale : ∀ connected, Current events hostId connected → connected.connection ≠ token) :
    s.registry.unregister hostId token = s.registry ∧
      ∀ change, s.registry.update hostId token change = s.registry := by
  unfold Registry.unregister Registry.update
  cases hfind : s.registry.hosts.find? hostId with
  | none => exact ⟨rfl, fun _ ↦ rfl⟩
  | some current =>
    have hne := hstale current ((h.current hostId current).mp hfind)
    simp [hne]

theorem wakeChannel_cases {connected : Connected} {repository id : String} {labels : List String}
    {channel : Channel} :
    ((∃ target, Serves connected target repository labels) ∧ channel.hasRoom = true →
      ∃ target, Serves connected target repository labels ∧
        (wakeChannel repository labels id connected channel).pending = channel.pending ++
          [.send (.wake ⟨target.reference, repository, .jobQueued, id⟩)]) ∧
    (¬ ((∃ target, Serves connected target repository labels) ∧ channel.hasRoom = true) →
      wakeChannel repository labels id connected channel = channel) := by
  unfold wakeChannel
  rcases matchingTarget_cases with ⟨target, hserves, hmatch⟩ | ⟨hnone, hmatch⟩
  · rw [hmatch]
    refine ⟨fun hroom ↦ ⟨target, hserves, ?_⟩, fun hfull ↦ ?_⟩
    · simp only [hroom.2, if_true]
    · have hroom : ¬ channel.hasRoom = true := fun hroom ↦ hfull ⟨⟨target, hserves⟩, hroom⟩
      simp only [hroom, if_false, Bool.false_eq_true]
  · rw [hmatch]
    exact ⟨fun hroom ↦ absurd hroom.1 hnone, fun _ ↦ rfl⟩

/-- In every run, a queued job wakes exactly the hosts that serve it now. -/
theorem wake_routing (h : Runs libraries events s) : WakeRouting libraries events s := by
  have hrouted := routed_of_runs h
  refine ⟨hrouted.current, ?_, ?_, ?_⟩
  · intro hostId token hstale event t hevent hstep
    obtain ⟨hunregister, hupdate⟩ := hrouted.stale hstale
    rcases hevent with rfl | ⟨hello, rfl⟩ | ⟨heartbeat, rfl⟩
    · obtain rfl : t = { s with registry := s.registry.unregister hostId token } := hstep
      rw [hunregister]
    · obtain rfl : t = { s with registry := s.registry.setHello hostId token hello } := hstep
      rw [Registry.setHello, hupdate]
    · obtain rfl : t = { s with registry := s.registry.setHeartbeat hostId token heartbeat } :=
        hstep
      rw [Registry.setHeartbeat, hupdate]
  · rintro request id job t hqueues hnew ⟨order, horder, rfl⟩
    rw [webhook_channels hrouted hqueues, if_neg hnew]
    obtain ⟨hinside, houtside⟩ := wakeLoop_channels (hrouted.senders horder)
    refine ⟨fun hostId connected hcurrent ↦ ?_, fun channel hchannel ↦ ?_⟩
    · have hmem : connected ∈ order :=
        horder.mem_iff.mpr (Table.find?_eq_some_iff.mp ((hrouted.current hostId _).mpr hcurrent)).1
      rw [wakeForJob, hinside connected hmem]
      exact wakeChannel_cases
    · refine houtside channel fun hmem ↦ ?_
      obtain ⟨connected, hconnected, hsender⟩ := List.mem_map.mp hmem
      have hfind := Table.mem_iff_find?.mp (horder.mem_iff.mp hconnected)
      exact hchannel _ connected ((hrouted.current _ connected).mp hfind) hsender
  · rintro request id t hdelivery hrecent ⟨order, -, rfl⟩
    rcases webhook_cases s libraries order request with
      ⟨-, hsame⟩ | ⟨found, name, -, -, hfound, heq⟩
    · rw [hsame]
    rw [hdelivery, Option.some.injEq] at hfound
    subst hfound
    have hspec := DeliveryLog.firstTime_spec hrouted.remembers id
    rw [hrouted.capacity] at hspec
    rcases hspec with ⟨-, hfirst⟩ | ⟨hnew, -⟩
    · rw [heq, hfirst]
      rfl
    · exact absurd hrecent hnew

end Routing

/-- A host on a Linux machine that serves `octo/app`. -/
def sampleHello : Hello where
  protocolVersion := protocolVersion
  hostId := "big"
  os := "linux"
  arch := "x64"
  cores := ⟨4, by decide⟩
  ramBytes := none
  diskFreeBytes := none
  targets := [⟨.repo, "octo/app", [⟨"default", ["linux"], true⟩]⟩]

/-- Libraries under which every body is the same queued job. -/
def sampleLibraries : WebhookLibraries where
  hmac _ := []
  readEvent _ := some ⟨"queued", ["linux"], "octo/app"⟩

theorem Runs.goesOn {libraries : WebhookLibraries} {events : List Event} {s t : AppState}
    (h : Runs libraries events s) (event : Event) (hstep : s.Steps libraries event t) :
    Runs libraries (events ++ [event]) t :=
  .step h hstep

/-- A host connects, says what it serves, and is woken after an old token was dropped. -/
theorem sample_routing : ∃ s, WakeRouting sampleLibraries
    [.register "big", .register "big", .unregister "big" 0, .setHello "big" 1 sampleHello,
      .webhook ⟨[], some "sha256=", some "workflow_job", some "d-1"⟩] s ∧
    (s.channels 1).pending =
      [.send (.wake ⟨⟨.repo, "octo/app"⟩, "octo/app", .jobQueued, "d-1"⟩)] := by
  have h0 : Runs sampleLibraries [] initial := .start
  have h1 := h0.goesOn (.register "big") rfl
  have h2 := h1.goesOn (.register "big") rfl
  have h3 := h2.goesOn (.unregister "big" 0) rfl
  have h4 := h3.goesOn (.setHello "big" 1 sampleHello) rfl
  have h5 := h4.goesOn (.webhook ⟨[], some "sha256=", some "workflow_job", some "d-1"⟩)
    ⟨_, .refl _, rfl⟩
  exact ⟨_, wake_routing h5, by decide⟩

end AppState

end RunnerManager.Coordinator
