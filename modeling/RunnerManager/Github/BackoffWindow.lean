import Mathlib.Data.List.Chain
import RunnerManager.Github.QuietPeriod

/-!
# The back-off window of the inventory

`RestInventory::issue` of `crates/github/src/rest.rs` and the window its requests share. A request
passes the gate while no window is in force, is counted and sent, and a rate limit in its answer
sets the window anew, whatever window is in force by then. `backoff_window_iff` says in which runs
the window is waited out all the same.
-/

namespace RunnerManager.Github

open RunnerManager.Domain

/-! ## Requests -/

/-- What a request does to the gateway at once. The gate reads the clock under the lock, an answer
before it. -/
inductive WindowCall where
  | cancelled
  | backoff
  | last
  | send
  | receive
  | now
  | latch (limit : RateLimited) (now : Timestamp)

abbrev WindowCall.Answer : WindowCall → Type
  | cancelled => Bool
  | backoff => Option Nat
  | last => Option RateLimited
  | send => Unit
  | receive => Reply
  | now => Timestamp
  | latch _ _ => Unit

abbrev WindowProgram := Program WindowCall WindowCall.Answer HoldFailure

namespace RestInventory

def ask (c : WindowCall) : WindowProgram c.Answer :=
  .perform c

/-- `RestInventory::rate_limit_state`: the window, and the limit after it, each under its lock. -/
def rateLimitState : WindowProgram (Option RateLimited) := do
  match ← ask .backoff with
  | none => return none
  | some remaining => do
    let limit ← ask .last
    return limit.map fun limit ↦ { limit with retryAfter := some remaining }

/-- `RestInventory::classify` of a failure that is a rate limit. -/
def classify (limit : RateLimited) : WindowProgram Unit := do
  let now ← ask .now
  ask (.latch limit now)
  Program.fail (.rateLimited limit)

/-- `RestInventory::issue`. A token that was flipped after the gate was read opens no socket. -/
def issue : WindowProgram Unit := do
  if ← ask .cancelled then Program.fail .cancelled
  else do
    match ← rateLimitState with
    | some limit => Program.fail (.rateLimited limit)
    | none => do
      if ← ask .cancelled then Program.fail .cancelled
      else do
        ask .send
        match ← ask .receive with
        | .response _ => return ()
        | .limited limit => classify limit
        | .failed detail => Program.fail (.github detail)
        | .cancelled => Program.fail .cancelled

end RestInventory

/-! ## The shared gateway -/

/-- A rate limit that reached the window: when its answer was read, and the end of the window
before and after. -/
structure WindowAnswer where
  now : Timestamp
  limit : RateLimited
  before : Option Timestamp
  after : Timestamp
deriving DecidableEq

/-- The end a rate limit names, as far as the cap lets it. -/
def WindowAnswer.ends (answer : WindowAnswer) : Timestamp :=
  answer.now + answer.limit.delayFrom answer.now

/-- A request that was issued: when, the rate limits received by then, and how many of them had
been when it passed the gate. -/
structure IssuedRequest where
  time : Timestamp
  received : List WindowAnswer
  seen : Nat
deriving DecidableEq

/-- What the tasks share, with a record of what they did to it. -/
structure SharedWindow (ι : Type) where
  clock : Timestamp
  backoffUntil : Option Timestamp
  last : Option RateLimited
  history : List WindowAnswer
  gate : ι → Option Nat
  wire : List IssuedRequest

namespace SharedWindow

variable {ι : Type} [DecidableEq ι] (s : SharedWindow ι) (i : ι)

omit [DecidableEq ι] in
/-- `RestInventory::rate_limit_backoff`. -/
def backoff : Option Nat :=
  s.backoffUntil.bind fun ends ↦ if ends ≤ s.clock then none else some (ends - s.clock).toNat

def passes : SharedWindow ι :=
  { s with gate := Function.update s.gate i (some s.history.length) }

omit [DecidableEq ι] in
/-- A task issues a request. -/
def sends (seen : Nat) : SharedWindow ι :=
  { s with wire := s.wire ++ [⟨s.clock, s.history, seen⟩] }

omit [DecidableEq ι] in
def latches (limit : RateLimited) (now : Timestamp) : SharedWindow ι :=
  { s with
    backoffUntil := some (now + limit.delayFrom now)
    last := some limit
    history := s.history ++ [⟨now, limit, s.backoffUntil, now + limit.delayFrom now⟩] }

def Does (c : WindowCall) (answer : c.Answer) (t : SharedWindow ι) : Prop :=
  match c, answer with
  | .backoff, remaining =>
    remaining = s.backoff ∧ t = if remaining = none then s.passes i else s
  | .last, limit => limit = s.last ∧ t = s
  | .now, now => now = s.clock ∧ t = s
  | .send, _ => t = s.sends ((s.gate i).getD 0)
  | .latch limit now, _ => t = s.latches limit now
  | .cancelled, _ | .receive, _ => t = s

def Steps (c : WindowCall) (answer : c.Answer) (t : SharedWindow ι) : Prop :=
  ∃ u clock, s.Does i c answer u ∧ u.clock ≤ clock ∧ t = { u with clock }

end SharedWindow

/-- The gateway as one task sees it. A task issues after it passed the gate. -/
def windowCalls {ι : Type} [DecidableEq ι] (i : ι) :
    Contract WindowCall WindowCall.Answer (SharedWindow ι) where
  requires s c :=
    match c with
    | .send => ∃ seen, s.gate i = some seen
    | _ => True
  steps s c answer t := s.Steps i c answer t

/-! ## The law -/

/-- The window is waited out: no request is issued before the end that any rate limit received by
then had named, no later one moves that end earlier, and each window ends within the cap. -/
structure WindowLaw {ι : Type} (s : SharedWindow ι) : Prop where
  quiet : ∀ sent ∈ s.wire, ∀ answer ∈ sent.received, answer.ends ≤ sent.time
  kept : s.history.Pairwise fun earlier later ↦ earlier.ends ≤ later.after
  bounded : ∀ answer ∈ s.history, answer.after = answer.ends ∧
    answer.after ≤ answer.now + maxRateLimitBackoff

/-- A rate limit names no earlier end than that of the window it finds. -/
def WindowAnswer.NamesNoEarlier (answer : WindowAnswer) : Prop :=
  ∀ ends, answer.before = some ends → ends ≤ answer.ends

/-- No rate limit that came between the gate and the request is still to be waited out. -/
def IssuedRequest.NotOvertaken (sent : IssuedRequest) : Prop :=
  ∀ answer ∈ sent.received.drop sent.seen, answer.ends ≤ sent.time

/-- A request passed the gate after so many rate limits: the window was over by then. -/
def Passed (history : List WindowAnswer) (seen : Nat) (time : Timestamp) : Prop :=
  ∃ front rest, history = front ++ rest ∧ front.length = seen ∧
    ∀ answer ∈ front.getLast?, answer.ends ≤ time

theorem Passed.later {history : List WindowAnswer} {seen : Nat} {time later : Timestamp}
    (h : Passed history seen time) (hlater : time ≤ later) : Passed history seen later := by
  obtain ⟨front, rest, hsplit, hlength, hover⟩ := h
  exact ⟨front, rest, hsplit, hlength, fun answer hanswer ↦
    Int.le_trans (hover answer hanswer) hlater⟩

theorem Passed.append {history : List WindowAnswer} {seen : Nat} {time : Timestamp}
    (h : Passed history seen time) (more : List WindowAnswer) :
    Passed (history ++ more) seen time := by
  obtain ⟨front, rest, hsplit, hlength, hover⟩ := h
  exact ⟨front, rest ++ more, by rw [hsplit, List.append_assoc], hlength, hover⟩

/-- Each rate limit found the window its predecessor set. -/
def Chained (history : List WindowAnswer) : Prop :=
  history.IsChain fun earlier later ↦ later.before = some earlier.ends

namespace SharedWindow

variable {ι : Type} {s t : SharedWindow ι}

/-- What is known of the shared gateway at every point of a run. -/
structure Sound (s : SharedWindow ι) : Prop where
  ends : ∀ answer ∈ s.history, answer.after = answer.ends
  current : s.backoffUntil = s.history.getLast?.map WindowAnswer.ends
  first : ∀ answer ∈ s.history.head?, answer.before = none
  chained : Chained s.history
  known : s.backoffUntil.isSome → s.last.isSome
  gated : ∀ i seen, s.gate i = some seen → Passed s.history seen s.clock
  issued : ∀ sent ∈ s.wire, sent.received <+: s.history ∧
    Passed sent.received sent.seen sent.time

theorem Sound.goesOn (h : s.Sound) {clock : Timestamp} (hclock : s.clock ≤ clock) :
    { s with clock }.Sound where
  ends := h.ends
  current := h.current
  first := h.first
  chained := h.chained
  known := h.known
  gated i seen hgate := (h.gated i seen hgate).later hclock
  issued := h.issued

theorem backoff_eq_none_iff :
    s.backoff = none ↔ ∀ ends, s.backoffUntil = some ends → ends ≤ s.clock := by
  cases hwindow : s.backoffUntil with
  | none => simp [backoff, hwindow]
  | some ends => simp [backoff, hwindow, Option.bind_some]

theorem Sound.passes [DecidableEq ι] (h : s.Sound) (i : ι) (hover : s.backoff = none) :
    (s.passes i).Sound where
  ends := h.ends
  current := h.current
  first := h.first
  chained := h.chained
  known := h.known
  gated j seen hgate := by
    have hgate : Function.update s.gate i (some s.history.length) j = some seen := hgate
    by_cases hji : j = i
    · subst hji
      rw [Function.update_self, Option.some.injEq] at hgate
      refine ⟨s.history, [], (List.append_nil _).symm, hgate, fun answer hanswer ↦ ?_⟩
      have hwindow : s.backoffUntil = some answer.ends := by
        rw [h.current, hanswer, Option.map_some]
      exact backoff_eq_none_iff.mp hover _ hwindow
    · rw [Function.update_of_ne hji] at hgate
      exact h.gated j seen hgate
  issued := h.issued

theorem Sound.sends (h : s.Sound) {i : ι} {seen : Nat} (hgate : s.gate i = some seen) :
    (s.sends seen).Sound where
  ends := h.ends
  current := h.current
  first := h.first
  chained := h.chained
  known := h.known
  gated := h.gated
  issued sent hsent := by
    rcases List.mem_append.mp hsent with hsent | hsent
    · exact h.issued sent hsent
    · obtain rfl := List.mem_singleton.mp hsent
      exact ⟨List.prefix_refl _, h.gated i seen hgate⟩

theorem Sound.latches (h : s.Sound) (limit : RateLimited) (now : Timestamp) :
    (s.latches limit now).Sound where
  ends answer hanswer := by
    rcases List.mem_append.mp hanswer with hanswer | hanswer
    · exact h.ends answer hanswer
    · obtain rfl := List.mem_singleton.mp hanswer
      rfl
  current := by simp [SharedWindow.latches, WindowAnswer.ends]
  first answer hanswer := by
    cases hhistory : s.history with
    | nil =>
      have hanswer : answer ∈ (s.history ++ [_]).head? := hanswer
      rw [hhistory] at hanswer
      obtain rfl := Option.some.inj hanswer
      show s.backoffUntil = none
      rw [h.current, hhistory]
      rfl
    | cons earliest rest =>
      have hanswer : answer ∈ (s.history ++ [_]).head? := hanswer
      rw [hhistory] at hanswer
      exact h.first answer (hhistory ▸ hanswer)
  chained := by
    refine List.isChain_append.mpr ⟨h.chained, List.isChain_singleton _, ?_⟩
    intro earlier hearlier later hlater
    obtain rfl := Option.some.inj hlater
    show s.backoffUntil = some earlier.ends
    rw [h.current, hearlier, Option.map_some]
  known _ := rfl
  gated i seen hgate := (h.gated i seen hgate).append _
  issued sent hsent :=
    ⟨(h.issued sent hsent).1.trans (List.prefix_append _ _), (h.issued sent hsent).2⟩

/-! ### The law of a run -/

theorem Sound.ordered (h : s.Sound) (hkept : ∀ answer ∈ s.history, answer.NamesNoEarlier) :
    s.history.Pairwise fun earlier later ↦ earlier.ends ≤ later.ends := by
  have htrans : IsTrans WindowAnswer fun earlier later ↦ earlier.ends ≤ later.ends :=
    ⟨fun _ _ _ ↦ Int.le_trans⟩
  refine List.isChain_iff_pairwise.mp ?_
  refine List.IsChain.imp_of_mem_imp (fun earlier later _ hlater hbefore ↦ ?_) h.chained
  exact hkept later hlater _ hbefore

/-- The window is waited out exactly if no rate limit names an earlier end than the window it finds,
and none overtakes a request between its gate and its sending. -/
theorem Sound.law_iff (h : s.Sound) :
    WindowLaw s ↔ (∀ answer ∈ s.history, answer.NamesNoEarlier) ∧
      ∀ sent ∈ s.wire, sent.NotOvertaken := by
  constructor
  · intro hlaw
    refine ⟨fun answer hanswer ends hbefore ↦ ?_, fun sent hsent answer hanswer ↦ ?_⟩
    · obtain ⟨front, rest, hsplit⟩ := List.append_of_mem hanswer
      rw [← h.ends answer hanswer]
      rcases List.eq_nil_or_concat front with rfl | ⟨earlier, previous, rfl⟩
      · rw [h.first answer (by rw [hsplit]; rfl)] at hbefore
        cases hbefore
      · rw [List.concat_eq_append, List.append_assoc, List.singleton_append] at hsplit
        have hchained := h.chained
        have hkept := hlaw.kept
        rw [hsplit] at hkept
        rw [Chained, hsplit, List.isChain_append] at hchained
        rw [(List.isChain_cons_cons.mp hchained.2.1).1, Option.some.injEq] at hbefore
        rw [← hbefore]
        exact (List.pairwise_cons.mp (List.pairwise_append.mp hkept).2.1).1 answer
          List.mem_cons_self
    · exact hlaw.quiet sent hsent answer (List.mem_of_mem_drop hanswer)
  · rintro ⟨hkept, hdirect⟩
    have hordered := h.ordered hkept
    refine ⟨fun sent hsent answer hanswer ↦ ?_, ?_, fun answer hanswer ↦ ?_⟩
    · obtain ⟨hseen, front, rest, hsplit, hlength, hover⟩ := h.issued sent hsent
      have hreceived := hordered.sublist hseen.sublist
      have hsince := hdirect sent hsent
      rw [IssuedRequest.NotOvertaken, hsplit, List.drop_left' hlength] at hsince
      rw [hsplit] at hreceived hanswer
      rcases List.mem_append.mp hanswer with hanswer | hanswer
      · -- the last rate limit before the gate named the latest end
        rcases List.eq_nil_or_concat front with rfl | ⟨earlier, previous, rfl⟩
        · cases hanswer
        · rw [List.concat_eq_append] at hover hanswer hreceived
          have hprevious := hover previous List.getLast?_concat
          rcases List.mem_append.mp hanswer with hanswer | hanswer
          · have hle := (List.pairwise_append.mp (List.pairwise_append.mp hreceived).1).2.2
              answer hanswer previous (List.mem_singleton_self _)
            exact Int.le_trans hle hprevious
          · rw [List.mem_singleton.mp hanswer]
            exact hprevious
      · exact hsince answer hanswer
    · refine hordered.imp_of_mem fun {earlier later} _ hlater hle ↦ ?_
      rw [h.ends later hlater]
      exact hle
    · have hcap := answer.limit.delayFrom_le_max answer.now
      refine ⟨h.ends answer hanswer, ?_⟩
      rw [h.ends answer hanswer]
      exact Int.add_le_add_left (Int.ofNat_le.mpr hcap) _

/-! ### Calls -/

/-- What a task relies on: time only passes, what it passed the gate with stays its own, and a
window keeps its limit. -/
structure Rely (i : ι) (s t : SharedWindow ι) : Prop where
  clock : s.clock ≤ t.clock
  gate : t.gate i = s.gate i
  last : s.last.isSome → t.last.isSome

theorem Rely.trans {i : ι} {u : SharedWindow ι} (h : Rely i s t) (hrest : Rely i t u) :
    Rely i s u :=
  ⟨Int.le_trans h.clock hrest.clock, hrest.gate.trans h.gate, fun hlast ↦
    hrest.last (h.last hlast)⟩

variable [DecidableEq ι] {i : ι} {c : WindowCall} {answer : c.Answer}

theorem Sound.does (h : s.Sound) (hrequires : (windowCalls i).requires s c)
    (hdoes : s.Does i c answer t) : t.Sound := by
  cases c with
  | cancelled => exact hdoes ▸ h
  | backoff =>
    obtain ⟨hremaining, rfl⟩ := hdoes
    split_ifs with hnone
    · exact h.passes i (hremaining.symm.trans hnone)
    · exact h
  | last => exact hdoes.2 ▸ h
  | send =>
    obtain ⟨seen, hgate⟩ := hrequires
    have hdoes : t = s.sends ((s.gate i).getD 0) := hdoes
    rw [hgate, Option.getD_some] at hdoes
    exact hdoes ▸ h.sends hgate
  | receive => exact hdoes ▸ h
  | now => exact hdoes.2 ▸ h
  | latch limit now => exact hdoes ▸ h.latches limit now

theorem does_frame (hdoes : s.Does i c answer t) :
    t.clock = s.clock ∧ (s.last.isSome → t.last.isSome) ∧
      (t.gate = s.gate ∨
        c = .backoff ∧ t.gate = Function.update s.gate i (some s.history.length)) := by
  cases c with
  | cancelled => exact hdoes ▸ ⟨rfl, id, .inl rfl⟩
  | backoff =>
    obtain ⟨-, rfl⟩ := hdoes
    split_ifs
    · exact ⟨rfl, id, .inr ⟨rfl, rfl⟩⟩
    · exact ⟨rfl, id, .inl rfl⟩
  | last => exact hdoes.2 ▸ ⟨rfl, id, .inl rfl⟩
  | send => exact hdoes ▸ ⟨rfl, id, .inl rfl⟩
  | receive => exact hdoes ▸ ⟨rfl, id, .inl rfl⟩
  | now => exact hdoes.2 ▸ ⟨rfl, id, .inl rfl⟩
  | latch limit now => exact hdoes ▸ ⟨rfl, fun _ ↦ rfl, .inl rfl⟩

theorem Steps.rely (hstep : s.Steps i c answer t) {j : ι} (hj : j ≠ i) : Rely j s t := by
  obtain ⟨u, clock, hdoes, hclock, rfl⟩ := hstep
  obtain ⟨hsame, hlast, hgate⟩ := does_frame hdoes
  refine ⟨hsame ▸ hclock, ?_, hlast⟩
  show u.gate j = s.gate j
  rcases hgate with hgate | ⟨-, hgate⟩
  · rw [hgate]
  · rw [hgate, Function.update_of_ne hj]

theorem Steps.rely_self (hstep : s.Steps i c answer t) (hc : c ≠ .backoff) : Rely i s t := by
  obtain ⟨u, clock, hdoes, hclock, rfl⟩ := hstep
  obtain ⟨hsame, hlast, hgate⟩ := does_frame hdoes
  refine ⟨hsame ▸ hclock, ?_, hlast⟩
  rcases hgate with hgate | ⟨hbackoff, -⟩
  · exact congrFun hgate i
  · exact absurd hbackoff hc

theorem Does.steps (h : s.Does i c answer t) : s.Steps i c answer t :=
  ⟨t, t.clock, h, Int.le_refl _, rfl⟩

end SharedWindow

/-! ## Programs -/

section

variable {ι : Type} [DecidableEq ι] {i : ι} {s : SharedWindow ι}

/-- A request of one task among others. -/
abbrev issuedAmong (i : ι) : Contract WindowCall WindowCall.Answer (SharedWindow ι) :=
  (windowCalls i).under SharedWindow.Sound (SharedWindow.Rely i)

theorem window_seq_wp {α : Type} (c : WindowCall) (hc : c ≠ .backoff)
    {f : c.Answer → WindowProgram α} {Q : Except HoldFailure α → SharedWindow ι → Prop}
    (hrequires : ∀ t, SharedWindow.Rely i s t → (windowCalls i).requires t c)
    (hf : ∀ a u, SharedWindow.Rely i s u → (issuedAmong i).wp (f a) Q u) :
    (issuedAmong i).wp (RestInventory.ask c >>= f) Q s :=
  ⟨fun t hrely _ ↦ hrequires t hrely,
    fun a u ⟨_, hrely, _, hstep⟩ ↦ hf a u (hrely.trans (hstep.rely_self hc))⟩

theorem rateLimitState_wp : (issuedAmong i).wp RestInventory.rateLimitState
    (fun found t ↦ found = .ok none → ∃ seen, t.gate i = some seen) s := by
  refine ⟨fun _ _ _ ↦ trivial, ?_⟩
  rintro remaining t ⟨u, -, hsound, v, clock, ⟨hremaining, rfl⟩, -, rfl⟩
  cases remaining with
  | none => exact fun _ ↦ ⟨_, Function.update_self _ _ _⟩
  | some remaining =>
    have hwindow : u.backoffUntil.isSome := by
      unfold SharedWindow.backoff at hremaining
      cases hnone : u.backoffUntil with
      | none => simp [hnone] at hremaining
      | some ends => rfl
    have hlast := hsound.known hwindow
    refine ⟨fun _ _ _ ↦ trivial, ?_⟩
    rintro found w ⟨x, hrely, -, y, later, ⟨rfl, rfl⟩, -, rfl⟩ hnone
    have hstill := hrely.last hlast
    obtain ⟨limit, hlimit⟩ := Option.isSome_iff_exists.mp hstill
    rw [hlimit] at hnone
    cases hnone

theorem window_classify_wp (limit : RateLimited) :
    (issuedAmong i).wp (RestInventory.classify limit) (fun _ _ ↦ True) s := by
  refine window_seq_wp .now (fun h ↦ nomatch h) (fun _ _ ↦ trivial) fun now t _ ↦ ?_
  exact window_seq_wp (.latch limit now) (fun h ↦ nomatch h) (fun _ _ ↦ trivial) fun _ _ _ ↦ trivial

theorem issue_wp : (issuedAmong i).wp RestInventory.issue (fun _ _ ↦ True) s := by
  refine window_seq_wp .cancelled (fun h ↦ nomatch h) (fun _ _ ↦ trivial) ?_
  intro cancelled t _
  show (issuedAmong i).wp (if cancelled = true then _ else _) _ t
  split_ifs
  · exact trivial
  refine Contract.wp_seq rateLimitState_wp ?_ fun _ _ _ ↦ trivial
  intro found u hfound
  cases found with
  | some limit => exact trivial
  | none =>
    obtain ⟨seen, hgate⟩ := hfound rfl
    refine window_seq_wp .cancelled (fun h ↦ nomatch h) (fun _ _ ↦ trivial) ?_
    intro flipped v hv
    show (issuedAmong i).wp (if flipped = true then _ else _) _ v
    split_ifs
    · exact trivial
    refine window_seq_wp .send (fun h ↦ nomatch h)
      (fun w hw ↦ ⟨seen, (hv.trans hw).gate.trans hgate⟩) fun _ w _ ↦ ?_
    refine window_seq_wp .receive (fun h ↦ nomatch h) (fun _ _ ↦ trivial) ?_
    intro reply x _
    cases reply with
    | response notModified => exact trivial
    | limited limit => exact window_classify_wp limit
    | failed detail => exact trivial
    | cancelled => exact trivial

end

/-! ## Every run -/

/-- Any number of requests over one gateway. -/
abbrev WindowPool (ι : Type) :=
  Pool WindowCall WindowCall.Answer HoldFailure Unit (SharedWindow ι) ι

/-- A gateway that no request has been made of. -/
def WindowPool.fresh (ι : Type) (clock : Timestamp) : WindowPool ι where
  shared := ⟨clock, none, none, [], fun _ ↦ none, []⟩
  point _ := RestInventory.issue

theorem window_sound {ι : Type} [DecidableEq ι] {clock : Timestamp} {Q : WindowPool ι}
    {log : List (Occurrence (SharedWindow ι) ι)}
    (h : Contract.Interleaves windowCalls (WindowPool.fresh ι clock) log Q) : Q.shared.Sound := by
  have hstart : (WindowPool.fresh ι clock).shared.Sound := by
    refine ⟨?_, rfl, ?_, List.isChain_nil, ?_, ?_, ?_⟩
    · exact fun _ hanswer ↦ nomatch hanswer
    · exact fun _ hanswer ↦ nomatch hanswer
    · exact fun hwindow ↦ nomatch hwindow
    · exact fun _ _ hgate ↦ nomatch hgate
    · exact fun _ hsent ↦ nomatch hsent
  have hkeeps (i : ι) (s : SharedWindow ι) (c : WindowCall) (a : c.Answer) (t : SharedWindow ι)
      (hsound : s.Sound) (hrequires : (windowCalls i).requires s c)
      (hstep : (windowCalls i).steps s c a t) : t.Sound := by
    obtain ⟨u, later, hdoes, hlater, rfl⟩ := hstep
    exact (hsound.does hrequires hdoes).goesOn hlater
  have hrefl (i : ι) (s : SharedWindow ι) : SharedWindow.Rely i s s :=
    ⟨Int.le_refl _, rfl, id⟩
  have hrely (i j : ι) (s : SharedWindow ι) (c : WindowCall) (a : c.Answer) (t : SharedWindow ι)
      (hij : i ≠ j) (_ : s.Sound) (_ : (windowCalls j).requires s c)
      (hstep : (windowCalls j).steps s c a t) : SharedWindow.Rely i s t := hstep.rely hij
  exact (Contract.Interleaves.sound (Q := fun _ _ _ ↦ True) hrefl
    (fun _ _ _ _ hst htu ↦ hst.trans htu) hkeeps hrely (fun _ _ _ _ _ _ ↦ trivial) hstart
    (fun _ ↦ issue_wp) h).1

/-- In every run, however the requests and their answers are interleaved: the window is waited out
exactly if no rate limit names an earlier end than that of the window it finds, and none overtakes
a request between its gate and its sending. -/
theorem backoff_window_iff {ι : Type} [DecidableEq ι] {clock : Timestamp} {Q : WindowPool ι}
    {log : List (Occurrence (SharedWindow ι) ι)}
    (h : Contract.Interleaves windowCalls (WindowPool.fresh ι clock) log Q) :
    WindowLaw Q.shared ↔ (∀ answer ∈ Q.shared.history, answer.NamesNoEarlier) ∧
      ∀ sent ∈ Q.shared.wire, sent.NotOvertaken :=
  (window_sound h).law_iff

def limitFor (seconds : Nat) : RateLimited := ⟨.primary, some (secondsOf seconds), some 0, none⟩

/-- A request is answered with a limit, and the next one is held back. -/
theorem second_request_suppressed : ∃ log Q,
    Contract.Interleaves windowCalls (WindowPool.fresh (Fin 2) 0) log Q ∧
      Q.shared.history ≠ [] ∧ Q.shared.wire.length = 1 ∧ WindowLaw Q.shared := by
  have h₀ := Contract.Interleaves.start (WindowPool.fresh (Fin 2) 0) (C := windowCalls)
  have h₁ := h₀.advance 1 .cancelled false _ rfl (SharedWindow.Does.steps rfl)
  have h₂ := h₁.advance 1 .backoff none _ rfl (SharedWindow.Does.steps ⟨rfl, rfl⟩)
  have h₃ := h₂.advance 1 .cancelled false _ rfl (SharedWindow.Does.steps rfl)
  have h₄ := h₃.advance 1 .send () _ rfl (SharedWindow.Does.steps rfl)
  have h₅ := h₄.advance 1 .receive (.limited (limitFor 600)) _ rfl (SharedWindow.Does.steps rfl)
  have h₆ := h₅.advance 1 .now 0 _ rfl (SharedWindow.Does.steps ⟨rfl, rfl⟩)
  have h₇ := h₆.advance 1 (.latch (limitFor 600) 0) () _ rfl (SharedWindow.Does.steps rfl)
  have k₁ := h₇.advance 0 .cancelled false _ rfl (SharedWindow.Does.steps rfl)
  have k₂ := k₁.advance 0 .backoff (some (secondsOf 600)) _ rfl
    (SharedWindow.Does.steps ⟨rfl, rfl⟩)
  refine ⟨_, _, k₂, (fun h ↦ nomatch h), rfl, (backoff_window_iff k₂).mpr ⟨?_, ?_⟩⟩
  · intro answer hanswer ends hbefore
    obtain rfl := List.mem_singleton.mp hanswer
    cases hbefore
  · intro sent hsent answer hanswer
    obtain rfl := List.mem_singleton.mp hsent
    cases hanswer

/-- Two requests are in flight. The first one is answered with a limit of ten minutes, the second
with one of a second: two seconds later a third one is issued. -/
theorem window_cut_short : ∃ log Q,
    Contract.Interleaves windowCalls (WindowPool.fresh (Fin 3) 0) log Q ∧
      (∀ sent ∈ Q.shared.wire, sent.NotOvertaken) ∧ ¬ WindowLaw Q.shared := by
  have h₀ := Contract.Interleaves.start (WindowPool.fresh (Fin 3) 0) (C := windowCalls)
  have h₁ := h₀.advance 0 .cancelled false _ rfl (SharedWindow.Does.steps rfl)
  have h₂ := h₁.advance 0 .backoff none _ rfl (SharedWindow.Does.steps ⟨rfl, rfl⟩)
  have h₃ := h₂.advance 0 .cancelled false _ rfl (SharedWindow.Does.steps rfl)
  have h₄ := h₃.advance 0 .send () _ rfl (SharedWindow.Does.steps rfl)
  have j₁ := h₄.advance 1 .cancelled false _ rfl (SharedWindow.Does.steps rfl)
  have j₂ := j₁.advance 1 .backoff none _ rfl (SharedWindow.Does.steps ⟨rfl, rfl⟩)
  have j₃ := j₂.advance 1 .cancelled false _ rfl (SharedWindow.Does.steps rfl)
  have j₄ := j₃.advance 1 .send () _ rfl (SharedWindow.Does.steps rfl)
  have k₁ := j₄.advance 0 .receive (.limited (limitFor 600)) _ rfl (SharedWindow.Does.steps rfl)
  have k₂ := k₁.advance 0 .now 0 _ rfl (SharedWindow.Does.steps ⟨rfl, rfl⟩)
  have k₃ := k₂.advance 0 (.latch (limitFor 600) 0) () _ rfl (SharedWindow.Does.steps rfl)
  have k₄ := k₃.advance 1 .receive (.limited (limitFor 1)) _ rfl (SharedWindow.Does.steps rfl)
  have k₅ := k₄.advance 1 .now 0 _ rfl (SharedWindow.Does.steps ⟨rfl, rfl⟩)
  have k₆ := k₅.advance 1 (.latch (limitFor 1) 0) () _ rfl (SharedWindow.Does.steps rfl)
  have l₁ := k₆.advance 2 .cancelled false _ rfl ⟨_, secondsOf 2, rfl, by decide, rfl⟩
  have l₂ := l₁.advance 2 .backoff none _ rfl (SharedWindow.Does.steps ⟨rfl, rfl⟩)
  have l₃ := l₂.advance 2 .cancelled false _ rfl (SharedWindow.Does.steps rfl)
  have l₄ := l₃.advance 2 .send () _ rfl (SharedWindow.Does.steps rfl)
  refine ⟨_, _, l₄, ?_, fun hlaw ↦ ?_⟩
  · intro sent hsent answer hanswer
    rcases List.mem_append.mp hsent with hsent | hsent
    · rcases List.mem_append.mp hsent with hsent | hsent
      · obtain rfl := List.mem_singleton.mp hsent
        cases hanswer
      · obtain rfl := List.mem_singleton.mp hsent
        cases hanswer
    · obtain rfl := List.mem_singleton.mp hsent
      cases hanswer
  · have hquiet := hlaw.quiet _ (List.mem_append_right _ (List.mem_singleton_self _)) _
      List.mem_cons_self
    exact absurd hquiet (by decide)

end RunnerManager.Github
