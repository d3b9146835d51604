import RunnerManager.Github.Demand
import RunnerManager.Github.RateLimit
import RunnerManager.Lib.Backoff
import RunnerManager.Lib.Interleaving

/-!
# The quiet period after a rate limit

`RestDemand::get` of `crates/github/src/demand.rs` and the hold every target loop of the host
shares. A request reads the clock, looks at the hold, and sends if none is in force; its answer
may set the hold, lengthen it, or clear one that is over. Looking and sending are two calls, and a
cached answer that is gone by the time GitHub vouches for it is asked for again, so a hold may be
set between a look and a request. Read `QuietLaw` first: it is what every run keeps.
-/

namespace RunnerManager.Github

open RunnerManager.Domain RunnerManager.Backoff

/-! ## The hold -/

structure RateLimitHold where
  holdUntil : Timestamp
  limit : RateLimited
  consecutiveSecondary : Nat
deriving DecidableEq

namespace RateLimitHold

/-- The largest `u32`, where the count of secondary limits stops. -/
def maxConsecutive : Nat := 2 ^ 32 - 1

variable (hold : Option RateLimitHold) (limit : RateLimited) (now : Timestamp)

/-- `RestDemand::held`: the limit that is waited out, with the time left on it. -/
def held : Option RateLimited :=
  hold.bind fun current ↦
    if now < current.holdUntil then
      some { current.limit with
        retryAfter := some (min (current.holdUntil - now).toNat maxRateLimitBackoff) }
    else none

/-- The hold of the same episode, if there is one: it did not end long ago. -/
def remembered : Option RateLimitHold :=
  hold.filter fun previous ↦ now - previous.holdUntil < holdMemory

def live : Option RateLimitHold :=
  (remembered hold now).filter fun previous ↦ now < previous.holdUntil

/-- How many secondary limits in a row an answer makes: it counts episodes, not answers. -/
def countSecondary : Nat :=
  match limit.kind, remembered hold now, live hold now with
  | .primary, _, _ => 0
  | .secondary, _, some current => max current.consecutiveSecondary 1
  | .secondary, some previous, none => min (previous.consecutiveSecondary + 1) maxConsecutive
  | .secondary, none, none => 1

/-- How long an answer asks to wait. A recurring secondary limit doubles the wait. -/
def quietWait (consecutive : Nat) : Nat :=
  let wait := limit.delayFrom now
  if 1 < consecutive then
    min (max wait (defaultRateLimitBackoff * 2 ^ min (consecutive - 1) 10)) maxRateLimitBackoff
  else wait

/-- `RestDemand::hold_for`: the hold after an answer, and the limit that is reported. The clock is
not at the end of its range, so the sum has a value. -/
def holdFor : RateLimitHold × RateLimited :=
  let consecutive := countSecondary hold limit now
  let wait := quietWait limit now consecutive
  let ends : Int := now + wait
  match live hold now with
  | none => (⟨ends, limit, consecutive⟩, { limit with retryAfter := some wait })
  | some current =>
    let most := max consecutive current.consecutiveSecondary
    -- A later answer never shortens a hold in force.
    if ends < current.holdUntil then
      (⟨current.holdUntil, limit, most⟩,
        { limit with retryAfter := some (current.holdUntil - now).toNat })
    else (⟨ends, limit, most⟩, { limit with retryAfter := some wait })

/-! ### What an answer does to the hold -/

variable {hold limit now}

theorem held_eq_none_iff :
    held hold now = none ↔ ∀ current, hold = some current → current.holdUntil ≤ now := by
  cases hold with
  | none => simp [held]
  | some current => simp [held, Option.bind_some]

theorem live_eq_some_iff {current : RateLimitHold} :
    live hold now = some current ↔ hold = some current ∧ now < current.holdUntil := by
  have hrecent : now < current.holdUntil → now - current.holdUntil < holdMemory := by
    have hmemory : (0 : Int) < holdMemory := by decide
    have hpast : ∀ a b : Int, a < b → a - b < holdMemory := by
      intro a b h
      omega
    exact hpast now current.holdUntil
  rw [live, remembered, Option.filter_eq_some_iff, Option.filter_eq_some_iff]
  simp only [decide_eq_true_eq]
  exact ⟨fun h ↦ ⟨h.1.1, h.2⟩, fun h ↦ ⟨⟨h.1, hrecent h.2⟩, h.2⟩⟩

theorem delayFrom_le_quietWait (consecutive : Nat) :
    limit.delayFrom now ≤ quietWait limit now consecutive := by
  have hcap := limit.delayFrom_le_max now
  unfold quietWait
  split_ifs
  · exact Nat.le_min.mpr ⟨Nat.le_max_left _ _, hcap⟩
  · exact Nat.le_refl _

theorem quietWait_le_max (consecutive : Nat) :
    quietWait limit now consecutive ≤ maxRateLimitBackoff := by
  unfold quietWait
  split_ifs
  · exact Nat.min_le_right _ _
  · exact limit.delayFrom_le_max now

theorem doubled_le_quietWait {consecutive : Nat} (h : 1 < consecutive) :
    doubled defaultRateLimitBackoff maxRateLimitBackoff (consecutive - 1) ≤
      quietWait limit now consecutive := by
  have hlong : maxRateLimitBackoff ≤ defaultRateLimitBackoff * 2 ^ 10 := by decide
  rw [← doubled_min hlong (Nat.zero_le _)]
  unfold quietWait
  rw [if_pos h]
  exact Nat.le_min.mpr ⟨(Nat.min_le_left _ _).trans (Nat.le_max_right _ _), Nat.min_le_right _ _⟩

/-- The wait an answer asks for, given the hold it finds. -/
def asked (hold : Option RateLimitHold) (limit : RateLimited) (now : Timestamp) : Nat :=
  quietWait limit now (countSecondary hold limit now)

theorem holdFor_cases (hold : Option RateLimitHold) (limit : RateLimited) (now : Timestamp) :
    ((holdFor hold limit now).1.holdUntil = now + asked hold limit now ∧
      ∀ current, hold = some current → current.holdUntil ≤ now + asked hold limit now) ∨
    ∃ current, hold = some current ∧ now + asked hold limit now < current.holdUntil ∧
      (holdFor hold limit now).1.holdUntil = current.holdUntil := by
  have hlater : ∀ (n : Int) (w : Nat), n ≤ n + w := by omega
  unfold holdFor
  dsimp only
  cases hlive : live hold now with
  | none =>
    left
    refine ⟨rfl, fun current hcurrent ↦ ?_⟩
    have hover : ¬ now < current.holdUntil := fun hnow ↦ by
      rw [live_eq_some_iff.mpr ⟨hcurrent, hnow⟩] at hlive
      cases hlive
    exact Int.le_trans (Int.not_lt.mp hover) (hlater now _)
  | some current =>
    obtain ⟨hcurrent, -⟩ := live_eq_some_iff.mp hlive
    dsimp only
    split_ifs with hlonger
    · exact .inr ⟨current, hcurrent, hlonger, rfl⟩
    · left
      refine ⟨rfl, fun other hother ↦ ?_⟩
      rw [hcurrent, Option.some.injEq] at hother
      exact hother ▸ Int.not_lt.mp hlonger

theorem holdFor_not_shortened {current : RateLimitHold} (h : hold = some current) :
    current.holdUntil ≤ (holdFor hold limit now).1.holdUntil := by
  rcases holdFor_cases hold limit now with ⟨hends, hover⟩ | ⟨other, hother, -, hends⟩
  · rw [hends]
    exact hover current h
  · rw [h, Option.some.injEq] at hother
    rw [hends, hother]

theorem asked_le_holdFor (hold : Option RateLimitHold) (limit : RateLimited) (now : Timestamp) :
    now + asked hold limit now ≤ (holdFor hold limit now).1.holdUntil := by
  rcases holdFor_cases hold limit now with ⟨hends, -⟩ | ⟨other, -, hlonger, hends⟩
  · exact Int.le_of_eq hends.symm
  · rw [hends]
    exact Int.le_of_lt hlonger

theorem asked_le_max (hold : Option RateLimitHold) (limit : RateLimited) (now : Timestamp) :
    asked hold limit now ≤ maxRateLimitBackoff :=
  quietWait_le_max _

theorem holdFor_count (hold : Option RateLimitHold) (limit : RateLimited) (now : Timestamp) :
    (holdFor hold limit now).1.consecutiveSecondary =
      max (countSecondary hold limit now)
        (((live hold now).map (·.consecutiveSecondary)).getD 0) := by
  unfold holdFor
  dsimp only
  cases live hold now with
  | none => exact (Nat.max_zero _).symm
  | some current =>
    dsimp only
    split_ifs
    · rfl
    · rfl

end RateLimitHold

/-! ## Requests -/

/-- What comes back for a request: a response that is new or vouches for a cached one, a limit, or
another failure. `RateLimited::detect` has read the failure. -/
inductive Reply where
  | response (notModified : Bool)
  | limited (limit : RateLimited)
  | failed (detail : String)
  | cancelled
deriving DecidableEq

/-- Why a request ended without a response. -/
inductive HoldFailure where
  | cancelled
  | rateLimited (limit : RateLimited)
  | github (detail : String)
deriving DecidableEq

/-- What a task does to the gateway at once. The clock is read before the hold is locked, except
by `clear_hold`, which reads it under the lock. -/
inductive HoldCall where
  | cancelled
  | now
  | held (now : Timestamp)
  | send
  | receive
  | cached
  | holdFor (limit : RateLimited) (now : Timestamp)
  | clearHold

abbrev HoldCall.Answer : HoldCall → Type
  | cancelled => Bool
  | now => Timestamp
  | held _ => Option RateLimited
  | send => Unit
  | receive => Reply
  | cached => Bool
  | holdFor _ _ => RateLimited
  | clearHold => Unit

abbrev HoldProgram := Program HoldCall HoldCall.Answer HoldFailure

namespace RestDemand

def ask (c : HoldCall) : HoldProgram c.Answer :=
  .perform c

/-- `ConditionalCache::send`. A cached answer that was evicted since is asked for again. -/
def send : HoldProgram Reply := do
  ask .send
  match ← ask .receive with
  | .response true =>
    if ← ask .cached then return .response true
    else do
      ask .send
      ask .receive
  | reply => return reply

/-- `RestDemand::classify` of a failure that is a rate limit. -/
def classify (limit : RateLimited) : HoldProgram Unit := do
  let now ← ask .now
  let reported ← ask (.holdFor limit now)
  Program.fail (.rateLimited reported)

def get : HoldProgram Unit := do
  if ← ask .cancelled then Program.fail .cancelled
  else do
    let now ← ask .now
    match ← ask (.held now) with
    | some limit => Program.fail (.rateLimited limit)
    | none => do
      match ← send with
      | .response _ => ask .clearHold
      | .limited limit => classify limit
      | .failed detail => Program.fail (.github detail)
      | .cancelled => Program.fail .cancelled

end RestDemand

/-! ## The shared gateway -/

/-- A rate limit that reached the hold: when its answer was read, when the hold was locked, and
the hold before and after. -/
structure LimitAnswer where
  now : Timestamp
  clock : Timestamp
  limit : RateLimited
  before : Option RateLimitHold
  after : RateLimitHold
deriving DecidableEq

/-- A change of the hold. -/
inductive HoldEvent where
  | limited (answer : LimitAnswer)
  | cleared (clock : Timestamp) (hold : RateLimitHold)
deriving DecidableEq

/-- A look at the hold that found none in force. -/
structure Look where
  time : Timestamp
  hold : Option RateLimitHold
deriving DecidableEq

/-- A request that was sent: when, the hold at that time, and the look it goes back to. -/
structure SentRequest where
  time : Timestamp
  hold : Option RateLimitHold
  look : Option Look
deriving DecidableEq

/-- What the tasks share, with a record of what they did to it. -/
structure SharedHold (ι : Type) where
  clock : Timestamp
  hold : Option RateLimitHold
  history : List HoldEvent
  look : ι → Option Look
  wire : List SentRequest

def holdAfter (history : List HoldEvent) : Option RateLimitHold :=
  match history.getLast? with
  | some (.limited answer) => some answer.after
  | some (.cleared ..) | none => none

namespace LimitAnswer

variable (answer : LimitAnswer)

/-- A hold was in force when the answer was read. -/
def InForce : Prop := ∃ hold, answer.before = some hold ∧ answer.now < hold.holdUntil

/-- The last hold ended less than an hour before the answer. -/
def Recent : Prop :=
  ∃ hold, answer.before = some hold ∧ answer.now - hold.holdUntil < holdMemory

instance : Decidable answer.InForce :=
  decidable_of_iff (answer.before.any fun hold ↦ answer.now < hold.holdUntil)
    (by simp [InForce, Option.any_eq_true])

instance : Decidable answer.Recent :=
  decidable_of_iff (answer.before.any fun hold ↦ answer.now - hold.holdUntil < holdMemory)
    (by simp [Recent, Option.any_eq_true])

end LimitAnswer

/-- How many secondary limits came in a row, after one more change of the hold. Answers during a
hold are of one limit; a request that went through, a primary limit and an hour of quiet end the
row. -/
def HoldEvent.streak (k : Nat) : HoldEvent → Nat
  | .cleared .. => 0
  | .limited answer =>
    match answer.limit.kind with
    | .primary => if answer.InForce then k else 0
    | .secondary =>
      if answer.InForce then max k 1 else if answer.Recent then k + 1 else 1

/-- How many secondary limits came in a row. -/
def streak (history : List HoldEvent) : Nat :=
  history.foldl HoldEvent.streak 0

namespace SharedHold

variable {ι : Type} [DecidableEq ι] (s : SharedHold ι) (i : ι)

/-- A task finds no hold in force. -/
def looks : SharedHold ι :=
  { s with look := Function.update s.look i (some ⟨s.clock, s.hold⟩) }

omit [DecidableEq ι] in
def sends : SharedHold ι :=
  { s with wire := s.wire ++ [⟨s.clock, s.hold, s.look i⟩] }

omit [DecidableEq ι] in
def answers (limit : RateLimited) (now : Timestamp) : SharedHold ι :=
  { s with
    hold := some (RateLimitHold.holdFor s.hold limit now).1
    history := s.history ++
      [.limited ⟨now, s.clock, limit, s.hold, (RateLimitHold.holdFor s.hold limit now).1⟩] }

omit [DecidableEq ι] in
/-- `RestDemand::clear_hold`: a request went through, and a hold that is over goes. -/
def clears : SharedHold ι :=
  match s.hold with
  | none => s
  | some hold =>
    if s.clock < hold.holdUntil then s
    else { s with hold := none, history := s.history ++ [.cleared s.clock hold] }

def Does (c : HoldCall) (answer : c.Answer) (t : SharedHold ι) : Prop :=
  match c, answer with
  | .now, now => now = s.clock ∧ t = s
  | .held now, found =>
    found = RateLimitHold.held s.hold now ∧ t = if found = none then s.looks i else s
  | .send, _ => t = s.sends i
  | .holdFor limit now, reported =>
    reported = (RateLimitHold.holdFor s.hold limit now).2 ∧ t = s.answers limit now
  | .clearHold, _ => t = s.clears
  | .cancelled, _ | .receive, _ | .cached, _ => t = s

def Steps (c : HoldCall) (answer : c.Answer) (t : SharedHold ι) : Prop :=
  ∃ u clock, s.Does i c answer u ∧ u.clock ≤ clock ∧ t = { u with clock }

end SharedHold

/-- The gateway as one task sees it. A task looks and answers with a time that is past, and sends
after a look of its own. -/
def holdCalls {ι : Type} [DecidableEq ι] (i : ι) :
    Contract HoldCall HoldCall.Answer (SharedHold ι) where
  requires s c :=
    match c with
    | .held now | .holdFor _ now => now ≤ s.clock
    | .send => ∃ look, s.look i = some look
    | _ => True
  steps s c answer t := s.Steps i c answer t

/-! ## The law -/

/-- What a rate limit does to the hold, given what happened to it before. -/
structure LimitLaw (front : List HoldEvent) (answer : LimitAnswer) : Prop where
  recorded : answer.before = holdAfter front
  timely : answer.now ≤ answer.clock
  /-- A later answer never shortens a hold. -/
  kept : ∀ hold, answer.before = some hold → hold.holdUntil ≤ answer.after.holdUntil
  /-- The wait GitHub named is kept, as far as the cap lets it. -/
  named : ∀ wait : Nat, answer.limit.requested answer.now = some wait →
    answer.now + (min wait maxRateLimitBackoff : Nat) ≤ answer.after.holdUntil
  /-- The hold ends within the cap after the answer that set its end. -/
  bounded : ∃ setter, .limited setter ∈ front ++ [.limited answer] ∧
    setter.after.holdUntil = answer.after.holdUntil ∧
      answer.after.holdUntil ≤ setter.now + maxRateLimitBackoff
  /-- From the second one on, each secondary limit in a row doubles the wait. -/
  doubled : answer.limit.kind = .secondary → 2 ≤ streak (front ++ [.limited answer]) →
    answer.now + (doubled defaultRateLimitBackoff maxRateLimitBackoff
      (streak (front ++ [.limited answer]) - 1) : Nat) ≤ answer.after.holdUntil

/-- What each change of the hold is bound to. -/
def EventLaw (front : List HoldEvent) : HoldEvent → Prop
  | .limited answer => LimitLaw front answer
  | .cleared clock hold => holdAfter front = some hold ∧ hold.holdUntil ≤ clock

/-- The quiet period: no request is begun while a hold is in force, and a hold changes by its law
only. -/
structure QuietLaw {ι : Type} (s : SharedHold ι) : Prop where
  requests : ∀ sent ∈ s.wire, ∃ look, sent.look = some look ∧ look.time ≤ sent.time ∧
    ∀ hold, look.hold = some hold → hold.holdUntil ≤ look.time
  changes : ∀ front event rest, s.history = front ++ event :: rest → EventLaw front event
  current : s.hold = holdAfter s.history

@[simp]
theorem holdAfter_limited (front : List HoldEvent) (answer : LimitAnswer) :
    holdAfter (front ++ [.limited answer]) = some answer.after := by
  simp [holdAfter]

@[simp]
theorem holdAfter_cleared (front : List HoldEvent) (clock : Timestamp) (hold : RateLimitHold) :
    holdAfter (front ++ [.cleared clock hold]) = none := by
  simp [holdAfter]

theorem streak_concat (front : List HoldEvent) (event : HoldEvent) :
    streak (front ++ [event]) = event.streak (streak front) := by
  simp [streak]

theorem inForce_iff (answer : LimitAnswer) :
    answer.InForce ↔ ∃ hold, RateLimitHold.live answer.before answer.now = some hold :=
  exists_congr fun _ ↦ RateLimitHold.live_eq_some_iff.symm

theorem live_eq_none {answer : LimitAnswer} (h : ¬ answer.InForce) :
    RateLimitHold.live answer.before answer.now = none :=
  Option.eq_none_iff_forall_ne_some.mpr fun hold hlive ↦ h ((inForce_iff answer).mpr ⟨hold, hlive⟩)

theorem recent_iff (answer : LimitAnswer) :
    answer.Recent ↔ ∃ hold, RateLimitHold.remembered answer.before answer.now = some hold := by
  refine exists_congr fun hold ↦ ?_
  rw [RateLimitHold.remembered, Option.filter_eq_some_iff, decide_eq_true_eq]

theorem streak_primary {answer : LimitAnswer} (h : answer.limit.kind = .primary) (k : Nat) :
    HoldEvent.streak k (.limited answer) = if answer.InForce then k else 0 := by
  simp [HoldEvent.streak, h]

theorem streak_secondary {answer : LimitAnswer} (h : answer.limit.kind = .secondary) (k : Nat) :
    HoldEvent.streak k (.limited answer) =
      if answer.InForce then max k 1 else if answer.Recent then k + 1 else 1 := by
  simp [HoldEvent.streak, h]

section

variable {answer : LimitAnswer} {k : Nat}
  (hbefore : ∀ hold, answer.before = some hold →
    hold.consecutiveSecondary = min k RateLimitHold.maxConsecutive)

include hbefore

theorem countSecondary_eq (hsecondary : answer.limit.kind = .secondary) :
    RateLimitHold.countSecondary answer.before answer.limit answer.now =
      min (HoldEvent.streak k (.limited answer)) RateLimitHold.maxConsecutive := by
  have hpos : 1 ≤ RateLimitHold.maxConsecutive := by decide
  rw [streak_secondary hsecondary]
  unfold RateLimitHold.countSecondary
  by_cases hforce : answer.InForce
  · obtain ⟨current, hlive⟩ := (inForce_iff answer).mp hforce
    have hcount := hbefore current (RateLimitHold.live_eq_some_iff.mp hlive).1
    rw [if_pos hforce]
    simp only [hsecondary, hlive]
    omega
  · have hlive : RateLimitHold.live answer.before answer.now = none := live_eq_none hforce
    rw [if_neg hforce]
    by_cases hrecent : answer.Recent
    · obtain ⟨previous, hprevious⟩ := (recent_iff answer).mp hrecent
      have hcount := hbefore previous (Option.filter_eq_some_iff.mp hprevious).1
      rw [if_pos hrecent]
      simp only [hsecondary, hlive, hprevious]
      omega
    · have hnone : RateLimitHold.remembered answer.before answer.now = none :=
        Option.eq_none_iff_forall_ne_some.mpr
          fun hold hhold ↦ hrecent ((recent_iff answer).mpr ⟨hold, hhold⟩)
      rw [if_neg hrecent]
      simp only [hsecondary, hlive, hnone]
      omega

theorem holdFor_count_eq :
    (RateLimitHold.holdFor answer.before answer.limit answer.now).1.consecutiveSecondary =
      min (HoldEvent.streak k (.limited answer)) RateLimitHold.maxConsecutive := by
  rw [RateLimitHold.holdFor_count]
  cases hkind : answer.limit.kind with
  | primary =>
    have hcount : RateLimitHold.countSecondary answer.before answer.limit answer.now = 0 := by
      simp [RateLimitHold.countSecondary, hkind]
    rw [hcount, streak_primary hkind, Nat.zero_max]
    by_cases hforce : answer.InForce
    · obtain ⟨current, hlive⟩ := (inForce_iff answer).mp hforce
      rw [if_pos hforce, hlive]
      exact hbefore current (RateLimitHold.live_eq_some_iff.mp hlive).1
    · rw [if_neg hforce, live_eq_none hforce, Nat.zero_min]
      rfl
  | secondary =>
    rw [countSecondary_eq hbefore hkind, streak_secondary hkind]
    by_cases hforce : answer.InForce
    · obtain ⟨current, hlive⟩ := (inForce_iff answer).mp hforce
      have hlength := hbefore current (RateLimitHold.live_eq_some_iff.mp hlive).1
      rw [if_pos hforce, hlive, Option.map_some, Option.getD_some]
      omega
    · rw [live_eq_none hforce]
      exact Nat.max_zero _

theorem doubled_le_asked (hsecondary : answer.limit.kind = .secondary)
    (hrow : 2 ≤ HoldEvent.streak k (.limited answer)) :
    doubled defaultRateLimitBackoff maxRateLimitBackoff
        (HoldEvent.streak k (.limited answer) - 1) ≤
      RateLimitHold.asked answer.before answer.limit answer.now := by
  have hcount := countSecondary_eq hbefore hsecondary
  have hmax : 11 ≤ RateLimitHold.maxConsecutive := by decide
  have hlong : maxRateLimitBackoff ≤ defaultRateLimitBackoff * 2 ^ 10 := by decide
  have hrow' : 1 < RateLimitHold.countSecondary answer.before answer.limit answer.now := by omega
  have hwait : doubled defaultRateLimitBackoff maxRateLimitBackoff
      (RateLimitHold.countSecondary answer.before answer.limit answer.now - 1) ≤
        RateLimitHold.asked answer.before answer.limit answer.now :=
    RateLimitHold.doubled_le_quietWait hrow'
  -- past ten doublings the cap holds the wait, so that the count may stop
  have hsame : min (RateLimitHold.countSecondary answer.before answer.limit answer.now - 1) 10 =
      min (HoldEvent.streak k (.limited answer) - 1) 10 := by omega
  rw [← doubled_min hlong (Nat.zero_le _), ← hsame, doubled_min hlong (Nat.zero_le _)]
  exact hwait

end

namespace SharedHold

variable {ι : Type} {s t : SharedHold ι}

/-- What is known of the shared gateway at every point of a run. -/
structure Sound (s : SharedHold ι) : Prop where
  law : QuietLaw s
  looked : ∀ i look, s.look i = some look → look.time ≤ s.clock ∧
    ∀ hold, look.hold = some hold → hold.holdUntil ≤ look.time
  counted : ∀ hold, s.hold = some hold →
    hold.consecutiveSecondary = min (streak s.history) RateLimitHold.maxConsecutive
  set : ∀ hold, s.hold = some hold → ∃ setter, .limited setter ∈ s.history ∧
    setter.after.holdUntil = hold.holdUntil ∧ hold.holdUntil ≤ setter.now + maxRateLimitBackoff

theorem Sound.passes (h : s.Sound) {clock : Timestamp} (hclock : s.clock ≤ clock) :
    { s with clock }.Sound where
  law := ⟨h.law.requests, h.law.changes, h.law.current⟩
  looked i look hlook := ⟨Int.le_trans (h.looked i look hlook).1 hclock, (h.looked i look hlook).2⟩
  counted := h.counted
  set := h.set

theorem Sound.looks [DecidableEq ι] (h : s.Sound) (i : ι) {now : Timestamp} (hnow : now ≤ s.clock)
    (hnone : RateLimitHold.held s.hold now = none) : (s.looks i).Sound where
  law := ⟨h.law.requests, h.law.changes, h.law.current⟩
  looked j look hlook := by
    have hlook : Function.update s.look i (some ⟨s.clock, s.hold⟩) j = some look := hlook
    by_cases hji : j = i
    · subst hji
      rw [Function.update_self, Option.some.injEq] at hlook
      subst hlook
      refine ⟨Int.le_refl _, fun hold hhold ↦ ?_⟩
      exact Int.le_trans (RateLimitHold.held_eq_none_iff.mp hnone hold hhold) hnow
    · rw [Function.update_of_ne hji] at hlook
      exact h.looked j look hlook
  counted := h.counted
  set := h.set

theorem Sound.sends (h : s.Sound) (i : ι) (hlook : ∃ look, s.look i = some look) :
    (s.sends i).Sound where
  law := by
    refine ⟨fun sent hsent ↦ ?_, h.law.changes, h.law.current⟩
    rcases List.mem_append.mp hsent with hsent | hsent
    · exact h.law.requests sent hsent
    · obtain rfl := List.mem_singleton.mp hsent
      obtain ⟨look, hlook⟩ := hlook
      exact ⟨look, hlook, h.looked i look hlook⟩
  looked := h.looked
  counted := h.counted
  set := h.set

theorem changes_concat {history : List HoldEvent} {last : HoldEvent}
    (h : ∀ front event rest, history = front ++ event :: rest → EventLaw front event)
    (hlast : EventLaw history last) :
    ∀ front event rest, history ++ [last] = front ++ event :: rest → EventLaw front event := by
  intro front event rest hsplit
  rcases List.eq_nil_or_concat rest with rfl | ⟨earlier, final, rfl⟩
  · obtain ⟨rfl, hevent⟩ := List.append_inj' hsplit rfl
    obtain rfl := List.singleton_inj.mp hevent
    exact hlast
  · rw [List.concat_eq_append, ← List.cons_append, ← List.append_assoc] at hsplit
    obtain ⟨hearlier, -⟩ := List.append_inj' hsplit rfl
    exact h front event earlier hearlier

theorem Sound.answers (h : s.Sound) (limit : RateLimited) {now : Timestamp}
    (hnow : now ≤ s.clock) : (s.answers limit now).Sound := by
  let answer : LimitAnswer :=
    ⟨now, s.clock, limit, s.hold, (RateLimitHold.holdFor s.hold limit now).1⟩
  have hstreak : streak (s.history ++ [.limited answer]) =
      HoldEvent.streak (streak s.history) (.limited answer) := streak_concat _ _
  have hasked : now + RateLimitHold.asked s.hold limit now ≤ answer.after.holdUntil :=
    RateLimitHold.asked_le_holdFor s.hold limit now
  have hwaits : ∀ wait : Nat, wait ≤ RateLimitHold.asked s.hold limit now →
      now + wait ≤ answer.after.holdUntil :=
    fun wait hwait ↦ Int.le_trans (Int.add_le_add_left (Int.ofNat_le.mpr hwait) now) hasked
  have hset : ∃ setter, .limited setter ∈ s.history ++ [.limited answer] ∧
      setter.after.holdUntil = answer.after.holdUntil ∧
        answer.after.holdUntil ≤ setter.now + maxRateLimitBackoff := by
    rcases RateLimitHold.holdFor_cases s.hold limit now with
      ⟨hends, -⟩ | ⟨current, hcurrent, -, hends⟩
    · refine ⟨answer, List.mem_append_right _ (List.mem_singleton_self _), rfl, ?_⟩
      have hcap := RateLimitHold.asked_le_max s.hold limit now
      exact hends ▸ Int.add_le_add_left (Int.ofNat_le.mpr hcap) now
    · obtain ⟨setter, hsetter, hsame, hbound⟩ := h.set current hcurrent
      exact ⟨setter, List.mem_append_left _ hsetter, hsame.trans hends.symm, hends ▸ hbound⟩
  have hlaw : LimitLaw s.history answer := by
    refine ⟨h.law.current, hnow, ?_, ?_, hset, ?_⟩
    · exact fun hold hhold ↦ RateLimitHold.holdFor_not_shortened hhold
    · intro wait hwait
      exact hwaits _ ((limit.requested_le_delayFrom now hwait).trans
        (RateLimitHold.delayFrom_le_quietWait _))
    · intro hsecondary hrow
      rw [hstreak] at hrow ⊢
      exact hwaits _ (doubled_le_asked h.counted hsecondary hrow)
  refine ⟨⟨h.law.requests, changes_concat h.law.changes hlaw,
    (holdAfter_limited s.history answer).symm⟩, h.looked, ?_, ?_⟩
  · rintro hold ⟨⟩
    show _ = min (streak (s.history ++ [.limited answer])) _
    rw [hstreak]
    have hbefore : ∀ hold, answer.before = some hold →
        hold.consecutiveSecondary = min (streak s.history) RateLimitHold.maxConsecutive := h.counted
    have hcount := holdFor_count_eq hbefore
    exact hcount
  · rintro hold ⟨⟩
    exact hset

theorem Sound.clears (h : s.Sound) : s.clears.Sound := by
  unfold SharedHold.clears
  split
  · exact h
  · next hold hhold =>
    split_ifs with hforce
    · exact h
    · have hover : hold.holdUntil ≤ s.clock := Int.not_lt.mp hforce
      refine ⟨⟨h.law.requests, ?_, (holdAfter_cleared _ _ _).symm⟩, h.looked, ?_, ?_⟩
      · exact changes_concat h.law.changes ⟨h.law.current.symm.trans hhold, hover⟩
      · exact fun other hother ↦ nomatch hother
      · exact fun other hother ↦ nomatch hother

/-- What a task relies on: time only passes, and its last look stays its own. -/
def Rely (i : ι) (s t : SharedHold ι) : Prop :=
  s.clock ≤ t.clock ∧ t.look i = s.look i

theorem Rely.trans {i : ι} {u : SharedHold ι} (h : Rely i s t) (hrest : Rely i t u) : Rely i s u :=
  ⟨Int.le_trans h.1 hrest.1, hrest.2.trans h.2⟩

variable [DecidableEq ι] {i : ι} {c : HoldCall} {answer : c.Answer}

theorem Sound.does (h : s.Sound) (hrequires : (holdCalls i).requires s c)
    (hdoes : s.Does i c answer t) : t.Sound := by
  cases c with
  | cancelled => exact hdoes ▸ h
  | now => exact hdoes.2 ▸ h
  | held now =>
    obtain ⟨hfound, rfl⟩ := hdoes
    split_ifs with hnone
    · exact h.looks i hrequires (hfound.symm.trans hnone)
    · exact h
  | send => exact hdoes ▸ h.sends i hrequires
  | receive => exact hdoes ▸ h
  | cached => exact hdoes ▸ h
  | holdFor limit now => exact hdoes.2 ▸ h.answers limit hrequires
  | clearHold => exact hdoes ▸ h.clears

theorem does_frame (hdoes : s.Does i c answer t) :
    t.clock = s.clock ∧ (t.look = s.look ∨
      (∃ now, c = .held now) ∧ t.look = Function.update s.look i (some ⟨s.clock, s.hold⟩)) := by
  cases c with
  | cancelled => exact hdoes ▸ ⟨rfl, .inl rfl⟩
  | now => exact hdoes.2 ▸ ⟨rfl, .inl rfl⟩
  | held now =>
    obtain ⟨-, rfl⟩ := hdoes
    split_ifs
    · exact ⟨rfl, .inr ⟨⟨now, rfl⟩, rfl⟩⟩
    · exact ⟨rfl, .inl rfl⟩
  | send => exact hdoes ▸ ⟨rfl, .inl rfl⟩
  | receive => exact hdoes ▸ ⟨rfl, .inl rfl⟩
  | cached => exact hdoes ▸ ⟨rfl, .inl rfl⟩
  | holdFor limit now => exact hdoes.2 ▸ ⟨rfl, .inl rfl⟩
  | clearHold =>
    obtain rfl : t = s.clears := hdoes
    unfold clears
    split
    · exact ⟨rfl, .inl rfl⟩
    · split_ifs
      · exact ⟨rfl, .inl rfl⟩
      · exact ⟨rfl, .inl rfl⟩

theorem Steps.rely (hstep : s.Steps i c answer t) {j : ι} (hj : j ≠ i) : Rely j s t := by
  obtain ⟨u, clock, hdoes, hclock, rfl⟩ := hstep
  obtain ⟨hsame, hlook⟩ := does_frame hdoes
  refine ⟨hsame ▸ hclock, ?_⟩
  show u.look j = s.look j
  rcases hlook with hlook | ⟨-, hlook⟩
  · rw [hlook]
  · rw [hlook, Function.update_of_ne hj]

theorem Steps.rely_self (hstep : s.Steps i c answer t) (hc : ∀ now, c ≠ .held now) :
    Rely i s t := by
  obtain ⟨u, clock, hdoes, hclock, rfl⟩ := hstep
  obtain ⟨hsame, hlook⟩ := does_frame hdoes
  refine ⟨hsame ▸ hclock, ?_⟩
  rcases hlook with hlook | ⟨⟨now, hheld⟩, -⟩
  · exact congrFun hlook i
  · exact absurd hheld (hc now)

end SharedHold

/-! ## Programs -/

section

variable {ι : Type} [DecidableEq ι] {i : ι} {s : SharedHold ι}

abbrev amongOthers (i : ι) : Contract HoldCall HoldCall.Answer (SharedHold ι) :=
  (holdCalls i).under SharedHold.Sound (SharedHold.Rely i)

theorem hold_seq_wp {α : Type} (c : HoldCall) (hc : ∀ now, c ≠ .held now)
    {f : c.Answer → HoldProgram α} {Q : Except HoldFailure α → SharedHold ι → Prop}
    (hrequires : ∀ t, SharedHold.Rely i s t → (holdCalls i).requires t c)
    (hf : ∀ a u, SharedHold.Rely i s u → (amongOthers i).wp (f a) Q u) :
    (amongOthers i).wp (RestDemand.ask c >>= f) Q s :=
  ⟨fun t hrely _ ↦ hrequires t hrely,
    fun a u ⟨_, hrely, _, hstep⟩ ↦ hf a u (hrely.trans (hstep.rely_self hc))⟩

theorem hold_now_wp {α : Type} {f : Timestamp → HoldProgram α}
    {Q : Except HoldFailure α → SharedHold ι → Prop}
    (hf : ∀ now u, now ≤ u.clock → (amongOthers i).wp (f now) Q u) :
    (amongOthers i).wp (RestDemand.ask .now >>= f) Q s := by
  refine ⟨fun _ _ _ ↦ trivial, ?_⟩
  rintro now u ⟨t, hrely, -, hstep⟩
  have hlater := hstep.rely_self fun _ h ↦ nomatch h
  obtain ⟨v, clock, ⟨hnow, -⟩, -, -⟩ := hstep
  exact hf now u (hnow ▸ hlater.1)

theorem send_wp (hlook : ∃ look, s.look i = some look) :
    (amongOthers i).wp RestDemand.send (fun _ _ ↦ True) s := by
  have hstill {t : SharedHold ι} (hrely : SharedHold.Rely i s t) : ∃ look, t.look i = some look :=
    hrely.2.symm ▸ hlook
  refine hold_seq_wp .send (fun _ h ↦ nomatch h) (fun t hrely ↦ hstill hrely) ?_
  intro _ t ht
  refine hold_seq_wp .receive (fun _ h ↦ nomatch h) (fun _ _ ↦ trivial) ?_
  intro reply u hu
  cases reply with
  | limited limit => exact trivial
  | failed detail => exact trivial
  | cancelled => exact trivial
  | response notModified =>
    cases notModified with
    | false => exact trivial
    | true =>
      refine hold_seq_wp .cached (fun _ h ↦ nomatch h) (fun _ _ ↦ trivial) ?_
      intro cached v hv
      cases cached with
      | true => exact trivial
      | false =>
        have hpast := (ht.trans hu).trans hv
        refine hold_seq_wp .send (fun _ h ↦ nomatch h)
          (fun w hw ↦ hstill (hpast.trans hw)) ?_
        exact fun _ _ _ ↦ ⟨fun _ _ _ ↦ trivial, fun _ _ _ ↦ trivial⟩

theorem classify_wp (limit : RateLimited) :
    (amongOthers i).wp (RestDemand.classify limit) (fun _ _ ↦ True) s := by
  refine hold_now_wp fun now t hnow ↦ ?_
  refine hold_seq_wp (.holdFor limit now) (fun _ h ↦ nomatch h) ?_ fun _ _ _ ↦ trivial
  exact fun u hrely ↦ Int.le_trans hnow hrely.1

theorem get_wp : (amongOthers i).wp RestDemand.get (fun _ _ ↦ True) s := by
  refine hold_seq_wp .cancelled (fun _ h ↦ nomatch h) (fun _ _ ↦ trivial) ?_
  intro cancelled t _
  show (amongOthers i).wp (if cancelled = true then _ else _) _ t
  split_ifs
  · exact trivial
  refine hold_now_wp fun now u hnow ↦ ?_
  refine ⟨fun v hrely _ ↦ Int.le_trans hnow hrely.1, ?_⟩
  rintro found w ⟨v, hrely, -, hstep⟩
  cases found with
  | some limit => exact trivial
  | none =>
    have hlook : ∃ look, w.look i = some look := by
      obtain ⟨x, clock, ⟨-, rfl⟩, -, rfl⟩ := hstep
      exact ⟨_, Function.update_self _ _ _⟩
    show (amongOthers i).wp (RestDemand.send >>= _) _ w
    refine Contract.wp_seq (send_wp hlook) ?_ fun _ _ _ ↦ trivial
    intro reply x _
    cases reply with
    | response notModified => exact ⟨fun _ _ _ ↦ trivial, fun _ _ _ ↦ trivial⟩
    | limited limit => exact classify_wp limit
    | failed detail => exact trivial
    | cancelled => exact trivial

end

/-! ## Every run -/

/-- Any number of requests over one gateway. -/
abbrev HoldPool (ι : Type) := Pool HoldCall HoldCall.Answer HoldFailure Unit (SharedHold ι) ι

/-- A gateway that no request has been made of. -/
def HoldPool.fresh (ι : Type) (clock : Timestamp) : HoldPool ι where
  shared := ⟨clock, none, [], fun _ ↦ none, []⟩
  point _ := RestDemand.get

/-- In every run, however the requests of the tasks and their answers are interleaved and whatever
the answers are, the quiet period is kept: no request is begun while a hold is in force, no answer
shortens one, a success clears only one that is over, and each lasts as long as its answer asks
and no longer than the cap. -/
theorem quiet_period_kept {ι : Type} [DecidableEq ι] {clock : Timestamp} {Q : HoldPool ι}
    {log : List (Occurrence (SharedHold ι) ι)}
    (h : Contract.Interleaves holdCalls (HoldPool.fresh ι clock) log Q) : QuietLaw Q.shared := by
  have hstart : (HoldPool.fresh ι clock).shared.Sound := by
    refine ⟨⟨?_, ?_, rfl⟩, ?_, ?_, ?_⟩
    · exact fun _ hsent ↦ nomatch hsent
    · intro front event rest hsplit
      simp [HoldPool.fresh] at hsplit
    · exact fun _ _ hlook ↦ nomatch hlook
    · exact fun _ hhold ↦ nomatch hhold
    · exact fun _ hhold ↦ nomatch hhold
  have hkeeps (i : ι) (s : SharedHold ι) (c : HoldCall) (a : c.Answer) (t : SharedHold ι)
      (hsound : s.Sound) (hrequires : (holdCalls i).requires s c)
      (hstep : (holdCalls i).steps s c a t) : t.Sound := by
    obtain ⟨u, later, hdoes, hlater, rfl⟩ := hstep
    exact (hsound.does hrequires hdoes).passes hlater
  have hrefl (i : ι) (s : SharedHold ι) : SharedHold.Rely i s s := ⟨Int.le_refl _, rfl⟩
  have hrely (i j : ι) (s : SharedHold ι) (c : HoldCall) (a : c.Answer) (t : SharedHold ι)
      (hij : i ≠ j) (_ : s.Sound) (_ : (holdCalls j).requires s c)
      (hstep : (holdCalls j).steps s c a t) : SharedHold.Rely i s t := hstep.rely hij
  exact (Contract.Interleaves.sound (Q := fun _ _ _ ↦ True) hrefl
    (fun _ _ _ _ hst htu ↦ hst.trans htu) hkeeps hrely (fun _ _ _ _ _ _ ↦ trivial) hstart
    (fun _ ↦ get_wp) h).1.law

theorem SharedHold.Does.steps {ι : Type} [DecidableEq ι] {s t : SharedHold ι} {i : ι}
    {c : HoldCall} {answer : c.Answer} (h : s.Does i c answer t) : s.Steps i c answer t :=
  ⟨t, t.clock, h, Int.le_refl _, rfl⟩

def briefLimit : RateLimited := ⟨.secondary, some (secondsOf 5), some 4000, none⟩

/-- A request is answered with a limit, and the next one is held back. -/
theorem second_request_held : ∃ log Q,
    Contract.Interleaves holdCalls (HoldPool.fresh (Fin 2) 0) log Q ∧
      Q.shared.history ≠ [] ∧ Q.shared.wire.length = 1 ∧ QuietLaw Q.shared := by
  have h₀ := Contract.Interleaves.start (HoldPool.fresh (Fin 2) 0) (C := holdCalls)
  have h₁ := h₀.advance 1 .cancelled false _ rfl (SharedHold.Does.steps rfl)
  have h₂ := h₁.advance 1 .now 0 _ rfl (SharedHold.Does.steps ⟨rfl, rfl⟩)
  have h₃ := h₂.advance 1 (.held 0) none _ rfl (SharedHold.Does.steps ⟨rfl, rfl⟩)
  have h₄ := h₃.advance 1 .send () _ rfl (SharedHold.Does.steps rfl)
  have h₅ := h₄.advance 1 .receive (.limited briefLimit) _ rfl (SharedHold.Does.steps rfl)
  have h₆ := h₅.advance 1 .now 0 _ rfl (SharedHold.Does.steps ⟨rfl, rfl⟩)
  have h₇ := h₆.advance 1 (.holdFor briefLimit 0) _ _ rfl (SharedHold.Does.steps ⟨rfl, rfl⟩)
  have k₁ := h₇.advance 0 .cancelled false _ rfl (SharedHold.Does.steps rfl)
  have k₂ := k₁.advance 0 .now 0 _ rfl (SharedHold.Does.steps ⟨rfl, rfl⟩)
  have k₃ := k₂.advance 0 (.held 0) (some briefLimit) _ rfl (SharedHold.Does.steps ⟨rfl, rfl⟩)
  exact ⟨_, _, k₃, (fun h ↦ nomatch h), rfl, quiet_period_kept k₃⟩

/-- One request has looked and not sent when the other one is answered with a limit: it is sent
into the hold. And that hold, the first of a row, ends after the five seconds GitHub named. -/
theorem sent_into_brief_hold : ∃ log Q,
    Contract.Interleaves holdCalls (HoldPool.fresh (Fin 2) 0) log Q ∧
      (∃ sent ∈ Q.shared.wire, ∃ hold, sent.hold = some hold ∧ sent.time < hold.holdUntil) ∧
      ∃ answer, Q.shared.history = [.limited answer] ∧ answer.limit.kind = .secondary ∧
        streak Q.shared.history = 1 ∧ answer.after.holdUntil <
          answer.now + (doubled defaultRateLimitBackoff maxRateLimitBackoff (1 - 1) : Nat) := by
  have h₀ := Contract.Interleaves.start (HoldPool.fresh (Fin 2) 0) (C := holdCalls)
  have h₁ := h₀.advance 0 .cancelled false _ rfl (SharedHold.Does.steps rfl)
  have h₂ := h₁.advance 0 .now 0 _ rfl (SharedHold.Does.steps ⟨rfl, rfl⟩)
  have h₃ := h₂.advance 0 (.held 0) none _ rfl (SharedHold.Does.steps ⟨rfl, rfl⟩)
  have k₁ := h₃.advance 1 .cancelled false _ rfl (SharedHold.Does.steps rfl)
  have k₂ := k₁.advance 1 .now 0 _ rfl (SharedHold.Does.steps ⟨rfl, rfl⟩)
  have k₃ := k₂.advance 1 (.held 0) none _ rfl (SharedHold.Does.steps ⟨rfl, rfl⟩)
  have k₄ := k₃.advance 1 .send () _ rfl (SharedHold.Does.steps rfl)
  have k₅ := k₄.advance 1 .receive (.limited briefLimit) _ rfl (SharedHold.Does.steps rfl)
  have k₆ := k₅.advance 1 .now 0 _ rfl (SharedHold.Does.steps ⟨rfl, rfl⟩)
  have k₇ := k₆.advance 1 (.holdFor briefLimit 0) _ _ rfl (SharedHold.Does.steps ⟨rfl, rfl⟩)
  have l₁ := k₇.advance 0 .send () _ rfl (SharedHold.Does.steps rfl)
  refine ⟨_, _, l₁, ⟨_, List.mem_append_right _ (List.mem_singleton_self _), _, rfl, ?_⟩,
    _, rfl, rfl, ?_, ?_⟩
  · decide
  · decide
  · decide

end RunnerManager.Github
