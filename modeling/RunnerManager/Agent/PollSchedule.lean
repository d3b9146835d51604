import Mathlib.Algebra.Order.Field.Rat
import RunnerManager.Github.RateLimit
import RunnerManager.Lib.Backoff

/-!
# When to poll next

`PollSchedule` of `crates/agent/src/reconcile.rs`. Waits are nanoseconds; jitter multiplies a wait
by a fraction, so a computed delay is a rational number of them. `next_poll_with` is read through
one lemma for each way a pass can end, and a history of polls and of interval changes keeps the
idle interval between its floor and the active one.
-/

namespace RunnerManager.Agent

open RunnerManager.Domain RunnerManager.Github RunnerManager.Backoff

/-! ## The schedule -/

def maxOfflineBackoff : Nat := secondsOf (15 * 60)

def maxBackoffDoublings : Nat := 5

def jitterRatio : ℚ := 1 / 2

def rateLimitJitterRatio : ℚ := 1 / 10

def maxIdleRequestsPerMinutePerTarget : Nat := 300

/-- `PollPace`: why the next poll is when it is. -/
inductive PollPace where
  | nominal
  | idle
  | stretched (pressure : PrimaryPressure)
  | rateLimited (kind : RateLimitKind)
  | lockedOut
  | offline (consecutive : Nat)
  | blocked
deriving DecidableEq

structure NextPoll where
  delay : ℚ
  pace : PollPace
deriving DecidableEq

/-- `PollConditions`: what a successful pass found. -/
structure PollConditions where
  quiet : Bool
  quota : Option RateLimitSnapshot
  requestsPerPass : Nat
deriving DecidableEq

structure PollSchedule where
  interval : RefreshInterval
  idle : Nat
  consecutiveOffline : Nat
  offlineSince : Option Timestamp
deriving DecidableEq

/-- `idle_floor_for`: the shortest idle delay a poll of this many requests may have. -/
def idleFloorFor (requestsPerPass : Nat) : Nat :=
  secondsOf (requestsPerPass * 60 / maxIdleRequestsPerMinutePerTarget)

namespace PollSchedule

def idleFloor : Nat := secondsOf 5

def floor : Nat := secondsOf 30

variable (schedule : PollSchedule)

def nominal : Nat := secondsOf schedule.interval.val

def new (interval : RefreshInterval) : PollSchedule :=
  ⟨interval, secondsOf interval.val, 0, none⟩

def setIntervals (interval : RefreshInterval) (idle : Nat) : PollSchedule :=
  { schedule with
    interval
    idle := max (min idle (secondsOf interval.val)) idleFloor }

def withIdle (idle : Nat) : PollSchedule :=
  schedule.setIntervals schedule.interval idle

def recovered : PollSchedule :=
  { schedule with consecutiveOffline := 0, offlineSince := none }

/-- The largest `u32`, where the count of offline polls stops. -/
def maxConsecutive : Nat := 2 ^ 32 - 1

def wentOffline (now : Timestamp) : PollSchedule :=
  { schedule with
    consecutiveOffline := min (schedule.consecutiveOffline + 1) maxConsecutive
    offlineSince := some (schedule.offlineSince.getD now) }

def offlineDelay (jitter : ℚ) : ℚ :=
  let doublings := min (schedule.consecutiveOffline - 1) maxBackoffDoublings
  let capped := doubled schedule.nominal maxOfflineBackoff doublings
  max (jittered jitterRatio jitter capped) floor

def retryFloor (state : RefreshState) (now : Timestamp) : Nat :=
  (state.retryDelay now).getD floor

/-- Idle after a quiet pass, unless the idle interval is no shorter than the active one. -/
def nextCalm (conditions : PollConditions) : NextPoll :=
  if conditions.quiet ∧ schedule.idle < schedule.nominal then
    ⟨(max schedule.idle (idleFloorFor conditions.requestsPerPass) : Nat), .idle⟩
  else ⟨schedule.nominal, .nominal⟩

/-- What a pass whose targets all answered is scheduled by. -/
def nextAnswered (conditions : PollConditions) (now : Timestamp) : NextPoll :=
  let nominal := schedule.nominal
  let pressure := (conditions.quota.map (·.pressure now)).getD .normal
  match pressure, conditions.quota with
  | .low, some quota | .critical, some quota =>
    ⟨(min (nominal * pressure.stretchFactor) (max (quota.resetIn now) nominal) : Nat),
      .stretched pressure⟩
  | _, _ => schedule.nextCalm conditions

/-- `PollSchedule::next_poll_with`: the schedule after a pass, and the next poll. -/
def nextPollWith (failure : Option RefreshState) (conditions : PollConditions) (now : Timestamp)
    (jitter : ℚ) : PollSchedule × NextPoll :=
  match failure with
  | none => (schedule.recovered, schedule.nextAnswered conditions now)
  | some .offline =>
    let schedule := schedule.wentOffline now
    (schedule, ⟨schedule.offlineDelay jitter, .offline schedule.consecutiveOffline⟩)
  | some (.rateLimited limit) =>
    -- `max`, never a sum: the floor GitHub named is an instant, not an addend.
    let wait := max (retryFloor (.rateLimited limit) now) schedule.nominal
    (schedule.recovered, ⟨jittered rateLimitJitterRatio jitter wait, .rateLimited limit.kind⟩)
  | some (.lockedOut retryAfter) =>
    (schedule.recovered,
      ⟨(max (retryFloor (.lockedOut retryAfter) now) schedule.nominal : Nat), .lockedOut⟩)
  | some _ => (schedule.recovered, ⟨schedule.nominal, .blocked⟩)

/-! ### What one pass answers -/

/-- The quota, as far as it is known, is not running low. -/
def QuotaCalm (conditions : PollConditions) (now : Timestamp) : Prop :=
  ∀ quota, conditions.quota = some quota → quota.pressure now = .normal

/-- A pass that answered is stretched by a low quota, and otherwise idle or nominal. -/
theorem nextAnswered_cases (conditions : PollConditions) (now : Timestamp) :
    (∃ quota, conditions.quota = some quota ∧ quota.pressure now ≠ .normal ∧
      schedule.nextAnswered conditions now =
        ⟨(min (schedule.nominal * (quota.pressure now).stretchFactor)
          (max (quota.resetIn now) schedule.nominal) : Nat), .stretched (quota.pressure now)⟩) ∨
    (QuotaCalm conditions now ∧
      schedule.nextAnswered conditions now = schedule.nextCalm conditions) := by
  cases hquota : conditions.quota with
  | none =>
    right
    constructor
    · intro quota h
      simp [hquota] at h
    · simp [nextAnswered, hquota]
  | some quota =>
    cases hpressure : quota.pressure now with
    | normal =>
      right
      constructor
      · intro other h
        rw [hquota, Option.some.injEq] at h
        rwa [← h]
      · simp [nextAnswered, hquota, hpressure]
    | low =>
      left
      exact ⟨quota, rfl, by simp [hpressure], by simp [nextAnswered, hquota, hpressure]⟩
    | critical =>
      left
      exact ⟨quota, rfl, by simp [hpressure], by simp [nextAnswered, hquota, hpressure]⟩

theorem le_mul_stretchFactor (n : Nat) (pressure : PrimaryPressure) :
    n ≤ n * pressure.stretchFactor := by
  have hpos : 0 < pressure.stretchFactor := by cases pressure <;> decide
  exact Nat.le_mul_of_pos_right n hpos

theorem nominal_le_offlineDelay (jitter : ℚ) :
    (schedule.nominal : ℚ) ≤ schedule.offlineDelay jitter ↔
      (schedule.nominal : ℚ) ≤ jittered jitterRatio jitter maxOfflineBackoff := by
  have hratio : (0 : ℚ) ≤ jitterRatio := by norm_num [jitterRatio]
  have hnominal : (0 : ℚ) ≤ schedule.nominal := Nat.cast_nonneg _
  unfold offlineDelay
  rw [le_max_iff, cast_doubled, le_jittered_doubled_iff hratio hnominal, or_iff_left_iff_imp]
  intro hshort
  -- the interval is the floor itself, which the cap is above
  have hroom : (floor : ℚ) ≤ (maxOfflineBackoff : Nat) := Nat.cast_le.mpr (by decide)
  exact hshort.trans (hroom.trans (le_jittered hratio (Nat.cast_nonneg _) jitter))

theorem wentOffline_le_max (now : Timestamp) :
    (schedule.wentOffline now).consecutiveOffline ≤ maxConsecutive :=
  Nat.min_le_right _ _

theorem le_wentOffline (now : Timestamp) :
    min schedule.consecutiveOffline maxConsecutive ≤
      (schedule.wentOffline now).consecutiveOffline := by
  unfold wentOffline
  dsimp only
  omega

theorem offlineDelay_mono {earlier later : PollSchedule}
    (hinterval : earlier.interval = later.interval)
    (hcount : earlier.consecutiveOffline ≤ later.consecutiveOffline) :
    earlier.offlineDelay 0 ≤ later.offlineDelay 0 := by
  have hdoublings : min (earlier.consecutiveOffline - 1) maxBackoffDoublings ≤
      min (later.consecutiveOffline - 1) maxBackoffDoublings := by omega
  have hnominal : earlier.nominal = later.nominal := by rw [nominal, nominal, hinterval]
  have hgrown := doubled_mono (Nat.zero_le later.nominal) maxOfflineBackoff hdoublings
  simp only [offlineDelay, jittered_zero, hnominal]
  exact max_le_max_right _ (Nat.cast_le.mpr hgrown)

theorem le_rateLimitJittered (wait : Nat) (jitter : ℚ) :
    (wait : ℚ) ≤ jittered rateLimitJitterRatio jitter wait :=
  le_jittered (by norm_num [rateLimitJitterRatio]) (Nat.cast_nonneg wait) jitter

/-- The pass after which the schedule goes idle. -/
def GoesIdle (failure : Option RefreshState) (conditions : PollConditions) (now : Timestamp) :
    Prop :=
  failure = none ∧ QuotaCalm conditions now ∧ conditions.quiet ∧ schedule.idle < schedule.nominal

end PollSchedule

/-! ## Polls -/

/-- One call of `next_poll_with`, and the schedule it is made on. -/
structure Poll where
  schedule : PollSchedule
  failure : Option RefreshState
  conditions : PollConditions
  now : Timestamp
  jitter : ℚ

namespace Poll

variable (poll : Poll)

def after : PollSchedule :=
  (poll.schedule.nextPollWith poll.failure poll.conditions poll.now poll.jitter).1

def next : NextPoll :=
  (poll.schedule.nextPollWith poll.failure poll.conditions poll.now poll.jitter).2

/-- The delay the call would answer without jitter. -/
def unjittered : ℚ :=
  (poll.schedule.nextPollWith poll.failure poll.conditions poll.now 0).2.delay

/-- The cap of an outage, with its jitter, has room for the configured interval. -/
def CapCovers : Prop :=
  (poll.schedule.nominal : ℚ) ≤ jittered jitterRatio poll.jitter maxOfflineBackoff

/-- A charged poll does not come before the configured interval is over. -/
def KeepsInterval : Prop :=
  poll.next.pace ≠ .idle → (poll.schedule.nominal : ℚ) ≤ poll.next.delay

/-- A wait GitHub named is a floor of the delay. -/
structure KeepsFloor : Prop where
  limited : ∀ kind, poll.next.pace = .rateLimited kind → ∃ limit : RateLimited,
    poll.failure = some (.rateLimited limit) ∧ (limit.delayFrom poll.now : ℚ) ≤ poll.next.delay
  lockedOut : poll.next.pace = .lockedOut → ∃ retryAfter : Nat,
    poll.failure = some (.lockedOut retryAfter) ∧ (retryAfter : ℚ) ≤ poll.next.delay

/-- A stretched poll does not wait past the reset of the quota, unless the interval does. -/
def StretchBounded : Prop :=
  ∀ pressure, poll.next.pace = .stretched pressure → ∃ quota : RateLimitSnapshot,
    poll.conditions.quota = some quota ∧
      poll.next.delay ≤ (max poll.schedule.nominal (quota.resetIn poll.now) : Nat)

/-! ### Each way a pass ends -/

/-- How a pass ends, and what is answered then. -/
inductive Ends : NextPoll → Prop where
  | stretched (quota : RateLimitSnapshot) (hanswered : poll.failure = none)
      (hquota : poll.conditions.quota = some quota) (hlow : quota.pressure poll.now ≠ .normal) :
      Ends ⟨(min (poll.schedule.nominal * (quota.pressure poll.now).stretchFactor)
        (max (quota.resetIn poll.now) poll.schedule.nominal) : Nat),
        .stretched (quota.pressure poll.now)⟩
  | idle (hidle : poll.schedule.GoesIdle poll.failure poll.conditions poll.now) :
      Ends ⟨(max poll.schedule.idle (idleFloorFor poll.conditions.requestsPerPass) : Nat), .idle⟩
  | offline (hoffline : poll.failure = some .offline) :
      Ends ⟨(poll.schedule.wentOffline poll.now).offlineDelay poll.jitter,
        .offline (poll.schedule.wentOffline poll.now).consecutiveOffline⟩
  | rateLimited (limit : RateLimited) (hlimited : poll.failure = some (.rateLimited limit)) :
      Ends ⟨jittered rateLimitJitterRatio poll.jitter
        (max (limit.delayFrom poll.now) poll.schedule.nominal : Nat), .rateLimited limit.kind⟩
  | lockedOut (retryAfter : Nat) (hlocked : poll.failure = some (.lockedOut retryAfter)) :
      Ends ⟨(max retryAfter poll.schedule.nominal : Nat), .lockedOut⟩
  | nominal (hreached : poll.failure ≠ some .offline)
      (hbusy : ¬ poll.schedule.GoesIdle poll.failure poll.conditions poll.now) :
      Ends ⟨poll.schedule.nominal, .nominal⟩
  | blocked (hreached : poll.failure ≠ some .offline) (hfailed : poll.failure ≠ none) :
      Ends ⟨poll.schedule.nominal, .blocked⟩

theorem ends_of_answered (h : poll.failure = none) : poll.Ends poll.next := by
  have hreached : poll.failure ≠ some .offline := by simp [h]
  have hnext : poll.next = poll.schedule.nextAnswered poll.conditions poll.now := by
    simp [next, PollSchedule.nextPollWith, h]
  rw [hnext]
  rcases poll.schedule.nextAnswered_cases poll.conditions poll.now with
    ⟨quota, hquota, hlow, hstretched⟩ | ⟨hcalm, hcalmed⟩
  · rw [hstretched]
    exact .stretched quota h hquota hlow
  · rw [hcalmed]
    unfold PollSchedule.nextCalm
    split_ifs with hidle
    · exact .idle ⟨h, hcalm, hidle⟩
    · exact .nominal hreached fun hgoes ↦ hidle hgoes.2.2

theorem ends : poll.Ends poll.next := by
  cases h : poll.failure with
  | none => exact poll.ends_of_answered h
  | some state =>
    have hfailed : poll.failure ≠ none := by simp [h]
    unfold next PollSchedule.nextPollWith
    rw [h]
    cases state with
    | offline => exact .offline h
    | rateLimited limit => exact .rateLimited limit h
    | lockedOut retryAfter => exact .lockedOut retryAfter h
    | ready => exact .blocked (by simp [h]) hfailed
    | unauthorized => exact .blocked (by simp [h]) hfailed
    | forbidden message => exact .blocked (by simp [h]) hfailed
    | failed status message => exact .blocked (by simp [h]) hfailed
    | cancelled => exact .blocked (by simp [h]) hfailed

/-! ### What each of them promises -/

theorem keepsInterval_iff :
    poll.KeepsInterval ↔ (poll.failure = some .offline → poll.CapCovers) := by
  have hends := poll.ends
  unfold KeepsInterval
  generalize poll.next = answer at hends ⊢
  cases hends with
  | stretched quota hanswered hquota _ =>
    have hlong : poll.schedule.nominal ≤
        min (poll.schedule.nominal * (quota.pressure poll.now).stretchFactor)
          (max (quota.resetIn poll.now) poll.schedule.nominal) :=
      Nat.le_min.mpr ⟨PollSchedule.le_mul_stretchFactor _ _, Nat.le_max_right _ _⟩
    have hcast : (poll.schedule.nominal : ℚ) ≤ _ := Nat.cast_le.mpr hlong
    simp [hanswered, -Nat.cast_min, hcast]
  | idle hidle => simp [hidle.1]
  | offline hoffline =>
    have hcap : (poll.schedule.nominal : ℚ) ≤
        (poll.schedule.wentOffline poll.now).offlineDelay poll.jitter ↔
          (poll.schedule.nominal : ℚ) ≤ jittered jitterRatio poll.jitter maxOfflineBackoff :=
      (poll.schedule.wentOffline poll.now).nominal_le_offlineDelay poll.jitter
    simpa [hoffline, CapCovers] using hcap
  | rateLimited limit hlimited =>
    have hlong : (poll.schedule.nominal : ℚ) ≤
        (max (limit.delayFrom poll.now) poll.schedule.nominal : Nat) :=
      Nat.cast_le.mpr (Nat.le_max_right _ _)
    have hjittered := hlong.trans (PollSchedule.le_rateLimitJittered _ poll.jitter)
    simpa [hlimited] using hjittered
  | lockedOut retryAfter hlocked => simp [hlocked]
  | nominal hreached _ => simp [hreached]
  | blocked hreached _ => simp [hreached]

theorem keepsFloor : poll.KeepsFloor := by
  have hends := poll.ends
  constructor
  · intro kind hpace
    generalize poll.next = answer at hends hpace ⊢
    cases hends with
    | rateLimited limit hlimited =>
      have hfloor : (limit.delayFrom poll.now : ℚ) ≤
          (max (limit.delayFrom poll.now) poll.schedule.nominal : Nat) :=
        Nat.cast_le.mpr (Nat.le_max_left _ _)
      exact ⟨limit, hlimited, hfloor.trans (PollSchedule.le_rateLimitJittered _ poll.jitter)⟩
    | stretched => cases hpace
    | idle => cases hpace
    | offline => cases hpace
    | lockedOut => cases hpace
    | nominal => cases hpace
    | blocked => cases hpace
  · intro hpace
    generalize poll.next = answer at hends hpace ⊢
    cases hends with
    | lockedOut retryAfter hlocked =>
      exact ⟨retryAfter, hlocked, Nat.cast_le.mpr (Nat.le_max_left _ _)⟩
    | stretched => cases hpace
    | idle => cases hpace
    | offline => cases hpace
    | rateLimited => cases hpace
    | nominal => cases hpace
    | blocked => cases hpace

theorem stretchBounded : poll.StretchBounded := by
  intro pressure hpace
  have hends := poll.ends
  generalize poll.next = answer at hends hpace ⊢
  cases hends with
  | stretched quota _ hquota _ =>
    refine ⟨quota, hquota, Nat.cast_le.mpr ?_⟩
    rw [Nat.max_comm poll.schedule.nominal]
    exact Nat.min_le_right _ _
  | idle => cases hpace
  | offline => cases hpace
  | rateLimited => cases hpace
  | lockedOut => cases hpace
  | nominal => cases hpace
  | blocked => cases hpace

theorem next_pace_idle_iff :
    poll.next.pace = .idle ↔
      poll.schedule.GoesIdle poll.failure poll.conditions poll.now := by
  have hends := poll.ends
  generalize poll.next = answer at hends ⊢
  cases hends with
  | stretched quota _ hquota hlow =>
    have hhurried : ¬ poll.schedule.GoesIdle poll.failure poll.conditions poll.now :=
      fun hgoes ↦ hlow (hgoes.2.1 quota hquota)
    simp [hhurried]
  | idle hidle => simp [hidle]
  | offline hoffline => simp [PollSchedule.GoesIdle, hoffline]
  | rateLimited limit hlimited => simp [PollSchedule.GoesIdle, hlimited]
  | lockedOut retryAfter hlocked => simp [PollSchedule.GoesIdle, hlocked]
  | nominal _ hbusy => simp [hbusy]
  | blocked _ hfailed => simp [PollSchedule.GoesIdle, hfailed]

end Poll

/-- What happens to a schedule: its intervals are changed, or a pass ends. -/
inductive ScheduleEvent where
  | setIntervals (interval : RefreshInterval) (idle : Nat)
  | poll (failure : Option RefreshState) (conditions : PollConditions) (now : Timestamp)
      (jitter : ℚ)

namespace PollSchedule

/-- The schedule after a history. -/
def runs : PollSchedule → List ScheduleEvent → PollSchedule
  | schedule, [] => schedule
  | schedule, .setIntervals interval idle :: rest =>
    (schedule.setIntervals interval idle).runs rest
  | schedule, .poll failure conditions now jitter :: rest =>
    (schedule.nextPollWith failure conditions now jitter).1.runs rest

def polls : PollSchedule → List ScheduleEvent → List Poll
  | _, [] => []
  | schedule, .setIntervals interval idle :: rest =>
    (schedule.setIntervals interval idle).polls rest
  | schedule, .poll failure conditions now jitter :: rest =>
    ⟨schedule, failure, conditions, now, jitter⟩ ::
      (schedule.nextPollWith failure conditions now jitter).1.polls rest

end PollSchedule

/-- An event of one outage under one active interval: a failed poll, or a change of the idle
interval only. -/
def ScheduleEvent.Prolongs (interval : RefreshInterval) : ScheduleEvent → Prop
  | setIntervals after _ => after = interval
  | poll failure .. => failure = some .offline

/-- What the schedule promises over a whole history. -/
structure ScheduleLaw (start : PollSchedule) (history : List ScheduleEvent) : Prop where
  keepsInterval : ∀ poll ∈ start.polls history, poll.KeepsInterval
  keepsFloor : ∀ poll ∈ start.polls history, poll.KeepsFloor
  stretchBounded : ∀ poll ∈ start.polls history, poll.StretchBounded
  outageGrows : ∀ front outage rest, history = front ++ outage ++ rest →
    (∀ event ∈ outage, event.Prolongs (start.runs front).interval) →
      (((start.runs front).polls outage).map Poll.unjittered).Pairwise (· ≤ ·)

/-! ## Outages -/

theorem outage_polls {interval : RefreshInterval} {outage : List ScheduleEvent}
    (houtage : ∀ event ∈ outage, event.Prolongs interval) :
    ∀ schedule : PollSchedule, schedule.interval = interval → ∀ poll ∈ schedule.polls outage,
      poll.unjittered = poll.after.offlineDelay 0 ∧ poll.after.interval = interval ∧
        min schedule.consecutiveOffline PollSchedule.maxConsecutive ≤
          poll.after.consecutiveOffline := by
  induction outage with
  | nil => simp [PollSchedule.polls]
  | cons event rest ih =>
    have hrest := ih fun later hlater ↦ houtage later (List.mem_cons_of_mem _ hlater)
    have hevent := houtage event List.mem_cons_self
    intro schedule hinterval poll hpoll
    cases event with
    | setIntervals changed idle =>
      have hsame : changed = interval := hevent
      exact hrest (schedule.setIntervals changed idle) hsame poll hpoll
    | poll failure conditions now jitter =>
      obtain rfl : failure = some .offline := hevent
      rcases List.mem_cons.mp hpoll with rfl | hlater
      · exact ⟨rfl, hinterval, schedule.le_wentOffline now⟩
      · obtain ⟨hdelay, hkept, hcount⟩ :=
          hrest (schedule.wentOffline now) hinterval poll hlater
        have hmore : min schedule.consecutiveOffline PollSchedule.maxConsecutive ≤
            min (schedule.wentOffline now).consecutiveOffline PollSchedule.maxConsecutive :=
          Nat.le_min.mpr ⟨schedule.le_wentOffline now, Nat.min_le_right _ _⟩
        exact ⟨hdelay, hkept, Nat.le_trans hmore hcount⟩

theorem outage_grows {interval : RefreshInterval} {outage : List ScheduleEvent}
    (houtage : ∀ event ∈ outage, event.Prolongs interval) :
    ∀ schedule : PollSchedule, schedule.interval = interval →
      ((schedule.polls outage).map Poll.unjittered).Pairwise (· ≤ ·) := by
  induction outage with
  | nil => simp [PollSchedule.polls]
  | cons event rest ih =>
    have hrest : ∀ later ∈ rest, later.Prolongs interval :=
      fun later hlater ↦ houtage later (List.mem_cons_of_mem _ hlater)
    have hevent := houtage event List.mem_cons_self
    intro schedule hinterval
    cases event with
    | setIntervals changed idle =>
      have hsame : changed = interval := hevent
      exact ih hrest (schedule.setIntervals changed idle) hsame
    | poll failure conditions now jitter =>
      obtain rfl : failure = some .offline := hevent
      have hafter : (schedule.wentOffline now).interval = interval := hinterval
      simp only [PollSchedule.polls, List.map_cons, List.pairwise_cons, List.mem_map]
      refine ⟨?_, ih hrest _ hafter⟩
      rintro _ ⟨poll, hpoll, rfl⟩
      obtain ⟨hdelay, hkept, hcount⟩ := outage_polls hrest _ hafter poll hpoll
      have hmore : (schedule.wentOffline now).consecutiveOffline ≤
          poll.after.consecutiveOffline :=
        Nat.le_trans (Nat.le_min.mpr ⟨Nat.le_refl _, schedule.wentOffline_le_max now⟩) hcount
      rw [hdelay]
      exact PollSchedule.offlineDelay_mono (hafter.trans hkept.symm) hmore

/-! ## Charged polls -/

/-- In every history the schedule keeps what it promises exactly if every offline poll finds the
cap of the back-off, widened by its jitter, no shorter than the configured interval. -/
theorem schedule_law_iff (interval : RefreshInterval) (idle : Nat)
    (history : List ScheduleEvent) :
    ScheduleLaw ((PollSchedule.new interval).withIdle idle) history ↔
      ∀ poll ∈ ((PollSchedule.new interval).withIdle idle).polls history,
        poll.failure = some .offline → poll.CapCovers where
  mp law poll hpoll := poll.keepsInterval_iff.mp (law.keepsInterval poll hpoll)
  mpr hcovers := {
    keepsInterval := fun poll hpoll ↦ poll.keepsInterval_iff.mpr (hcovers poll hpoll)
    keepsFloor := fun poll _ ↦ poll.keepsFloor
    stretchBounded := fun poll _ ↦ poll.stretchBounded
    outageGrows := fun _ _ _ _ houtage ↦ outage_grows houtage _ rfl }

/-- An hourly poll that finds GitHub unreachable comes back after fifteen minutes. -/
theorem hourly_poll_hurried :
    ¬ ∀ (interval : RefreshInterval) (idle : Nat) (history : List ScheduleEvent),
      ScheduleLaw ((PollSchedule.new interval).withIdle idle) history := by
  intro h
  let hourly : RefreshInterval := ⟨3600, by decide⟩
  let poll : Poll := ⟨(PollSchedule.new hourly).withIdle (secondsOf 10), some .offline,
    ⟨false, none, 4⟩, secondsOf 1800000000, 0⟩
  have hlaw := h hourly (secondsOf 10)
    [.poll poll.failure poll.conditions poll.now poll.jitter]
  have hkept : poll.KeepsInterval := hlaw.keepsInterval poll (List.mem_singleton_self poll)
  have hcovers : poll.CapCovers := poll.keepsInterval_iff.mp hkept rfl
  unfold Poll.CapCovers at hcovers
  have hlong : secondsOf 3600 ≤ maxOfflineBackoff := by
    rw [jittered_zero] at hcovers
    exact Nat.cast_le.mp hcovers
  exact absurd hlong (by decide)

/-! ## Idle polls -/

namespace Poll

variable (poll : Poll)

/-- The requests of a poll, repeated at its delay, stay under the cap of a minute. -/
def UnderRequestCap : Prop :=
  (poll.conditions.requestsPerPass : ℚ) * 60 ≤
    maxIdleRequestsPerMinutePerTarget * (poll.next.delay / secondsOf 1)

/-- An idle poll stays under the request cap, and above the idle floor. -/
def KeepsRequestCap : Prop :=
  poll.next.pace = .idle → poll.UnderRequestCap ∧ (PollSchedule.idleFloor : ℚ) ≤ poll.next.delay

/-- The requests divide evenly over the cap, or the idle interval has room for them. -/
def SpreadsEvenly : Prop :=
  5 ∣ poll.conditions.requestsPerPass ∨
    poll.conditions.requestsPerPass * secondsOf 60 ≤
      maxIdleRequestsPerMinutePerTarget * poll.schedule.idle

theorem next_delay_idle (hpace : poll.next.pace = .idle) :
    poll.next.delay =
      (max poll.schedule.idle (idleFloorFor poll.conditions.requestsPerPass) : Nat) := by
  have hends := poll.ends
  generalize poll.next = answer at hends hpace ⊢
  cases hends with
  | idle hidle => rfl
  | stretched => cases hpace
  | offline => cases hpace
  | rateLimited => cases hpace
  | lockedOut => cases hpace
  | nominal => cases hpace
  | blocked => cases hpace

theorem underRequestCap_iff (hpace : poll.next.pace = .idle) :
    poll.UnderRequestCap ↔ poll.SpreadsEvenly := by
  have hsecond : (0 : ℚ) < secondsOf 1 := Nat.cast_pos.mpr (by decide)
  have hcast : poll.UnderRequestCap ↔
      poll.conditions.requestsPerPass * 60 * secondsOf 1 ≤ maxIdleRequestsPerMinutePerTarget *
        max poll.schedule.idle (idleFloorFor poll.conditions.requestsPerPass) := by
    unfold UnderRequestCap
    rw [poll.next_delay_idle hpace, ← mul_div_assoc, le_div_iff₀ hsecond]
    exact_mod_cast Iff.rfl
  rw [hcast]
  unfold SpreadsEvenly idleFloorFor secondsOf maxIdleRequestsPerMinutePerTarget
  omega

end Poll

theorem PollSchedule.nextPollWith_idle (schedule : PollSchedule) (failure : Option RefreshState)
    (conditions : PollConditions) (now : Timestamp) (jitter : ℚ) :
    (schedule.nextPollWith failure conditions now jitter).1.idle = schedule.idle := by
  cases failure with
  | none => rfl
  | some state => cases state <;> rfl

theorem idleFloor_le_idle (history : List ScheduleEvent) :
    ∀ schedule : PollSchedule, PollSchedule.idleFloor ≤ schedule.idle →
      ∀ poll ∈ schedule.polls history, PollSchedule.idleFloor ≤ poll.schedule.idle := by
  induction history with
  | nil => simp [PollSchedule.polls]
  | cons event rest ih =>
    intro schedule hfloor poll hpoll
    cases event with
    | setIntervals interval idle =>
      exact ih (schedule.setIntervals interval idle) (Nat.le_max_right _ _) poll hpoll
    | poll failure conditions now jitter =>
      have hafter := schedule.nextPollWith_idle failure conditions now jitter
      rcases List.mem_cons.mp hpoll with rfl | hlater
      · exact hfloor
      · exact ih _ (hfloor.trans_eq hafter.symm) poll hlater

/-- In every history, whatever intervals are set, idle polls keep under the request cap exactly if
each pass that goes idle spreads its requests evenly or is polled seldom enough. -/
theorem idle_polls_capped_iff (interval : RefreshInterval) (idle : Nat)
    (history : List ScheduleEvent) :
    (∀ poll ∈ ((PollSchedule.new interval).withIdle idle).polls history, poll.KeepsRequestCap) ↔
      ∀ poll ∈ ((PollSchedule.new interval).withIdle idle).polls history,
        poll.schedule.GoesIdle poll.failure poll.conditions poll.now → poll.SpreadsEvenly := by
  constructor
  · intro h poll hpoll hgoes
    have hpace := poll.next_pace_idle_iff.mpr hgoes
    exact (poll.underRequestCap_iff hpace).mp (h poll hpoll hpace).1
  · intro h poll hpoll hpace
    have hgoes := poll.next_pace_idle_iff.mp hpace
    have hfloor := idleFloor_le_idle history _ (Nat.le_max_right _ _) poll hpoll
    refine ⟨(poll.underRequestCap_iff hpace).mpr (h poll hpoll hgoes), ?_⟩
    rw [poll.next_delay_idle hpace]
    exact Nat.cast_le.mpr (Nat.le_trans hfloor (Nat.le_max_left _ _))

/-- An idle target of seven repositories, at four requests each, is polled every five seconds:
three hundred and thirty-six requests a minute. -/
theorem seven_repositories_over_cap :
    ¬ ∀ (interval : RefreshInterval) (idle : Nat) (history : List ScheduleEvent),
      ∀ poll ∈ ((PollSchedule.new interval).withIdle idle).polls history,
        poll.KeepsRequestCap := by
  intro h
  let minute : RefreshInterval := ⟨60, by decide⟩
  let poll : Poll := ⟨(PollSchedule.new minute).withIdle (secondsOf 5), none,
    ⟨true, none, 28⟩, secondsOf 1800000000, 0⟩
  have hkept : poll.KeepsRequestCap := h minute (secondsOf 5)
    [.poll poll.failure poll.conditions poll.now poll.jitter] poll (List.mem_singleton_self poll)
  have hpace : poll.next.pace = .idle := by decide
  have hspread : poll.SpreadsEvenly := (poll.underRequestCap_iff hpace).mp (hkept hpace).1
  unfold Poll.SpreadsEvenly at hspread
  exact absurd hspread (by decide)

end RunnerManager.Agent
