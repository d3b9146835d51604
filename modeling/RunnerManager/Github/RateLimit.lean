import RunnerManager.Github.Client

/-!
# Rate limits

`RateLimited` and `RefreshState` of `crates/github/src/rest.rs`, and the quota reading of
`crates/github/src/traffic.rs`. A wait is a number of nanoseconds; GitHub's headers name whole
seconds, so what they say is read against the clock in seconds.
-/

namespace RunnerManager.Github

open RunnerManager.Domain

/-- `DateTime::timestamp`: the whole seconds of an instant. -/
def timestampSecs (now : Timestamp) : Int := now / 1000000000

def defaultRateLimitBackoff : Nat := secondsOf 60

def maxRateLimitBackoff : Nat := secondsOf (15 * 60)

/-! ## An exhausted limit -/

inductive RateLimitKind where
  | primary
  | secondary
deriving DecidableEq

structure RateLimited where
  kind : RateLimitKind
  retryAfter : Option Nat
  remaining : Option Nat
  resetUnixSecs : Option Nat
deriving DecidableEq

namespace RateLimited

variable (limit : RateLimited) (now : Timestamp)

/-- The wait until the window resets, if the header names an instant that is not past. The clock
reads a time after 1970, so the subtraction stays within an `i64`. -/
def untilReset : Option Nat :=
  limit.resetUnixSecs.bind fun reset ↦
    if reset < 2 ^ 63 ∧ timestampSecs now ≤ reset then
      some (secondsOf (reset - timestampSecs now).toNat)
    else none

/-- The wait GitHub asked for: `retry-after` first, then the reset. -/
def requested : Option Nat :=
  limit.retryAfter.orElse fun _ ↦ limit.untilReset now

def delayFrom : Nat :=
  let wait := match limit.requested now with
    | some wait => if 0 < wait then wait else defaultRateLimitBackoff
    | none => defaultRateLimitBackoff
  min wait maxRateLimitBackoff

theorem delayFrom_le_max : limit.delayFrom now ≤ maxRateLimitBackoff :=
  Nat.min_le_right _ _

theorem requested_le_delayFrom {wait : Nat} (h : limit.requested now = some wait) :
    min wait maxRateLimitBackoff ≤ limit.delayFrom now := by
  unfold delayFrom
  rw [h]
  dsimp only
  split_ifs with hpos
  · exact Nat.le_refl _
  · have hzero : wait = 0 := Nat.eq_zero_of_not_pos hpos
    simp [hzero]

end RateLimited

/-! ## One refresh's outcome -/

/-- `RefreshState`, less the snapshot of a finished refresh. -/
inductive RefreshState where
  | ready
  | rateLimited (limit : RateLimited)
  | unauthorized
  | lockedOut (retryAfter : Nat)
  | forbidden (message : Option String)
  | offline
  | failed (status : Option Nat) (message : String)
  | cancelled
deriving DecidableEq

def RefreshState.retryDelay (now : Timestamp) : RefreshState → Option Nat
  | rateLimited limit => some (limit.delayFrom now)
  | lockedOut retryAfter => some retryAfter
  | _ => none

/-! ## The hourly quota -/

structure RateLimitSnapshot where
  limit : Nat
  remaining : Nat
  used : Option Nat
  resetUnixSecs : Nat
  observedAt : Timestamp
deriving DecidableEq

inductive PrimaryPressure where
  | normal
  | low
  | critical
deriving DecidableEq

def PrimaryPressure.stretchFactor : PrimaryPressure → Nat
  | normal => 1
  | low => 2
  | critical => 4

def lowPrimaryRemainingPercent : Nat := 20

def criticalPrimaryRemainingPercent : Nat := 5

namespace RateLimitSnapshot

variable (quota : RateLimitSnapshot) (now : Timestamp)

/-- `RateLimitSnapshot::reset_in`, zero once the quota has reset. -/
def resetIn : Nat :=
  let reset : Int := min quota.resetUnixSecs (2 ^ 63 - 1)
  secondsOf (min (reset - timestampSecs now) (2 ^ 63 - 1)).toNat

/-- `RateLimitSnapshot::pressure`. A reading of a window that is over says nothing. -/
def pressure : PrimaryPressure :=
  if quota.limit = 0 ∨ quota.resetIn now = 0 then .normal
  else
    let percent := min (quota.remaining * 100) (2 ^ 64 - 1) / quota.limit
    if percent < criticalPrimaryRemainingPercent then .critical
    else if percent < lowPrimaryRemainingPercent then .low
    else .normal

end RateLimitSnapshot

end RunnerManager.Github
