import RunnerManager.Agent.LaunchFence
import Mathlib.Data.Finset.Card

/-!
# Reporting launches that are blocked

`WslRecoveryAllocationLock` of `crates/agent/src/reconcile.rs` and the record of
`crates/platform/src/launch_health.rs`: refusals that persist are written to a file, which the
status commands read. Any number of launches of one daemon run `launch`, one call at a time and in
any order. `LaunchState` also remembers what the code does not: who holds the fence and the
allocation lock, which guards are live, and the refusals that were noted since the last grant.
-/

namespace RunnerManager.Agent

open RunnerManager.Domain RunnerManager.Platform

namespace WslRecoveryAllocationLock

/-! ## The record -/

def blockedAfterDeferrals : Nat := 5

def blockedAfter : Nat := seconds (5 * 60)

/-- `streak_gap`: a quiet spell this long between refusals starts a new run. -/
def streakGap : Nat := blockedAfter

def recordFresh : Nat := seconds (15 * 60)

structure LaunchesBlocked where
  since : Timestamp
  reason : String
  remedy : String
deriving DecidableEq

structure LaunchesBlockedRecord where
  schemaVersion : Nat
  lastRefusedAt : Timestamp
  blocked : LaunchesBlocked
deriving DecidableEq

/-- What the texts name: the fence directory and the request file of the shared root, the file of
the allocation lock, and how an error is printed. -/
structure BlockPaths where
  fenceDirectory : String
  requestFile : String
  allocationLock : String
  render : FenceError → String

/-- `Viewpoint::name` inside the distribution. -/
def guestName : String := "<name>"

/-- `Viewpoint::restart` inside the distribution. -/
def guestRestart : String :=
  "`sudo systemctl restart runner-manager.service` inside the distribution"

/-- What ends a Windows recovery. -/
def watchRecovery : String :=
  "launches resume when Windows finishes recovering it (`runner-manager wsl status " ++
    "--distribution " ++ guestName ++ "` on Windows shows the phase), and coordination no " ++
    "watchdog maintains is retired 5 minutes after it stops"

/-- `BlockCause::blocked_since` inside the distribution: the reason and the remedy. -/
def explain (paths : BlockPaths) : BlockCause → String × String
  | .fenceHeld (some owner) =>
    if owner.kind = .windowsRecovery then
      ("Windows WSL recovery holds the launch fence (" ++ paths.fenceDirectory ++ ")",
        watchRecovery)
    else
      ("a runner launch by process " ++ toString owner.processId ++
          " holds the WSL launch fence (" ++ paths.fenceDirectory ++ ")",
        "if no runner is being registered, restart the service with " ++ guestRestart ++
          "; the restarted daemon reclaims a fence whose owner is gone")
  | .fenceHeld none =>
    ("the WSL launch fence (" ++ paths.fenceDirectory ++ ") has no owner record",
      "restart the service with " ++ guestRestart ++ "; if the fence survives the restart, " ++
        "delete " ++ paths.fenceDirectory ++ " once no runner-manager launch is in progress")
  | .fenceOwnerUnreadable error =>
    ("the WSL launch fence's owner record cannot be read: " ++ paths.render error,
      "delete " ++ paths.fenceDirectory ++ " once no runner-manager launch is in progress on " ++
        guestName ++ "; no daemon reclaims a fence whose owner it cannot read")
  | .drainRequested =>
    ("Windows has asked this distribution to drain for WSL recovery (" ++ paths.requestFile ++
        ")", watchRecovery)
  | .fenceUnusable error =>
    ("the WSL recovery configuration cannot be used: " ++ paths.render error,
      "repair the managed host from Windows with `runner-manager wsl install " ++
        "--distribution " ++ guestName ++ "`")
  | .allocationLockBusy =>
    ("another process keeps the runtime allocation lock (" ++ paths.allocationLock ++ ")",
      "stop the other runner-manager agent using this state directory")

def blockedSince (paths : BlockPaths) (cause : BlockCause) (since : Timestamp) :
    LaunchesBlocked :=
  ⟨since, (explain paths cause).1, (explain paths cause).2⟩

/-- `recorded_launches_blocked` of a record that can be read. -/
def recordedLaunchesBlocked (record : Option LaunchesBlockedRecord) (now : Timestamp) :
    Option LaunchesBlocked :=
  (record.filter fun record ↦ !elapsedAtLeast record.lastRefusedAt now recordFresh).map
    (·.blocked)

/-! ## Refusals -/

structure Streak where
  since : Timestamp
  latest : Timestamp
  count : Nat
deriving DecidableEq

structure Refusals where
  streak : Option Streak
  recorded : Bool
deriving DecidableEq

/-- The largest count of a `u32`. -/
def maxCount : Nat := 2 ^ 32 - 1

/-- The run of refusals with one more: a refusal long after the previous one starts a new run. -/
def Refusals.nextStreak (refusals : Refusals) (now : Timestamp) : Streak :=
  match refusals.streak with
  | some streak =>
    if elapsedAtLeast streak.latest now streakGap then ⟨now, now, 1⟩
    else { streak with latest := now, count := min (streak.count + 1) maxCount }
  | none => ⟨now, now, 1⟩

/-- The run is long enough to be recorded. -/
def Streak.blocked (streak : Streak) (now : Timestamp) : Bool :=
  decide (blockedAfterDeferrals ≤ streak.count) && elapsedAtLeast streak.since now blockedAfter

/-- `note_refused` within the mutex; `written` is whether the record could be written. -/
def noteRefusedLocked (paths : BlockPaths) (written : Bool) (cause : BlockCause) (now : Timestamp)
    (refusals : Refusals) (record : Option LaunchesBlockedRecord) :
    Refusals × Option LaunchesBlockedRecord :=
  let streak := refusals.nextStreak now
  if streak.blocked now && written then
    (⟨some streak, true⟩, some ⟨1, now, blockedSince paths cause streak.since⟩)
  else ({ refusals with streak := some streak }, record)

/-- `note_granted`; `cleared` is whether the record could be removed. -/
def noteGrantedLocked (cleared : Bool) (refusals : Refusals)
    (record : Option LaunchesBlockedRecord) : Refusals × Option LaunchesBlockedRecord :=
  if refusals.recorded && cleared then (⟨none, false⟩, none)
  else ({ refusals with streak := none }, record)

/-! ## Launches -/

/-- `GuestRecoveryConfig::read`, or the blocking task that never finished. -/
inductive ConfigAnswer where
  | unfinished
  | unusable (error : FenceError)
  | unfenced
  | fenced
deriving DecidableEq

/-- One step of a launch. `readConfig` and `tryClaim` are what `tryClaimGuestLaunch` and the calls
around it do to the fence; `note` and `noteGranted` are the sections within the mutex. -/
inductive LaunchCall where
  | readConfig
  | tryClaim
  | readDrain
  | allocationLock
  | noteGranted
  | enter
  | inFlight
  | now
  | note (cause : BlockCause) (now : Timestamp)
  | releaseClaim
  | unlock
  | leave

/-- What each step may answer. A claim and a drain request may refuse the launch. -/
abbrev LaunchCall.Answer : LaunchCall → Type
  | readConfig => ConfigAnswer
  | tryClaim | readDrain => Option BlockCause
  | allocationLock => Bool
  | inFlight => Nat
  | now => Timestamp
  | noteGranted | enter | note _ _ | releaseClaim | unlock | leave => Unit

inductive AllocationLockBusy where
  | busy
deriving DecidableEq

abbrev LaunchProgram := Program LaunchCall LaunchCall.Answer AllocationLockBusy

def ask (c : LaunchCall) : LaunchProgram c.Answer :=
  .perform c

/-- `note_refused`: the counter and the clock are read before the mutex is taken. -/
def noteRefused (cause : BlockCause) : LaunchProgram Unit := do
  if 0 < (← ask .inFlight) then return ()
  else
    let now ← ask .now
    ask (.note cause now)

/-- A refusal is noted, and the launch waits for the next pass. -/
def refuse {α : Type} (cause : BlockCause) : LaunchProgram α := do
  noteRefused cause
  .fail .busy

/-- `LaunchFenceGuard::drop`; `fenced` is whether it guards a claim. -/
def dropClaim (fenced : Bool) : LaunchProgram Unit :=
  if fenced then ask .releaseClaim else return ()

/-- `acquire` once the fence lets the launch pass. The claim is let go after the refusal was
noted. -/
def allocate (fenced : Bool) : LaunchProgram Bool := do
  if ← ask .allocationLock then
    ask .noteGranted
    ask .enter
    return fenced
  else
    noteRefused .allocationLockBusy
    dropClaim fenced
    .fail .busy

/-- `acquire` once the fence is claimed. -/
def afterClaim : LaunchProgram Bool := do
  match ← ask .readDrain with
  | none => allocate true
  | some cause =>
    ask .releaseClaim
    refuse cause

/-- `WslRecoveryAllocationLock::acquire`; the guard says whether it holds a claim. -/
def allocation : LaunchProgram Bool := do
  match ← ask .readConfig with
  | .unfinished => .fail .busy
  | .unusable error => refuse (.fenceUnusable error)
  | .unfenced => allocate false
  | .fenced =>
    match ← ask .tryClaim with
    | none => afterClaim
    | some cause => refuse cause

/-- The guard is dropped, its fields in order. -/
def dropGuard (fenced : Bool) : LaunchProgram Unit := do
  dropClaim fenced
  ask .unlock
  ask .leave

/-- One launch, from its `acquire` until its guard is gone. -/
def launch : LaunchProgram Unit := do
  dropGuard (← allocation)

/-! ## The daemon -/

/-- A refusal that was noted, whether a guard was live when the counter was read for it, and
whether a launch of this process held what refused it. -/
structure Noted where
  time : Timestamp
  guarded : Bool
  rival : Bool
deriving DecidableEq

/-- Who holds the fence or the lock: a launch of this process, or anybody else. -/
abbrev Holder (ι : Type) := Option ι

/-- One daemon and what it shares with others. From `fence` on it is what nothing but the
statements looks at; the latest refusal of `noted` comes first. -/
structure LaunchState (ι : Type) where
  clock : Timestamp
  refusals : Refusals
  record : Option LaunchesBlockedRecord
  inFlight : Nat
  fence : Option (Holder ι)
  lock : Option (Holder ι)
  guards : Finset ι
  rival : ι → Bool
  guarded : ι → Bool
  noted : List Noted

variable {ι : Type} [DecidableEq ι]

/-- A launch of this process is the holder. -/
def heldHere (holder : Option (Holder ι)) : Bool :=
  holder.any (·.isSome)

namespace LaunchState

variable (s : LaunchState ι)

/-- The launch was refused, by a launch of this process or not. -/
def blame (i : ι) (rival : Bool) : LaunchState ι :=
  { s with rival := Function.update s.rival i rival }

/-- `note_granted`. -/
def grant : LaunchState ι :=
  let (refusals, record) := noteGrantedLocked true s.refusals s.record
  { s with refusals, record, noted := [] }

def enter (i : ι) : LaunchState ι :=
  { s with inFlight := s.inFlight + 1, guards := insert i s.guards }

def look (i : ι) : LaunchState ι :=
  { s with guarded := Function.update s.guarded i (decide s.guards.Nonempty) }

/-- `note_refused` within the mutex. -/
def note (paths : BlockPaths) (i : ι) (cause : BlockCause) (now : Timestamp) : LaunchState ι :=
  let (refusals, record) := noteRefusedLocked paths true cause now s.refusals s.record
  { s with refusals, record, noted := ⟨now, s.guarded i, s.rival i⟩ :: s.noted }

/-- `InFlight::drop`. -/
def leave (i : ι) : LaunchState ι :=
  { s with inFlight := s.inFlight - 1, guards := s.guards.erase i }

/-- What an answered step of a launch does, where the record can be written and removed. A claim
that cannot be released is left to be reclaimed. -/
def Steps (paths : BlockPaths) (i : ι) (c : LaunchCall) (answer : c.Answer)
    (t : LaunchState ι) : Prop :=
  match c, answer with
  | .readConfig, .unusable _ => t = s.blame i false
  | .readConfig, _ => t = s
  | .tryClaim, none => heldHere s.fence = false ∧ t = { s with fence := some (some i) }
  | .tryClaim, some _ => t = s.blame i (heldHere s.fence)
  | .readDrain, none => t = s
  | .readDrain, some _ => t = s.blame i false
  | .allocationLock, true => s.lock = none ∧ t = { s with lock := some (some i) }
  | .allocationLock, false => t = s.blame i (heldHere s.lock)
  | .noteGranted, _ => t = s.grant
  | .enter, _ => t = s.enter i
  | .inFlight, count => count = s.inFlight ∧ t = s.look i
  | .now, now => now = s.clock ∧ t = s
  | .note cause now, _ => t = s.note paths i cause now
  | .releaseClaim, _ => t = { s with fence := none } ∨ t = { s with fence := some none }
  | .unlock, _ => t = { s with lock := none }
  | .leave, _ => t = s.leave i

/-- Time passes, and other processes take and leave what no launch of this one holds. -/
def Moves (s t : LaunchState ι) : Prop :=
  ∃ clock fence lock, s.clock ≤ clock ∧ t = { s with clock, fence, lock } ∧
    (if heldHere s.fence then fence = s.fence else heldHere fence = false) ∧
    (if heldHere s.lock then lock = s.lock else heldHere lock = false)

/-- A daemon that has just started: it has removed the record of its predecessor. -/
structure Fresh : Prop where
  refusals : s.refusals = ⟨none, false⟩
  record : s.record = none
  inFlight : s.inFlight = 0
  fence : heldHere s.fence = false
  lock : heldHere s.lock = false
  guards : s.guards = ∅
  noted : s.noted = []

/-! ### What is promised -/

/-- The refusals since the last grant that were noted with no guard live. -/
def unguarded : List Noted :=
  s.noted.filter fun noted ↦ !noted.guarded

/-- Enough refusals, over long enough, and the target is still being refused. -/
structure Blocked : Prop where
  enough : blockedAfterDeferrals ≤ s.unguarded.length
  spans : ∃ first ∈ s.unguarded, ∃ last ∈ s.unguarded,
    elapsedAtLeast first.time last.time blockedAfter = true
  refused : ∃ last ∈ s.unguarded, elapsedAtLeast last.time s.clock recordFresh = false

/-- What the status commands are promised. -/
structure Reported : Prop where
  read : (recordedLaunchesBlocked s.record s.clock).isSome = true ↔ s.Blocked
  granted : s.noted = [] → s.record = none
  foreign : s.record.isSome = true → ∃ noted ∈ s.noted, noted.rival = false

end LaunchState

/-! ## Runs -/

/-- What the steps of a launch require: the counter is balanced, and a refusal is noted only where
no guard was live and the process was not in its own way. -/
def LaunchState.Requires (i : ι) (s : LaunchState ι) : LaunchCall → Prop
  | .enter => i ∉ s.guards
  | .leave => i ∈ s.guards
  | .note _ now => s.guarded i = false ∧ s.rival i = false ∧ now ≤ s.clock
  | _ => True

def lockContract (paths : BlockPaths) (i : ι) :
    Contract LaunchCall LaunchCall.Answer (LaunchState ι) where
  requires := LaunchState.Requires i
  steps s := s.Steps paths i

/-- A noted refusal comes less than the gap after the one noted before it, in the order of the
clock; and where a launch of this process held what refused another one, a guard is live when the
counter is read for that refusal. -/
def Prompt (i : ι) (s : LaunchState ι) (c : LaunchCall) (_ : c.Answer) : Prop :=
  match c with
  | .note _ now => ∀ previous ∈ s.noted.head?,
      previous.time ≤ now ∧ elapsedAtLeast previous.time now streakGap = false
  | .inFlight => s.rival i = true → s.guards.Nonempty
  | _ => True

/-- The contract of one launch where refusals come promptly. -/
def promptContract (paths : BlockPaths) (i : ι) :
    Contract LaunchCall LaunchCall.Answer (LaunchState ι) :=
  (lockContract paths i).assuming (Prompt i)

abbrev LaunchPool (ι : Type) :=
  Pool LaunchCall LaunchCall.Answer AllocationLockBusy Unit (LaunchState ι) ι

/-- A launch that has ended may be made again on a later pass. -/
def Reopens (_ : ι) (s : LaunchState ι) (p : LaunchProgram Unit) (t : LaunchState ι)
    (q : LaunchProgram Unit) : Prop :=
  ∃ result, p = .done result ∧ t = s ∧ q = launch

def Starts (P : LaunchPool ι) : Prop :=
  P.shared.Fresh ∧ ∀ i, P.point i = launch

/-- What a daemon reaches when its launches meet the contracts. -/
def Daemon (C : ι → Contract LaunchCall LaunchCall.Answer (LaunchState ι)) (P : LaunchPool ι) :
    Prop :=
  Contract.Opened C Starts Reopens LaunchState.Moves P

end WslRecoveryAllocationLock

end RunnerManager.Agent
