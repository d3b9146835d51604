import RunnerManager.Lib.Interleaving
import RunnerManager.Platform.Fence

/-!
# The launch fence between a guest and Windows

One guest launcher and one Windows watchdog over one shared root. Each makes one call at a time,
in any order, and may crash between any two of them; a call of the file system is one step, and
one that fails has changed nothing, except that a failed removal of the fence may have removed
its owner record. Read `Shared` first, then `Opens` for what may happen between the operations
and which two assumptions on time are made. `fence_safe` is what holds in every state reached.
-/

namespace RunnerManager.Agent

open RunnerManager.Domain RunnerManager.Platform

/-! ## Launches -/

/-- `BlockCause`, less the paths and the rendered details. -/
inductive BlockCause where
  | fenceHeld (owner : Option FenceOwner)
  | fenceOwnerUnreadable (error : FenceError)
  | drainRequested
  | fenceUnusable (error : FenceError)
  | allocationLockBusy
deriving DecidableEq

/-- How an operation ended. -/
inductive FenceOutcome where
  | granted
  | refused (cause : BlockCause)
  | finished
deriving DecidableEq

/-- The guard of a refused launch is dropped: the claim is released, and a failure is only
logged. -/
def dropClaim (cause : BlockCause) : FenceProgram FenceOutcome := do
  let _ ← Fence.release.outcome
  return .refused cause

def refuseBusy : FenceProgram FenceOutcome := do
  match ← Fence.ask .readOwner with
  | .ok owner => return .refused (.fenceHeld owner)
  | .error error => return .refused (.fenceOwnerUnreadable error)

/-- The refusal when the fence could not be claimed. -/
def refuseUnusable (error : FenceError) : FenceProgram FenceOutcome := do
  match ← Fence.ask .readOwner with
  | .ok _ => return .refused (.fenceUnusable error)
  | .error ownerError => return .refused (.fenceOwnerUnreadable ownerError)

/-- A launch that has claimed the fence: it is granted when no drain is requested and the
allocation lock is free. -/
def acquireClaimed : FenceProgram FenceOutcome := do
  match ← Fence.ask .readRequest with
  | .ok none =>
    if ← Fence.ask .allocationLock then return .granted
    else dropClaim .allocationLockBusy
  | .ok (some _) => dropClaim .drainRequested
  | .error error => dropClaim (.fenceUnusable error)

/-- `WslRecoveryAllocationLock::acquire` of a guest that shares a root with Windows. -/
def WslRecoveryAllocationLock.acquire : FenceProgram FenceOutcome := do
  match ← Fence.tryClaimGuestLaunch.outcome with
  | .ok (.claimed _) => acquireClaimed
  | .ok .busy => refuseBusy
  | .error error => refuseUnusable error

/-- The claim of a failing `observe`: the fence is taken, or found to be already ours. -/
def claimFence (generation : Nat) : FenceProgram Unit := do
  match ← (Fence.tryClaim .windowsRecovery (some generation)).outcome with
  | .ok true => Fence.ask (.setFenceHeld (some generation))
  | .ok false =>
    match ← Fence.ask .readOwner with
    | .ok (some owner) => Fence.ask (.setFenceHeld
        (if Fence.isRecoveryOf generation owner then some generation else none))
    | _ => Fence.ask (.setFenceHeld none)
  | .error _ => return ()

/-! ## The shared state -/

/-- Who works on the fence. -/
inductive Side where
  | guest
  | windows
deriving DecidableEq

def Side.kind : Side → FenceOwnerKind
  | guest => .guestLaunch
  | windows => .windowsRecovery

/-- The fence directory. Its creation is not stored; it is what the assumptions are about. -/
structure FenceDir where
  modified : Timestamp
  owner : Option FenceOwner
  created : Timestamp
  creator : Side
  /-- Which process of that side. -/
  incarnation : Nat

/-- What a guest saw when it read the drain request. -/
structure DrainRead where
  fence : Option FenceDir
  held : Bool
  request : Option DrainRequest

/-- The guest launcher. -/
structure GuestProcess where
  incarnation : Nat
  /-- When it created the directory whose owner it has not recorded yet. -/
  claiming : Option Timestamp
  /-- `HELD_HERE`. -/
  held : Bool
  /-- The operation has let go of the claim. -/
  letGo : Bool
  /-- What the operation was told about the owner that it judged. -/
  judged : Option (FenceOwner × ProcessProbe)
  drain : Option DrainRead

/-- The Windows watchdog. -/
structure WatchdogProcess where
  incarnation : Nat
  claiming : Option Timestamp
  /-- The generation that it holds the fence for. -/
  holding : Option Nat

/-- The shared root, the clock, and the two processes. -/
structure Shared where
  now : Timestamp
  fence : Option FenceDir
  request : Option DrainRequest
  guest : GuestProcess
  windows : WatchdogProcess

namespace Shared

/-- Which process of the side is running. -/
def incarnation (s : Shared) : Side → Nat
  | .guest => s.guest.incarnation
  | .windows => s.windows.incarnation

/-- When the side created a directory whose owner it has not recorded yet. -/
def claiming (s : Shared) : Side → Option Timestamp
  | .guest => s.guest.claiming
  | .windows => s.windows.claiming

/-- The side begins a claim, or has settled it. -/
def setClaiming (s : Shared) (claiming : Option Timestamp) : Side → Shared
  | .guest => { s with guest.claiming := claiming }
  | .windows => { s with windows.claiming := claiming }

def newDir (s : Shared) (side : Side) : FenceDir :=
  ⟨s.now, none, s.now, side, s.incarnation side⟩

def withFence (s : Shared) (fence : Option FenceDir) : Shared :=
  { s with fence }

/-- The owner record of the directory is replaced, or removed. -/
def putOwner (s : Shared) (owner : Option FenceOwner) : Shared :=
  s.withFence (s.fence.map fun dir ↦ { dir with modified := s.now, owner })

/-- The guest has read the drain request. -/
def seeRequest (s : Shared) : Side → Shared
  | .guest => { s with guest.drain := some ⟨s.fence, s.guest.held, s.request⟩ }
  | .windows => s

def Steps (side : Side) (s : Shared) (c : FenceCall) (answer : c.Answer) (t : Shared) : Prop :=
  match c, answer with
  | .now, now => now = s.now ∧ t = s
  | .probe owner, probe => t = { s with guest.judged := some (owner, probe) }
  | .createDir, .ok true => s.fence = none ∧
      t = (s.withFence (some (s.newDir side))).setClaiming (some s.now) side
  | .createDir, .ok false => s.fence.isSome = true ∧ t = s
  | .createParent, .ok _ => t = s.withFence (s.fence <|> some (s.newDir side))
  | .createTemporary, .ok _ => s.fence.isSome = true ∧
      t = s.withFence (s.fence.map fun dir ↦ { dir with modified := s.now })
  | .persistOwner owner, .ok _ => s.fence.isSome = true ∧
      t = (s.putOwner (some owner)).setClaiming none side
  | .removeDir, .ok _ => t = (s.withFence none).setClaiming none side
  | .removeDir, .error _ => t = s.setClaiming none side ∨
      t = (s.putOwner none).setClaiming none side
  | .readOwner, .ok owner => owner = s.fence.bind (·.owner) ∧ t = s
  | .readModified, .ok modified => modified = s.fence.map (·.modified) ∧ t = s
  | .readRequest, .ok request => request = s.request ∧ t = s.seeRequest side
  | .writeRequest request, .ok _ => t = { s with request := some request }
  | .removeRequest, .ok _ => t = { s with request := none }
  | .heldHere, held => held = s.guest.held ∧ t = s
  | .insertHeld, _ => t = { s with guest.held := true }
  | .removeHeld, _ => t = { s with guest.held := false, guest.letGo := true }
  | .setFenceHeld generation, _ => t = { s with windows.holding := generation }
  | _, _ => t = s

/-- The claim of the fence is the guest's own, and recorded. -/
def GuestOwned (s : Shared) : Prop :=
  ∃ dir owner, s.fence = some dir ∧ dir.owner = some owner ∧ owner.kind = .guestLaunch ∧
    dir.creator = .guest ∧ dir.incarnation = s.guest.incarnation

def RecoveryOwned (s : Shared) (generation : Nat) : Prop :=
  ∃ dir owner, s.fence = some dir ∧ dir.owner = some owner ∧ owner.kind = .windowsRecovery ∧
    owner.generation = some generation

/-- The directory never had an owner recorded in time: whoever created it is gone. -/
def Abandoned (s : Shared) (dir : FenceDir) : Prop :=
  dir.owner = none ∧ dir.created + ownerlessClaimGrace ≤ s.now

/-- When the guest may remove a directory. It does not hold it, and a recorded claim is a
guest's: its own, that it let go of, or one whose owner is provably gone. -/
def GuestRemoves (s : Shared) (dir : FenceDir) : Prop :=
  s.guest.held = false ∧
    match dir.owner with
    | none => dir.creator = .guest ∧ dir.incarnation = s.guest.incarnation ∨ s.Abandoned dir
    | some owner => owner.kind = .guestLaunch ∧
        (s.guest.letGo = true ∧ dir.incarnation = s.guest.incarnation ∨
          ∃ probe, s.guest.judged = some (owner, probe) ∧ owner.ProvablyGone probe)

/-- When the watchdog may remove a directory. It does not hold it, and it is no guest's; one
without an owner is the one that it is claiming. -/
def WatchdogRemoves (s : Shared) (dir : FenceDir) : Prop :=
  s.windows.holding = none ∧ dir.creator = .windows ∧
    (dir.owner = none → s.windows.claiming.isSome = true)

def GuestRequires (s : Shared) : FenceCall → Prop
  | .createDir => s.guest.claiming = none
  | .createParent | .createTemporary => s.guest.claiming.isSome = true
  | .persistOwner owner => s.guest.claiming.isSome = true ∧ owner.kind = .guestLaunch
  | .removeDir => s.guest.held = false ∧ ∀ dir, s.fence = some dir → s.GuestRemoves dir
  | .readRequest => s.guest.held = true
  | .insertHeld => s.GuestOwned
  | .writeRequest _ | .removeRequest | .setFenceHeld _ => False
  | _ => True

def WatchdogRequires (s : Shared) : FenceCall → Prop
  | .createDir => s.windows.claiming = none
  | .createParent | .createTemporary => s.windows.claiming.isSome = true
  | .persistOwner owner => s.windows.claiming.isSome = true ∧ owner.kind = .windowsRecovery
  | .removeDir => s.windows.holding = none ∧ ∀ dir, s.fence = some dir → s.WatchdogRemoves dir
  | .setFenceHeld generation => ∀ g, generation = some g → s.RecoveryOwned g
  | .probe _ | .insertHeld | .removeHeld => False
  | _ => True

def Requires : Side → Shared → FenceCall → Prop
  | .guest => GuestRequires
  | .windows => WatchdogRequires

end Shared

def fenceContract (side : Side) : Contract FenceCall FenceCall.Answer Shared where
  requires := Shared.Requires side
  steps := Shared.Steps side

/-! ## Runs -/

abbrev SideProgram := FenceProgram FenceOutcome

/-- Both sides over one shared state. -/
abbrev FencePool := Pool FenceCall FenceCall.Answer FenceError FenceOutcome Shared Side

/-- An operation whose result nobody looks at. -/
def finishing {α : Type} (p : FenceProgram α) : SideProgram := do
  let _ ← p.outcome
  return .finished

/-- Nothing is under way. -/
def idle : SideProgram :=
  return .finished

/-- An operation of the guest. -/
inductive GuestOp where
  | acquire
  | tryClaim
  | release
  | reclaim
deriving DecidableEq

def GuestOp.program : GuestOp → SideProgram
  | acquire => WslRecoveryAllocationLock.acquire
  | tryClaim => finishing Fence.tryClaimGuestLaunch
  | release => finishing Fence.release
  | reclaim => finishing Fence.reclaimStaleGuestClaim

/-- An operation of the watchdog. -/
inductive WatchdogOp where
  | writeRequest (request : DrainRequest)
  | claimFence (generation : Nat)
  | clearRecovery (generation : Nat)
  | retireAbandoned (abandonedAfter : Nat)

/-- The program of an operation of the watchdog that begins at `now`. -/
def WatchdogOp.program (now : Timestamp) : WatchdogOp → SideProgram
  | writeRequest request => finishing (Fence.ask (.writeRequest request))
  | claimFence generation => finishing (Agent.claimFence generation)
  | clearRecovery generation => finishing (Fence.clearRecovery generation)
  | retireAbandoned abandonedAfter =>
    finishing (Fence.retireAbandonedWindowsRecovery now abandonedAfter)

namespace Shared

/-- The guest begins an operation: what the last one saw is forgotten. -/
def beginGuest (s : Shared) : Shared :=
  { s with guest.letGo := false, guest.judged := none, guest.drain := none }

/-- The guest crashes; a new process starts with nothing in memory. -/
def crashGuest (s : Shared) : Shared :=
  { s with guest := ⟨s.guest.incarnation + 1, none, false, false, none, none⟩ }

def crashWatchdog (s : Shared) : Shared :=
  { s with windows := ⟨s.windows.incarnation + 1, none, none⟩ }

/-- Whether the operation of the guest may begin: only a held claim can be released. -/
def MayBegin (s : Shared) : GuestOp → Prop
  | .release => s.guest.held = true
  | _ => True

/-- The watchdog begins an operation. It claims the fence only while it does not hold it, and
it gives its own recovery up when it clears it. A watchdog that holds the fence has rewritten
its request within the time that retires an abandoned one. -/
def BeginWatchdog (s : Shared) (op : WatchdogOp) (t : Shared) : Prop :=
  match op with
  | .writeRequest _ => t = s
  | .claimFence _ => s.windows.holding = none ∧ t = s
  | .clearRecovery generation =>
    t = if s.windows.holding = some generation then { s with windows.holding := none } else s
  | .retireAbandoned abandonedAfter => t = s ∧ (s.windows.holding.isSome = true →
      ∃ request, s.request = some request ∧
        elapsedAtLeast request.requestedAt s.now abandonedAfter = false)

/-- An operation begins where the last one has ended, and a crash may come anywhere. -/
def Opens : Side → Shared → SideProgram → Shared → SideProgram → Prop
  | .guest, s, p, t, q =>
    (∃ result op, p = .done result ∧ s.MayBegin op ∧ t = s.beginGuest ∧ q = op.program) ∨
    t = s.crashGuest ∧ q = idle
  | .windows, s, p, t, q =>
    (∃ result op, p = .done result ∧ s.BeginWatchdog op t ∧ q = op.program s.now) ∨
    t = s.crashWatchdog ∧ q = idle

/-- Time passes. A process that lives records its claim within the grace of an ownerless one. -/
def Passes (s t : Shared) : Prop :=
  ∃ now, s.now ≤ now ∧ t = { s with now } ∧
    ∀ side created, s.claiming side = some created → now < created + ownerlessClaimGrace

/-- Two processes that have done nothing yet, over any root that was left to them. -/
def Starts (P : FencePool) : Prop :=
  (∀ side, P.point side = idle ∧ P.shared.claiming side = none) ∧
    P.shared.guest.held = false ∧ P.shared.windows.holding = none ∧
    ∀ dir, P.shared.fence = some dir →
      dir.incarnation < P.shared.incarnation dir.creator ∧ dir.created ≤ dir.modified ∧
        dir.created ≤ P.shared.now ∧ ∀ owner, dir.owner = some owner → owner.kind = dir.creator.kind

end Shared

/-- What the two processes reach. -/
def Fenced (P : FencePool) : Prop :=
  Contract.Opened fenceContract Shared.Starts Shared.Opens Shared.Passes P

/-! ## The invariant -/

namespace Shared

/-- The directory is well dated, and its owner is of the side that created it. -/
def Recorded (s : Shared) (dir : FenceDir) : Prop :=
  dir.created ≤ dir.modified ∧ dir.created ≤ s.now ∧
    ∀ owner, dir.owner = some owner → owner.kind = dir.creator.kind

/-- A directory of the side whose owner is not recorded yet, and in time. -/
def Pending (s : Shared) (side : Side) (created : Timestamp) : Prop :=
  ∃ dir, s.fence = some dir ∧ dir.owner = none ∧ dir.created = created ∧ dir.creator = side ∧
    dir.incarnation = s.incarnation side ∧ s.now < created + ownerlessClaimGrace

/-- What a process believes of the fence is so. -/
structure Consistent (s : Shared) : Prop where
  held : s.guest.held = true → s.GuestOwned
  holding : ∀ generation, s.windows.holding = some generation → s.RecoveryOwned generation
  claiming : ∀ side created, s.claiming side = some created → s.Pending side created
  recorded : ∀ dir, s.fence = some dir → s.Recorded dir

/-- What the guest relies on: the watchdog leaves it alone, and it leaves a guest's directory and
an abandoned one alone. A directory that is older than the guest's last look was there then. -/
structure GuestRely (s t : Shared) : Prop where
  guest : t.guest = s.guest
  now : s.now ≤ t.now
  created : ∀ dir, s.fence = some dir → dir.creator = .guest → t.fence = s.fence
  abandoned : ∀ dir, s.fence = some dir → s.Abandoned dir → t.fence = s.fence
  older : ∀ dir, t.fence = some dir → dir.created < s.now →
    ∃ before, s.fence = some before ∧ before.created = dir.created

/-- What the watchdog relies on: the guest leaves it, the request and a recorded recovery
alone. -/
structure WatchdogRely (s t : Shared) : Prop where
  windows : t.windows = s.windows
  now : s.now ≤ t.now
  recorded : ∀ dir owner, s.fence = some dir → dir.owner = some owner →
    owner.kind = .windowsRecovery → t.fence = s.fence
  request : t.request = s.request

/-- What each side relies on. -/
def Rely : Side → Shared → Shared → Prop
  | .guest => GuestRely
  | .windows => WatchdogRely

theorem GuestRely.refl (s : Shared) : GuestRely s s :=
  ⟨rfl, le_refl _, fun _ _ _ ↦ rfl, fun _ _ _ ↦ rfl, fun dir h _ ↦ ⟨dir, h, rfl⟩⟩

theorem WatchdogRely.refl (s : Shared) : WatchdogRely s s :=
  ⟨rfl, le_refl _, fun _ _ _ _ _ ↦ rfl, rfl⟩

theorem GuestRely.trans {s t u : Shared} (hst : GuestRely s t) (htu : GuestRely t u) :
    GuestRely s u where
  guest := htu.guest.trans hst.guest
  now := hst.now.trans htu.now
  created dir hdir hcreator := by
    have ht := hst.created dir hdir hcreator
    exact (htu.created dir (ht.trans hdir) hcreator).trans ht
  abandoned dir hdir habandoned := by
    have ht := hst.abandoned dir hdir habandoned
    have hstill : t.Abandoned dir := ⟨habandoned.1, habandoned.2.trans hst.now⟩
    exact (htu.abandoned dir (ht.trans hdir) hstill).trans ht
  older dir hdir holder := by
    obtain ⟨middle, hmiddle, hcreated⟩ := htu.older dir hdir (lt_of_lt_of_le holder hst.now)
    obtain ⟨before, hbefore, hsame⟩ := hst.older middle hmiddle (hcreated ▸ holder)
    exact ⟨before, hbefore, hsame.trans hcreated⟩

theorem WatchdogRely.trans {s t u : Shared} (hst : WatchdogRely s t) (htu : WatchdogRely t u) :
    WatchdogRely s u where
  windows := htu.windows.trans hst.windows
  now := hst.now.trans htu.now
  recorded dir owner hdir howner hkind := by
    have ht := hst.recorded dir owner hdir howner hkind
    exact (htu.recorded dir owner (ht.trans hdir) howner hkind).trans ht
  request := htu.request.trans hst.request

theorem rely_refl (side : Side) (s : Shared) : Rely side s s := by
  cases side with
  | guest => exact .refl s
  | windows => exact .refl s

theorem rely_trans (side : Side) (s t u : Shared) (hst : Rely side s t) (htu : Rely side t u) :
    Rely side s u := by
  cases side with
  | guest => exact GuestRely.trans hst htu
  | windows => exact WatchdogRely.trans hst htu

section Views

variable (s : Shared) (fence : Option FenceDir) (claim : Option Timestamp) (side : Side)

@[simp]
theorem setClaiming_fence : (s.setClaiming claim side).fence = s.fence := by
  cases side <;> rfl

@[simp]
theorem setClaiming_now : (s.setClaiming claim side).now = s.now := by
  cases side <;> rfl

@[simp]
theorem setClaiming_held : (s.setClaiming claim side).guest.held = s.guest.held := by
  cases side <;> rfl

@[simp]
theorem setClaiming_holding :
    (s.setClaiming claim side).windows.holding = s.windows.holding := by
  cases side <;> rfl

@[simp]
theorem setClaiming_request : (s.setClaiming claim side).request = s.request := by
  cases side <;> rfl

theorem setClaiming_claiming (other : Side) :
    (s.setClaiming claim side).claiming other =
      if other = side then claim else s.claiming other := by
  cases side <;> cases other <;> rfl

@[simp]
theorem setClaiming_incarnation (other : Side) :
    (s.setClaiming claim side).incarnation other = s.incarnation other := by
  cases side <;> cases other <;> rfl

@[simp]
theorem withFence_fence : (s.withFence fence).fence = fence :=
  rfl

@[simp]
theorem withFence_now : (s.withFence fence).now = s.now :=
  rfl

@[simp]
theorem withFence_guest : (s.withFence fence).guest = s.guest :=
  rfl

@[simp]
theorem withFence_windows : (s.withFence fence).windows = s.windows :=
  rfl

@[simp]
theorem withFence_claiming (side : Side) : (s.withFence fence).claiming side = s.claiming side := by
  cases side <;> rfl

end Views

/-! ## One call -/

section Steps

variable {s t : Shared} {side : Side} {created : Timestamp}

/-- Nobody has a claim or makes one. -/
structure Unclaimed (s : Shared) : Prop where
  held : s.guest.held = false
  holding : s.windows.holding = none
  claiming : ∀ side, s.claiming side = none

theorem Unclaimed.consistent (h : s.Unclaimed)
    (hrecorded : ∀ dir, s.fence = some dir → s.Recorded dir) : s.Consistent where
  held hheld := by
    rw [h.held] at hheld
    cases hheld
  holding generation hholding := by
    rw [h.holding] at hholding
    cases hholding
  claiming side created hclaiming := by
    rw [h.claiming side] at hclaiming
    cases hclaiming
  recorded := hrecorded

theorem Consistent.unclaimed_of_none (h : s.Consistent) (hfence : s.fence = none) :
    s.Unclaimed := by
  refine ⟨?_, ?_, fun side ↦ ?_⟩
  · rw [← Bool.not_eq_true]
    intro hheld
    obtain ⟨dir, _, hdir, -⟩ := h.held hheld
    rw [hfence] at hdir
    cases hdir
  · cases hholding : s.windows.holding with
    | none => rfl
    | some generation =>
      obtain ⟨dir, _, hdir, -⟩ := h.holding generation hholding
      rw [hfence] at hdir
      cases hdir
  · cases hclaiming : s.claiming side with
    | none => rfl
    | some created =>
      obtain ⟨dir, hdir, -⟩ := h.claiming side created hclaiming
      rw [hfence] at hdir
      cases hdir

theorem Consistent.unclaimed_of_dir (h : s.Consistent) {dir : FenceDir} (hdir : s.fence = some dir)
    (hheld : s.guest.held = false) (hholding : s.windows.holding = none)
    (hothers : ∀ other created, other ≠ side → dir.owner = none → dir.creator = other →
      dir.created = created → ¬ s.now < created + ownerlessClaimGrace) :
    (s.setClaiming none side).Unclaimed := by
  refine ⟨?_, ?_, fun other ↦ ?_⟩
  · rw [setClaiming_held, hheld]
  · rw [setClaiming_holding, hholding]
  · rw [setClaiming_claiming]
    by_cases hside : other = side
    · rw [if_pos hside]
    rw [if_neg hside]
    cases hclaiming : s.claiming other with
    | none => rfl
    | some created =>
      obtain ⟨found, hfound, howner, hcreated, hcreator, -, htime⟩ :=
        h.claiming other created hclaiming
      rw [hdir, Option.some.injEq] at hfound
      subst hfound
      exact absurd htime (hothers other created hside howner hcreator hcreated)

theorem Consistent.unclaimed_of_claiming (h : s.Consistent)
    (hclaiming : s.claiming side = some created) : (s.setClaiming none side).Unclaimed := by
  obtain ⟨dir, hdir, howner, -, hcreator, -⟩ := h.claiming side created hclaiming
  refine h.unclaimed_of_dir hdir ?_ ?_ ?_
  · rw [← Bool.not_eq_true]
    intro hheld
    obtain ⟨found, _, hfound, hrecorded, -⟩ := h.held hheld
    rw [hdir, Option.some.injEq] at hfound
    rw [← hfound, howner] at hrecorded
    cases hrecorded
  · cases hholding : s.windows.holding with
    | none => rfl
    | some generation =>
      obtain ⟨found, _, hfound, hrecorded, -⟩ := h.holding generation hholding
      rw [hdir, Option.some.injEq] at hfound
      rw [← hfound, howner] at hrecorded
      cases hrecorded
  · intro other _ hother _ hcreator' _
    exact absurd (hcreator'.symm.trans hcreator) hother

/-- Who may remove the directory is the only one that may believe in a claim of it. -/
theorem Consistent.unclaimed_of_removes (h : s.Consistent)
    (hrequires : Requires side s .removeDir) : (s.setClaiming none side).Unclaimed := by
  cases hfence : s.fence with
  | none =>
    have hnone := h.unclaimed_of_none hfence
    refine ⟨?_, ?_, fun other ↦ ?_⟩
    · rw [setClaiming_held, hnone.held]
    · rw [setClaiming_holding, hnone.holding]
    · rw [setClaiming_claiming, hnone.claiming, ite_self]
  | some dir =>
    cases side with
    | guest =>
      obtain ⟨hheld, hdir⟩ := hrequires
      obtain ⟨-, howner⟩ := hdir dir hfence
      refine h.unclaimed_of_dir hfence hheld ?_ ?_
      · cases hholding : s.windows.holding with
        | none => rfl
        | some generation =>
          obtain ⟨found, owner, hfound, hrecorded, hkind, -⟩ := h.holding generation hholding
          rw [hfence, Option.some.injEq] at hfound
          rw [hfound, hrecorded] at howner
          simp only [hkind] at howner
          cases howner.1
      · intro other created hother hnone hcreator hcreated htime
        rw [hnone] at howner
        rcases howner with ⟨hguest, -⟩ | ⟨-, hold⟩
        · exact hother (hcreator.symm.trans hguest)
        · rw [hcreated] at hold
          exact absurd htime (not_lt.mpr hold)
    | windows =>
      obtain ⟨hholding, hdir⟩ := hrequires
      obtain ⟨-, hcreator, -⟩ := hdir dir hfence
      refine h.unclaimed_of_dir hfence ?_ hholding ?_
      · rw [← Bool.not_eq_true]
        intro hheld
        obtain ⟨found, _, hfound, -, -, hguest, -⟩ := h.held hheld
        rw [hfence, Option.some.injEq] at hfound
        rw [← hfound, hcreator] at hguest
        cases hguest
      · intro other created hother _ hcreator' _ _
        exact hother (hcreator'.symm.trans hcreator)

theorem grace_pos : (0 : Int) < ownerlessClaimGrace := by
  decide

theorem Unclaimed.withFence {claim : Option Timestamp} (h : (s.setClaiming claim side).Unclaimed)
    (fence : Option FenceDir) : ((s.withFence fence).setClaiming claim side).Unclaimed := by
  cases side <;> exact ⟨h.held, h.holding, h.claiming⟩

theorem Consistent.create (h : s.Consistent) (hfence : s.fence = none) :
    ((s.withFence (some (s.newDir side))).setClaiming (some s.now) side).Consistent := by
  have hnone := h.unclaimed_of_none hfence
  refine ⟨?_, ?_, ?_, ?_⟩
  · rw [setClaiming_held]
    intro hheld
    rw [withFence_guest, hnone.held] at hheld
    cases hheld
  · intro generation hholding
    rw [setClaiming_holding, withFence_windows,
      hnone.holding] at hholding
    cases hholding
  · intro other created hclaiming
    rw [setClaiming_claiming] at hclaiming
    by_cases hother : other = side
    · rw [if_pos hother, Option.some.injEq] at hclaiming
      refine ⟨s.newDir side, by simp, rfl, hclaiming, hother.symm, ?_, ?_⟩
      · rw [setClaiming_incarnation, hother]
        rfl
      · rw [setClaiming_now, withFence_now, ← hclaiming]
        exact lt_add_of_pos_right s.now grace_pos
    · rw [if_neg hother, withFence_claiming,
        hnone.claiming] at hclaiming
      cases hclaiming
  · intro dir hdir
    rw [setClaiming_fence, withFence_fence, Option.some.injEq] at hdir
    subst hdir
    refine ⟨le_refl _, ?_, fun owner howner ↦ nomatch howner⟩
    rw [setClaiming_now, withFence_now]
    exact le_refl _

/-- A file in the directory of a claim that is not recorded yet. -/
theorem Consistent.touch (h : s.Consistent) (hclaiming : s.claiming side = some created) :
    (s.withFence (s.fence.map fun dir ↦ { dir with modified := s.now })).Consistent := by
  have hclear := h.unclaimed_of_claiming hclaiming
  obtain ⟨dir, hdir, howner, hcreated, hcreator, hincarnation, htime⟩ :=
    h.claiming side created hclaiming
  rw [hdir]
  refine ⟨?_, ?_, ?_, ?_⟩
  · intro hheld
    have hfalse := hclear.held
    rw [setClaiming_held] at hfalse
    rw [withFence_guest, hfalse] at hheld
    cases hheld
  · intro generation hholding
    have hnone := hclear.holding
    rw [setClaiming_holding] at hnone
    rw [withFence_windows, hnone] at hholding
    cases hholding
  · intro other later hlater
    have hother : other = side := by
      by_contra hother
      have hnone := hclear.claiming other
      rw [setClaiming_claiming, if_neg hother] at hnone
      rw [withFence_claiming, hnone] at hlater
      cases hlater
    subst hother
    rw [withFence_claiming, hclaiming,
      Option.some.injEq] at hlater
    subst hlater
    exact ⟨_, rfl, howner, hcreated, hcreator, hincarnation, htime⟩
  · intro found hfound
    rw [withFence_fence, Option.map_some, Option.some.injEq] at hfound
    subst hfound
    obtain ⟨-, hnow, hkind⟩ := h.recorded dir hdir
    exact ⟨hnow, hnow, hkind⟩

theorem Consistent.persist (h : s.Consistent) (hclaiming : s.claiming side = some created)
    {owner : FenceOwner} (hkind : owner.kind = side.kind) :
    ((s.putOwner (some owner)).setClaiming none side).Consistent := by
  obtain ⟨dir, hdir, -, -, hcreator, -⟩ := h.claiming side created hclaiming
  refine ((h.unclaimed_of_claiming hclaiming).withFence _).consistent fun found hfound ↦ ?_
  rw [setClaiming_fence, withFence_fence, hdir, Option.map_some, Option.some.injEq] at hfound
  subst hfound
  obtain ⟨-, hnow, -⟩ := h.recorded dir hdir
  refine ⟨hnow, ?_, ?_⟩
  · rw [setClaiming_now]
    exact hnow
  · rintro _ ⟨⟩
    rw [hkind, hcreator]

theorem Consistent.remove (h : s.Consistent) (side : Side)
    (hrequires : Requires side s .removeDir) :
    ((s.withFence none).setClaiming none side).Consistent ∧
      (s.setClaiming none side).Consistent ∧
      ((s.putOwner none).setClaiming none side).Consistent := by
  have hclear := h.unclaimed_of_removes hrequires
  refine ⟨(hclear.withFence none).consistent ?_, hclear.consistent ?_,
    (hclear.withFence _).consistent ?_⟩
  · intro dir hdir
    rw [setClaiming_fence] at hdir
    cases hdir
  · intro dir hdir
    rw [setClaiming_fence] at hdir
    obtain ⟨hmodified, hnow, hkind⟩ := h.recorded dir hdir
    exact ⟨hmodified, by rwa [setClaiming_now], hkind⟩
  · intro dir hdir
    rw [setClaiming_fence, withFence_fence, Option.map_eq_some_iff] at hdir
    obtain ⟨before, hbefore, rfl⟩ := hdir
    obtain ⟨-, hnow, -⟩ := h.recorded before hbefore
    refine ⟨hnow, ?_, fun owner howner ↦ nomatch howner⟩
    rw [setClaiming_now]
    exact hnow

theorem Consistent.congr (h : s.Consistent) (hnow : t.now = s.now) (hfence : t.fence = s.fence)
    (hheld : t.guest.held = true → s.guest.held = true)
    (hholding : ∀ generation, t.windows.holding = some generation →
      s.windows.holding = some generation)
    (hclaiming : ∀ side, t.claiming side = s.claiming side)
    (hincarnation : ∀ side, t.incarnation side = s.incarnation side) : t.Consistent where
  held hbelieves := by
    obtain ⟨dir, owner, hdir, howner, hkind, hcreator, hsame⟩ := h.held (hheld hbelieves)
    exact ⟨dir, owner, hfence.trans hdir, howner, hkind, hcreator,
      hsame.trans (hincarnation .guest).symm⟩
  holding generation hbelieves := by
    obtain ⟨dir, owner, hdir, howner⟩ := h.holding generation (hholding generation hbelieves)
    exact ⟨dir, owner, hfence.trans hdir, howner⟩
  claiming side created hbelieves := by
    obtain ⟨dir, hdir, howner, hcreated, hcreator, hsame, htime⟩ :=
      h.claiming side created ((hclaiming side).symm.trans hbelieves)
    exact ⟨dir, hfence.trans hdir, howner, hcreated, hcreator,
      hsame.trans (hincarnation side).symm, hnow ▸ htime⟩
  recorded dir hdir := by
    obtain ⟨hmodified, hcreated, hkind⟩ := h.recorded dir (hfence.symm.trans hdir)
    exact ⟨hmodified, hnow ▸ hcreated, hkind⟩

theorem WatchdogRely.of_same (hwindows : t.windows = s.windows) (hnow : t.now = s.now)
    (hfence : t.fence = s.fence) (hrequest : t.request = s.request) : WatchdogRely s t :=
  ⟨hwindows, hnow ▸ le_refl _, fun _ _ _ _ _ ↦ hfence, hrequest⟩

theorem WatchdogRely.of_fence (hwindows : t.windows = s.windows) (hnow : t.now = s.now)
    (hrequest : t.request = s.request)
    (hfence : ∀ dir owner, s.fence = some dir → dir.owner = some owner →
      owner.kind ≠ .windowsRecovery) : WatchdogRely s t where
  windows := hwindows
  now := hnow ▸ le_refl _
  recorded dir owner hdir howner hkind := absurd hkind (hfence dir owner hdir howner)
  request := hrequest

theorem Consistent.ownerless (h : s.Consistent) (side : Side)
    (hclaiming : (s.claiming side).isSome = true) :
    ∃ created dir, s.claiming side = some created ∧ s.fence = some dir ∧ dir.owner = none := by
  obtain ⟨created, hcreated⟩ := Option.isSome_iff_exists.mp hclaiming
  obtain ⟨dir, hdir, howner, -⟩ := h.claiming side created hcreated
  exact ⟨created, dir, hcreated, hdir, howner⟩

theorem guest_step (h : s.Consistent) {c : FenceCall} {answer : c.Answer}
    (hrequires : s.GuestRequires c) (hstep : s.Steps .guest c answer t) :
    t.Consistent ∧ WatchdogRely s t := by
  -- A claim that the guest makes is not a recorded recovery.
  have hpending (hclaiming : s.guest.claiming.isSome = true) (dir : FenceDir) (owner : FenceOwner)
      (hdir : s.fence = some dir) (howner : dir.owner = some owner) :
      owner.kind ≠ .windowsRecovery := by
    obtain ⟨_, found, -, hfound, hnone⟩ := h.ownerless .guest hclaiming
    rw [hdir, Option.some.injEq] at hfound
    rw [← hfound, howner] at hnone
    cases hnone
  have hremoves (hremove : s.GuestRequires .removeDir) (dir : FenceDir) (owner : FenceOwner)
      (hdir : s.fence = some dir) (howner : dir.owner = some owner) :
      owner.kind ≠ .windowsRecovery := by
    obtain ⟨-, hguest⟩ := hremove.2 dir hdir
    rw [howner] at hguest
    rw [hguest.1]
    exact FenceOwnerKind.noConfusion
  have hclaimed {claim : Option Timestamp} {fence : Option FenceDir}
      (hfence : ∀ dir owner, s.fence = some dir → dir.owner = some owner →
        owner.kind ≠ .windowsRecovery) :
      WatchdogRely s ((s.withFence fence).setClaiming claim .guest) :=
    .of_fence rfl rfl rfl hfence
  unfold Steps at hstep
  split at hstep
  · obtain ⟨-, rfl⟩ := hstep
    exact ⟨h, .refl t⟩
  · subst hstep
    refine ⟨h.congr rfl rfl id (fun _ ↦ id) ?_ ?_, .of_same rfl rfl rfl rfl⟩
    · exact fun side ↦ by cases side <;> rfl
    · exact fun side ↦ by cases side <;> rfl
  · obtain ⟨hfence, rfl⟩ := hstep
    refine ⟨h.create hfence, hclaimed fun dir owner hdir ↦ ?_⟩
    rw [hfence] at hdir
    cases hdir
  · obtain ⟨-, rfl⟩ := hstep
    exact ⟨h, .refl t⟩
  · obtain ⟨_, dir, -, hdir, -⟩ := h.ownerless .guest hrequires
    have hsame : (s.fence <|> some (s.newDir .guest)) = s.fence := by
      rw [hdir]
      rfl
    rw [hstep, hsame]
    exact ⟨h, .refl s⟩
  · obtain ⟨-, rfl⟩ := hstep
    obtain ⟨_, dir, hclaiming, -⟩ := h.ownerless .guest hrequires
    exact ⟨h.touch hclaiming, .of_fence rfl rfl rfl (hpending hrequires)⟩
  · obtain ⟨-, rfl⟩ := hstep
    obtain ⟨_, dir, hclaiming, -⟩ := h.ownerless .guest hrequires.1
    exact ⟨h.persist hclaiming hrequires.2, hclaimed (hpending hrequires.1)⟩
  · subst hstep
    exact ⟨(h.remove .guest hrequires).1, hclaimed (hremoves hrequires)⟩
  · obtain ⟨-, hkept, hpart⟩ := h.remove .guest hrequires
    rcases hstep with rfl | rfl
    · exact ⟨hkept, .of_same rfl rfl rfl rfl⟩
    · exact ⟨hpart, hclaimed (hremoves hrequires)⟩
  · obtain ⟨-, rfl⟩ := hstep
    exact ⟨h, .refl t⟩
  · obtain ⟨-, rfl⟩ := hstep
    exact ⟨h, .refl t⟩
  · obtain ⟨-, rfl⟩ := hstep
    refine ⟨h.congr rfl rfl id (fun _ ↦ id) ?_ ?_, .of_same rfl rfl rfl rfl⟩
    · exact fun side ↦ by cases side <;> rfl
    · exact fun side ↦ by cases side <;> rfl
  · exact absurd hrequires id
  · exact absurd hrequires id
  · obtain ⟨-, rfl⟩ := hstep
    exact ⟨h, .refl t⟩
  · subst hstep
    refine ⟨⟨fun _ ↦ hrequires, h.holding, fun side created ↦ ?_, h.recorded⟩,
      .of_same rfl rfl rfl rfl⟩
    cases side with
    | guest => exact h.claiming .guest created
    | windows => exact h.claiming .windows created
  · subst hstep
    refine ⟨h.congr rfl rfl (fun hheld ↦ nomatch hheld) (fun _ ↦ id) ?_ ?_,
      .of_same rfl rfl rfl rfl⟩
    · exact fun side ↦ by cases side <;> rfl
    · exact fun side ↦ by cases side <;> rfl
  · exact absurd hrequires id
  · subst hstep
    exact ⟨h, .refl t⟩

theorem GuestRely.of_fence (hguest : t.guest = s.guest) (hnow : t.now = s.now)
    (hcreator : ∀ dir, s.fence = some dir → dir.creator ≠ .guest)
    (habandoned : ∀ dir, s.fence = some dir → ¬ s.Abandoned dir)
    (holder : ∀ dir, t.fence = some dir → dir.created < s.now →
      ∃ before, s.fence = some before ∧ before.created = dir.created) : GuestRely s t where
  guest := hguest
  now := hnow ▸ le_refl _
  created dir hdir hguest := absurd hguest (hcreator dir hdir)
  abandoned dir hdir h := absurd h (habandoned dir hdir)
  older := holder

theorem GuestRely.of_same (hguest : t.guest = s.guest) (hnow : t.now = s.now)
    (hfence : t.fence = s.fence) : GuestRely s t where
  guest := hguest
  now := hnow ▸ le_refl _
  created _ _ _ := hfence
  abandoned _ _ _ := hfence
  older dir hdir _ := ⟨dir, hfence ▸ hdir, rfl⟩

theorem Consistent.not_abandoned (h : s.Consistent) {dir : FenceDir} (hdir : s.fence = some dir)
    (hclaiming : dir.owner = none → s.windows.claiming.isSome = true) : ¬ s.Abandoned dir := by
  intro habandoned
  obtain ⟨created, hcreated⟩ := Option.isSome_iff_exists.mp (hclaiming habandoned.1)
  obtain ⟨found, hfound, -, hsame, -, -, htime⟩ := h.claiming .windows created hcreated
  rw [hdir, Option.some.injEq] at hfound
  subst hfound
  rw [← hsame] at htime
  exact absurd habandoned.2 (not_le.mpr htime)

theorem watchdog_step (h : s.Consistent) {c : FenceCall} {answer : c.Answer}
    (hrequires : s.WatchdogRequires c) (hstep : s.Steps .windows c answer t) :
    t.Consistent ∧ GuestRely s t := by
  -- The watchdog works on a directory that it is claiming, or that it may remove.
  have hown (fence : Option FenceDir) (claim : Option Timestamp)
      (hworks : ∀ dir, s.fence = some dir → dir.creator = .windows ∧
        (dir.owner = none → s.windows.claiming.isSome = true))
      (holder : ∀ dir, fence = some dir → dir.created < s.now →
        ∃ before, s.fence = some before ∧ before.created = dir.created) :
      GuestRely s ((s.withFence fence).setClaiming claim .windows) := by
    refine .of_fence rfl rfl (fun dir hdir ↦ ?_) (fun dir hdir ↦ ?_) holder
    · rw [(hworks dir hdir).1]
      exact Side.noConfusion
    · exact h.not_abandoned hdir (hworks dir hdir).2
  have hpending (hclaiming : s.windows.claiming.isSome = true) (dir : FenceDir)
      (hdir : s.fence = some dir) :
      dir.creator = .windows ∧ (dir.owner = none → s.windows.claiming.isSome = true) := by
    obtain ⟨created, hcreated⟩ := Option.isSome_iff_exists.mp hclaiming
    obtain ⟨found, hfound, -, -, hcreator, -⟩ := h.claiming .windows created hcreated
    rw [hdir, Option.some.injEq] at hfound
    exact ⟨hfound ▸ hcreator, fun _ ↦ hclaiming⟩
  have hmapped (f : FenceDir → FenceDir) (hf : ∀ dir, (f dir).created = dir.created)
      (dir : FenceDir) (hdir : s.fence.map f = some dir) (_ : dir.created < s.now) :
      ∃ before, s.fence = some before ∧ before.created = dir.created := by
    obtain ⟨before, hbefore, rfl⟩ := Option.map_eq_some_iff.mp hdir
    exact ⟨before, hbefore, (hf before).symm⟩
  unfold Steps at hstep
  split at hstep
  · obtain ⟨-, rfl⟩ := hstep
    exact ⟨h, .refl t⟩
  · exact absurd hrequires id
  · obtain ⟨hfence, rfl⟩ := hstep
    refine ⟨h.create hfence, hown _ _ (fun dir hdir ↦ ?_) fun dir hdir holder ↦ ?_⟩
    · rw [hfence] at hdir
      cases hdir
    · rw [Option.some.injEq] at hdir
      subst hdir
      exact absurd holder (lt_irrefl _)
  · obtain ⟨-, rfl⟩ := hstep
    exact ⟨h, .refl t⟩
  · obtain ⟨_, dir, -, hdir, -⟩ := h.ownerless .windows hrequires
    have hsame : (s.fence <|> some (s.newDir .windows)) = s.fence := by
      rw [hdir]
      rfl
    rw [hstep, hsame]
    exact ⟨h, .refl s⟩
  · obtain ⟨-, rfl⟩ := hstep
    obtain ⟨_, dir, hclaiming, -⟩ := h.ownerless .windows hrequires
    have hrely := hown (s.fence.map fun dir ↦ { dir with modified := s.now }) s.windows.claiming
      (hpending hrequires) (hmapped _ fun _ ↦ rfl)
    exact ⟨h.touch hclaiming, hrely⟩
  · obtain ⟨-, rfl⟩ := hstep
    obtain ⟨_, dir, hclaiming, -⟩ := h.ownerless .windows hrequires.1
    exact ⟨h.persist hclaiming hrequires.2,
      hown _ none (hpending hrequires.1) (hmapped _ fun _ ↦ rfl)⟩
  · subst hstep
    refine ⟨(h.remove .windows hrequires).1, hown none none (fun dir hdir ↦ ?_) ?_⟩
    · exact (hrequires.2 dir hdir).2
    · intro dir hdir
      cases hdir
  · obtain ⟨-, hkept, hpart⟩ := h.remove .windows hrequires
    rcases hstep with rfl | rfl
    · exact ⟨hkept, .of_same rfl rfl rfl⟩
    · exact ⟨hpart, hown _ none (fun dir hdir ↦ (hrequires.2 dir hdir).2)
        (hmapped _ fun _ ↦ rfl)⟩
  · obtain ⟨-, rfl⟩ := hstep
    exact ⟨h, .refl t⟩
  · obtain ⟨-, rfl⟩ := hstep
    exact ⟨h, .refl t⟩
  · obtain ⟨-, rfl⟩ := hstep
    exact ⟨h, .refl _⟩
  · subst hstep
    exact ⟨h.congr rfl rfl id (fun _ ↦ id) (fun side ↦ by cases side <;> rfl)
      (fun side ↦ by cases side <;> rfl), .of_same rfl rfl rfl⟩
  · subst hstep
    exact ⟨h.congr rfl rfl id (fun _ ↦ id) (fun side ↦ by cases side <;> rfl)
      (fun side ↦ by cases side <;> rfl), .of_same rfl rfl rfl⟩
  · obtain ⟨-, rfl⟩ := hstep
    exact ⟨h, .refl t⟩
  · exact absurd hrequires id
  · exact absurd hrequires id
  · subst hstep
    refine ⟨⟨h.held, fun generation hholding ↦ ?_, fun side created ↦ ?_, h.recorded⟩,
      .of_same rfl rfl rfl⟩
    · exact hrequires generation hholding
    · cases side with
      | guest => exact h.claiming .guest created
      | windows => exact h.claiming .windows created
  · subst hstep
    exact ⟨h, .refl t⟩

end Steps

end Shared

end RunnerManager.Agent
