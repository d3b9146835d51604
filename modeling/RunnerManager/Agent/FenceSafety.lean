import RunnerManager.Agent.LaunchFence

/-!
# The launch fence excludes both sides

Each operation of `LaunchFence` meets its side's contract while the other side does what it is
relied on to do. The claims come first, then the removals of the guest and of the watchdog, and
at the end `fence_safe` puts the sides together.
-/

namespace RunnerManager.Agent

open RunnerManager.Domain RunnerManager.Platform
open Contract (wp_bind wp_mono wp_outcome_seq wp_seq wp_under_of_rely)

namespace Shared

/-- The contract of a side while the other one moves. -/
def sideContract (side : Side) : Contract FenceCall FenceCall.Answer Shared :=
  (fenceContract side).under Consistent (Rely side)

/-! ## Rules -/

section Rules

variable {side : Side} {α β : Type} {s : Shared}

/-- What the other side may do does not undo it. -/
def Stable (side : Side) (Q : Except FenceError α → Shared → Prop) : Prop :=
  ∀ result s t, Rely side s t → Q result s → Q result t

theorem ask_wp {c : FenceCall} {f : c.Answer → FenceProgram α}
    {Q : Except FenceError α → Shared → Prop}
    (hrequires : ∀ t, Rely side s t → t.Consistent → Requires side t c)
    (hnext : ∀ t answer u, Rely side s t → t.Consistent → t.Steps side c answer u →
      (sideContract side).wp (f answer) Q u) :
    (sideContract side).wp (Fence.ask c >>= f) Q s := by
  refine (wp_bind _ _).mpr ⟨hrequires, fun answer u hstep ↦ ?_⟩
  obtain ⟨t, hrely, hconsistent, hstep⟩ := hstep
  exact hnext t answer u hrely hconsistent hstep

theorem wp_of_rely {t : Shared} {p : FenceProgram α} {Q : Except FenceError α → Shared → Prop}
    (hQ : Stable side Q) (hrely : Rely side s t) (h : (sideContract side).wp p Q s) :
    (sideContract side).wp p Q t :=
  wp_under_of_rely (rely_trans side) hQ hrely h

/-- The call needs nothing and leaves everything. -/
def quiet : FenceCall → Bool
  | .now | .processId | .ownIdentity | .createRoot | .readOwner | .readModified | .removeStatus
  | .heldHere | .sleep _ | .allocationLock => true
  | _ => false

theorem requires_quiet {c : FenceCall} (hquiet : quiet c = true) : Requires side s c := by
  cases side <;> cases c <;> trivial

theorem steps_quiet {c : FenceCall} {answer : c.Answer} {t : Shared} (hquiet : quiet c = true)
    (hstep : s.Steps side c answer t) : t = s := by
  unfold Steps at hstep
  split at hstep
  all_goals first | exact hstep | exact hstep.2 | cases hquiet

theorem quiet_wp {c : FenceCall} {f : c.Answer → FenceProgram α}
    {Q : Except FenceError α → Shared → Prop} (hQ : Stable side Q) (hquiet : quiet c = true)
    (hnext : ∀ answer, (sideContract side).wp (f answer) Q s) :
    (sideContract side).wp (Fence.ask c >>= f) Q s := by
  refine ask_wp (fun t _ _ ↦ requires_quiet hquiet) fun t answer u hrely _ hstep ↦ ?_
  rw [steps_quiet hquiet hstep]
  exact wp_of_rely hQ hrely (hnext answer)

theorem orFail_wp {answer : Except FenceError α} {f : α → FenceProgram β}
    {Q : Except FenceError β → Shared → Prop}
    (hok : ∀ value, answer = .ok value → (sideContract side).wp (f value) Q s)
    (hfailed : ∀ error, answer = .error error → Q (.error error) s) :
    (sideContract side).wp (Fence.orFail answer >>= f) Q s := by
  cases answer with
  | ok value => exact hok value rfl
  | error error => exact hfailed error rfl

end Rules

/-! ## Claims -/

section Claims

variable {side : Side} {s t : Shared} {generation : Option Nat}

/-- The side does not believe that it has the fence. -/
def Unbelieving : Side → Shared → Prop
  | .guest, s => s.guest.held = false
  | .windows, s => s.windows.holding = none

/-- The side has no claim and makes none. -/
def Free (side : Side) (s : Shared) : Prop :=
  s.claiming side = none ∧ Unbelieving side s

/-- The side has created the directory and not yet recorded its claim. -/
def Claiming (side : Side) (s : Shared) : Prop :=
  (s.claiming side).isSome = true ∧ Unbelieving side s

/-- The claim of the side is recorded. -/
def Owned (side : Side) (generation : Option Nat) (s : Shared) : Prop :=
  ∃ dir owner, s.fence = some dir ∧ dir.owner = some owner ∧ owner.kind = side.kind ∧
    owner.generation = generation ∧ dir.creator = side ∧ dir.incarnation = s.incarnation side

theorem own_of_rely (hrely : Rely side s t) :
    t.claiming side = s.claiming side ∧ t.incarnation side = s.incarnation side ∧
      (Unbelieving side t ↔ Unbelieving side s) := by
  cases side with
  | guest =>
    have hguest := hrely.guest
    exact ⟨congrArg GuestProcess.claiming hguest, congrArg GuestProcess.incarnation hguest,
      by rw [Unbelieving, Unbelieving, hguest]⟩
  | windows =>
    have hwindows := hrely.windows
    exact ⟨congrArg WatchdogProcess.claiming hwindows,
      congrArg WatchdogProcess.incarnation hwindows,
      by rw [Unbelieving, Unbelieving, hwindows]⟩

theorem Free.of_rely (h : Free side s) (hrely : Rely side s t) : Free side t := by
  obtain ⟨hclaiming, -, hbelief⟩ := own_of_rely hrely
  exact ⟨hclaiming.trans h.1, hbelief.mpr h.2⟩

theorem Claiming.of_rely (h : Claiming side s) (hrely : Rely side s t) : Claiming side t := by
  obtain ⟨hclaiming, -, hbelief⟩ := own_of_rely hrely
  exact ⟨by rw [hclaiming, h.1], hbelief.mpr h.2⟩

theorem Owned.of_rely (h : Owned side generation s) (hrely : Rely side s t) :
    Owned side generation t := by
  obtain ⟨-, hincarnation, -⟩ := own_of_rely hrely
  obtain ⟨dir, owner, hdir, howner, hkind, hgeneration, hcreator, hsame⟩ := h
  have hfence : t.fence = s.fence := by
    cases side with
    | guest => exact hrely.created dir hdir hcreator
    | windows => exact hrely.recorded dir owner hdir howner hkind
  exact ⟨dir, owner, hfence.trans hdir, howner, hkind, hgeneration, hcreator,
    hsame.trans hincarnation.symm⟩

theorem unbelieving_setClaiming {claim : Option Timestamp} :
    Unbelieving side (s.setClaiming claim side) ↔ Unbelieving side s := by
  cases side <;> exact Iff.rfl

theorem claiming_setClaiming {claim : Option Timestamp} :
    (s.setClaiming claim side).claiming side = claim := by
  rw [setClaiming_claiming, if_pos rfl]

theorem unbelieving_withFence {fence : Option FenceDir} :
    Unbelieving side (s.withFence fence) ↔ Unbelieving side s := by
  cases side <;> exact Iff.rfl

theorem Free.settled (h : Unbelieving side s) : Free side (s.setClaiming none side) :=
  ⟨claiming_setClaiming, unbelieving_setClaiming.mpr h⟩

theorem free_of_removal (h : Unbelieving side s) {answer : Except FenceError Unit}
    (hstep : s.Steps side .removeDir answer t) : Free side t := by
  cases answer with
  | ok _ =>
    obtain rfl : t = (s.withFence none).setClaiming none side := hstep
    exact .settled (unbelieving_withFence.mpr h)
  | error _ =>
    obtain rfl | rfl :
        t = s.setClaiming none side ∨ t = (s.putOwner none).setClaiming none side :=
      hstep
    · exact .settled h
    · exact .settled (unbelieving_withFence.mpr h)

def Claims (side : Side) (generation : Option Nat) :
    Except FenceError Bool → Shared → Prop
  | .ok true, t => Free side t ∧ Owned side generation t
  | _, t => Free side t

theorem claims_stable : Stable side (Claims side generation) := by
  intro result s t hrely h
  match result, h with
  | .ok true, h => exact ⟨h.1.of_rely hrely, h.2.of_rely hrely⟩
  | .ok false, h => exact Free.of_rely h hrely
  | .error _, h => exact Free.of_rely h hrely

/-- How the write of the owner record ends. -/
def Writes (side : Side) (generation : Option Nat) :
    Except FenceError Unit → Shared → Prop
  | .ok _, t => Free side t ∧ Owned side generation t
  | .error _, t => Claiming side t

theorem requires_createDir (h : Free side t) : Requires side t .createDir := by
  cases side with
  | guest => exact h.1
  | windows => exact h.1

theorem requires_write (h : Claiming side t) :
    Requires side t .createParent ∧ Requires side t .createTemporary ∧
      ∀ owner : FenceOwner, owner.kind = side.kind → Requires side t (.persistOwner owner) := by
  cases side with
  | guest => exact ⟨h.1, h.1, fun owner hkind ↦ ⟨h.1, hkind⟩⟩
  | windows => exact ⟨h.1, h.1, fun owner hkind ↦ ⟨h.1, hkind⟩⟩

theorem requires_undo (h : Claiming side t) (hconsistent : t.Consistent) :
    Requires side t .removeDir := by
  obtain ⟨created, hcreated⟩ := Option.isSome_iff_exists.mp h.1
  obtain ⟨dir, hdir, howner, -, hcreator, hincarnation, -⟩ :=
    hconsistent.claiming side created hcreated
  cases side with
  | guest =>
    refine ⟨h.2, fun found hfound ↦ ⟨h.2, ?_⟩⟩
    rw [hdir, Option.some.injEq] at hfound
    subst hfound
    rw [howner]
    exact .inl ⟨hcreator, hincarnation⟩
  | windows =>
    refine ⟨h.2, fun found hfound ↦ ⟨h.2, ?_, fun _ ↦ h.1⟩⟩
    rw [hdir, Option.some.injEq] at hfound
    exact hfound ▸ hcreator

theorem owned_of_persist (h : Claiming side t) (hconsistent : t.Consistent) {owner : FenceOwner}
    (hkind : owner.kind = side.kind) (hgeneration : owner.generation = generation) :
    Owned side generation ((t.putOwner (some owner)).setClaiming none side) := by
  obtain ⟨created, hcreated⟩ := Option.isSome_iff_exists.mp h.1
  obtain ⟨dir, hdir, -, -, hcreator, hincarnation, -⟩ := hconsistent.claiming side created hcreated
  refine ⟨{ dir with modified := t.now, owner := some owner }, owner, ?_, rfl, hkind, hgeneration,
    hcreator, ?_⟩
  · rw [setClaiming_fence]
    show (t.fence.map _) = _
    rw [hdir]
    rfl
  · rw [setClaiming_incarnation]
    exact hincarnation

theorem writeOwner_wp (h : Claiming side s) {owner : FenceOwner} (hkind : owner.kind = side.kind)
    (hgeneration : owner.generation = generation) :
    (sideContract side).wp (Fence.writeOwner owner) (Writes side generation) s := by
  refine ask_wp (fun t hrely _ ↦ (requires_write (h.of_rely hrely)).1)
    fun t answer u hrely _ hstep ↦ ?_
  have hu : Claiming side u := by
    have ht := h.of_rely hrely
    cases answer with
    | ok _ => exact hstep ▸ ⟨by rw [withFence_claiming, ht.1], unbelieving_withFence.mpr ht.2⟩
    | error _ => exact hstep ▸ ht
  refine orFail_wp (fun _ _ ↦ ?_) fun _ _ ↦ hu
  refine ask_wp (fun t hrely _ ↦ (requires_write (hu.of_rely hrely)).2.1)
    fun t answer v hrely _ hstep ↦ ?_
  have hv : Claiming side v := by
    have ht := hu.of_rely hrely
    cases answer with
    | ok _ => exact hstep.2 ▸ ⟨by rw [withFence_claiming, ht.1], unbelieving_withFence.mpr ht.2⟩
    | error _ => exact hstep ▸ ht
  refine orFail_wp (fun _ _ ↦ ?_) fun _ _ ↦ hv
  refine ask_wp (fun t hrely _ ↦ (requires_write (hv.of_rely hrely)).2.2 owner hkind)
    fun t answer w hrely hconsistent hstep ↦ ?_
  have ht := hv.of_rely hrely
  cases answer with
  | ok _ =>
    obtain ⟨-, rfl⟩ := hstep
    exact ⟨.settled (unbelieving_withFence.mpr ht.2),
      owned_of_persist ht hconsistent hkind hgeneration⟩
  | error _ =>
    show Claiming side w
    exact hstep ▸ ht

/-- A claim ends with the directory created and recorded, or with nothing. -/
theorem tryClaim_wp (h : Free side s) :
    (sideContract side).wp (Fence.tryClaim side.kind generation) (Claims side generation) s := by
  refine quiet_wp claims_stable rfl fun answer ↦ orFail_wp (fun _ _ ↦ ?_) fun _ _ ↦ h
  refine ask_wp (fun t hrely _ ↦ requires_createDir (h.of_rely hrely))
    fun t answer u hrely _ hstep ↦ ?_
  have ht := h.of_rely hrely
  cases answer with
  | error _ => exact (show u = t from hstep) ▸ ht
  | ok created =>
    cases created with
    | false => exact hstep.2 ▸ ht
    | true =>
      have hu : Claiming side u := by
        rw [hstep.2]
        exact ⟨by rw [claiming_setClaiming]; rfl,
          unbelieving_setClaiming.mpr (unbelieving_withFence.mpr ht.2)⟩
      refine orFail_wp (fun value hvalue ↦ ?_) fun _ herror ↦ nomatch herror
      cases hvalue
      rw [if_pos rfl]
      refine quiet_wp claims_stable rfl fun processId ↦ quiet_wp claims_stable rfl fun now ↦
        quiet_wp claims_stable rfl fun identity ↦ ?_
      refine wp_outcome_seq (writeOwner_wp hu rfl rfl) fun result v hresult ↦ ?_
      cases result with
      | ok _ => exact hresult
      | error error =>
        refine ask_wp (fun w hrely hconsistent ↦
          requires_undo (Claiming.of_rely hresult hrely) hconsistent)
          fun w answer x hrely _ hstep ↦ ?_
        exact free_of_removal (Claiming.of_rely hresult hrely).2 hstep

end Claims

/-! ## Time -/

section Time

variable {side : Side} {s t : Shared} {α : Type}

theorem now_of_rely (hrely : Rely side s t) : s.now ≤ t.now := by
  cases side with
  | guest => exact hrely.now
  | windows => exact hrely.now

theorem now_of_steps {c : FenceCall} {answer : c.Answer} (hstep : s.Steps side c answer t) :
    t.now = s.now := by
  unfold Steps at hstep
  split at hstep
  all_goals first
    | subst hstep
    | obtain rfl := hstep.2
    | obtain rfl | rfl := hstep
  all_goals cases side <;> rfl

theorem wp_now {p : FenceProgram α} {Q : Except FenceError α → Shared → Prop} {since : Timestamp}
    (hsince : since ≤ s.now) (h : (sideContract side).wp p Q s) :
    (sideContract side).wp p (fun result t ↦ Q result t ∧ since ≤ t.now) s := by
  induction p generalizing s with
  | done result => exact ⟨h, hsince⟩
  | ask c next ih =>
    refine ⟨h.1, fun answer u hstep ↦ ih answer ?_ (h.2 answer u hstep)⟩
    obtain ⟨t, hrely, -, hmoved⟩ := hstep
    have hmiddle : s.now ≤ t.now := now_of_rely hrely
    rw [now_of_steps hmoved]
    exact hsince.trans hmiddle

end Time

/-! ## Reclaims -/

section Reclaims

variable {side : Side} {s t : Shared} {α : Type}

theorem readOwner_wp {f : Option FenceOwner → FenceProgram α}
    {Q : Except FenceError α → Shared → Prop}
    (hok : ∀ t, Rely side s t → t.Consistent →
      (sideContract side).wp (f (t.fence.bind (·.owner))) Q t)
    (hfailed : ∀ error t, Rely side s t → Q (.error error) t) :
    (sideContract side).wp (Fence.readOwner >>= f) Q s := by
  refine (wp_bind _ _).mpr ?_
  refine ask_wp (fun t _ _ ↦ requires_quiet rfl) fun t answer u hrely hconsistent hstep ↦ ?_
  cases answer with
  | ok owner =>
    obtain ⟨rfl, rfl⟩ := hstep
    exact hok u hrely hconsistent
  | error error =>
    obtain rfl : u = t := hstep
    exact hfailed error u hrely

theorem removeDir_wp {f : Unit → FenceProgram α} {Q : Except FenceError α → Shared → Prop}
    (hfree : Unbelieving side s)
    (hrequires : ∀ t, Rely side s t → t.Consistent → Requires side t .removeDir)
    (hok : ∀ t, Free side t → (sideContract side).wp (f ()) Q t)
    (hfailed : ∀ error t, Free side t → Q (.error error) t) :
    (sideContract side).wp
      (Fence.ask .removeDir >>= fun answer ↦ Fence.orFail answer >>= f) Q s := by
  refine ask_wp hrequires fun t answer u hrely _ hstep ↦ ?_
  have hu : Free side u := free_of_removal ((own_of_rely hrely).2.2.mpr hfree) hstep
  exact orFail_wp (fun _ _ ↦ hok u hu) fun error _ ↦ hfailed error u hu

/-- A directory that nobody can be holding: it was abandoned, or a guest left it. -/
def Reclaimable (s : Shared) : Prop :=
  ∃ dir, s.fence = some dir ∧
    (s.Abandoned dir ∨ dir.creator = .guest ∧ ∃ owner probe, dir.owner = some owner ∧
      owner.kind = .guestLaunch ∧ s.guest.judged = some (owner, probe) ∧ owner.ProvablyGone probe)

theorem Reclaimable.of_rely (h : Reclaimable s) (hrely : GuestRely s t) : Reclaimable t := by
  obtain ⟨dir, hdir, habandoned | ⟨hcreator, owner, probe, howner, hkind, hjudged, hgone⟩⟩ := h
  · have hfence : t.fence = s.fence := hrely.abandoned dir hdir habandoned
    exact ⟨dir, hfence.trans hdir, .inl ⟨habandoned.1, habandoned.2.trans hrely.now⟩⟩
  · have hfence : t.fence = s.fence := hrely.created dir hdir hcreator
    have hstill : t.guest.judged = some (owner, probe) := by rw [hrely.guest, hjudged]
    exact ⟨dir, hfence.trans hdir, .inr ⟨hcreator, owner, probe, howner, hkind, hstill, hgone⟩⟩

theorem Reclaimable.requires (h : Reclaimable s) (hheld : s.guest.held = false) :
    s.GuestRequires .removeDir := by
  obtain ⟨dir, hdir, hwhy⟩ := h
  refine ⟨hheld, fun found hfound ↦ ⟨hheld, ?_⟩⟩
  rw [hdir, Option.some.injEq] at hfound
  subst hfound
  rcases hwhy with habandoned | ⟨-, owner, probe, howner, hkind, hjudged, hgone⟩
  · rw [habandoned.1]
    exact .inr habandoned
  · rw [howner]
    exact ⟨hkind, .inr ⟨probe, hjudged, hgone⟩⟩

theorem reclaimable_of_age {now modified : Timestamp} (hrely : GuestRely s t)
    (hconsistent : t.Consistent) (howner : s.fence.bind (·.owner) = none) (hnow : now ≤ s.now)
    (hmodified : t.fence.map (·.modified) = some modified)
    (hage : elapsedAtLeast modified now ownerlessClaimGrace = true) : Reclaimable t := by
  obtain ⟨dir, hdir, rfl⟩ := Option.map_eq_some_iff.mp hmodified
  obtain ⟨hcreated, -, -⟩ := hconsistent.recorded dir hdir
  unfold elapsedAtLeast at hage
  rw [Bool.and_eq_true, decide_eq_true_iff, decide_eq_true_iff] at hage
  have hlapsed : dir.created + ownerlessClaimGrace ≤ s.now := by
    have hlate : dir.modified + ownerlessClaimGrace ≤ now := Int.add_le_of_le_sub_left hage.2
    calc dir.created + ownerlessClaimGrace
        ≤ dir.modified + ownerlessClaimGrace := Int.add_le_add_right hcreated _
      _ ≤ now := hlate
      _ ≤ s.now := hnow
  have hbefore : dir.created < s.now := lt_of_lt_of_le (lt_add_of_pos_right _ grace_pos) hlapsed
  obtain ⟨before, hfound, hsame⟩ := hrely.older dir hdir hbefore
  have hnone : before.owner = none := by rwa [hfound] at howner
  have habandoned : s.Abandoned before := ⟨hnone, hsame ▸ hlapsed⟩
  have hfence : t.fence = s.fence := hrely.abandoned before hfound habandoned
  exact ⟨before, hfence.trans hfound, .inl ⟨hnone, habandoned.2.trans hrely.now⟩⟩

theorem reclaimable_of_stale {owner : FenceOwner} {probe : ProcessProbe}
    (hconsistent : s.Consistent) (hstale : (staleGuestOwner owner probe).isSome = true)
    (hjudged : s.guest.judged = some (owner, probe))
    (howner : s.fence.bind (·.owner) = some owner) : Reclaimable s := by
  obtain ⟨hkind, hgone⟩ := provablyGone_of_stale hstale
  obtain ⟨dir, hdir, hrecord⟩ := Option.bind_eq_some_iff.mp howner
  obtain ⟨-, -, hcreator⟩ := hconsistent.recorded dir hdir
  have hguest : dir.creator = .guest := by
    have hsame := (hcreator owner hrecord).symm.trans hkind
    cases hside : dir.creator with
    | guest => rfl
    | windows =>
      rw [hside] at hsame
      cases hsame
  exact ⟨dir, hdir, .inr ⟨hguest, owner, probe, hrecord, hkind, hjudged, hgone⟩⟩

theorem free_stable : Stable (α := α) side fun _ t ↦ Free side t :=
  fun _ _ _ hrely h ↦ h.of_rely hrely

theorem reclaimUnheld_wp (h : Free .guest s) {now : Timestamp} (hnow : now ≤ s.now) :
    (sideContract .guest).wp (Fence.reclaimUnheld now) (fun _ t ↦ Free .guest t) s := by
  have hremove {u : Shared} (hu : Free .guest u) (hreclaimable : Reclaimable u)
      (reclaimed : ReclaimedGuestClaim) :
      (sideContract .guest).wp (Fence.ask .removeDir >>= fun answer ↦
        Fence.orFail answer >>= fun _ ↦ pure (some reclaimed)) (fun _ t ↦ Free .guest t) u :=
    removeDir_wp hu.2 (fun v hrely _ ↦ (hreclaimable.of_rely hrely).requires (hu.of_rely hrely).2)
      (fun _ hfree ↦ hfree) fun _ _ hfree ↦ hfree
  refine readOwner_wp (fun t hrely _ ↦ ?_) fun _ t hrely ↦ h.of_rely hrely
  have ht : Free .guest t := h.of_rely hrely
  have hnow : now ≤ t.now := hnow.trans hrely.now
  cases howner : t.fence.bind (·.owner) with
  | none =>
    refine ask_wp (fun u _ _ ↦ trivial) fun u answer v hrely hconsistent hstep ↦ ?_
    have hu : Free .guest u := ht.of_rely hrely
    cases answer with
    | error error => exact (show v = u from hstep) ▸ hu
    | ok modified =>
      obtain ⟨hmodified, rfl⟩ := hstep
      refine orFail_wp (fun value hvalue ↦ ?_) fun _ herror ↦ nomatch herror
      cases hvalue
      by_cases hold : (modified.any fun modified ↦
          elapsedAtLeast modified now ownerlessClaimGrace) = true
      · rw [hold]
        obtain ⟨found, hfound, hage⟩ := (Option.any_eq_true _ _).mp hold
        have hreclaimable : Reclaimable v :=
          reclaimable_of_age hrely hconsistent howner hnow (hmodified ▸ hfound) hage
        refine readOwner_wp (fun w hrely _ ↦ ?_) fun _ w hrely ↦ hu.of_rely hrely
        have hw : Free .guest w := hu.of_rely hrely
        by_cases hrecorded : (w.fence.bind (·.owner)).isSome = true
        · rw [if_pos hrecorded]
          exact hw
        · rw [if_neg hrecorded]
          exact hremove hw (hreclaimable.of_rely hrely) _
      · rw [Bool.not_eq_true] at hold
        rw [hold]
        exact hu
  | some owner =>
    refine ask_wp (fun u _ _ ↦ trivial) fun u probe v hrely _ hstep ↦ ?_
    have hu : Free .guest u := ht.of_rely hrely
    have hv : Free .guest v := hstep ▸ ⟨hu.1, hu.2⟩
    have hjudged : v.guest.judged = some (owner, probe) := by rw [hstep]
    cases hstale : staleGuestOwner owner probe with
    | none => exact hv
    | some reason =>
      refine readOwner_wp (fun w hrely hconsistent ↦ ?_) fun _ w hrely ↦ hv.of_rely hrely
      have hw : Free .guest w := hv.of_rely hrely
      by_cases hsame : w.fence.bind (·.owner) ≠ some owner
      · rw [if_pos hsame]
        exact hw
      · rw [if_neg hsame]
        refine hremove hw (reclaimable_of_stale hconsistent (Option.isSome_of_eq_some hstale) ?_
          (not_not.mp hsame)) _
        rw [hrely.guest, hjudged]

end Reclaims

/-! ## Launches of the guest -/

section Launches

variable {s t : Shared} {α β : Type}

def Takes : Except FenceError GuestClaimAttempt → Shared → Prop
  | .ok (.claimed _), t => t.guest.claiming = none ∧ t.guest.held = true
  | _, t => t.guest.claiming = none

theorem takes_stable : Stable .guest Takes := by
  intro result s t hrely h
  have hguest : t.guest = s.guest := hrely.guest
  match result, h with
  | .ok (.claimed _), h => exact ⟨hguest ▸ h.1, hguest ▸ h.2⟩
  | .ok .busy, h => exact (congrArg GuestProcess.claiming hguest).trans h
  | .error _, h => exact (congrArg GuestProcess.claiming hguest).trans h

theorem hold_wp (h : Free .guest s ∧ Owned .guest none s) (reclaimed : Option ReclaimedGuestClaim) :
    (sideContract .guest).wp (Fence.hold reclaimed) Takes s := by
  refine ask_wp (fun t hrely _ ↦ ?_) fun t _ u hrely _ hstep ↦ ?_
  · obtain ⟨dir, owner, hdir, howner, hkind, -, hcreator, hincarnation⟩ := h.2.of_rely hrely
    exact ⟨dir, owner, hdir, howner, hkind, hcreator, hincarnation⟩
  · have ht : Free .guest t := h.1.of_rely hrely
    obtain rfl : u = { t with guest.held := true } := hstep
    exact ⟨ht.1, rfl⟩

theorem tryClaimGuestLaunch_wp (h : s.guest.claiming = none) :
    (sideContract .guest).wp Fence.tryClaimGuestLaunch Takes s := by
  refine ask_wp (fun _ _ _ ↦ trivial) fun t now u hrely _ hstep ↦ ?_
  obtain ⟨rfl, rfl⟩ := hstep
  have hclaiming : u.guest.claiming = none := by rw [hrely.guest, h]
  refine quiet_wp takes_stable rfl fun answer ↦ orFail_wp (fun _ _ ↦ ?_) fun _ _ ↦ hclaiming
  refine ask_wp (fun _ _ _ ↦ trivial) fun v held w hrely _ hstep ↦ ?_
  obtain ⟨hheld, rfl⟩ := hstep
  have hw : w.guest.claiming = none := by rw [hrely.guest, hclaiming]
  cases held with
  | true => exact hw
  | false =>
    have hfree : Free .guest w := ⟨hw, hheld.symm⟩
    refine wp_seq (wp_now hrely.now (tryClaim_wp hfree)) (fun claimed x hx ↦ ?_)
      fun _ x hx ↦ hx.1.1
    cases claimed with
    | true => exact hold_wp hx.1 none
    | false =>
      refine wp_seq (reclaimUnheld_wp hx.1 hx.2) (fun reclaimed y hy ↦ ?_)
        fun _ y hy ↦ hy.1
      cases reclaimed with
      | none => exact hy.1
      | some reclaimed =>
        refine wp_seq (tryClaim_wp hy) (fun claimed z hz ↦ ?_) fun _ z hz ↦ hz.1
        cases claimed with
        | true => exact hold_wp hz (some reclaimed)
        | false => exact hz.1

/-- The guest has let go of its own claim, and the directory is still there. -/
structure LetGo (s : Shared) : Prop where
  free : Free .guest s
  letGo : s.guest.letGo = true
  own : ∃ dir, s.fence = some dir ∧ dir.creator = .guest ∧ dir.incarnation = s.guest.incarnation ∧
    ∀ owner, dir.owner = some owner → owner.kind = .guestLaunch

theorem LetGo.of_rely (h : LetGo s) (hrely : GuestRely s t) : LetGo t where
  free := h.free.of_rely hrely
  letGo := by rw [hrely.guest, h.letGo]
  own := by
    obtain ⟨dir, hdir, hcreator, hincarnation, hkind⟩ := h.own
    have hfence : t.fence = s.fence := hrely.created dir hdir hcreator
    exact ⟨dir, hfence.trans hdir, hcreator, by rw [hincarnation, hrely.guest], hkind⟩

theorem LetGo.requires (h : LetGo s) : s.GuestRequires .removeDir := by
  obtain ⟨dir, hdir, hcreator, hincarnation, hkind⟩ := h.own
  have hheld : s.guest.held = false := h.free.2
  refine ⟨hheld, fun found hfound ↦ ⟨hheld, ?_⟩⟩
  rw [hdir, Option.some.injEq] at hfound
  subst hfound
  cases howner : dir.owner with
  | none => exact .inl ⟨hcreator, hincarnation⟩
  | some owner => exact ⟨hkind owner howner, .inl ⟨h.letGo, hincarnation⟩⟩

theorem LetGo.of_failed (h : LetGo s) {error : FenceError}
    (hstep : s.Steps .guest .removeDir (.error error) t) : LetGo t := by
  obtain ⟨dir, hdir, hcreator, hincarnation, hkind⟩ := h.own
  have hfree : Free .guest t := free_of_removal h.free.2 hstep
  obtain rfl | rfl :
      t = s.setClaiming none .guest ∨ t = (s.putOwner none).setClaiming none .guest :=
    hstep
  · exact ⟨hfree, h.letGo, dir, hdir, hcreator, hincarnation, hkind⟩
  · refine ⟨hfree, h.letGo, { dir with modified := s.now, owner := none }, ?_, hcreator,
      hincarnation, fun _ howner ↦ nomatch howner⟩
    show s.fence.map _ = _
    rw [hdir]
    rfl

theorem releaseLoop_wp {attempt left : Nat} (h : LetGo s) :
    (sideContract .guest).wp (Fence.releaseLoop attempt left) (fun _ t ↦ Free .guest t) s := by
  -- Each failed removal leaves what the next one needs.
  induction left generalizing s attempt with
  | zero =>
    refine ask_wp (fun t hrely _ ↦ (h.of_rely hrely).requires) fun t answer u hrely _ hstep ↦ ?_
    have hu : Free .guest u := free_of_removal (h.of_rely hrely).free.2 hstep
    cases answer with
    | ok _ => exact hu
    | error _ => exact hu
  | succ left ih =>
    refine ask_wp (fun t hrely _ ↦ (h.of_rely hrely).requires) fun t answer u hrely _ hstep ↦ ?_
    have ht : LetGo t := h.of_rely hrely
    cases answer with
    | ok _ => exact free_of_removal ht.free.2 hstep
    | error _ => exact quiet_wp free_stable rfl fun _ ↦ ih (ht.of_failed hstep)

theorem release_wp (hclaiming : s.guest.claiming = none) (hheld : s.guest.held = true) :
    (sideContract .guest).wp Fence.release (fun _ t ↦ Free .guest t) s := by
  refine ask_wp (fun _ _ _ ↦ trivial) fun t _ u hrely hconsistent hstep ↦ ?_
  obtain rfl : u = { t with guest.held := false, guest.letGo := true } := hstep
  have hguest : t.guest = s.guest := hrely.guest
  obtain ⟨dir, owner, hdir, howner, hkind, hcreator, hincarnation⟩ :=
    hconsistent.held (hguest ▸ hheld)
  refine releaseLoop_wp ⟨⟨?_, rfl⟩, rfl, dir, hdir, hcreator, hincarnation, fun found hfound ↦ ?_⟩
  · exact hguest ▸ hclaiming
  · rw [howner, Option.some.injEq] at hfound
    exact hfound ▸ hkind

/-- A granted launch: the guest holds its claim, and held it when it read that no drain was
requested. -/
def Granted (s : Shared) : Prop :=
  s.guest.held = true ∧ ∃ read, s.guest.drain = some read ∧ read.held = true ∧
    read.request = none ∧ ∃ dir owner, read.fence = some dir ∧ dir.owner = some owner ∧
      owner.kind = .guestLaunch ∧ dir.creator = .guest ∧ dir.incarnation = s.guest.incarnation

def GuestEnds (result : Except FenceError FenceOutcome) (t : Shared) : Prop :=
  t.guest.claiming = none ∧ (result = .ok .granted → Granted t)

theorem guestEnds_stable : Stable .guest GuestEnds := by
  intro result s t hrely h
  unfold GuestEnds Granted at h ⊢
  rw [show t.guest = s.guest from hrely.guest]
  exact h

theorem guestEnds_of_ne {result : Except FenceError FenceOutcome} (h : s.guest.claiming = none)
    (hresult : result ≠ .ok .granted) : GuestEnds result s :=
  ⟨h, fun hgranted ↦ absurd hgranted hresult⟩

theorem dropClaim_wp (hclaiming : s.guest.claiming = none) (hheld : s.guest.held = true)
    (cause : BlockCause) : (sideContract .guest).wp (dropClaim cause) GuestEnds s :=
  wp_outcome_seq (release_wp hclaiming hheld) fun _ _ hfree ↦
    guestEnds_of_ne hfree.1 (fun h ↦ nomatch h)

theorem acquireClaimed_wp (hclaiming : s.guest.claiming = none) (hheld : s.guest.held = true) :
    (sideContract .guest).wp acquireClaimed GuestEnds s := by
  refine ask_wp (fun t hrely _ ↦ ?_) fun t answer u hrely hconsistent hstep ↦ ?_
  · show t.guest.held = true
    rw [hrely.guest, hheld]
  have hguest : t.guest = s.guest := hrely.guest
  have ht : t.guest.claiming = none ∧ t.guest.held = true := by
    rw [hguest]
    exact ⟨hclaiming, hheld⟩
  cases answer with
  | error error =>
    obtain rfl : u = t := hstep
    exact dropClaim_wp ht.1 ht.2 _
  | ok request =>
    obtain ⟨hrequest, rfl⟩ := hstep
    cases request with
    | some request => exact dropClaim_wp (s := t.seeRequest .guest) ht.1 ht.2 _
    | none =>
      refine quiet_wp guestEnds_stable rfl fun locked ↦ ?_
      cases locked with
      | false => exact dropClaim_wp (s := t.seeRequest .guest) ht.1 ht.2 _
      | true =>
        refine ⟨ht.1, fun _ ↦ ⟨ht.2, _, rfl, ht.2, hrequest.symm, ?_⟩⟩
        exact hconsistent.held ht.2

theorem acquire_wp (h : s.guest.claiming = none) :
    (sideContract .guest).wp WslRecoveryAllocationLock.acquire GuestEnds s := by
  refine wp_outcome_seq (tryClaimGuestLaunch_wp h) fun result t ht ↦ ?_
  match result, ht with
  | .ok (.claimed _), ht => exact acquireClaimed_wp ht.1 ht.2
  | .ok .busy, ht =>
    refine quiet_wp guestEnds_stable rfl fun answer ↦ ?_
    cases answer with
    | ok _ => exact guestEnds_of_ne ht (fun h ↦ nomatch h)
    | error _ => exact guestEnds_of_ne ht (fun h ↦ nomatch h)
  | .error _, ht =>
    refine quiet_wp guestEnds_stable rfl fun answer ↦ ?_
    cases answer with
    | ok _ => exact guestEnds_of_ne ht (fun h ↦ nomatch h)
    | error _ => exact guestEnds_of_ne ht (fun h ↦ nomatch h)

theorem finishing_wp {side : Side} {p : FenceProgram α} {R : Except FenceError α → Shared → Prop}
    {Q : Except FenceError FenceOutcome → Shared → Prop} (h : (sideContract side).wp p R s)
    (hQ : ∀ result t, R result t → Q (.ok .finished) t) :
    (sideContract side).wp (finishing p) Q s :=
  wp_outcome_seq h hQ

theorem guestOp_wp {op : GuestOp} (hclaiming : s.guest.claiming = none) (hbegin : s.MayBegin op) :
    (sideContract .guest).wp op.program GuestEnds s := by
  have hfinished {t : Shared} (ht : t.guest.claiming = none) : GuestEnds (.ok .finished) t :=
    guestEnds_of_ne ht (fun h ↦ nomatch h)
  cases op with
  | acquire => exact acquire_wp hclaiming
  | tryClaim =>
    refine finishing_wp (tryClaimGuestLaunch_wp hclaiming) fun result t ht ↦ hfinished ?_
    match result, ht with
    | .ok (.claimed _), ht => exact ht.1
    | .ok .busy, ht => exact ht
    | .error _, ht => exact ht
  | release => exact finishing_wp (release_wp hclaiming hbegin) fun _ _ ht ↦ hfinished ht.1
  | reclaim =>
    refine finishing_wp (R := fun _ t ↦ t.guest.claiming = none) ?_ fun _ _ ht ↦ hfinished ht
    have hstable : Stable (α := Option ReclaimedGuestClaim) .guest
        fun _ t ↦ t.guest.claiming = none := by
      intro _ s t hrely h
      rw [hrely.guest, h]
    refine ask_wp (fun _ _ _ ↦ trivial) fun t now u hrely _ hstep ↦ ?_
    obtain ⟨rfl, rfl⟩ := hstep
    have hu : u.guest.claiming = none := by rw [hrely.guest, hclaiming]
    refine ask_wp (fun _ _ _ ↦ trivial) fun v held w hrely _ hstep ↦ ?_
    obtain ⟨hheld, rfl⟩ := hstep
    have hw : w.guest.claiming = none := by rw [hrely.guest, hu]
    cases held with
    | true => exact hw
    | false =>
      exact wp_mono (reclaimUnheld_wp ⟨hw, hheld.symm⟩ hrely.now) fun _ _ ht ↦ ht.1

end Launches

/-! ## Recoveries of the watchdog -/

section Recoveries

variable {s t : Shared} {α : Type} {generation : Nat} {holding : Option Nat}

/-- The watchdog makes no claim, and holds the fence for this generation or not at all. -/
def Resting (holding : Option Nat) (s : Shared) : Prop :=
  s.windows.claiming = none ∧ s.windows.holding = holding

theorem Resting.of_rely (h : Resting holding s) (hrely : WatchdogRely s t) : Resting holding t := by
  unfold Resting
  rw [hrely.windows]
  exact h

theorem resting_stable : Stable (α := α) .windows fun _ t ↦ Resting holding t :=
  fun _ _ _ hrely h ↦ h.of_rely hrely

def WatchdogEnds (_ : Except FenceError FenceOutcome) (t : Shared) : Prop :=
  t.windows.claiming = none

theorem watchdogEnds_stable : Stable .windows WatchdogEnds := by
  intro _ s t hrely h
  unfold WatchdogEnds
  rw [hrely.windows]
  exact h

theorem setFenceHeld_wp (h : Free .windows s) {claim : Option Nat}
    (hclaim : ∀ t, WatchdogRely s t → ∀ g, claim = some g → t.RecoveryOwned g) :
    (sideContract .windows).wp (Fence.ask (.setFenceHeld claim))
      (fun _ t ↦ t.windows.claiming = none) s := by
  refine ⟨fun t hrely _ ↦ hclaim t hrely, ?_⟩
  rintro _ u ⟨t, hrely, -, hstep⟩
  obtain rfl : u = { t with windows.holding := claim } := hstep
  exact (h.of_rely hrely).1

theorem RecoveryOwned.of_rely (h : s.RecoveryOwned generation) (hrely : WatchdogRely s t) :
    t.RecoveryOwned generation := by
  obtain ⟨dir, owner, hdir, howner, hkind, hgeneration⟩ := h
  have hfence : t.fence = s.fence := hrely.recorded dir owner hdir howner hkind
  exact ⟨dir, owner, hfence.trans hdir, howner, hkind, hgeneration⟩

theorem recoveryOwned_of_read {owner : FenceOwner} (howner : s.fence.bind (·.owner) = some owner)
    (hrecovery : Fence.isRecoveryOf generation owner = true) : s.RecoveryOwned generation := by
  obtain ⟨dir, hdir, hrecord⟩ := Option.bind_eq_some_iff.mp howner
  unfold Fence.isRecoveryOf at hrecovery
  rw [Bool.and_eq_true, decide_eq_true_iff, decide_eq_true_iff] at hrecovery
  exact ⟨dir, owner, hdir, hrecord, hrecovery.1, hrecovery.2⟩

theorem claimFence_wp (h : Free .windows s) :
    (sideContract .windows).wp (claimFence generation) (fun _ t ↦ t.windows.claiming = none) s := by
  have hclaim : (sideContract .windows).wp (Fence.tryClaim .windowsRecovery (some generation))
      (Claims .windows (some generation)) s := tryClaim_wp h
  refine wp_outcome_seq hclaim fun result t ht ↦ ?_
  match result, ht with
  | .ok true, ht =>
    refine setFenceHeld_wp ht.1 fun u hrely g hg ↦ ?_
    obtain ⟨dir, owner, hdir, howner, hkind, hgeneration, -⟩ := ht.2.of_rely hrely
    exact ⟨dir, owner, hdir, howner, hkind, hgeneration.trans hg⟩
  | .ok false, ht =>
    refine ask_wp (fun _ _ _ ↦ trivial) fun u answer v hrely _ hstep ↦ ?_
    have hu : Free .windows u := Free.of_rely ht hrely
    match answer, hstep with
    | .ok (some owner), hstep =>
      obtain ⟨howner, rfl⟩ := hstep
      refine setFenceHeld_wp hu fun w hrely g hg ↦ ?_
      by_cases hrecovery : Fence.isRecoveryOf generation owner = true
      · rw [if_pos hrecovery, Option.some.injEq] at hg
        subst hg
        exact (recoveryOwned_of_read howner.symm hrecovery).of_rely hrely
      · rw [if_neg hrecovery] at hg
        cases hg
    | .ok none, hstep =>
      obtain ⟨-, rfl⟩ := hstep
      exact setFenceHeld_wp hu fun _ _ _ hg ↦ nomatch hg
    | .error _, hstep =>
      obtain rfl : v = u := hstep
      exact setFenceHeld_wp hu fun _ _ _ hg ↦ nomatch hg
  | .error _, ht => exact ht.1

theorem holding_of_recovery (hconsistent : s.Consistent) (h : Resting holding s)
    (hrecovery : s.RecoveryOwned generation) (hne : holding ≠ some generation) :
    holding = none := by
  cases holding with
  | none => rfl
  | some held =>
    obtain ⟨dir, owner, hdir, howner, -, hgeneration⟩ := hconsistent.holding held h.2
    obtain ⟨found, recorded, hfound, hrecorded, -, hsame⟩ := hrecovery
    rw [hdir, Option.some.injEq] at hfound
    subst hfound
    rw [howner, Option.some.injEq] at hrecorded
    subst hrecorded
    exact absurd (hgeneration.symm.trans hsame) hne

theorem requires_clear (hconsistent : s.Consistent) (h : Resting none s)
    (hrecovery : s.RecoveryOwned generation) : s.WatchdogRequires .removeDir := by
  obtain ⟨dir, owner, hdir, howner, hkind, -⟩ := hrecovery
  refine ⟨h.2, fun found hfound ↦ ⟨h.2, ?_, fun hnone ↦ ?_⟩⟩
  · rw [hdir, Option.some.injEq] at hfound
    subst hfound
    have hcreator := (hconsistent.recorded dir hdir).2.2 owner howner
    rw [hkind] at hcreator
    cases hside : dir.creator with
    | windows => rfl
    | guest =>
      rw [hside] at hcreator
      cases hcreator
  · rw [hdir, Option.some.injEq] at hfound
    rw [← hfound, howner] at hnone
    cases hnone

theorem clearRequest_wp (h : Resting holding s) :
    (sideContract .windows).wp (do
      if (← Fence.orFail (← Fence.ask .readRequest)).any
          fun request ↦ request.generation.val ≠ generation then
        return ()
      else Fence.orFail (← Fence.ask .removeRequest)) (fun _ t ↦ Resting holding t) s := by
  refine ask_wp (fun _ _ _ ↦ trivial) fun t answer u hrely _ hstep ↦ ?_
  have hu : Resting holding u := by
    have ht := h.of_rely hrely
    cases answer with
    | ok _ => exact hstep.2 ▸ ht
    | error _ => exact (show u = t from hstep) ▸ ht
  refine orFail_wp (fun request _ ↦ ?_) fun _ _ ↦ hu
  by_cases hother : (request.any fun request ↦ request.generation.val ≠ generation) = true
  · rw [if_pos hother]
    exact hu
  · rw [if_neg hother]
    refine ask_wp (fun _ _ _ ↦ trivial) fun v answer w hrely _ hstep ↦ ?_
    have hv := hu.of_rely hrely
    cases answer with
    | ok _ =>
      obtain rfl : w = { v with request := none } := hstep
      exact hv
    | error _ =>
      obtain rfl : w = v := hstep
      exact hv

theorem clearRecovery_wp (h : Resting holding s) (hne : holding ≠ some generation) :
    (sideContract .windows).wp (Fence.clearRecovery generation)
      (fun _ t ↦ Resting holding t) s := by
  refine readOwner_wp (fun t hrely hconsistent ↦ ?_) fun _ t hrely ↦ h.of_rely hrely
  have ht : Resting holding t := h.of_rely hrely
  by_cases hown : ((t.fence.bind (·.owner)).any (Fence.isRecoveryOf generation)) = true
  · obtain ⟨owner, howner, hrecovery⟩ := (Option.any_eq_true _ _).mp hown
    have howned : t.RecoveryOwned generation := recoveryOwned_of_read howner hrecovery
    obtain rfl : holding = none := holding_of_recovery hconsistent ht howned hne
    rw [if_pos hown]
    exact removeDir_wp (show Unbelieving .windows t from ht.2)
      (fun u hrely hconsistent ↦ requires_clear hconsistent (ht.of_rely hrely)
        (howned.of_rely hrely))
      (fun u hfree ↦ clearRequest_wp hfree) fun _ _ hfree ↦ hfree
  · rw [if_neg hown]
    exact clearRequest_wp ht

theorem clearGeneration_wp (h : Resting none s) (generation : Option Nat) :
    (sideContract .windows).wp (Fence.clearGeneration generation)
      (fun _ t ↦ Resting none t) s := by
  cases generation with
  | none => exact h
  | some generation => exact clearRecovery_wp h (fun hsome ↦ nomatch hsome)

theorem readRequest_wp {f : Option DrainRequest → FenceProgram α}
    {Q : Except FenceError α → Shared → Prop} (h : Resting holding s)
    (hok : ∀ t, WatchdogRely s t → t.Consistent → Resting holding t →
      (sideContract .windows).wp (f t.request) Q t)
    (hfailed : ∀ error t, Resting holding t → Q (.error error) t) :
    (sideContract .windows).wp
      (Fence.ask .readRequest >>= fun answer ↦ Fence.orFail answer >>= f) Q s := by
  refine ask_wp (fun _ _ _ ↦ trivial) fun t answer u hrely hconsistent hstep ↦ ?_
  have ht := h.of_rely hrely
  cases answer with
  | ok request =>
    obtain ⟨rfl, rfl⟩ := hstep
    exact hok _ hrely hconsistent ht
  | error error =>
    obtain rfl : u = t := hstep
    exact hfailed error u ht

theorem retireWindowsRecovery_wp (h : Resting none s) :
    (sideContract .windows).wp Fence.retireWindowsRecovery (fun _ t ↦ Resting none t) s := by
  refine readOwner_wp (fun t hrely _ ↦ ?_) fun _ t hrely ↦ h.of_rely hrely
  refine wp_seq (clearGeneration_wp (h.of_rely hrely) _) (fun _ u hu ↦ ?_) fun _ _ hu ↦ hu
  refine readRequest_wp hu (fun v _ _ hv ↦ ?_) fun _ _ hv ↦ hv
  refine wp_seq (clearGeneration_wp hv _) (fun _ w hw ↦ ?_) fun _ _ hw ↦ hw
  refine quiet_wp resting_stable rfl fun answer ↦ ?_
  cases answer with
  | ok _ => exact hw
  | error _ => exact hw

theorem retireAbandoned_wp {now : Timestamp} {abandonedAfter : Nat} (h : Resting holding s)
    (hfresh : holding.isSome = true → ∃ request, s.request = some request ∧
      elapsedAtLeast request.requestedAt now abandonedAfter = false) :
    (sideContract .windows).wp (Fence.retireAbandonedWindowsRecovery now abandonedAfter)
      (fun _ t ↦ t.windows.claiming = none) s := by
  refine readRequest_wp h (fun t hrely _ ht ↦ ?_) fun _ _ ht ↦ ht.1
  cases holding with
  | some held =>
    obtain ⟨request, hrequest, hage⟩ := hfresh rfl
    rw [hrely.request, hrequest, Option.any_some, hage]
    exact ht.1
  | none =>
    by_cases hyoung : (t.request.any fun request ↦
        !elapsedAtLeast request.requestedAt now abandonedAfter) = true
    · rw [if_pos hyoung]
      exact ht.1
    rw [if_neg hyoung]
    refine readOwner_wp (fun u hrely _ ↦ ?_) fun _ u hrely ↦ (ht.of_rely hrely).1
    have hu : Resting none u := ht.of_rely hrely
    show (sideContract .windows).wp (ite _ _ (ite _ _ _)) _ u
    split
    · exact hu.1
    split
    · exact hu.1
    · exact wp_seq (retireWindowsRecovery_wp hu) (fun _ _ hv ↦ hv.1) fun _ _ hv ↦ hv.1

theorem watchdogOp_wp {op : WatchdogOp} (hclaiming : s.windows.claiming = none)
    (hbegin : s.BeginWatchdog op t) :
    (sideContract .windows).wp (op.program s.now) WatchdogEnds t := by
  cases op with
  | writeRequest request =>
    obtain rfl : t = s := hbegin
    refine finishing_wp (R := fun _ u ↦ u.windows.claiming = none) ⟨fun _ _ _ ↦ trivial, ?_⟩
      fun _ _ hu ↦ hu
    rintro answer u ⟨v, hrely, -, hstep⟩
    have hv : v.windows.claiming = none := by rw [hrely.windows, hclaiming]
    cases answer with
    | ok _ =>
      obtain rfl : u = { v with request := some request } := hstep
      exact hv
    | error _ =>
      obtain rfl : u = v := hstep
      exact hv
  | claimFence generation =>
    obtain ⟨hholding, rfl⟩ := hbegin
    exact finishing_wp (claimFence_wp ⟨hclaiming, hholding⟩) fun _ _ hu ↦ hu
  | clearRecovery generation =>
    obtain rfl : t = if s.windows.holding = some generation
      then { s with windows.holding := none } else s := hbegin
    by_cases hown : s.windows.holding = some generation
    · rw [if_pos hown]
      have hresting : Resting none { s with windows.holding := none } := ⟨hclaiming, rfl⟩
      exact finishing_wp (clearRecovery_wp hresting (fun hsome ↦ nomatch hsome))
        fun _ _ hu ↦ hu.1
    · rw [if_neg hown]
      exact finishing_wp (clearRecovery_wp ⟨hclaiming, rfl⟩ hown) fun _ _ hu ↦ hu.1
  | retireAbandoned abandonedAfter =>
    obtain ⟨rfl, hfresh⟩ := hbegin
    exact finishing_wp (retireAbandoned_wp ⟨hclaiming, rfl⟩ hfresh) fun _ _ hu ↦ hu

end Recoveries

/-! ## Both sides -/

section Both

variable {s t : Shared}

/-- How an operation of a side ends. -/
def Ended : Side → Except FenceError FenceOutcome → Shared → Prop
  | .guest => GuestEnds
  | .windows => WatchdogEnds

theorem ended_stable (side : Side) : Stable side (Ended side) := by
  cases side with
  | guest => exact guestEnds_stable
  | windows => exact watchdogEnds_stable

theorem idle_wp {side : Side} (h : s.claiming side = none) :
    (sideContract side).wp idle (Ended side) s := by
  cases side with
  | guest => exact guestEnds_of_ne h (fun hgranted ↦ nomatch hgranted)
  | windows => exact h

theorem side_step {side : Side} (h : s.Consistent) {c : FenceCall} {answer : c.Answer}
    (hrequires : Requires side s c) (hstep : s.Steps side c answer t) :
    t.Consistent ∧ ∀ other, other ≠ side → Rely other s t := by
  cases side with
  | guest =>
    obtain ⟨hconsistent, hrely⟩ := guest_step h hrequires hstep
    refine ⟨hconsistent, fun other hother ↦ ?_⟩
    cases other with
    | guest => exact absurd rfl hother
    | windows => exact hrely
  | windows =>
    obtain ⟨hconsistent, hrely⟩ := watchdog_step h hrequires hstep
    refine ⟨hconsistent, fun other hother ↦ ?_⟩
    cases other with
    | guest => exact hrely
    | windows => exact absurd rfl hother

theorem Consistent.crashGuest (h : s.Consistent) : s.crashGuest.Consistent where
  held hheld := nomatch hheld
  holding := h.holding
  claiming side created hclaiming := by
    cases side with
    | guest => cases hclaiming
    | windows => exact h.claiming .windows created hclaiming
  recorded := h.recorded

theorem Consistent.crashWatchdog (h : s.Consistent) : s.crashWatchdog.Consistent where
  held := h.held
  holding generation hholding := nomatch hholding
  claiming side created hclaiming := by
    cases side with
    | guest => exact h.claiming .guest created hclaiming
    | windows => cases hclaiming
  recorded := h.recorded

theorem Consistent.beginGuest (h : s.Consistent) : s.beginGuest.Consistent := by
  refine h.congr rfl rfl id (fun _ ↦ id) (fun side ↦ ?_) (fun side ↦ ?_)
  · cases side <;> rfl
  · cases side <;> rfl

theorem Consistent.beginWatchdog (h : s.Consistent) {op : WatchdogOp}
    (hbegin : s.BeginWatchdog op t) : t.Consistent ∧ GuestRely s t := by
  cases op with
  | writeRequest request =>
    obtain rfl : t = s := hbegin
    exact ⟨h, .refl t⟩
  | claimFence generation =>
    obtain ⟨-, rfl⟩ := hbegin
    exact ⟨h, .refl t⟩
  | retireAbandoned abandonedAfter =>
    obtain ⟨rfl, -⟩ := hbegin
    exact ⟨h, .refl t⟩
  | clearRecovery generation =>
    obtain rfl : t = if s.windows.holding = some generation
      then { s with windows.holding := none } else s := hbegin
    by_cases hown : s.windows.holding = some generation
    · rw [if_pos hown]
      refine ⟨h.congr rfl rfl id (fun _ hsome ↦ nomatch hsome) (fun side ↦ ?_) (fun side ↦ ?_),
        .of_same rfl rfl rfl⟩
      · cases side <;> rfl
      · cases side <;> rfl
    · rw [if_neg hown]
      exact ⟨h, .refl s⟩

theorem opens_sound {side : Side} {p q : SideProgram} (h : s.Consistent)
    (hp : (sideContract side).wp p (Ended side) s) (hopens : Opens side s p t q) :
    (t.Consistent ∧ ∀ other, other ≠ side → Rely other s t) ∧
      (sideContract side).wp q (Ended side) t := by
  cases side with
  | guest =>
    have hothers (hrely : WatchdogRely s t) : ∀ other, other ≠ Side.guest → Rely other s t := by
      intro other hother
      cases other with
      | guest => exact absurd rfl hother
      | windows => exact hrely
    obtain ⟨result, op, rfl, hbegin, rfl, rfl⟩ | ⟨rfl, rfl⟩ := hopens
    · refine ⟨⟨h.beginGuest, hothers (.of_same rfl rfl rfl rfl)⟩, guestOp_wp hp.1 ?_⟩
      cases op with
      | release => exact hbegin
      | acquire | tryClaim | reclaim => trivial
    · exact ⟨⟨h.crashGuest, hothers (.of_same rfl rfl rfl rfl)⟩, idle_wp rfl⟩
  | windows =>
    have hothers (hrely : GuestRely s t) : ∀ other, other ≠ Side.windows → Rely other s t := by
      intro other hother
      cases other with
      | guest => exact hrely
      | windows => exact absurd rfl hother
    obtain ⟨result, op, rfl, hbegin, rfl⟩ | ⟨rfl, rfl⟩ := hopens
    · obtain ⟨hconsistent, hrely⟩ := h.beginWatchdog hbegin
      exact ⟨⟨hconsistent, hothers hrely⟩, watchdogOp_wp hp hbegin⟩
    · exact ⟨⟨h.crashWatchdog, hothers (.of_same rfl rfl rfl)⟩, idle_wp rfl⟩

theorem passes_sound (h : s.Consistent) (hpasses : s.Passes t) :
    t.Consistent ∧ ∀ side, Rely side s t := by
  obtain ⟨now, hnow, rfl, hlives⟩ := hpasses
  refine ⟨⟨h.held, h.holding, fun side created hclaiming ↦ ?_, fun dir hdir ↦ ?_⟩, fun side ↦ ?_⟩
  · have hclaims : s.claiming side = some created := by
      cases side <;> exact hclaiming
    obtain ⟨dir, hdir, howner, hcreated, hcreator, hincarnation, -⟩ :=
      h.claiming side created hclaims
    refine ⟨dir, hdir, howner, hcreated, hcreator, ?_, hlives side created hclaims⟩
    cases side <;> exact hincarnation
  · obtain ⟨hmodified, hcreated, hkind⟩ := h.recorded dir hdir
    exact ⟨hmodified, hcreated.trans hnow, hkind⟩
  · cases side with
    | guest =>
      exact ⟨rfl, hnow, fun _ _ _ ↦ rfl, fun _ _ _ ↦ rfl, fun dir hdir _ ↦ ⟨dir, hdir, rfl⟩⟩
    | windows => exact ⟨rfl, hnow, fun _ _ _ _ _ ↦ rfl, rfl⟩

theorem starts_sound {P : FencePool} (h : Starts P) :
    Contract.Opened.Meets fenceContract Consistent Rely Ended P := by
  obtain ⟨hidle, hheld, hholding, hdir⟩ := h
  refine ⟨Unclaimed.consistent ⟨hheld, hholding, fun side ↦ (hidle side).2⟩ ?_, fun side ↦ ?_⟩
  · intro dir hfence
    obtain ⟨-, hmodified, hcreated, hkind⟩ := hdir dir hfence
    exact ⟨hmodified, hcreated, hkind⟩
  · rw [(hidle side).1]
    exact idle_wp (hidle side).2

theorem fenced_sound {P : FencePool} (h : Fenced P) :
    Contract.Opened.Meets fenceContract Consistent Rely Ended P :=
  Contract.Opened.sound rely_refl rely_trans ended_stable (fun _ ↦ starts_sound)
    (fun _ _ _ _ _ hI hrequires hstep ↦ side_step hI hrequires hstep)
    (fun _ _ _ _ _ hI hp hopens ↦ opens_sound hI hp hopens)
    (fun _ _ hI hpasses ↦ passes_sound hI hpasses) h

theorem Consistent.exclusive (h : s.Consistent) (hheld : s.guest.held = true) :
    s.windows.holding = none := by
  cases hholding : s.windows.holding with
  | none => rfl
  | some generation =>
    obtain ⟨dir, owner, hdir, howner, hkind, -⟩ := h.held hheld
    obtain ⟨found, other, hfound, hother, hrecovery, -⟩ := h.holding generation hholding
    rw [hdir, Option.some.injEq] at hfound
    subst hfound
    rw [howner, Option.some.injEq] at hother
    rw [← hother, hkind] at hrecovery
    cases hrecovery

end Both

end Shared

/-- What the fence is for. -/
structure FenceSafe (P : FencePool) : Prop where
  /-- A guest and the watchdog never both hold it. -/
  exclusive : ¬ (P.shared.guest.held = true ∧ P.shared.windows.holding.isSome = true)
  /-- When the directory is removed, nobody else has a claim of it or makes one. -/
  unclaimed : ∀ side next, P.point side = .ask .removeDir next →
    (P.shared.setClaiming none side).Unclaimed
  /-- The guest removes no recorded recovery, and a recorded guest only when it has let go of it
  itself or when that guest is provably gone. -/
  guestRemoves : ∀ next dir, P.point .guest = .ask .removeDir next → P.shared.fence = some dir →
    P.shared.GuestRemoves dir
  /-- The watchdog removes no claim of a guest. -/
  watchdogRemoves : ∀ next dir, P.point .windows = .ask .removeDir next →
    P.shared.fence = some dir → P.shared.WatchdogRemoves dir
  /-- A launch is granted only to a guest that held the claim when it read that no drain was
  requested, and that holds it still. -/
  granted : P.point .guest = .done (.ok .granted) → P.shared.Granted

/-- Whatever the two sides do, in any order and with any crashes, the fence is safe. -/
theorem fence_safe {P : FencePool} (h : Fenced P) : FenceSafe P := by
  obtain ⟨hconsistent, hmeets⟩ := Shared.fenced_sound h
  have hallowed (side : Side) {c : FenceCall} {next : c.Answer → SideProgram}
      (hpoint : P.point side = .ask c next) : Shared.Requires side P.shared c := by
    have hside := hmeets side
    rw [hpoint] at hside
    exact hside.1 P.shared (Shared.rely_refl side P.shared) hconsistent
  refine ⟨?_, ?_, ?_, ?_, ?_⟩
  · intro ⟨hheld, hholding⟩
    rw [hconsistent.exclusive hheld] at hholding
    cases hholding
  · intro side next hpoint
    exact hconsistent.unclaimed_of_removes (hallowed side hpoint)
  · intro next dir hpoint hdir
    exact (hallowed .guest hpoint).2 dir hdir
  · intro next dir hpoint hdir
    exact (hallowed .windows hpoint).2 dir hdir
  · intro hpoint
    have hguest := hmeets .guest
    rw [hpoint] at hguest
    exact hguest.2 rfl

theorem Fenced.answered {P : FencePool} (h : Fenced P) (side : Side) (c : FenceCall)
    (answer : c.Answer) {next : c.Answer → SideProgram} {t : Shared}
    (hpoint : P.point side = .ask c next) (hstep : P.shared.Steps side c answer t) :
    Fenced ⟨t, Function.update P.point side (next answer)⟩ :=
  .call h hpoint answer hstep

/-- Two processes over an empty root. -/
def emptyRoot : FencePool where
  shared := ⟨0, none, none, ⟨0, none, false, false, none, none⟩, ⟨0, none, none⟩⟩
  point _ := idle

/-- A guest alone is granted a launch. -/
theorem lone_guest_granted :
    ∃ P, Fenced P ∧ P.point .guest = .done (.ok .granted) ∧ FenceSafe P := by
  have h0 : Fenced emptyRoot := by
    refine .start ⟨fun side ↦ ⟨rfl, ?_⟩, rfl, rfl, fun _ hdir ↦ nomatch hdir⟩
    cases side <;> rfl
  have h1 : Fenced ⟨emptyRoot.shared.beginGuest, Function.update emptyRoot.point .guest
      WslRecoveryAllocationLock.acquire⟩ :=
    .reopen h0 (.inl ⟨_, .acquire, rfl, trivial, rfl, rfl⟩)
  have h2 := h1.answered .guest .now 0 rfl ⟨rfl, rfl⟩
  have h3 := h2.answered .guest .createRoot (.ok ()) rfl rfl
  have h4 := h3.answered .guest .heldHere false rfl ⟨rfl, rfl⟩
  have h5 := h4.answered .guest .createRoot (.ok ()) rfl rfl
  have h6 := h5.answered .guest .createDir (.ok true) rfl ⟨rfl, rfl⟩
  have h7 := h6.answered .guest .processId 7 rfl rfl
  have h8 := h7.answered .guest .now 0 rfl ⟨rfl, rfl⟩
  have h9 := h8.answered .guest .ownIdentity none rfl rfl
  have h10 := h9.answered .guest .createParent (.ok ()) rfl rfl
  have h11 := h10.answered .guest .createTemporary (.ok ()) rfl ⟨rfl, rfl⟩
  have h12 := h11.answered .guest (.persistOwner ⟨1, .guestLaunch, none, 7, 0, none⟩) (.ok ()) rfl
    ⟨rfl, rfl⟩
  have h13 := h12.answered .guest .insertHeld () rfl rfl
  have h14 := h13.answered .guest .readRequest (.ok none) rfl ⟨rfl, rfl⟩
  have h15 := h14.answered .guest .allocationLock true rfl rfl
  exact ⟨_, h15, rfl, fence_safe h15⟩

end RunnerManager.Agent
