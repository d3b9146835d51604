import RunnerManager.App.Watchdog
import RunnerManager.Domain.Capacity
import RunnerManager.Domain.Profiles
import RunnerManager.Platform.Heartbeat
import Mathlib.Data.List.Sort
import Mathlib.Data.Char
import Mathlib.Data.List.Lex

/-!
# What the guest reports

`maintain_wsl_guest_heartbeat` of `crates/app/src/cli/daemon.rs`: the guest reads its journal,
its policies and its services and publishes what it found. What it could not read it reports as
unknown, which the watchdog takes as a reason not to terminate, with two exceptions: targets it
could not read are reported as no targets, and a service it could not read as no service. Read
`fail_closed_iff` first: these are all the exceptions there are.
-/

namespace RunnerManager.App

open RunnerManager.Domain RunnerManager.Platform RunnerManager.Text

/-! ## The targets of the guest -/

/-- `ScaleTarget`'s order: repositories first, then by name up to ASCII case. -/
def targetLe : ScaleTarget → ScaleTarget → Prop
  | .repository a, .repository b =>
    foldAscii a.owner.text.toList < foldAscii b.owner.text.toList ∨
      foldAscii a.owner.text.toList = foldAscii b.owner.text.toList ∧
        foldAscii a.repo.text.toList ≤ foldAscii b.repo.text.toList
  | .repository _, .organization _ => True
  | .organization _, .repository _ => False
  | .organization a, .organization b => foldAscii a.text.toList ≤ foldAscii b.text.toList

instance : DecidableRel targetLe
  | .repository _, .repository _ => inferInstanceAs (Decidable (_ ∨ _ ∧ _))
  | .repository _, .organization _ => .isTrue trivial
  | .organization _, .repository _ => .isFalse id
  | .organization _, .organization _ => inferInstanceAs (Decidable (_ ≤ _))

/-- Of equal neighbours the last is kept. -/
def dedupSorted : List ScaleTarget → List ScaleTarget
  | [] => []
  | [target] => [target]
  | target :: next :: rest =>
    if target.same next then dedupSorted (next :: rest)
    else target :: dedupSorted (next :: rest)

/-- Targets collected into a set, in the order of the set. -/
def targetSet (targets : List ScaleTarget) : List ScaleTarget :=
  dedupSorted (targets.insertionSort targetLe)

theorem exists_same_dedupSorted {targets : List ScaleTarget} {target : ScaleTarget}
    (h : target ∈ targets) : ∃ kept ∈ dedupSorted targets, kept.same target = true := by
  induction targets using dedupSorted.induct generalizing target with
  | case1 => cases h
  | case2 only =>
    obtain rfl := List.mem_singleton.mp h
    exact ⟨target, List.mem_singleton_self target, ScaleTarget.same_refl target⟩
  | case3 first next rest hsame ih =>
    rw [dedupSorted, if_pos hsame]
    rcases List.mem_cons.mp h with rfl | h
    · -- The one that is dropped is the same as the one after it.
      obtain ⟨kept, hkept, hnext⟩ := ih List.mem_cons_self
      exact ⟨kept, hkept, ScaleTarget.same_trans hnext (ScaleTarget.same_symm hsame)⟩
    · exact ih h
  | case4 first next rest hsame ih =>
    rw [dedupSorted, if_neg hsame]
    rcases List.mem_cons.mp h with rfl | h
    · exact ⟨target, List.mem_cons_self, ScaleTarget.same_refl target⟩
    · obtain ⟨kept, hkept, hnext⟩ := ih h
      exact ⟨kept, List.mem_cons_of_mem first hkept, hnext⟩

theorem exists_same_targetSet {targets : List ScaleTarget} {target : ScaleTarget}
    (h : target ∈ targets) : ∃ kept ∈ targetSet targets, kept.same target = true :=
  exists_same_dedupSorted ((List.mem_insertionSort targetLe).mpr h)

/-! ## The heartbeat of the guest -/

/-- What the guest's reads gave when it built its heartbeat. -/
structure GuestReads where
  request : Except FenceError (Option DrainRequest)
  attempts : Except StoreError (List RunnerAttempt)
  policies : Except StoreError (List ScalePolicy)
  directories : List DirectoryRead
  now : Timestamp

namespace GuestReads

/-- The heartbeat of `maintain_wsl_guest_heartbeat`. -/
def heartbeat (reads : GuestReads) : GuestHeartbeat where
  schemaVersion := recoverySchemaVersion
  observedAt := reads.now
  acknowledgedGeneration := reads.request.toOption.bind fun request ↦
    request.map (·.generation.val)
  localActiveAttempts := reads.attempts.toOption.map activeCount
  localBusyAttempts := reads.attempts.toOption.bind fun attempts ↦
    u32TryFrom (attempts.countP fun attempt ↦ attempt.state = .busy)
  managedTargets :=
    match reads.policies with
    | .ok policies => targetSet (policies.map (·.target))
    | .error _ => []
  unmanagedRunnerServices := unmanagedRunnerServiceCount reads.directories

theorem u32TryFrom_lt {n m : Nat} (h : u32TryFrom n = some m) : m < 2 ^ 32 := by
  unfold u32TryFrom at h
  split_ifs at h with hlt
  exact Option.some.inj h ▸ hlt

theorem heartbeat_fits (reads : GuestReads) : reads.heartbeat.Fits where
  schemaVersion := by
    show recoverySchemaVersion < 2 ^ 32
    decide
  acknowledged n hn := by
    obtain ⟨request, -, hrequest⟩ := Option.bind_eq_some_iff.mp hn
    obtain ⟨request, -, rfl⟩ := Option.map_eq_some_iff.mp hrequest
    exact request.generation.property
  active n hn := by
    obtain ⟨attempts, -, rfl⟩ := Option.map_eq_some_iff.mp hn
    have hle : activeCount attempts ≤ u16Max := Nat.min_le_right _ _
    have hmax : u16Max < 2 ^ 32 := by decide
    exact Nat.lt_of_le_of_lt hle hmax
  busy n hn := by
    obtain ⟨attempts, -, hcount⟩ := Option.bind_eq_some_iff.mp hn
    exact u32TryFrom_lt hcount
  unmanaged n hn := by
    obtain ⟨names, -, hcount⟩ := Option.bind_eq_some_iff.mp hn
    exact u32TryFrom_lt hcount

end GuestReads

/-! ## What GitHub is asked -/

/-- The answer for a target is whole: it was given, nothing was cut off and nothing is missing. -/
def RunnerInventory.isComplete (inventory : RunnerInventory) : Bool :=
  !(inventory.truncated || inventory.missing.isSome)

/-- No runner of ours is busy or online. -/
def RunnerInventory.Quiet (inventory : RunnerInventory) : Prop :=
  ∀ runner ∈ inventory.runners, runner.managed = true →
    runner.busy = false ∧ runner.online = false

/-- The targets `github_inventory` asks about: it stops at the first answer it cannot use. -/
def githubAsks (listRunners : ScaleTarget → Option RunnerInventory) :
    List ScaleTarget → List ScaleTarget
  | [] => []
  | target :: rest =>
    match listRunners target with
    | none => [target]
    | some inventory =>
      if inventory.isComplete then target :: githubAsks listRunners rest else [target]

/-- The targets GitHub was asked about in an observation. -/
def Observation.asked (o : Observation) : List ScaleTarget :=
  match o.heartbeat with
  | none => []
  | some heartbeat => githubAsks o.listRunners heartbeat.managedTargets

theorem addFlag_eq_zero {count : Nat} {flag : Bool} :
    addFlag count flag = 0 ↔ count = 0 ∧ flag = false := by
  unfold addFlag
  cases flag with
  | false =>
    have hmin : min (count + 0) (2 ^ 32 - 1) = 0 ↔ count = 0 := by omega
    exact hmin.trans (and_iff_left rfl).symm
  | true =>
    have hmin : min (count + 1) (2 ^ 32 - 1) ≠ 0 := by omega
    exact iff_of_false hmin fun h ↦ Bool.noConfusion h.2

theorem countRunners_eq_zero {counts : Nat × Nat} {inventory : RunnerInventory} :
    countRunners counts inventory.runners = (0, 0) ↔ counts = (0, 0) ∧ inventory.Quiet := by
  unfold countRunners RunnerInventory.Quiet
  induction inventory.runners generalizing counts with
  | nil => simp
  | cons runner rest ih =>
    by_cases hmanaged : runner.managed = true
    · rw [List.filter_cons_of_pos hmanaged, List.foldl_cons, ih, Prod.mk.injEq,
        addFlag_eq_zero, addFlag_eq_zero, List.forall_mem_cons]
      obtain ⟨busy, online⟩ := counts
      simp only [hmanaged, Prod.mk.injEq, forall_const]
      tauto
    · rw [List.filter_cons_of_neg hmanaged, ih, List.forall_mem_cons]
      refine and_congr_right fun _ ↦ (and_iff_right fun h ↦ absurd h hmanaged).symm

theorem quiet_of_githubInventory {listRunners : ScaleTarget → Option RunnerInventory}
    {targets : List ScaleTarget} {counts : Nat × Nat}
    (h : githubInventory listRunners targets counts = some (0, 0)) :
    counts = (0, 0) ∧ githubAsks listRunners targets = targets ∧
      ∀ target ∈ targets, ∃ inventory, listRunners target = some inventory ∧
        inventory.isComplete = true ∧ inventory.Quiet := by
  induction targets generalizing counts with
  | nil =>
    refine ⟨Option.some.inj h, rfl, ?_⟩
    intro target htarget
    cases htarget
  | cons target rest ih =>
    unfold githubInventory at h
    cases hanswer : listRunners target with
    | none =>
      rw [hanswer] at h
      cases h
    | some inventory =>
      rw [hanswer] at h
      simp only at h
      split_ifs at h with hpart
      have hcomplete : inventory.isComplete = true := by
        rw [RunnerInventory.isComplete, Bool.not_eq_true']
        exact Bool.eq_false_iff.mpr hpart
      obtain ⟨hcounts, hasked, hrest⟩ := ih h
      obtain ⟨hzero, hquiet⟩ := countRunners_eq_zero.mp hcounts
      refine ⟨hzero, ?_, ?_⟩
      · rw [githubAsks, hanswer]
        simp only [hcomplete, if_true, hasked]
      · intro other hother
        rcases List.mem_cons.mp hother with rfl | hother
        · exact ⟨inventory, hanswer, hcomplete, hquiet⟩
        · exact hrest other hother

/-! ## Failing closed -/

/-- What a termination should rest on: every read of the guest succeeded, GitHub was asked about
every target the guest has a policy for, and every answer was complete and quiet. -/
structure FailClosed (reads : GuestReads) (o : Observation) : Prop where
  request : ∃ request, reads.request = .ok request
  attempts : ∃ attempts, reads.attempts = .ok attempts
  policies : ∃ policies, reads.policies = .ok policies ∧
    ∀ policy ∈ policies, ∃ target ∈ o.asked, target.same policy.target = true
  audit : ∀ directory ∈ reads.directories, directory.Succeeded
  answers : ∀ target ∈ o.asked, ∃ inventory, o.listRunners target = some inventory ∧
    inventory.isComplete = true ∧ inventory.Quiet

section

variable {codec : Codec} {reads : GuestReads} {o : Observation} {past : List Observation}

def ReadsFile (codec : Codec) (reads : GuestReads) (o : Observation) : Prop :=
  o.heartbeat = GuestHeartbeat.read codec (some (reads.heartbeat.write codec))

theorem heartbeat_of_readsFile (hkeeps : codec.Keeps reads.heartbeat)
    (hfile : ReadsFile codec reads o) : o.heartbeat = some reads.heartbeat :=
  hfile.trans (GuestHeartbeat.read_write reads.heartbeat_fits hkeeps)

theorem exists_ok {ε α : Type} {result : Except ε α} {value : α}
    (h : result.toOption = some value) : result = .ok value := by
  cases result with
  | error error => cases h
  | ok found => exact congrArg Except.ok (Option.some.inj h)

/-- A termination decided on a heartbeat of the guest fails closed exactly when the guest could
read its policies and every entry of the directories it audited. -/
theorem fail_closed_iff (hkeeps : codec.Keeps reads.heartbeat)
    (hfile : ReadsFile codec reads o) (h : Terminates o past) :
    FailClosed reads o ↔ (∃ policies, reads.policies = .ok policies) ∧
      ∀ directory ∈ reads.directories, directory.EntriesRead := by
  have hheartbeat := heartbeat_of_readsFile hkeeps hfile
  obtain ⟨-, hproves⟩ := proves_of_terminates h
  have hrequest : ∃ request, reads.request = .ok request := by
    have hacknowledged := hproves.acknowledged
    simp only [Tracker.evidence, hheartbeat, Option.bind_some] at hacknowledged
    obtain ⟨request, hrequest, -⟩ := Option.bind_eq_some_iff.mp hacknowledged
    exact ⟨request, exists_ok hrequest⟩
  have hattempts : ∃ attempts, reads.attempts = .ok attempts := by
    have hbusy := hproves.busy
    simp only [Tracker.evidence, hheartbeat, Option.bind_some] at hbusy
    obtain ⟨attempts, hattempts, -⟩ := Option.bind_eq_some_iff.mp hbusy
    exact ⟨attempts, exists_ok hattempts⟩
  have haudit : (∀ directory ∈ reads.directories, directory.Succeeded) ↔
      ∀ directory ∈ reads.directories, directory.EntriesRead := by
    have hunmanaged := hproves.unmanaged
    simp only [Tracker.evidence, hheartbeat, Option.bind_some] at hunmanaged
    exact succeeded_iff_entriesRead hunmanaged
  have hinventory : githubInventory o.listRunners reads.heartbeat.managedTargets (0, 0) =
      some (0, 0) := by
    have := inventory_of_proves hproves
    rwa [Observation.inventory, hheartbeat] at this
  obtain ⟨-, hasked, hanswers⟩ := quiet_of_githubInventory hinventory
  have hasked : o.asked = reads.heartbeat.managedTargets := by
    rw [Observation.asked, hheartbeat]
    exact hasked
  constructor
  · intro hclosed
    obtain ⟨policies, hpolicies, -⟩ := hclosed.policies
    exact ⟨⟨policies, hpolicies⟩, haudit.mp hclosed.audit⟩
  · rintro ⟨⟨policies, hpolicies⟩, hentries⟩
    refine ⟨hrequest, hattempts, ⟨policies, hpolicies, ?_⟩, haudit.mpr hentries, ?_⟩
    · intro policy hpolicy
      have htargets : reads.heartbeat.managedTargets = targetSet (policies.map (·.target)) := by
        simp only [GuestReads.heartbeat, hpolicies]
      rw [hasked, htargets]
      exact exists_same_targetSet (List.mem_map_of_mem hpolicy)
    · rw [hasked]
      exact hanswers

end

/-! ### A guest that cannot read its policies -/

/-- What a drained guest reads in the `n`th period, if its policies are read so. -/
def drainedReads (n : Nat) (policies : Except StoreError (List ScalePolicy)) : GuestReads where
  request := .ok (some ⟨recoverySchemaVersion, ⟨7, by decide⟩, 0⟩)
  attempts := .ok []
  policies := policies
  directories := [.entries [some "dbus.service"], .entries [], .notFound]
  now := seconds (200 * n)

/-- A codec as it treats one heartbeat, which was built ten minutes into the epoch. -/
def codecFor (heartbeat : GuestHeartbeat) : Codec :=
  let writeTime := fun _ : Timestamp ↦ "1970-01-01T00:10:00Z"
  let value := Json.object (heartbeat.fields ⟨writeTime, fun _ ↦ none, fun _ ↦ none⟩)
  { writeTime
    readTime := fun text ↦
      if text = "1970-01-01T00:10:00Z" then some heartbeat.observedAt else none
    parse := fun text ↦ if text = value.renderPretty 0 then some value else none }

theorem codecFor_keeps (heartbeat : GuestHeartbeat) : (codecFor heartbeat).Keeps heartbeat where
  time := by
    show (if "1970-01-01T00:10:00Z" = "1970-01-01T00:10:00Z" then some heartbeat.observedAt
      else none) = _
    exact if_pos rfl
  text := by
    show (if heartbeat.write (codecFor heartbeat) = _ then some _ else none) = _
    exact if_pos rfl

/-- A failing look at such a guest, while GitHub reports a runner of ours as busy. -/
def busyLook (n : Nat) (policies : Except StoreError (List ScalePolicy)) : Observation :=
  { failingLook n (some (drainedReads n policies).heartbeat) with
    listRunners := fun _ ↦ some ⟨[⟨"runner-manager-1", true, true⟩], some 1, false⟩ }

/-- A failing look at such a guest, while GitHub reports no runner. -/
def emptyLook (n : Nat) (policies : Except StoreError (List ScalePolicy)) : Observation :=
  failingLook n (some (drainedReads n policies).heartbeat)

/-- A guest that reads everything is terminated, and rightly. -/
theorem drained_guest_fails_closed :
    Terminates (emptyLook 3 (.ok [linuxProfile]))
      [emptyLook 2 (.ok [linuxProfile]), emptyLook 1 (.ok [linuxProfile])] ∧
    FailClosed (drainedReads 3 (.ok [linuxProfile])) (emptyLook 3 (.ok [linuxProfile])) := by
  have hterminates : Terminates (emptyLook 3 (.ok [linuxProfile]))
      [emptyLook 2 (.ok [linuxProfile]), emptyLook 1 (.ok [linuxProfile])] := by
    decide
  refine ⟨hterminates, (fail_closed_iff (codecFor_keeps _) ?_ hterminates).mpr
    ⟨⟨_, rfl⟩, ?_⟩⟩
  · exact (GuestHeartbeat.read_write (GuestReads.heartbeat_fits _) (codecFor_keeps _)).symm
  · intro directory hdirectory
    simp only [drainedReads, List.mem_cons, List.not_mem_nil, or_false] at hdirectory
    rcases hdirectory with rfl | rfl | rfl
    · simp [DirectoryRead.EntriesRead]
    · exact List.not_mem_nil
    · trivial

/-- A guest whose store refuses a corrupt profile reports no targets, so GitHub is not asked, and
it is terminated while its runner is busy. -/
theorem unread_policies_terminated :
    ¬ ∀ (codec : Codec) (reads : GuestReads) (o : Observation) (past : List Observation),
      codec.Keeps reads.heartbeat → ReadsFile codec reads o → Terminates o past →
        FailClosed reads o := by
  intro hclosed
  let unread : Except StoreError (List ScalePolicy) := .error (.corruptProfileSelector ⟨7⟩)
  have hterminates : Terminates (busyLook 3 unread) [busyLook 2 unread, busyLook 1 unread] := by
    decide
  have hfile : ReadsFile (codecFor (drainedReads 3 unread).heartbeat) (drainedReads 3 unread)
      (busyLook 3 unread) :=
    (GuestHeartbeat.read_write (GuestReads.heartbeat_fits _) (codecFor_keeps _)).symm
  obtain ⟨policies, hpolicies, -⟩ :=
    (hclosed _ _ _ _ (codecFor_keeps _) hfile hterminates).policies
  cases hpolicies

end RunnerManager.App
