import RunnerManager.App.CoordinatorLink
import RunnerManager.Github.Demand

/-!
# Wake freshness

Runs of any number of target loops that read repositories through one gateway while wakes are
delivered: `WakeRoutes::deliver` of `crates/app/src/cli/coordinator.rs` over the calls of
`RestDemand::repository_reading`. A wake drops the stored reading of its repository, but a fetch
that has sent a request by then stores what it assembled all the same. Read `Prompt` first: the
runs in which no fetch does that.
-/

namespace RunnerManager.App

open RunnerManager.Domain RunnerManager.Text RunnerManager.Github
open RunnerManager.Coordinator (TargetRef Wake)

/-! ## Delivering a wake -/

def sameTarget (target : ScaleTarget) (remote : TargetRef) : Bool :=
  (targetRef target).scope == remote.scope &&
    eqIgnoreAsciiCase (targetRef target).name remote.name

/-- `WakeRoutes`: the targets in the order they were added, and whether there is a gateway. -/
structure WakeRoutes where
  routes : List ScaleTarget
  demand : Bool

/-- The repository whose shared reading a wake drops. -/
def WakeRoutes.dropped (routes : WakeRoutes) (wake : Wake) : Option RepositoryKey :=
  match OwnerRepo.parse wake.repository with
  | .ok repository =>
    if routes.demand && wake.target.covers wake.repository then
      some (repositoryKey repository)
    else none
  | .error _ => none

def WakeRoutes.deliver (routes : WakeRoutes) (wake : Wake) : DemandProgram Bool :=
  match routes.routes.findIdx? (sameTarget · wake.target) with
  | none => return false
  | some route =>
    match routes.dropped wake with
    | some key => do
      call (.forget key)
      call (.notify route)
      return true
    | none => do
      call (.notify route)
      return true

/-- What runs over the gateway. -/
inductive Task where
  | read (repository : OwnerRepo)
  | deliver (routes : WakeRoutes) (wake : Wake)
  | setSharedWindow (milliseconds : Nat)

/-- What a task returns. -/
inductive Reply where
  | reading (value : RepositoryDemand)
  | delivered (taken : Bool)
  | windowSet
deriving DecidableEq

/-- One call of the gateway, or one delivery. -/
def Task.program : Task → DemandProgram Reply
  | read repository => do
    let value ← repositoryReading repository
    return .reading value
  | deliver routes wake => do
    let taken ← routes.deliver wake
    return .delivered taken
  | setSharedWindow milliseconds => do
    call (.setWindow milliseconds)
    return .windowSet

/-! ## The gateway -/

/-- The shared state: the window, who holds each gate, the readings stored, how many wakes each
repository has had, and how many it had when the fetch under its gate sent its first request. -/
structure Gateway (ι : Type) where
  window : Nat
  gate : RepositoryKey → Option ι
  readings : RepositoryKey → Option (Timestamp × RepositoryDemand)
  wakes : RepositoryKey → Nat
  begun : RepositoryKey → Option Nat

namespace Gateway

variable {ι : Type}

/-- `forget_shared_reading`, which is also one more wake. -/
def forget (s : Gateway ι) (key : RepositoryKey) : Gateway ι :=
  { s with
    readings := Function.update s.readings key none
    wakes := Function.update s.wakes key (s.wakes key + 1) }

@[simp]
theorem wakes_forget_self (s : Gateway ι) (key : RepositoryKey) :
    (s.forget key).wakes key = s.wakes key + 1 :=
  Function.update_self ..

@[simp]
theorem readings_forget_self (s : Gateway ι) (key : RepositoryKey) :
    (s.forget key).readings key = none :=
  Function.update_self ..

/-- Store a reading, and keep only those somebody could still use. -/
def insert (s : Gateway ι) (key : RepositoryKey) (now : Timestamp) (reading : RepositoryDemand) :
    Gateway ι :=
  { s with readings := fun other ↦
      (Function.update s.readings key (some (now, reading)) other).filter fun entry ↦
        youngerThan holdMemory now entry.1 }

/-- Take a gate; nothing has been sent under it. -/
def lock (s : Gateway ι) (key : RepositoryKey) (i : ι) : Gateway ι :=
  { s with
    gate := Function.update s.gate key (some i)
    begun := Function.update s.begun key none }

def unlock (s : Gateway ι) (key : RepositoryKey) : Gateway ι :=
  { s with gate := Function.update s.gate key none }

/-- Send a request, under the gate or not. -/
def send (s : Gateway ι) (key : RepositoryKey) (gated : Bool) : Gateway ι :=
  if gated then
    { s with begun := Function.update s.begun key ((s.begun key).or (some (s.wakes key))) }
  else s

/-- What each call answers and does to the shared state. -/
def step (i : ι) (s : Gateway ι) : (c : DemandCall) → c.Answer → Gateway ι → Prop
  | .window, answer, t => answer = s.window ∧ t = s
  | .lockGate key, .ok (), t => s.gate key = none ∧ t = s.lock key i
  | .lockGate _, .error _, t => t = s
  | .unlockGate key, (), t => t = s.unlock key
  | .now, _, t => t = s
  | .lookup key, answer, t => answer = s.readings key ∧ t = s
  | .send key gated _, .ok sentAt, t => sentAt = s.wakes key ∧ t = s.send key gated
  | .send .., .error _, t => t = s
  | .receive _, _, t => t = s
  | .insert key now reading, (), t => t = s.insert key now reading
  | .forget key, (), t => t = s.forget key
  | .notify _, (), t => t = s
  | .setWindow milliseconds, (), t => t = { s with window := milliseconds }

/-- What each call needs: only who holds a gate fetches under it, stores and gives it back, and
what a fetch stores was sent from its first request on. -/
def allows (i : ι) (s : Gateway ι) : DemandCall → Prop
  | .unlockGate key => s.gate key = some i
  | .send key gated _ => gated = true → s.gate key = some i
  | .insert key _ reading => s.gate key = some i ∧
      ∀ stamp ∈ reading.sentAt, ∃ first, s.begun key = some first ∧ first ≤ stamp
  | _ => True

end Gateway

/-- The gateway as one task sees it. -/
def gateway {ι : Type} (i : ι) : Contract DemandCall DemandCall.Answer (Gateway ι) where
  requires := Gateway.allows i
  steps := Gateway.step i

/-- A fetch stores its reading only if its repository had no wake since its first request. -/
def Prompt {ι : Type} (s : Gateway ι) : DemandCall → Prop
  | .insert key _ _ => s.begun key = some (s.wakes key)
  | _ => True

abbrev GatewayPool (ι : Type) :=
  Pool DemandCall DemandCall.Answer InventoryError Reply (Gateway ι) ι

/-- No wake delivered and no gate held, whatever is stored. -/
structure GatewayPool.Starts {ι : Type} (P : GatewayPool ι) (tasks : ι → Task) : Prop where
  point_eq : ∀ i, P.point i = (tasks i).program
  gate_eq : ∀ key, P.shared.gate key = none
  wakes_eq : ∀ key, P.shared.wakes key = 0

/-- Every reading returned to a call that starts after a delivery returned was assembled from
requests sent after that delivery dropped the stored reading, whatever case either spells the
repository in. -/
def WakeFresh {ι : Type} [DecidableEq ι]
    (C : ι → Contract DemandCall DemandCall.Answer (Gateway ι)) : Prop :=
  ∀ (tasks : ι → Task) (start P Q : GatewayPool ι) (earlier later : List (Occurrence (Gateway ι) ι))
    (d i : ι) (routes : WakeRoutes) (wake : Wake) (repository : OwnerRepo)
    (reading : RepositoryDemand),
    start.Starts tasks → Contract.Interleaves C start earlier P →
    tasks d = .deliver routes wake → P.point d = .done (.ok (.delivered true)) →
    routes.dropped wake = some (repositoryKey repository) →
    tasks i = .read repository → P.point i = (tasks i).program →
    Contract.Interleaves C P later Q → Q.point i = .done (.ok (.reading reading)) →
    ∃ o ∈ earlier, o.actor = d ∧ o.after = o.before.forget (repositoryKey repository) ∧
      ∀ stamp ∈ reading.sentAt, o.after.wakes (repositoryKey repository) ≤ stamp

/-! ## What the others leave alone -/

section

variable {ι : Type} {i j : ι} {s t u : Gateway ι} {key : RepositoryKey}

/-- What is stored was sent after the last wake. -/
def Fresh (s : Gateway ι) : Prop :=
  ∀ key now reading, s.readings key = some (now, reading) →
    ∀ stamp ∈ reading.sentAt, s.wakes key ≤ stamp

/-- What a task relies on: wakes are never taken back, and a gate it holds stays its own. -/
structure Rely (i : ι) (s t : Gateway ι) : Prop where
  wakes : ∀ key, s.wakes key ≤ t.wakes key
  gate : ∀ key, s.gate key = some i → t.gate key = some i
  begun : ∀ key, s.gate key = some i → t.begun key = s.begun key

theorem Rely.refl (i : ι) (s : Gateway ι) : Rely i s s :=
  ⟨fun _ ↦ Nat.le_refl _, fun _ h ↦ h, fun _ _ ↦ rfl⟩

theorem Rely.trans (h : Rely i s t) (h' : Rely i t u) : Rely i s u where
  wakes key := Nat.le_trans (h.wakes key) (h'.wakes key)
  gate key hgate := h'.gate key (h.gate key hgate)
  begun key hgate := (h'.begun key (h.gate key hgate)).trans (h.begun key hgate)

theorem Gateway.wakes_forget (s : Gateway ι) (key other : RepositoryKey) :
    s.wakes other ≤ (s.forget key).wakes other := by
  by_cases hkey : other = key
  · subst hkey
    rw [Gateway.wakes_forget_self]
    omega
  · simp [Gateway.forget, hkey]

/-- What one task does is what every other task relies on. -/
theorem rely_of_step (hij : i ≠ j) {c : DemandCall} {a : c.Answer} (hallows : s.allows j c)
    (hstep : s.step j c a t) : Rely i s t := by
  -- A gate somebody else holds is not the one that changes hands here.
  have hother : ∀ {key other : RepositoryKey}, s.gate key = some j → s.gate other = some i →
      other ≠ key := by
    intro key other hj hi heq
    subst heq
    exact hij (Option.some.inj (hi.symm.trans hj))
  cases c with
  | window | lookup _ =>
    obtain ⟨-, rfl⟩ := hstep
    exact .refl i t
  | now | receive _ | notify _ =>
    obtain rfl : t = s := hstep
    exact .refl i t
  | lockGate key =>
    cases a with
    | error e =>
      obtain rfl : t = s := hstep
      exact .refl i t
    | ok a =>
      obtain ⟨hfree, rfl⟩ : s.gate key = none ∧ t = s.lock key j := hstep
      have hne : ∀ other, s.gate other = some i → other ≠ key := by
        intro other hi heq
        rw [heq, hfree] at hi
        cases hi
      refine ⟨fun _ ↦ Nat.le_refl _, fun other hi ↦ ?_, fun other hi ↦ ?_⟩
      · simpa [Gateway.lock, hne other hi] using hi
      · simp [Gateway.lock, hne other hi]
  | unlockGate key =>
    obtain rfl : t = s.unlock key := hstep
    refine ⟨fun _ ↦ Nat.le_refl _, fun other hi ↦ ?_, fun _ _ ↦ rfl⟩
    simpa [Gateway.unlock, hother hallows hi] using hi
  | send key gated query =>
    cases a with
    | error e =>
      obtain rfl : t = s := hstep
      exact .refl i t
    | ok sentAt =>
      obtain ⟨-, rfl⟩ : _ ∧ t = s.send key gated := hstep
      cases gated with
      | false => exact .refl i s
      | true =>
        refine ⟨fun _ ↦ Nat.le_refl _, fun _ hi ↦ hi, fun other hi ↦ ?_⟩
        simp [Gateway.send, hother (hallows rfl) hi]
  | insert key now reading =>
    obtain rfl : t = s.insert key now reading := hstep
    exact ⟨fun _ ↦ Nat.le_refl _, fun _ hi ↦ hi, fun _ _ ↦ rfl⟩
  | forget key =>
    obtain rfl : t = s.forget key := hstep
    exact ⟨s.wakes_forget key, fun _ hi ↦ hi, fun _ _ ↦ rfl⟩
  | setWindow milliseconds =>
    obtain rfl : t = { s with window := milliseconds } := hstep
    exact ⟨fun _ ↦ Nat.le_refl _, fun _ hi ↦ hi, fun _ _ ↦ rfl⟩

/-- A wake drops what it makes stale, and a prompt fetch stores nothing stale. -/
theorem fresh_of_step (hfresh : Fresh s) {c : DemandCall} {a : c.Answer} (hallows : s.allows i c)
    (hprompt : Prompt s c) (hstep : s.step i c a t) : Fresh t := by
  cases c with
  | window | lookup _ =>
    obtain ⟨-, rfl⟩ := hstep
    exact hfresh
  | now | receive _ | notify _ =>
    obtain rfl : t = s := hstep
    exact hfresh
  | lockGate key =>
    cases a with
    | error e =>
      obtain rfl : t = s := hstep
      exact hfresh
    | ok a =>
      obtain ⟨-, rfl⟩ : s.gate key = none ∧ t = s.lock key i := hstep
      exact hfresh
  | unlockGate key =>
    obtain rfl : t = s.unlock key := hstep
    exact hfresh
  | send key gated query =>
    cases a with
    | error e =>
      obtain rfl : t = s := hstep
      exact hfresh
    | ok sentAt =>
      obtain ⟨-, rfl⟩ : _ ∧ t = s.send key gated := hstep
      cases gated with
      | false => exact hfresh
      | true => exact hfresh
  | insert key now reading =>
    obtain rfl : t = s.insert key now reading := hstep
    intro other at' stored hstored stamp hstamp
    have hfound := (Option.filter_eq_some_iff.mp hstored).1
    by_cases hkey : other = key
    · subst hkey
      rw [Function.update_self] at hfound
      obtain ⟨-, rfl⟩ := Prod.mk.inj (Option.some.inj hfound)
      obtain ⟨first, hfirst, hle⟩ := hallows.2 stamp hstamp
      have hnow : first = s.wakes other := Option.some.inj (hfirst.symm.trans hprompt)
      show s.wakes other ≤ stamp
      omega
    · rw [Function.update_of_ne hkey] at hfound
      exact hfresh other at' stored hfound stamp hstamp
  | forget key =>
    obtain rfl : t = s.forget key := hstep
    intro other at' stored hstored stamp hstamp
    by_cases hkey : other = key
    · subst hkey
      rw [Gateway.readings_forget_self] at hstored
      cases hstored
    · have hfound : s.readings other = some (at', stored) := by
        simpa [Gateway.forget, hkey] using hstored
      have hwakes : (s.forget key).wakes other = s.wakes other := by
        simp [Gateway.forget, hkey]
      rw [hwakes]
      exact hfresh other at' stored hfound stamp hstamp
  | setWindow milliseconds =>
    obtain rfl : t = { s with window := milliseconds } := hstep
    exact hfresh

/-! ## What one fetch assembles -/

/-- A task's own view: between two of its calls the others may have moved. -/
abbrev seen (i : ι) : Contract DemandCall DemandCall.Answer (Gateway ι) :=
  ((gateway i).restrict Prompt).under Fresh (Rely i)

/-- What is assembled so far was sent at or after wake `low`, and under a gate at or after the
first request sent under it. -/
structure Assembled (i : ι) (key : RepositoryKey) (gated : Bool) (low : Nat) (sentAt : List Nat)
    (s : Gateway ι) : Prop where
  low_le : low ≤ s.wakes key
  sent : ∀ stamp ∈ sentAt, low ≤ stamp
  gate : gated = true → s.gate key = some i
  begun_le : gated = true → ∀ first, s.begun key = some first → first ≤ s.wakes key
  since : gated = true → ∀ stamp ∈ sentAt, ∃ first, s.begun key = some first ∧ first ≤ stamp

variable {gated : Bool} {low : Nat} {sentAt : List Nat} {α : Type}

theorem Assembled.rely (h : Assembled i key gated low sentAt s) (hrely : Rely i s t) :
    Assembled i key gated low sentAt t where
  low_le := Nat.le_trans h.low_le (hrely.wakes key)
  sent := h.sent
  gate hgated := hrely.gate key (h.gate hgated)
  begun_le hgated first hfirst := by
    rw [hrely.begun key (h.gate hgated)] at hfirst
    exact Nat.le_trans (h.begun_le hgated first hfirst) (hrely.wakes key)
  since hgated stamp hstamp := by
    rw [hrely.begun key (h.gate hgated)]
    exact h.since hgated stamp hstamp

/-- A request sent now is one more of what is assembled. -/
theorem Assembled.send (h : Assembled i key gated low sentAt s) :
    Assembled i key gated low (sentAt ++ [s.wakes key]) (s.send key gated) := by
  have hsent : ∀ stamp ∈ sentAt ++ [s.wakes key], low ≤ stamp := by
    intro stamp hstamp
    rcases List.mem_append.mp hstamp with hstamp | hstamp
    · exact h.sent stamp hstamp
    · rw [List.mem_singleton.mp hstamp]
      exact h.low_le
  cases gated with
  | false => exact ⟨h.low_le, hsent, Bool.noConfusion, Bool.noConfusion, Bool.noConfusion⟩
  | true =>
    -- The first request under the gate fixes when the fetch began.
    obtain ⟨first, hbegun, hle, hold⟩ : ∃ first, (s.send key true).begun key = some first ∧
        first ≤ s.wakes key ∧ ∀ stamp ∈ sentAt, first ≤ stamp := by
      cases hfirst : s.begun key with
      | some first =>
        refine ⟨first, by simp [Gateway.send, hfirst], h.begun_le rfl first hfirst, ?_⟩
        intro stamp hstamp
        obtain ⟨first', hfirst', hle⟩ := h.since rfl stamp hstamp
        rw [hfirst] at hfirst'
        cases hfirst'
        exact hle
      | none =>
        refine ⟨s.wakes key, by simp [Gateway.send, hfirst], Nat.le_refl _, ?_⟩
        intro stamp hstamp
        obtain ⟨first', hfirst', -⟩ := h.since rfl stamp hstamp
        rw [hfirst] at hfirst'
        cases hfirst'
    refine ⟨h.low_le, hsent, h.gate, fun _ other hother ↦ ?_, fun _ stamp hstamp ↦ ?_⟩
    · rw [hbegun] at hother
      cases hother
      exact hle
    · refine ⟨first, hbegun, ?_⟩
      rcases List.mem_append.mp hstamp with hstamp | hstamp
      · exact hold stamp hstamp
      · rw [List.mem_singleton.mp hstamp]
        exact hle

/-- A part of a fetch ends with what it assembled, or fails and still holds its gate. -/
def Fetches (i : ι) (key : RepositoryKey) (gated : Bool) (low : Nat) (stamps : α → List Nat)
    (result : Except InventoryError α) (s : Gateway ι) : Prop :=
  match result with
  | .ok value => Assembled i key gated low (stamps value) s
  | .error _ => gated = true → s.gate key = some i

theorem Fetches.bind {β : Type} {p : DemandProgram α} {f : α → DemandProgram β}
    {stamps : α → List Nat} {stamps' : β → List Nat}
    (hp : (seen i).wp p (Fetches i key gated low stamps) s)
    (hf : ∀ value t, Assembled i key gated low (stamps value) t →
      (seen i).wp (f value) (Fetches i key gated low stamps') t) :
    (seen i).wp (p >>= f) (Fetches i key gated low stamps') s := by
  refine (Contract.wp_bind p f).mpr (Contract.wp_mono hp fun result t h ↦ ?_)
  cases result with
  | ok value => exact hf value t h
  | error e => exact h

theorem get_fetches (query : Query) (h : Assembled i key gated low sentAt s) :
    (seen i).wp (get key gated query)
      (Fetches i key gated low fun response ↦ sentAt ++ [response.1]) s := by
  refine ⟨fun t hrely _ hgated ↦ (h.rely hrely).gate hgated, ?_⟩
  rintro (e | stamp) t ⟨u, hu, -, -, hstep⟩
  · obtain rfl : t = u := hstep
    exact fun hgated ↦ (h.rely hu).gate hgated
  · obtain ⟨rfl, rfl⟩ : stamp = u.wakes key ∧ t = u.send key gated := hstep
    have hsent := (h.rely hu).send
    refine ⟨fun _ _ _ ↦ trivial, ?_⟩
    rintro (e | page) t ⟨v, hv, -, -, hstep⟩
    · obtain rfl : t = v := hstep
      exact fun hgated ↦ (hsent.rely hv).gate hgated
    · obtain rfl : t = v := hstep
      exact hsent.rely hv

theorem queuedJobsOfRun_fetches (run left page : Nat) (fetch : Fetch)
    (h : Assembled i key gated low fetch.sentAt s) :
    (seen i).wp (queuedJobsOfRun key gated run left page fetch)
      (Fetches i key gated low Fetch.sentAt) s := by
  induction left generalizing page fetch s with
  | zero => exact h
  | succ left ih =>
    refine Fetches.bind (get_fetches (.jobs run page) h) ?_
    rintro ⟨stamp, response⟩ t ht
    show (seen i).wp (if response.hasNext then _ else _) _ t
    split
    · exact ih (page + 1) _ ht
    · exact ht

theorem resolveRuns_fetches (runs : List Nat) (fetch : Fetch)
    (h : Assembled i key gated low fetch.sentAt s) :
    (seen i).wp (resolveRuns key gated runs fetch) (Fetches i key gated low Fetch.sentAt) s := by
  induction runs generalizing fetch s with
  | nil => exact h
  | cons run rest ih =>
    rw [resolveRuns]
    split
    · exact ih fetch h
    · exact Fetches.bind (queuedJobsOfRun_fetches run maxJobPagesPerRun 0 _ h)
        fun fetch t ht ↦ ih fetch ht

theorem readRuns_fetches (status : RunStatus) (fetch : Fetch)
    (h : Assembled i key gated low fetch.sentAt s) :
    (seen i).wp (readRuns key gated status fetch) (Fetches i key gated low Fetch.sentAt) s :=
  Fetches.bind (get_fetches (.runs status) h) fun _ _ ht ↦ resolveRuns_fetches _ _ ht

theorem repositoryQueued_fetches (h : Assembled i key gated low [] s) :
    (seen i).wp (repositoryQueued key gated)
      (Fetches i key gated low RepositoryDemand.sentAt) s :=
  Fetches.bind (readRuns_fetches .queued .start h) fun fetch _ ht ↦
    Fetches.bind (readRuns_fetches .inProgress fetch ht) fun _ _ hu ↦ hu

/-- A reading that is not from before wake `low`. -/
def NotBefore (low : Nat) (result : Except InventoryError RepositoryDemand) (_ : Gateway ι) :
    Prop :=
  ∀ reading, result = .ok reading → ∀ stamp ∈ reading.sentAt, low ≤ stamp

theorem unlock_notBefore {result : Except InventoryError RepositoryDemand}
    (hgate : s.gate key = some i) (h : NotBefore low result s) :
    (seen i).wp (.ask (.unlockGate key) fun _ ↦ .done result) (NotBefore low) s :=
  ⟨fun _ hrely _ ↦ hrely.gate key hgate, fun _ _ _ ↦ h⟩

theorem fetchShared_notBefore (now : Timestamp) (h : Assembled i key true low [] s) :
    (seen i).wp (fetchShared key now) (NotBefore low) s := by
  refine (Contract.wp_bind _ _).mpr ((Contract.wp_outcome _).mpr
    (Contract.wp_mono (repositoryQueued_fetches h) fun result t hfetched ↦ ?_))
  cases result with
  | error e => exact unlock_notBefore (hfetched rfl) fun _ h ↦ nomatch h
  | ok reading =>
    have hassembled : Assembled i key true low reading.sentAt t := hfetched
    refine ⟨fun u hu _ ↦ ?_, ?_⟩
    · exact ⟨(hassembled.rely hu).gate rfl, (hassembled.rely hu).since rfl⟩
    · rintro ⟨⟩ v ⟨u, hu, -, -, hstep⟩
      obtain rfl : v = u.insert key now reading := hstep
      refine unlock_notBefore ((hassembled.rely hu).gate rfl) ?_
      rintro _ ⟨⟩ stamp hstamp
      exact hassembled.sent stamp hstamp

theorem sharedReading_notBefore (window : Nat) (h : Assembled i key true low [] s) :
    (seen i).wp (sharedReading key window) (NotBefore low) s := by
  refine ⟨fun _ _ _ ↦ trivial, ?_⟩
  rintro now t ⟨u, hu, -, -, hstep⟩
  obtain rfl : t = u := hstep
  have h := h.rely hu
  refine ⟨fun _ _ _ ↦ trivial, ?_⟩
  rintro stored u ⟨v, hv, hfresh, -, hstep⟩
  obtain ⟨rfl, rfl⟩ : stored = v.readings key ∧ u = v := hstep
  have h := h.rely hv
  dsimp only [Program.andThen]
  split
  · next fetchedAt reading hfound =>
    have hstored := (Option.filter_eq_some_iff.mp hfound).1
    refine unlock_notBefore (h.gate rfl) ?_
    rintro _ ⟨⟩ stamp hstamp
    exact Nat.le_trans h.low_le (hfresh key fetchedAt reading hstored stamp hstamp)
  · exact fetchShared_notBefore now h

theorem repositoryReading_notBefore (repository : OwnerRepo)
    (hlow : low ≤ s.wakes (repositoryKey repository)) :
    (seen i).wp (repositoryReading repository) (NotBefore low) s := by
  refine ⟨fun _ _ _ ↦ trivial, ?_⟩
  rintro window t ⟨u, hu, -, -, hstep⟩
  obtain ⟨-, rfl⟩ : window = u.window ∧ t = u := hstep
  have hlow := Nat.le_trans hlow (hu.wakes _)
  show (seen i).wp (if window = 0 then repositoryQueued (repositoryKey repository) false else _) _ t
  split
  · -- Without a window nothing is shared, and the fetch is the call's own.
    have hnothing : Assembled i (repositoryKey repository) false low [] t :=
      ⟨hlow, (fun _ h ↦ nomatch h), Bool.noConfusion, Bool.noConfusion, Bool.noConfusion⟩
    refine Contract.wp_mono (repositoryQueued_fetches hnothing) fun result v hresult ↦ ?_
    rintro reading rfl
    exact hresult.sent
  · refine ⟨fun _ _ _ ↦ trivial, ?_⟩
    rintro (e | gate) v ⟨u, hu, -, -, hstep⟩
    · exact fun _ h ↦ nomatch h
    · obtain ⟨-, rfl⟩ : u.gate _ = none ∧ v = u.lock (repositoryKey repository) i := hstep
      refine sharedReading_notBefore window ⟨Nat.le_trans hlow (hu.wakes _), (fun _ h ↦ nomatch h),
        fun _ ↦ by simp [Gateway.lock], fun _ first hfirst ↦ ?_, (fun _ _ h ↦ nomatch h)⟩
      simp [Gateway.lock] at hfirst

/-- A task's reading is not from before wake `low`. -/
def RepliesNotBefore (low : Nat) (result : Except InventoryError Reply) (_ : Gateway ι) : Prop :=
  ∀ reading, result = .ok (.reading reading) → ∀ stamp ∈ reading.sentAt, low ≤ stamp

theorem read_notBefore (repository : OwnerRepo)
    (hlow : low ≤ s.wakes (repositoryKey repository)) :
    (seen i).wp (Task.read repository).program (RepliesNotBefore low) s := by
  refine (Contract.wp_bind _ _).mpr
    (Contract.wp_mono (repositoryReading_notBefore repository hlow) fun result t h ↦ ?_)
  cases result with
  | error e => exact fun _ h ↦ nomatch h
  | ok value =>
    rintro _ ⟨⟩
    exact h value rfl

theorem program_meets (task : Task) : (seen i).wp task.program (fun _ _ ↦ True) s := by
  cases task with
  | read repository =>
    exact Contract.wp_mono (read_notBefore repository (Nat.zero_le _)) fun _ _ _ ↦ trivial
  | deliver routes wake =>
    refine (Contract.wp_bind _ _).mpr ?_
    unfold WakeRoutes.deliver
    split
    · exact trivial
    · split
      · exact ⟨fun _ _ _ ↦ trivial, fun _ _ _ ↦ ⟨fun _ _ _ ↦ trivial, fun _ _ _ ↦ trivial⟩⟩
      · exact ⟨fun _ _ _ ↦ trivial, fun _ _ _ ↦ trivial⟩
  | setSharedWindow milliseconds => exact ⟨fun _ _ _ ↦ trivial, fun _ _ _ ↦ trivial⟩

theorem wakes_of_step {c : DemandCall} {a : c.Answer} (hstep : s.step i c a t)
    (key : RepositoryKey) : s.wakes key ≤ t.wakes key := by
  cases c with
  | window | lookup _ =>
    obtain ⟨-, rfl⟩ := hstep
    exact Nat.le_refl _
  | lockGate _ =>
    cases a with
    | error e =>
      obtain rfl : t = s := hstep
      exact Nat.le_refl _
    | ok a =>
      obtain ⟨-, rfl⟩ : _ ∧ t = s.lock _ i := hstep
      exact Nat.le_refl _
  | send _ gated _ =>
    cases a with
    | error e =>
      obtain rfl : t = s := hstep
      exact Nat.le_refl _
    | ok sentAt =>
      obtain ⟨-, rfl⟩ : _ ∧ t = s.send _ gated := hstep
      cases gated <;> exact Nat.le_refl _
  | forget other =>
    obtain rfl : t = s.forget other := hstep
    exact s.wakes_forget other key
  | now | receive _ | notify _ | unlockGate _ | insert _ _ _ | setWindow _ =>
    obtain rfl := hstep
    exact Nat.le_refl _

theorem deliver_visits {C : Contract DemandCall DemandCall.Answer (Gateway ι)}
    (hC : ∀ s c a t, C.steps s c a t → s.step i c a t) {routes : WakeRoutes} {wake : Wake}
    {path : List (Gateway ι × Gateway ι)} (hdropped : routes.dropped wake = some key)
    (h : C.Visits (Task.deliver routes wake).program path (.done (.ok (.delivered true)))) :
    ∃ s, (s, s.forget key) ∈ path := by
  unfold Task.program WakeRoutes.deliver at h
  cases hroute : routes.routes.findIdx? (sameTarget · wake.target) with
  | none =>
    simp only [hroute] at h
    cases (Contract.Visits.of_done h).2
  | some route =>
    simp only [hroute, hdropped] at h
    obtain ⟨s, t, rest, a, rfl, hstep, -⟩ := Contract.Visits.of_ask h
    obtain rfl : t = s.forget key := hC _ _ _ _ hstep
    exact ⟨s, List.mem_cons_self⟩

end

/-! ## Runs -/

section

variable {ι : Type} [DecidableEq ι] {P Q : GatewayPool ι} {log : List (Occurrence (Gateway ι) ι)}

/-- Runs in which every fetch that stores its reading is prompt. -/
abbrev PromptRun (P : GatewayPool ι) (log : List (Occurrence (Gateway ι) ι)) (Q : GatewayPool ι) :
    Prop :=
  Contract.Interleaves (fun i ↦ (gateway i).restrict Prompt) P log Q

theorem promptRun_sound (post : ι → Except InventoryError Reply → Prop) (hfresh : Fresh P.shared)
    (hmeets : ∀ i, (seen i).wp (P.point i) (fun result _ ↦ post i result) P.shared)
    (h : PromptRun P log Q) :
    Fresh Q.shared ∧ ∀ i, (seen i).wp (Q.point i) (fun result _ ↦ post i result) Q.shared :=
  h.sound (I := Fresh) (Q := fun i result _ ↦ post i result) Rely.refl
    (fun _ _ _ _ hst htu ↦ hst.trans htu)
    (fun _ _ _ _ _ hfresh hallows hstep ↦ fresh_of_step hfresh hallows hstep.1 hstep.2)
    (fun _ _ _ _ _ _ hij _ hallows hstep ↦ rely_of_step hij hallows hstep.2)
    (fun _ _ _ _ _ hpost ↦ hpost) hfresh hmeets

theorem wakes_of_run (h : PromptRun P log Q) (key : RepositoryKey) :
    P.shared.wakes key ≤ Q.shared.wakes key :=
  h.invariant (C := fun i ↦ (gateway i).restrict Prompt)
    (I := fun s ↦ P.shared.wakes key ≤ s.wakes key)
    (fun _ _ _ _ _ hle hstep ↦ Nat.le_trans hle (wakes_of_step hstep.2 key)) (Nat.le_refl _)

theorem deliver_occurrence {routes : WakeRoutes} {wake : Wake} {key : RepositoryKey} {d : ι}
    (h : PromptRun P log Q) (hpoint : P.point d = (Task.deliver routes wake).program)
    (hdone : Q.point d = .done (.ok (.delivered true)))
    (hdropped : routes.dropped wake = some key) :
    ∃ o ∈ log, o.actor = d ∧ o.after = o.before.forget key ∧
      o.after.wakes key ≤ Q.shared.wakes key := by
  have hvisits := h.visits d
  rw [hpoint, hdone] at hvisits
  obtain ⟨s, hs⟩ := deliver_visits (C := (gateway d).restrict Prompt) (i := d)
    (fun _ _ _ _ hstep ↦ hstep.2) hdropped hvisits
  obtain ⟨o, ho, hpair⟩ := List.mem_map.mp hs
  obtain ⟨hlog, hactor⟩ := List.mem_filter.mp ho
  obtain ⟨rfl, hafter⟩ := Prod.mk.inj hpair
  obtain ⟨R, S, earlier, later, -, -, hS, -, hlater⟩ := h.split hlog
  refine ⟨o, hlog, by simpa using hactor, hafter, ?_⟩
  rw [← hS]
  exact wakes_of_run hlater key

/-- Where every fetch is prompt, no reading outlives a wake. -/
theorem wake_freshness : WakeFresh fun i : ι ↦ (gateway i).restrict Prompt := by
  intro tasks start P Q earlier later d i routes wake repository reading hstarts hearlier hd
    hdelivered hdropped hi hroot hlater hread
  have hfresh : Fresh start.shared := by
    intro key now stored _ stamp _
    rw [hstarts.wakes_eq key]
    exact Nat.zero_le stamp
  obtain ⟨hfreshP, hmeetsP⟩ := promptRun_sound (fun _ _ ↦ True) hfresh
    (fun j ↦ by rw [hstarts.point_eq j]; exact program_meets (tasks j)) hearlier
  obtain ⟨o, ho, hactor, hafter, hcounted⟩ := deliver_occurrence hearlier
    ((hstarts.point_eq d).trans (congrArg Task.program hd)) hdelivered hdropped
  refine ⟨o, ho, hactor, hafter, ?_⟩
  -- From here on the reader is held to the wakes delivered before it began.
  have hmeets : ∀ j, (seen j).wp (P.point j) (fun result _ ↦ j = i → ∀ reading,
      result = .ok (.reading reading) → ∀ stamp ∈ reading.sentAt,
        P.shared.wakes (repositoryKey repository) ≤ stamp) P.shared := by
    intro j
    by_cases hj : j = i
    · subst hj
      rw [hroot, hi]
      exact Contract.wp_mono (read_notBefore repository (Nat.le_refl _)) fun _ _ h _ ↦ h
    · exact Contract.wp_mono (hmeetsP j) fun _ _ _ heq ↦ absurd heq hj
  have hreader := (promptRun_sound _ hfreshP hmeets hlater).2 i
  rw [hread] at hreader
  intro stamp hstamp
  exact Nat.le_trans hcounted (hreader rfl reading rfl stamp hstamp)

end

/-! ### A wake during a fetch -/

section

/-- Two loops read one repository, and one wake for it is delivered. -/
def twoReaders (repository : OwnerRepo) (routes : WakeRoutes) (wake : Wake) : Nat → Task
  | 1 => .deliver routes wake
  | _ => .read repository

/-- Nothing stored, and a window of one millisecond. -/
def emptyGateway : Gateway Nat := ⟨1, fun _ ↦ none, fun _ ↦ none, fun _ ↦ 0, fun _ ↦ none⟩

/-- The two loops and the wake before any of them begins. -/
def twoReadersPool (repository : OwnerRepo) (routes : WakeRoutes) (wake : Wake) :
    GatewayPool Nat where
  shared := emptyGateway
  point i := (twoReaders repository routes wake i).program

def emptyPage : Page := ⟨[], [], false, false⟩

variable {repository : OwnerRepo} {routes : WakeRoutes} {wake : Wake}

theorem deliver_program (hroute : routes.routes.findIdx? (sameTarget · wake.target) = some 0)
    (hdropped : routes.dropped wake = some (repositoryKey repository)) :
    (Task.deliver routes wake).program = .ask (.forget (repositoryKey repository)) fun _ ↦
      .ask (.notify 0) fun _ ↦ .done (.ok (.delivered true)) := by
  unfold Task.program WakeRoutes.deliver
  simp only [hroute, hdropped]
  rfl

/-- The first loop has sent its requests when the wake is delivered, and the second begins after
that. It is handed what the first loop stored in between. -/
theorem stale_run (hroute : routes.routes.findIdx? (sameTarget · wake.target) = some 0)
    (hdropped : routes.dropped wake = some (repositoryKey repository)) :
    ∃ (P Q : GatewayPool Nat) (earlier later : List (Occurrence (Gateway Nat) Nat)),
      Contract.Interleaves (fun i : Nat ↦ gateway i) (twoReadersPool repository routes wake)
        earlier P ∧
      P.point 1 = .done (.ok (.delivered true)) ∧
      P.point 2 = (Task.read repository).program ∧
      Contract.Interleaves (fun i : Nat ↦ gateway i) P later Q ∧
      Q.point 2 = .done (.ok (.reading ⟨[], true, false, [0, 0]⟩)) := by
  have hdeliver := deliver_program hroute hdropped
  set key := repositoryKey repository
  -- The first loop sends its two requests.
  let s₁ := emptyGateway.lock key 0
  let s₂ := (s₁.send key true).send key true
  have h₀ : Contract.Interleaves (fun i : Nat ↦ gateway i) (twoReadersPool repository routes wake)
    [] (twoReadersPool repository routes wake) := .start _
  have h₁ := h₀.advance 0 .window (1 : Nat) emptyGateway rfl ⟨rfl, rfl⟩
  have h₂ := h₁.advance 0 (.lockGate key) (.ok ()) s₁ rfl ⟨rfl, rfl⟩
  have h₃ := h₂.advance 0 .now (0 : Int) s₁ rfl rfl
  have h₄ := h₃.advance 0 (.lookup key) none s₁ rfl ⟨rfl, rfl⟩
  have h₅ := h₄.advance 0 (.send key true (.runs .queued)) (.ok 0) (s₁.send key true) rfl
    ⟨rfl, rfl⟩
  have h₆ := h₅.advance 0 (.receive (.runs .queued)) (.ok emptyPage) (s₁.send key true) rfl rfl
  have h₇ := h₆.advance 0 (.send key true (.runs .inProgress)) (.ok 0) s₂ rfl ⟨rfl, rfl⟩
  have h₈ := h₇.advance 1 (.forget key) () (s₂.forget key) hdeliver rfl
  have h₉ := h₈.advance 1 (.notify 0) () (s₂.forget key) rfl rfl
  -- It stores what it was answered, and the second loop asks within the window.
  let reading : RepositoryDemand := ⟨[], true, false, [0, 0]⟩
  let s₃ := (s₂.forget key).insert key 0 reading
  have hgate : (s₃.unlock key).gate key = none := Function.update_self ..
  have hstored : ((s₃.unlock key).lock key 2).readings key = some (0, reading) := by
    show (Function.update (s₂.forget key).readings key (some (0, reading)) key).filter _ = _
    rw [Function.update_self]
    rfl
  have k₀ := h₉.restart
  have k₁ := k₀.advance 0 (.receive (.runs .inProgress)) (.ok emptyPage) (s₂.forget key) rfl rfl
  have k₂ := k₁.advance 0 (.insert key 0 reading) () s₃ rfl rfl
  have k₃ := k₂.advance 0 (.unlockGate key) () (s₃.unlock key) rfl rfl
  have k₄ := k₃.advance 2 .window (1 : Nat) (s₃.unlock key) rfl ⟨rfl, rfl⟩
  have k₅ := k₄.advance 2 (.lockGate key) (.ok ()) ((s₃.unlock key).lock key 2) rfl ⟨hgate, rfl⟩
  have k₆ := k₅.advance 2 .now (0 : Int) ((s₃.unlock key).lock key 2) rfl rfl
  have k₇ := k₆.advance 2 (.lookup key) (some (0, reading)) ((s₃.unlock key).lock key 2) rfl
    ⟨hstored.symm, rfl⟩
  have k₈ := k₇.advance 2 (.unlockGate key) () (((s₃.unlock key).lock key 2).unlock key) rfl rfl
  exact ⟨_, _, _, _, h₉, rfl, rfl, k₈, rfl⟩

/-- A repository, and a wake that spells it in another case. -/
def widgets : OwnerRepo := ⟨⟨"octo", octo_owner⟩, ⟨"widgets", widgets_repo⟩⟩

def widgetsWake : Wake := ⟨⟨.repo, "octo/widgets"⟩, "Octo/Widgets", .jobQueued, "delivery"⟩

def widgetsRoutes : WakeRoutes := ⟨[.repository widgets], true⟩

theorem widgets_route :
    widgetsRoutes.routes.findIdx? (sameTarget · widgetsWake.target) = some 0 := by
  decide

theorem widgets_dropped : widgetsRoutes.dropped widgetsWake = some (repositoryKey widgets) := by
  decide

theorem twoReaders_starts :
    (twoReadersPool widgets widgetsRoutes widgetsWake).Starts
      (twoReaders widgets widgetsRoutes widgetsWake) :=
  ⟨fun _ ↦ rfl, fun _ ↦ rfl, fun _ ↦ rfl⟩

/-- A fetch in flight at a wake stores what it sent before, and the next call is handed it. -/
theorem wake_not_fresh : ¬ WakeFresh fun i : Nat ↦ gateway i := by
  intro hfresh
  obtain ⟨P, Q, earlier, later, hearlier, hdelivered, hroot, hlater, hread⟩ :=
    stale_run widgets_route widgets_dropped
  obtain ⟨o, -, -, hafter, hsent⟩ := hfresh _ _ P Q earlier later 1 2 _ _ _ _ twoReaders_starts
    hearlier rfl hdelivered widgets_dropped rfl hroot hlater hread
  have hwakes : o.after.wakes (repositoryKey widgets) =
      o.before.wakes (repositoryKey widgets) + 1 := by
    rw [hafter, Gateway.wakes_forget_self]
  have hstale := hsent 0 List.mem_cons_self
  omega

/-- A call that begins after the wake and finds nothing stored sends its own requests. -/
theorem wake_before_fetch :
    ∃ (P Q : GatewayPool Nat) (earlier later : List (Occurrence (Gateway Nat) Nat)),
      PromptRun (twoReadersPool widgets widgetsRoutes widgetsWake) earlier P ∧
      PromptRun P later Q ∧ Q.point 2 = .done (.ok (.reading ⟨[], true, false, [1, 1]⟩)) ∧
      ∃ o ∈ earlier, o.actor = 1 ∧ o.after = o.before.forget (repositoryKey widgets) ∧
        ∀ stamp ∈ [1, 1], o.after.wakes (repositoryKey widgets) ≤ stamp := by
  set key := repositoryKey widgets with hkey
  let s₁ := emptyGateway.forget key
  let s₂ := s₁.lock key 2
  let s₃ := (s₂.send key true).send key true
  let reading : RepositoryDemand := ⟨[], true, false, [1, 1]⟩
  let s₄ := s₃.insert key 0 reading
  have hwakes : s₁.wakes key = 1 := emptyGateway.wakes_forget_self key
  have hnone : s₂.readings key = none := emptyGateway.readings_forget_self key
  have hbegun : s₃.begun key = some (s₃.wakes key) := by
    simp [s₃, s₂, Gateway.send, Gateway.lock]
  have h₀ : PromptRun (twoReadersPool widgets widgetsRoutes widgetsWake) []
    (twoReadersPool widgets widgetsRoutes widgetsWake) := .start _
  have h₁ := h₀.advance 1 (.forget key) () s₁ (deliver_program widgets_route widgets_dropped)
    ⟨trivial, rfl⟩
  have h₂ := h₁.advance 1 (.notify 0) () s₁ rfl ⟨trivial, rfl⟩
  have k₀ := h₂.restart
  have k₁ := k₀.advance 2 .window (1 : Nat) s₁ rfl ⟨trivial, rfl, rfl⟩
  have k₂ := k₁.advance 2 (.lockGate key) (.ok ()) s₂ rfl ⟨trivial, rfl, rfl⟩
  have k₃ := k₂.advance 2 .now (0 : Int) s₂ rfl ⟨trivial, rfl⟩
  have k₄ := k₃.advance 2 (.lookup key) none s₂ rfl ⟨trivial, hnone.symm, rfl⟩
  have k₅ := k₄.advance 2 (.send key true (.runs .queued)) (.ok 1) (s₂.send key true) rfl
    ⟨trivial, hwakes.symm, rfl⟩
  have k₆ := k₅.advance 2 (.receive (.runs .queued)) (.ok emptyPage) (s₂.send key true) rfl
    ⟨trivial, rfl⟩
  have k₇ := k₆.advance 2 (.send key true (.runs .inProgress)) (.ok 1) s₃ rfl
    ⟨trivial, hwakes.symm, rfl⟩
  have k₈ := k₇.advance 2 (.receive (.runs .inProgress)) (.ok emptyPage) s₃ rfl ⟨trivial, rfl⟩
  have k₉ := k₈.advance 2 (.insert key 0 reading) () s₄ rfl ⟨hbegun, rfl⟩
  have k₁₀ := k₉.advance 2 (.unlockGate key) () (s₄.unlock key) rfl ⟨trivial, rfl⟩
  exact ⟨_, _, _, _, h₂, k₁₀, rfl, wake_freshness _ _ _ _ _ _ 1 2 _ _ widgets reading
    twoReaders_starts h₂ rfl rfl widgets_dropped rfl rfl k₁₀ rfl⟩

end

end RunnerManager.App
