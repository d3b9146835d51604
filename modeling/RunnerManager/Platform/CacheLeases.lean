import RunnerManager.Lib.Interleaving
import RunnerManager.Platform.CachePrune

/-!
# Leases on caches

`prepare_launch` and `prune` of `crates/platform/src/dependency_cache.rs`, run by any number of
processes over one cache root. A lease is a file that holds the path of a runtime as text; every
file operation is one call and may fail, and a runtime begins and ends between any two of them.
Read `Sound` and `Rely` first: what the leases mean, and what a process may count on while it
holds the lock. `leases_safe` says that slots and namespaces in use are safe in every run in which
a lease directory is read whole or is missing.
-/

namespace RunnerManager.Platform

/-! ## Runtimes -/

/-- The path of an attempt's runtime: a text, or bytes that are none. -/
inductive RuntimePath where
  | utf8 (text : String)
  | raw (bytes : List UInt8) (lossy : String)
deriving DecidableEq

namespace RuntimePath

/-- `Path::to_string_lossy`. -/
def lossy : RuntimePath → String
  | utf8 text => text
  | raw _ lossy => lossy

def IsText (runtime : RuntimePath) : Prop := runtime = .utf8 runtime.lossy

end RuntimePath

/-- What `fs::metadata` says of a runtime's `bin`. -/
inductive BinMetadata where
  | directory
  | other
  | notFound
  | failed

def runtimeHoldsRunner : BinMetadata → Bool
  | .directory => true
  | .other => false
  | .notFound => false
  | .failed => true

/-! ## The file operations -/

/-- The answer of `read_to_string` on a lease. -/
inductive LeaseRead where
  | text (holder : String)
  | notFound
  | failed

/-- An entry of `_slots`. -/
inductive SlotEntry where
  | lease (slot : ℕ)
  | other
deriving DecidableEq

/-- The directories that are created. -/
inductive CacheDir where
  | root
  | slots (space : String)
  | tool (path : String)
  | trash

/-- What a launch or a pass must write. -/
inductive CacheWrite where
  | create (dir : CacheDir)
  | lease (space : String) (slot : ℕ) (runtime : RuntimePath)
  | marker (space : String)
  | usage

/-- What a process asks of the disk. -/
inductive CacheCall where
  | write (what : CacheWrite)
  | lock
  | unlock
  | readLease (space : String) (slot : ℕ)
  | inspect (holder : String)
  | readSlots (space : String)
  | measure
  | rename (space : String)
  | emptyTrash

/-- The answers; an entry of a directory may be unreadable by itself. -/
abbrev CacheCall.Answer : CacheCall → Type
  | write _ => Bool
  | lock => Bool
  | unlock => Unit
  | readLease _ _ => LeaseRead
  | inspect _ => BinMetadata
  | readSlots _ => Option (List (Option SlotEntry))
  | measure => List NamespaceUsage
  | rename _ => Bool
  | emptyTrash => Unit

/-- Why a launch or a pass ended early. -/
inductive CacheFailure where
  | io (action : String)
  | lock
  | panic
deriving DecidableEq

/-- What a launch or a pass returned. -/
inductive CacheResult where
  | launched (runtime : RuntimePath) (space : String) (slot : ℕ)
  | pruned (spaces : List String)
deriving DecidableEq

abbrev CacheProgram (α : Type) := Program CacheCall CacheCall.Answer CacheFailure α

def ask (c : CacheCall) : CacheProgram c.Answer :=
  Program.perform c

def attempt (what : CacheWrite) (action : String) : CacheProgram Unit := do
  if ← ask (.write what) then return () else Program.fail (.io action)

/-! ## Launches -/

/-- `free_slot`, from a slot on; `left` slots of a `u32` are left, and the range ends in a panic. -/
def freeSlot (space own : String) : ℕ → ℕ → CacheProgram ℕ
  | 0, _ => Program.fail .panic
  | left + 1, slot => do
    match ← ask (.readLease space slot) with
    | .notFound => return slot
    | .failed => freeSlot space own left (slot + 1)
    | .text holder =>
      if holder = own then return slot
      else if runtimeHoldsRunner (← ask (.inspect holder)) then
        freeSlot space own left (slot + 1)
      else return slot

/-- What `prepare_launch` does under the lock. -/
def leaseSlot (space : String) (runtime : RuntimePath) : CacheProgram ℕ := do
  attempt (.create (.slots space)) "create"
  let slot ← freeSlot space runtime.lossy (2 ^ 32 - 1) 1
  attempt (.lease space slot runtime) "write"
  attempt (.marker space) "write"
  return slot

def createTools : List String → CacheProgram Unit
  | [] => return ()
  | path :: rest => do
    attempt (.create (.tool path)) "create"
    createTools rest

/-- A part that runs under the lock, which is let go of however the part ends. -/
def locked {α : Type} (part : CacheProgram α) : CacheProgram α := do
  if ← ask .lock then
    let result ← part.outcome
    ask .unlock
    Program.ofExcept id result
  else Program.fail .lock

/-- `prepare_launch`; `dirs` are the directories that the variables name. -/
def prepareLaunch (space : String) (dirs : ℕ → List String) (runtime : RuntimePath) :
    CacheProgram CacheResult := do
  attempt (.create .root) "create"
  let slot ← locked (leaseSlot space runtime)
  createTools (dirs slot)
  return .launched runtime space slot

/-! ## Passes -/

/-- The loop of `namespace_in_use`; an unreadable entry is skipped, an unreadable lease is held. -/
def anyHeld (space : String) : List (Option SlotEntry) → CacheProgram Bool
  | [] => return false
  | some (.lease slot) :: rest => do
    match ← ask (.readLease space slot) with
    | .text holder =>
      if runtimeHoldsRunner (← ask (.inspect holder)) then return true
      else anyHeld space rest
    | .notFound => return true
    | .failed => return true
  | some .other :: rest => anyHeld space rest
  | none :: rest => anyHeld space rest

def namespaceInUse (space : String) : CacheProgram Bool := do
  match ← ask (.readSlots space) with
  | none => return false
  | some entries => anyHeld space entries

/-- The loop of `prune` over what is planned. -/
def moveAside : List String → CacheProgram (List String)
  | [] => return []
  | space :: rest => do
    if ← namespaceInUse space then moveAside rest
    else if ← ask (.rename space) then
      let pruned ← moveAside rest
      return space :: pruned
    else moveAside rest

/-- The part of `prune` after the plan; there is no plan where it panics. -/
def carryOut : Option (List String) → CacheProgram CacheResult
  | none => Program.fail .panic
  | some planned => do
    let pruned ←
      if planned.isEmpty then pure []
      else do
        attempt (.create .trash) "create"
        locked (moveAside planned)
    ask .emptyTrash
    attempt .usage "write"
    return .pruned pruned

def prune (overflowChecks : Bool) (maxBytes : Option (BitVec 64)) : CacheProgram CacheResult := do
  ask .emptyTrash
  let namespaces ← ask .measure
  carryOut (NamespaceUsage.planPrune overflowChecks namespaces maxBytes)

/-! ## The shared disk -/

/-- The leases of every namespace, the runtimes, the lock, and what was leased so far. -/
structure CacheRoot (ι : Type) where
  leases : String → ℕ → Option String
  holds : RuntimePath → Bool
  begun : RuntimePath → Bool
  lock : Option ι
  granted : List (RuntimePath × String × ℕ)

namespace CacheRoot

variable {ι : Type}

/-- A lease is written whole. -/
def lease (s : CacheRoot ι) (space : String) (slot : ℕ) (runtime : RuntimePath) : CacheRoot ι :=
  { s with
    leases := Function.update s.leases space
      (Function.update (s.leases space) slot (some runtime.lossy))
    granted := (runtime, space, slot) :: s.granted }

/-- The disk after a call of a process. -/
def after (s : CacheRoot ι) (i : ι) : (c : CacheCall) → c.Answer → CacheRoot ι
  | .lock, true => { s with lock := some i }
  | .unlock, _ => { s with lock := none }
  | .write (.lease space slot runtime), true => s.lease space slot runtime
  | .rename space, true =>
    { s with leases := Function.update s.leases space fun _ ↦ none }
  | _, _ => s

/-- The answers that a call may have: the lock is exclusive, a lease that is read is the one that
was written, and only a runtime without a runner is found to hold none. Anything may fail. -/
def Answers (s : CacheRoot ι) : (c : CacheCall) → c.Answer → Prop
  | .lock, true => s.lock = none
  | .readLease space slot, .text holder => s.leases space slot = some holder
  | .inspect holder, bin => runtimeHoldsRunner bin = false → s.holds (.utf8 holder) = false
  | _, _ => True

/-- A directory of leases is read whole or is missing, and no lease is missing that is there. -/
def Truthful (s : CacheRoot ι) : (c : CacheCall) → c.Answer → Prop
  | .readLease space slot, .notFound => s.leases space slot = none
  | .readSlots space, none => ∀ slot, s.leases space slot = none
  | .readSlots space, some entries =>
    ∀ slot, s.leases space slot ≠ none → some (.lease slot) ∈ entries
  | _, _ => True

/-- No runtime with a runner, other than one, has a lease on a slot. -/
def SlotFree (s : CacheRoot ι) (space : String) (slot : ℕ) (own : String) : Prop :=
  ∀ holder, s.leases space slot = some holder → holder ≠ own → s.holds (.utf8 holder) = false

/-- No runtime with a runner has a lease in a namespace. -/
def Idle (s : CacheRoot ι) (space : String) : Prop :=
  ∀ slot holder, s.leases space slot = some holder → s.holds (.utf8 holder) = false

/-- What a process may do. -/
def Allows (s : CacheRoot ι) (i : ι) : CacheCall → Prop
  | .unlock => s.lock = some i
  | .write (.lease space slot runtime) =>
    s.lock = some i ∧ s.begun runtime = true ∧ s.SlotFree space slot runtime.lossy
  | .rename space => s.lock = some i ∧ s.Idle space
  | _ => True

end CacheRoot

def cacheCalls {ι : Type} (i : ι) : Contract CacheCall CacheCall.Answer (CacheRoot ι) where
  requires s c := s.Allows i c
  steps s c a t := s.Answers c a ∧ t = s.after i c a

/-- The calls of a process, where the leases are read truthfully. -/
def truthfulCalls {ι : Type} (i : ι) : Contract CacheCall CacheCall.Answer (CacheRoot ι) :=
  (cacheCalls i).assuming CacheRoot.Truthful

/-- A launch of a runtime that holds a runner, or of one that was launched before, or a pass. -/
inductive CacheOpens {ι : Type} (s : CacheRoot ι) (launchable : RuntimePath → Prop) :
    CacheRoot ι → CacheProgram CacheResult → Prop
  | launch (space : String) (dirs : ℕ → List String) {runtime : RuntimePath}
      (hlaunch : launchable runtime)
      (hruns : s.holds runtime = true ∨ s.begun runtime = true) :
      CacheOpens s launchable { s with begun := Function.update s.begun runtime true }
        (prepareLaunch space dirs runtime)
  | prune (overflowChecks : Bool) (maxBytes : Option (BitVec 64)) :
      CacheOpens s launchable s (RunnerManager.Platform.prune overflowChecks maxBytes)

namespace CacheRoot

variable {ι : Type} [DecidableEq ι]

/-- The lock of a process that ends. -/
def release (s : CacheRoot ι) (i : ι) : CacheRoot ι :=
  if s.lock = some i then { s with lock := none } else s

/-- A process ends anywhere, which lets go of the lock, and another one may begin. -/
def Opens (launchable : RuntimePath → Prop) (i : ι) (s : CacheRoot ι)
    (_ : CacheProgram CacheResult) (t : CacheRoot ι) (q : CacheProgram CacheResult) : Prop :=
  CacheOpens (s.release i) launchable t q

/-- A runtime begins before its first launch, or is cleaned up. -/
inductive Passes (s : CacheRoot ι) : CacheRoot ι → Prop
  | begin {runtime : RuntimePath} (h : s.begun runtime = false) :
      Passes s { s with holds := Function.update s.holds runtime true }
  | cleanup (runtime : RuntimePath) :
      Passes s { s with holds := Function.update s.holds runtime false }

end CacheRoot

abbrev CachePool (ι : Type) :=
  Pool CacheCall CacheCall.Answer CacheFailure CacheResult (CacheRoot ι) ι

/-- An empty cache root, and processes that have done nothing. -/
def CachePool.fresh (ι : Type) : CachePool ι where
  shared := ⟨fun _ _ ↦ none, fun _ ↦ false, fun _ ↦ false, none, []⟩
  point _ := Program.fail .panic

/-- What any number of processes reach, in any order. -/
abbrev CacheReached {ι : Type} [DecidableEq ι] (P : CachePool ι) : Prop :=
  Contract.Opened cacheCalls (· = CachePool.fresh ι) (CacheRoot.Opens fun _ ↦ True)
    CacheRoot.Passes P

/-- What they reach where the leases are read truthfully and every path is a text. -/
abbrev CacheReachedTruthfully {ι : Type} [DecidableEq ι] (P : CachePool ι) : Prop :=
  Contract.Opened truthfulCalls (· = CachePool.fresh ι) (CacheRoot.Opens RuntimePath.IsText)
    CacheRoot.Passes P

/-- What leases are for. -/
structure LeasesSafe {ι : Type} (P : CachePool ι) : Prop where
  /-- A launch returns a slot that it leased. -/
  leased : ∀ i runtime space slot, P.point i = .done (.ok (.launched runtime space slot)) →
    (runtime, space, slot) ∈ P.shared.granted
  /-- Two runtimes that hold a runner never get one slot. -/
  apart : ∀ first second space slot, (first, space, slot) ∈ P.shared.granted →
    (second, space, slot) ∈ P.shared.granted → P.shared.holds first = true →
    P.shared.holds second = true → first = second
  /-- A namespace is not moved while a runtime that holds a runner has a lease in it. -/
  kept : ∀ i space next, P.point i = .ask (.rename space) next →
    ∀ runtime slot, P.shared.begun runtime = true → P.shared.holds runtime = true →
      P.shared.leases space slot ≠ some runtime.lossy

/-! ## The invariant -/

namespace CacheRoot

variable {ι : Type}

/-- What the leases mean. -/
structure Sound (s : CacheRoot ι) : Prop where
  text : ∀ runtime, s.begun runtime = true → runtime.IsText
  begun : ∀ space slot holder, s.leases space slot = some holder → s.begun (.utf8 holder) = true
  granted : ∀ runtime space slot, (runtime, space, slot) ∈ s.granted →
    s.begun runtime = true ∧
      (s.holds runtime = true → s.leases space slot = some runtime.lossy)

/-- What a process may count on: a runtime that was launched does not begin again, what was leased
stays so, and nobody else touches the leases while it holds the lock. -/
structure Rely (i : ι) (s t : CacheRoot ι) : Prop where
  begun : ∀ runtime, s.begun runtime = true → t.begun runtime = true
  ended : ∀ runtime, s.begun runtime = true → s.holds runtime = false → t.holds runtime = false
  granted : s.granted ⊆ t.granted
  locked : s.lock = some i → t.lock = some i ∧ t.leases = s.leases

variable {i : ι} {s t u : CacheRoot ι} {space own : String} {slot : ℕ}

theorem Rely.refl (s : CacheRoot ι) : Rely i s s :=
  ⟨fun _ h ↦ h, fun _ _ h ↦ h, List.Subset.refl _, fun h ↦ ⟨h, rfl⟩⟩

theorem Rely.trans (hst : Rely i s t) (htu : Rely i t u) : Rely i s u where
  begun runtime h := htu.begun runtime (hst.begun runtime h)
  ended runtime hbegun h :=
    htu.ended runtime (hst.begun runtime hbegun) (hst.ended runtime hbegun h)
  granted := List.Subset.trans hst.granted htu.granted
  locked h := by
    obtain ⟨hlock, hleases⟩ := hst.locked h
    obtain ⟨hlock', hleases'⟩ := htu.locked hlock
    exact ⟨hlock', hleases'.trans hleases⟩

theorem SlotFree.rely (h : s.SlotFree space slot own) (hs : s.Sound) (hlock : s.lock = some i)
    (hrely : Rely i s t) : t.SlotFree space slot own := by
  intro holder hlease hother
  rw [(hrely.locked hlock).2] at hlease
  exact hrely.ended _ (hs.begun space slot holder hlease) (h holder hlease hother)

/-- The leases that are left to look at; every other one is of a runtime without a runner. -/
def IdleBut (s : CacheRoot ι) (space : String) (entries : List (Option SlotEntry)) : Prop :=
  ∀ slot holder, s.leases space slot = some holder →
    some (.lease slot) ∈ entries ∨ s.holds (.utf8 holder) = false

theorem IdleBut.rely {entries : List (Option SlotEntry)} (h : s.IdleBut space entries)
    (hs : s.Sound) (hlock : s.lock = some i) (hrely : Rely i s t) : t.IdleBut space entries := by
  intro slot holder hlease
  rw [(hrely.locked hlock).2] at hlease
  exact (h slot holder hlease).imp_right (hrely.ended _ (hs.begun space slot holder hlease))

theorem idle_iff : s.Idle space ↔ s.IdleBut space [] := by
  simp [Idle, IdleBut]

/-! ### What one call keeps -/

theorem leases_lease (s : CacheRoot ι) (space : String) (slot : ℕ) (runtime : RuntimePath)
    (space' : String) (slot' : ℕ) :
    (s.lease space slot runtime).leases space' slot' =
      if space' = space ∧ slot' = slot then some runtime.lossy else s.leases space' slot' := by
  unfold lease
  dsimp only
  by_cases hspace : space' = space
  · subst hspace
    by_cases hslot : slot' = slot
    · subst hslot
      simp
    · simp [hslot]
  · simp [hspace]

theorem Sound.lease (hs : s.Sound) {runtime : RuntimePath} (hbegun : s.begun runtime = true)
    (hfree : s.SlotFree space slot runtime.lossy) : (s.lease space slot runtime).Sound := by
  refine ⟨hs.text, ?_, ?_⟩
  · intro space' slot' holder hlease
    rw [leases_lease] at hlease
    split_ifs at hlease with hsame
    · cases hlease
      exact hs.text runtime hbegun ▸ hbegun
    · exact hs.begun space' slot' holder hlease
  · intro other space' slot' hgranted
    rw [leases_lease]
    obtain hnew | hold := List.mem_cons.mp hgranted
    · cases hnew
      exact ⟨hbegun, fun _ ↦ if_pos ⟨rfl, rfl⟩⟩
    · obtain ⟨hother, hlease⟩ := hs.granted other space' slot' hold
      refine ⟨hother, fun hholds ↦ ?_⟩
      by_cases hsame : space' = space ∧ slot' = slot
      · obtain ⟨rfl, rfl⟩ := hsame
        rw [if_pos ⟨rfl, rfl⟩]
        -- a runtime that holds a runner has the slot only if it is the same one
        by_contra hdiffer
        have hidle := hfree other.lossy (hlease hholds) fun heq ↦ hdiffer (heq ▸ rfl)
        rw [← hs.text other hother] at hidle
        exact Bool.false_ne_true (hidle.symm.trans hholds)
      · rw [if_neg hsame]
        exact hlease hholds

theorem Sound.rename (hs : s.Sound) (hidle : s.Idle space) :
    Sound { s with leases := Function.update s.leases space fun _ ↦ none } := by
  refine ⟨hs.text, ?_, ?_⟩
  · intro space' slot holder hlease
    by_cases hsame : space' = space
    · subst hsame
      simp at hlease
    · dsimp only at hlease
      rw [Function.update_of_ne hsame] at hlease
      exact hs.begun space' slot holder hlease
  · intro runtime space' slot hgranted
    obtain ⟨hbegun, hlease⟩ := hs.granted runtime space' slot hgranted
    refine ⟨hbegun, fun hholds ↦ ?_⟩
    by_cases hsame : space' = space
    · subst hsame
      have hnone := hidle slot runtime.lossy (hlease hholds)
      rw [← hs.text runtime hbegun] at hnone
      exact absurd (hnone.symm.trans hholds) Bool.false_ne_true
    · dsimp only
      rw [Function.update_of_ne hsame]
      exact hlease hholds

theorem after_keeps {c : CacheCall} {a : c.Answer} (hs : s.Sound) (hallows : s.Allows i c)
    (hanswers : s.Answers c a) :
    (s.after i c a).Sound ∧ ∀ j, j ≠ i → Rely j s (s.after i c a) := by
  have hsame : s.Sound ∧ ∀ j, j ≠ i → Rely j s s := ⟨hs, fun j _ ↦ Rely.refl s⟩
  -- the lock is of this process, so that no other one counts on the leases
  have hother (hlock : s.lock = some i) {j : ι} (hj : j ≠ i) (h : s.lock = some j) : False :=
    hj (Option.some.inj (h.symm.trans hlock))
  cases c with
  | lock =>
    cases a with
    | false => exact hsame
    | true =>
      have hfree : s.lock = none := hanswers
      refine ⟨⟨hs.text, hs.begun, hs.granted⟩, fun j hj ↦ ?_⟩
      refine ⟨fun _ h ↦ h, fun _ _ h ↦ h, List.Subset.refl _, fun h ↦ ?_⟩
      rw [hfree] at h
      cases h
  | unlock =>
    refine ⟨⟨hs.text, hs.begun, hs.granted⟩, fun j hj ↦ ?_⟩
    exact ⟨fun _ h ↦ h, fun _ _ h ↦ h, List.Subset.refl _, fun h ↦ (hother hallows hj h).elim⟩
  | write what =>
    cases what with
    | lease space slot runtime =>
      cases a with
      | false => exact hsame
      | true =>
        obtain ⟨hlock, hbegun, hfree⟩ := hallows
        refine ⟨hs.lease hbegun hfree, fun j hj ↦ ?_⟩
        exact ⟨fun _ h ↦ h, fun _ _ h ↦ h, List.subset_cons_self _ _,
          fun h ↦ (hother hlock hj h).elim⟩
    | create dir => exact hsame
    | marker space => exact hsame
    | usage => exact hsame
  | rename space =>
    cases a with
    | false => exact hsame
    | true =>
      obtain ⟨hlock, hidle⟩ := hallows
      refine ⟨hs.rename hidle, fun j hj ↦ ?_⟩
      exact ⟨fun _ h ↦ h, fun _ _ h ↦ h, List.Subset.refl _,
        fun h ↦ (hother hlock hj h).elim⟩
  | readLease space slot => exact hsame
  | inspect holder => exact hsame
  | readSlots space => exact hsame
  | measure => exact hsame
  | emptyTrash => exact hsame

end CacheRoot

/-! ## What the programs do -/

section

variable {ι : Type} {i : ι} {s : CacheRoot ι} {space own : String} {α β : Type}

/-- The calls of one process among others. -/
abbrev leaseCalls (i : ι) : Contract CacheCall CacheCall.Answer (CacheRoot ι) :=
  (truthfulCalls i).under CacheRoot.Sound (CacheRoot.Rely i)

theorem ask_wp {c : CacheCall} {f : c.Answer → CacheProgram β}
    {Q : Except CacheFailure β → CacheRoot ι → Prop}
    (hallows : ∀ t, CacheRoot.Rely i s t → t.Sound → t.Allows i c)
    (hnext : ∀ a t, CacheRoot.Rely i s t → t.Sound → t.Answers c a → t.Truthful c a →
      (leaseCalls i).wp (f a) Q (t.after i c a)) :
    (leaseCalls i).wp (ask c >>= f) Q s := by
  refine (Contract.wp_bind _ _).mpr ⟨hallows, ?_⟩
  rintro a _ ⟨t, hrely, hs, htruthful, hanswers, rfl⟩
  exact hnext a t hrely hs hanswers htruthful

theorem ask_wp_of_same {c : CacheCall} {f : c.Answer → CacheProgram β}
    {Q : Except CacheFailure β → CacheRoot ι → Prop} (hallows : ∀ t : CacheRoot ι, t.Allows i c)
    (hsame : ∀ (t : CacheRoot ι) a, t.after i c a = t)
    (hnext : ∀ a t, CacheRoot.Rely i s t → t.Sound → t.Answers c a → t.Truthful c a →
      (leaseCalls i).wp (f a) Q t) :
    (leaseCalls i).wp (ask c >>= f) Q s := by
  refine ask_wp (fun t _ _ ↦ hallows t) fun a t hrely hs hanswers htruthful ↦ ?_
  rw [hsame]
  exact hnext a t hrely hs hanswers htruthful

theorem attempt_wp {what : CacheWrite} {action : String} {f : Unit → CacheProgram β}
    {Q : Except CacheFailure β → CacheRoot ι → Prop}
    (hallows : ∀ t : CacheRoot ι, t.Allows i (.write what))
    (hsame : ∀ (t : CacheRoot ι) a, t.after i (.write what) a = t)
    (hfailed : ∀ t, CacheRoot.Rely i s t → Q (.error (.io action)) t)
    (hnext : ∀ t, CacheRoot.Rely i s t → (leaseCalls i).wp (f ()) Q t) :
    (leaseCalls i).wp (attempt what action >>= f) Q s := by
  refine (Contract.wp_bind _ _).mpr (ask_wp_of_same hallows hsame fun a t hrely _ _ _ ↦ ?_)
  cases a with
  | false => exact hfailed t hrely
  | true => exact hnext t hrely

/-- What is known while a launch looks for a slot. -/
def HasLock (i : ι) (s t : CacheRoot ι) : Prop :=
  t.lock = some i ∧ CacheRoot.Rely i s t

/-- A slot that is found is free. -/
theorem freeSlot_wp (left slot : ℕ) (hlock : s.lock = some i) :
    (leaseCalls i).wp (freeSlot space own left slot)
      (fun result t ↦ HasLock i s t ∧
        ∀ found, result = .ok found → t.Sound ∧ t.SlotFree space found own) s := by
  induction left generalizing slot s with
  | zero => exact ⟨⟨hlock, .refl s⟩, fun found h ↦ nomatch h⟩
  | succ left ih =>
    have hagain {t : CacheRoot ι} (hrely : CacheRoot.Rely i s t) :
        (leaseCalls i).wp (freeSlot space own left (slot + 1))
          (fun result u ↦ HasLock i s u ∧
            ∀ found, result = .ok found → u.Sound ∧ u.SlotFree space found own) t := by
      refine Contract.wp_mono (ih (slot + 1) (hrely.locked hlock).1) fun result u h ↦ ?_
      exact ⟨⟨h.1.1, hrely.trans h.1.2⟩, h.2⟩
    have hfound {t : CacheRoot ι} (hrely : CacheRoot.Rely i s t) (hs : t.Sound)
        (hfree : t.SlotFree space slot own) : HasLock i s t ∧
          ∀ found, (.ok slot : Except CacheFailure ℕ) = .ok found →
            t.Sound ∧ t.SlotFree space found own := by
      refine ⟨⟨(hrely.locked hlock).1, hrely⟩, fun found h ↦ ?_⟩
      cases h
      exact ⟨hs, hfree⟩
    rw [freeSlot]
    refine ask_wp_of_same (fun _ ↦ trivial) (fun _ _ ↦ rfl)
      fun a t hrely hs hanswers htruthful ↦ ?_
    cases a with
    | notFound =>
      have hnone : t.leases space slot = none := htruthful
      exact hfound hrely hs fun holder hlease ↦ nomatch hnone.symm.trans hlease
    | failed => exact hagain hrely
    | text holder =>
      have hholder : t.leases space slot = some holder := hanswers
      dsimp only
      split_ifs with hown
      · refine hfound hrely hs fun other hlease hother ↦ ?_
        rw [hholder, Option.some.injEq] at hlease
        exact absurd (hlease ▸ hown) hother
      · refine ask_wp_of_same (fun _ ↦ trivial) (fun _ _ ↦ rfl)
          fun bin u hrely' hs' hanswers' _ ↦ ?_
        cases hheld : runtimeHoldsRunner bin with
        | true => exact hagain (hrely.trans hrely')
        | false =>
          refine hfound (hrely.trans hrely') hs' fun other hlease _ ↦ ?_
          rw [(hrely'.locked (hrely.locked hlock).1).2, hholder, Option.some.injEq] at hlease
          exact hlease ▸ hanswers' hheld

/-- What is returned was leased. -/
theorem leaseSlot_wp {runtime : RuntimePath} (hlock : s.lock = some i)
    (hbegun : s.begun runtime = true) :
    (leaseCalls i).wp (leaseSlot space runtime)
      (fun result t ↦ t.lock = some i ∧
        ∀ slot, result = .ok slot → (runtime, space, slot) ∈ t.granted) s := by
  have herror {t : CacheRoot ι} {e : CacheFailure} (h : t.lock = some i) : t.lock = some i ∧
      ∀ slot, (.error e : Except CacheFailure ℕ) = .ok slot →
        (runtime, space, slot) ∈ t.granted :=
    ⟨h, fun slot h ↦ nomatch h⟩
  unfold leaseSlot
  refine attempt_wp (fun _ ↦ trivial) (fun _ _ ↦ rfl)
    (fun t hrely ↦ herror (hrely.locked hlock).1) fun t hrely ↦ ?_
  refine Contract.wp_seq (freeSlot_wp _ _ (hrely.locked hlock).1) ?_ ?_
  · rintro slot u ⟨⟨hlock', hrely'⟩, hfound⟩
    obtain ⟨hu, hfree⟩ := hfound slot rfl
    have hsu := hrely.trans hrely'
    -- the slot is still free when the lease is written
    refine (Contract.wp_bind _ _).mpr (ask_wp (fun v huv hv ↦ ?_) fun a v huv hv _ _ ↦ ?_)
    · exact ⟨(huv.locked hlock').1, huv.begun _ (hsu.begun _ hbegun), hfree.rely hu hlock' huv⟩
    · have hlocked := (huv.locked hlock').1
      cases a with
      | false => exact herror hlocked
      | true =>
        refine attempt_wp (fun _ ↦ trivial) (fun _ _ ↦ rfl)
          (fun w hvw ↦ herror (hvw.locked hlocked).1) fun w hvw ↦ ?_
        refine ⟨(hvw.locked hlocked).1, fun found hfound ↦ ?_⟩
        cases hfound
        exact hvw.granted List.mem_cons_self
  · rintro e u ⟨⟨hlock', -⟩, -⟩
    exact herror hlock'

theorem locked_wp {part : CacheProgram α} {P : α → CacheRoot ι → Prop}
    (hpart : ∀ t : CacheRoot ι, t.lock = some i →
      (∀ runtime, s.begun runtime = true → t.begun runtime = true) →
      (leaseCalls i).wp part
        (fun result u ↦ u.lock = some i ∧ ∀ value, result = .ok value → P value u) t)
    (hrely : ∀ value t u, CacheRoot.Rely i t u → P value t → P value u)
    (hunlock : ∀ value (t : CacheRoot ι), P value t → P value { t with lock := none }) :
    (leaseCalls i).wp (locked part)
      (fun result t ↦ ∀ value, result = .ok value → P value t) s := by
  refine ask_wp (fun _ _ _ ↦ trivial) fun a t hst _ _ _ ↦ ?_
  cases a with
  | false => exact fun value h ↦ nomatch h
  | true =>
    refine Contract.wp_outcome_seq (hpart _ rfl hst.begun) ?_
    rintro result u ⟨hlock, hresult⟩
    refine ask_wp (fun v huv _ ↦ (huv.locked hlock).1) fun _ v huv _ _ _ ↦ ?_
    cases result with
    | error e => exact fun value h ↦ nomatch h
    | ok found =>
      intro value hvalue
      cases hvalue
      exact hunlock _ _ (hrely _ u v huv (hresult _ rfl))

/-- What a program that has ended is known to have done. -/
def CacheEnds (result : Except CacheFailure CacheResult) (s : CacheRoot ι) : Prop :=
  ∀ runtime space slot, result = .ok (.launched runtime space slot) →
    (runtime, space, slot) ∈ s.granted

theorem createTools_wp {P : CacheRoot ι → Prop} (paths : List String)
    (hrely : ∀ t u, CacheRoot.Rely i t u → P t → P u) (h : P s) :
    (leaseCalls i).wp (createTools paths) (fun _ t ↦ P t) s := by
  induction paths generalizing s with
  | nil => exact h
  | cons path rest ih =>
    refine attempt_wp (fun _ ↦ trivial) (fun _ _ ↦ rfl) (fun t hst ↦ hrely s t hst h) ?_
    exact fun t hst ↦ ih (hrely s t hst h)

theorem prepareLaunch_wp {runtime : RuntimePath} {dirs : ℕ → List String}
    (hbegun : s.begun runtime = true) :
    (leaseCalls i).wp (prepareLaunch space dirs runtime) CacheEnds s := by
  have hgranted (slot : ℕ) (t u : CacheRoot ι) (hrely : CacheRoot.Rely i t u)
      (h : (runtime, space, slot) ∈ t.granted) : (runtime, space, slot) ∈ u.granted :=
    hrely.granted h
  refine attempt_wp (fun _ ↦ trivial) (fun _ _ ↦ rfl) (fun t _ _ _ _ h ↦ nomatch h) ?_
  intro t hst
  refine Contract.wp_seq (locked_wp
    (fun u hlock hmore ↦ leaseSlot_wp hlock (hmore _ (hst.begun _ hbegun))) hgranted
    fun _ _ h ↦ h) ?_ fun e u _ _ _ _ h ↦ nomatch h
  intro slot u hslot
  refine Contract.wp_seq (createTools_wp (dirs slot) (hgranted slot) (hslot slot rfl)) ?_
    fun e v _ _ _ _ h ↦ nomatch h
  intro _ v hv found space' slot' hsame
  cases hsame
  exact hv

/-! ### Passes -/

/-- Leases that are looked at are of runtimes without a runner, or the namespace is in use. -/
theorem anyHeld_wp (entries : List (Option SlotEntry)) (hlock : s.lock = some i) (hs : s.Sound)
    (hidle : s.IdleBut space entries) :
    (leaseCalls i).wp (anyHeld space entries)
      (fun result t ↦ t.lock = some i ∧ (result = .ok false → t.Sound ∧ t.Idle space)) s := by
  induction entries generalizing s with
  | nil => exact ⟨hlock, fun _ ↦ ⟨hs, CacheRoot.idle_iff.mpr hidle⟩⟩
  | cons entry rest ih =>
    have hskip (hentry : ∀ slot, entry ≠ some (.lease slot)) : s.IdleBut space rest := by
      intro slot holder hlease
      refine (hidle slot holder hlease).imp_left fun hmem ↦ ?_
      exact (List.mem_cons.mp hmem).resolve_left fun h ↦ hentry slot h.symm
    cases entry with
    | none => exact ih hlock hs (hskip fun _ h ↦ nomatch h)
    | some entry =>
      cases entry with
      | other => exact ih hlock hs (hskip fun _ h ↦ nomatch h)
      | lease slot =>
        refine ask_wp_of_same (fun _ ↦ trivial) (fun _ _ ↦ rfl)
          fun a t hrely ht hanswers _ ↦ ?_
        have hlocked := (hrely.locked hlock).1
        cases a with
        | notFound => exact ⟨hlocked, fun h ↦ nomatch h⟩
        | failed => exact ⟨hlocked, fun h ↦ nomatch h⟩
        | text holder =>
          have hholder : t.leases space slot = some holder := hanswers
          refine ask_wp_of_same (fun _ ↦ trivial) (fun _ _ ↦ rfl)
            fun bin u hrely' hu hanswers' _ ↦ ?_
          have hlocked' := (hrely'.locked hlocked).1
          cases hheld : runtimeHoldsRunner bin with
          | true => exact ⟨hlocked', fun h ↦ nomatch h⟩
          | false =>
            refine ih hlocked' hu fun other holder' hlease ↦ ?_
            have hleft := (hidle.rely hs hlock (hrely.trans hrely')) other holder' hlease
            obtain hmem | hended := hleft
            · obtain hsame | hmem := List.mem_cons.mp hmem
              · -- the lease that was just looked at
                cases hsame
                rw [(hrely'.locked hlocked).2, hholder, Option.some.injEq] at hlease
                exact .inr (hlease ▸ hanswers' hheld)
              · exact .inl hmem
            · exact .inr hended

theorem namespaceInUse_wp (hlock : s.lock = some i) :
    (leaseCalls i).wp (namespaceInUse space)
      (fun result t ↦ t.lock = some i ∧ (result = .ok false → t.Sound ∧ t.Idle space)) s := by
  refine ask_wp_of_same (fun _ ↦ trivial) (fun _ _ ↦ rfl) fun a t hrely ht _ htruthful ↦ ?_
  have hlocked := (hrely.locked hlock).1
  cases a with
  | none =>
    have hnone : ∀ slot, t.leases space slot = none := htruthful
    exact ⟨hlocked, fun _ ↦ ⟨ht, fun slot holder h ↦ nomatch (hnone slot).symm.trans h⟩⟩
  | some entries =>
    have hlisted : ∀ slot, t.leases space slot ≠ none → some (.lease slot) ∈ entries := htruthful
    exact anyHeld_wp entries hlocked ht fun slot holder hlease ↦
      .inl (hlisted slot (hlease ▸ Option.some_ne_none holder))

theorem CacheRoot.Idle.rely {t : CacheRoot ι} (h : s.Idle space) (hs : s.Sound)
    (hlock : s.lock = some i) (hrely : CacheRoot.Rely i s t) : t.Idle space := by
  rw [CacheRoot.idle_iff] at h ⊢
  exact h.rely hs hlock hrely

theorem moveAside_wp (planned : List String) (hlock : s.lock = some i) :
    (leaseCalls i).wp (moveAside planned) (fun _ t ↦ t.lock = some i) s := by
  induction planned generalizing s with
  | nil => exact hlock
  | cons space rest ih =>
    refine Contract.wp_seq (namespaceInUse_wp hlock) ?_ fun _ _ h ↦ h.1
    rintro inUse t ⟨hlocked, hidle⟩
    cases inUse with
    | true => exact ih hlocked
    | false =>
      obtain ⟨ht, hidle⟩ := hidle rfl
      refine ask_wp (fun u htu _ ↦ ⟨(htu.locked hlocked).1, hidle.rely ht hlocked htu⟩) ?_
      intro moved u htu _ _ _
      cases moved with
      | false => exact ih (htu.locked hlocked).1
      | true => exact Contract.wp_seq (ih (htu.locked hlocked).1) (fun _ _ h ↦ h) fun _ _ h ↦ h

theorem prune_wp (overflowChecks : Bool) (maxBytes : Option (BitVec 64)) :
    (leaseCalls i).wp (prune overflowChecks maxBytes) CacheEnds s := by
  refine ask_wp_of_same (fun _ ↦ trivial) (fun _ _ ↦ rfl) fun _ t _ _ _ _ ↦ ?_
  refine ask_wp_of_same (fun _ ↦ trivial) (fun _ _ ↦ rfl) fun found u _ _ _ _ ↦ ?_
  cases NamespaceUsage.planPrune overflowChecks found maxBytes with
  | none => exact fun _ _ _ h ↦ nomatch h
  | some planned =>
    have hrest (pruned : List String) (v : CacheRoot ι) : (leaseCalls i).wp (do
        ask .emptyTrash
        attempt .usage "write"
        return .pruned pruned) CacheEnds v := by
      refine ask_wp_of_same (fun _ ↦ trivial) (fun _ _ ↦ rfl) fun _ w _ _ _ _ ↦ ?_
      refine attempt_wp (fun _ ↦ trivial) (fun _ _ ↦ rfl) (fun _ _ _ _ _ h ↦ nomatch h) ?_
      exact fun _ _ _ _ _ h ↦ nomatch h
    have hfailed (e : CacheFailure) (v : CacheRoot ι) : CacheEnds (.error e) v :=
      fun _ _ _ h ↦ nomatch h
    unfold carryOut
    dsimp only
    by_cases hempty : planned.isEmpty = true
    · rw [if_pos hempty]
      exact hrest [] u
    · rw [if_neg hempty]
      refine attempt_wp (fun _ ↦ trivial) (fun _ _ ↦ rfl) (fun v _ ↦ hfailed _ v) fun v _ ↦ ?_
      refine Contract.wp_seq (locked_wp (P := fun _ _ ↦ True) (fun w hlock _ ↦ ?_)
        (fun _ _ _ _ _ ↦ trivial) fun _ _ _ ↦ trivial) (fun pruned w _ ↦ hrest pruned w)
        fun e w _ ↦ hfailed e w
      exact Contract.wp_mono (moveAside_wp planned hlock) fun _ _ h ↦ ⟨h, fun _ _ ↦ trivial⟩

end

/-! ## Every run -/

section

variable {ι : Type}

theorem release_keeps [DecidableEq ι] {s : CacheRoot ι} (i : ι) (hs : s.Sound) :
    (s.release i).Sound ∧ ∀ j, j ≠ i → CacheRoot.Rely j s (s.release i) := by
  unfold CacheRoot.release
  split_ifs with hlock
  · refine ⟨⟨hs.text, hs.begun, hs.granted⟩, fun j hj ↦ ?_⟩
    refine ⟨fun _ h ↦ h, fun _ _ h ↦ h, List.Subset.refl _, fun h ↦ ?_⟩
    exact absurd (Option.some.inj (h.symm.trans hlock)) hj
  · exact ⟨hs, fun j _ ↦ .refl s⟩

theorem begun_keeps {s : CacheRoot ι} {runtime : RuntimePath} (hs : s.Sound)
    (htext : runtime.IsText) :
    CacheRoot.Sound { s with begun := Function.update s.begun runtime true } ∧
      ∀ j, CacheRoot.Rely j s { s with begun := Function.update s.begun runtime true } := by
  have hmore (other : RuntimePath) (h : s.begun other = true) :
      Function.update s.begun runtime true other = true := by
    by_cases hsame : other = runtime
    · rw [hsame, Function.update_self]
    · rw [Function.update_of_ne hsame, h]
  refine ⟨⟨fun other hother ↦ ?_, ?_, ?_⟩, fun j ↦ ⟨hmore, fun _ _ h ↦ h, ?_, fun h ↦ ⟨h, rfl⟩⟩⟩
  · by_cases hsame : other = runtime
    · exact hsame ▸ htext
    · dsimp only at hother
      rw [Function.update_of_ne hsame] at hother
      exact hs.text other hother
  · exact fun space slot holder h ↦ hmore _ (hs.begun space slot holder h)
  · intro other space slot h
    obtain ⟨hbegun, hlease⟩ := hs.granted other space slot h
    exact ⟨hmore other hbegun, hlease⟩
  · exact List.Subset.refl _

theorem passes_keep {s t : CacheRoot ι} (hs : s.Sound) (h : s.Passes t) :
    t.Sound ∧ ∀ j, CacheRoot.Rely j s t := by
  cases h with
  | @begin runtime hnew =>
    have hother {other : RuntimePath} (hbegun : s.begun other = true) :
        Function.update s.holds runtime true other = s.holds other := by
      refine Function.update_of_ne ?_ _ _
      rintro rfl
      exact Bool.false_ne_true (hnew.symm.trans hbegun)
    refine ⟨⟨hs.text, hs.begun, fun other space slot h ↦ ?_⟩, fun j ↦
      ⟨fun _ h ↦ h, fun other hbegun h ↦ (hother hbegun).trans h, List.Subset.refl _,
        fun h ↦ ⟨h, rfl⟩⟩⟩
    obtain ⟨hbegun, hlease⟩ := hs.granted other space slot h
    exact ⟨hbegun, fun hholds ↦ hlease ((hother hbegun).symm.trans hholds)⟩
  | cleanup runtime =>
    have hfewer {other : RuntimePath} (h : Function.update s.holds runtime false other = true) :
        s.holds other = true := by
      by_cases hsame : other = runtime
      · rw [hsame, Function.update_self] at h
        cases h
      · rwa [Function.update_of_ne hsame] at h
    refine ⟨⟨hs.text, hs.begun, fun other space slot h ↦ ?_⟩, fun j ↦
      ⟨fun _ h ↦ h, fun other _ h ↦ ?_, List.Subset.refl _, fun h ↦ ⟨h, rfl⟩⟩⟩
    · obtain ⟨hbegun, hlease⟩ := hs.granted other space slot h
      exact ⟨hbegun, fun hholds ↦ hlease (hfewer hholds)⟩
    · by_contra hholds
      rw [Bool.not_eq_false] at hholds
      exact Bool.false_ne_true (h.symm.trans (hfewer hholds))

variable [DecidableEq ι] {P : CachePool ι}

theorem leases_meet (h : CacheReachedTruthfully P) :
    Contract.Opened.Meets truthfulCalls CacheRoot.Sound CacheRoot.Rely (fun _ ↦ CacheEnds) P := by
  refine Contract.Opened.sound (fun _ s ↦ .refl s) (fun _ _ _ _ hst htu ↦ hst.trans htu) ?_ ?_ ?_
    ?_ (fun _ _ hs hpass ↦ passes_keep hs hpass) h
  · exact fun i result s t hrely hends runtime space slot hdone ↦
      hrely.granted (hends runtime space slot hdone)
  · rintro P rfl
    refine ⟨⟨fun _ h ↦ (nomatch h), fun _ _ _ h ↦ (nomatch h), fun _ _ _ h ↦ (nomatch h)⟩, ?_⟩
    exact fun _ _ _ _ h ↦ nomatch h
  · rintro i s c a t hs hallows ⟨-, hanswers, rfl⟩
    exact CacheRoot.after_keeps hs hallows hanswers
  · intro i s p t q hs _ hopen
    obtain ⟨hreleased, hrely⟩ := release_keeps i hs
    cases hopen with
    | launch space dirs htext hruns =>
      obtain ⟨ht, hbegun⟩ := begun_keeps hreleased htext
      refine ⟨⟨ht, fun j hj ↦ (hrely j hj).trans (hbegun j)⟩, ?_⟩
      exact prepareLaunch_wp (Function.update_self _ _ _)
    | prune overflowChecks maxBytes => exact ⟨⟨hreleased, hrely⟩, prune_wp overflowChecks maxBytes⟩

/-- Leases are safe in every run, of any number of processes, in which a lease directory is read
whole or is missing, a lease that is there is not missing, and every path is a text. -/
theorem leases_safe (h : CacheReachedTruthfully P) : LeasesSafe P := by
  obtain ⟨hs, hmeets⟩ := leases_meet h
  refine ⟨fun i runtime space slot hdone ↦ ?_, ?_, ?_⟩
  · have hi := hmeets i
    rw [hdone] at hi
    exact hi runtime space slot rfl
  · intro first second space slot hfirst hsecond hholds hholds'
    obtain ⟨hbegun, hlease⟩ := hs.granted first space slot hfirst
    obtain ⟨hbegun', hlease'⟩ := hs.granted second space slot hsecond
    have hlossy : first.lossy = second.lossy :=
      Option.some.inj ((hlease hholds).symm.trans (hlease' hholds'))
    rw [hs.text first hbegun, hs.text second hbegun', hlossy]
  · intro i space next hpoint runtime slot hbegun hholds hlease
    have hi := hmeets i
    rw [hpoint] at hi
    obtain ⟨-, hidle⟩ : P.shared.Allows i (.rename space) := hi.1 P.shared (.refl _) hs
    have hnone := hidle slot runtime.lossy hlease
    rw [← hs.text runtime hbegun, hholds] at hnone
    cases hnone

theorem reached_of_truthfully (h : CacheReachedTruthfully P) : CacheReached P := by
  induction h with
  | start h => exact .start h
  | call _ hpoint a hstep ih => exact .call ih hpoint a hstep.2
  | reopen _ hopen ih =>
    refine .reopen ih ?_
    cases hopen with
    | launch space dirs _ hruns => exact .launch space dirs trivial hruns
    | prune overflowChecks maxBytes => exact .prune overflowChecks maxBytes
  | move _ hmove ih => exact .move ih hmove

end

/-! ## A launch and a pass -/

/-- A runtime, whose runner uses a namespace. -/
def firstRuntime : RuntimePath := .utf8 "/run/1"

theorem launch_leased : ∃ P : CachePool (Fin 2), CacheReachedTruthfully P ∧
    P.point 0 = .done (.ok (.launched firstRuntime "octo/widgets" 1)) ∧
    P.shared.holds firstRuntime = true ∧ P.shared.begun firstRuntime = true ∧
    P.shared.leases "octo/widgets" 1 = some firstRuntime.lossy ∧ P.shared.lock = none := by
  have h₀ : CacheReachedTruthfully (CachePool.fresh (Fin 2)) := .start rfl
  have h₁ := h₀.move (@CacheRoot.Passes.begin _ _ firstRuntime rfl)
  have h₂ := h₁.restart 0 _ _
    (.launch "octo/widgets" (fun _ ↦ []) (rfl : firstRuntime.IsText) (.inl rfl))
  have h₃ := h₂.advance 0 (.write (.create .root)) true _ rfl ⟨trivial, trivial, rfl⟩
  have h₄ := h₃.advance 0 .lock true _ rfl ⟨trivial, rfl, rfl⟩
  have h₅ := h₄.advance 0 (.write (.create (.slots "octo/widgets"))) true _ rfl
    ⟨trivial, trivial, rfl⟩
  have h₆ := h₅.advance 0 (.readLease "octo/widgets" 1) .notFound _ rfl ⟨rfl, trivial, rfl⟩
  have h₇ := h₆.advance 0 (.write (.lease "octo/widgets" 1 firstRuntime)) true _ rfl
    ⟨trivial, trivial, rfl⟩
  have h₈ := h₇.advance 0 (.write (.marker "octo/widgets")) true _ rfl ⟨trivial, trivial, rfl⟩
  have h₉ := h₈.advance 0 .unlock () _ rfl ⟨trivial, trivial, rfl⟩
  exact ⟨_, h₉, rfl, rfl, rfl, rfl, rfl⟩

/-- A slot that is leased truthfully is safe. -/
theorem launch_leased_safely : ∃ P : CachePool (Fin 2), LeasesSafe P ∧
    (firstRuntime, "octo/widgets", 1) ∈ P.shared.granted ∧
    P.shared.holds firstRuntime = true := by
  obtain ⟨P, hreached, hdone, hholds, -⟩ := launch_leased
  have hsafe := leases_safe hreached
  exact ⟨P, hsafe, hsafe.leased 0 _ _ _ hdone, hholds⟩

/-- A pass that cannot read the leases of a namespace takes it to be free, and moves it aside while
a runner uses it. -/
theorem used_namespace_moved : ¬ ∀ P : CachePool (Fin 2), CacheReached P → LeasesSafe P := by
  intro hall
  obtain ⟨P, hreached, -, hholds, hbegun, hlease, hlock⟩ := launch_leased
  have hrelease : P.shared.release 1 = P.shared := if_neg (by simp [hlock])
  have h₀ := reached_of_truthfully hreached
  have hopen : CacheOpens (P.shared.release 1) (fun _ ↦ True) P.shared (prune false (some 0)) := by
    rw [hrelease]
    exact .prune false (some 0)
  have h₁ := h₀.restart 1 P.shared _ hopen
  have h₂ := h₁.advance 1 .emptyTrash () _ rfl ⟨trivial, rfl⟩
  have h₃ := h₂.advance 1 .measure [⟨"octo/widgets", 1, none, false⟩] _ rfl ⟨trivial, rfl⟩
  have hplan : NamespaceUsage.planPrune false [⟨"octo/widgets", 1, none, false⟩] (some 0) =
      some ["octo/widgets"] := by
    decide +kernel
  have h₄ := h₃.advance 1 (.write (.create .trash)) true _ (congrArg carryOut hplan) ⟨trivial, rfl⟩
  have h₅ := h₄.advance 1 .lock true _ rfl ⟨hlock, rfl⟩
  have h₆ := h₅.advance 1 (.readSlots "octo/widgets") none _ rfl ⟨trivial, rfl⟩
  exact (hall _ h₆).kept 1 "octo/widgets" _ rfl firstRuntime 1 hbegun hholds hlease

end RunnerManager.Platform
