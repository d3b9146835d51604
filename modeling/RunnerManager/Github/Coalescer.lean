import RunnerManager.Lib.Interleaving

/-!
# Refreshes that join the one in flight

`RefreshCoalescer` of `crates/github/src/rest.rs`. Any number of calls of `refresh` share one
coalescer, and each of them may be dropped where it awaits: in the queue of the gate, or in its own
work, which lets go of the gate. What a call does at once is one `RefreshCall`; nothing keeps
another thread from sampling between two of them, so that the work of a call may have completed
before the generation says so. Read `Joins` first: it is what the generation and the gate make of
a result that is shared.
-/

namespace RunnerManager.Github

/-! ## The code -/

/-- What a call of `refresh` does at once. -/
inductive RefreshCall (T : Type) where
  | sample
  | lockGate
  | recheck
  | last
  | join
  | startWork
  | awaitWork
  | store (outcome : T)
  | perform
  | bump
  | unlockGate

abbrev RefreshCall.Answer {T : Type} : RefreshCall T → Type
  | sample => UInt64
  | recheck => UInt64
  | last => Option T
  | awaitWork => T
  | _ => Unit

/-- The future of a call was dropped. -/
inductive Dropped where
  | dropped
deriving DecidableEq

/-- What a call of `refresh` runs. -/
abbrev RefreshProgram (T : Type) := Program (RefreshCall T) RefreshCall.Answer Dropped

namespace RefreshCoalescer

variable {T : Type}

def ask (c : RefreshCall T) : RefreshProgram T c.Answer :=
  .perform c

/-- The part of `refresh` that runs its own work. -/
def refreshOwn : RefreshProgram T T := do
  ask .startWork
  let outcome ← ask .awaitWork
  ask (.store outcome)
  ask .perform
  ask .bump
  ask .unlockGate
  return outcome

/-- `RefreshCoalescer::refresh`; the gate is let go of at its end. -/
def refresh : RefreshProgram T T := do
  let sampled ← ask .sample
  ask .lockGate
  if (← ask .recheck) ≠ sampled then
    match ← ask .last with
    | some shared =>
      ask .join
      ask .unlockGate
      return shared
    | none => refreshOwn
  else refreshOwn

end RefreshCoalescer

/-! ## The shared coalescer -/

/-- What is recorded of the calls, in its order. -/
inductive RefreshEvent (ι T : Type) where
  | sampled (i : ι)
  | locked (i : ι)
  | joined (i : ι) (outcome : T)
  | completed (i : ι) (outcome : T)
  | bumped (i : ι) (outcome : T)
  | dropped (i : ι)
deriving DecidableEq

/-- Where a call is. -/
inductive RefreshPhase (T : Type) where
  | idle
  | waiting (sampled : UInt64)
  | holding (sampled : UInt64)
  | moved
  | free
  | found (outcome : T)
  | joined (outcome : T)
  | running
  | completed (outcome : T)
  | stored (outcome : T)
  | counted (outcome : T)
  | bumped (outcome : T)
  | returned (outcome : T)
  | dropped
deriving DecidableEq

namespace RefreshPhase

variable {ι T : Type}

/-- What a call does next. -/
inductive Allows : RefreshPhase T → RefreshCall T → Prop
  | sample : Allows idle .sample
  | lockGate (sampled : UInt64) : Allows (waiting sampled) .lockGate
  | recheck (sampled : UInt64) : Allows (holding sampled) .recheck
  | last : Allows moved .last
  | join (outcome : T) : Allows (found outcome) .join
  | startWork : Allows free .startWork
  | awaitWork : Allows running .awaitWork
  | store (outcome : T) : Allows (completed outcome) (.store outcome)
  | perform (outcome : T) : Allows (stored outcome) .perform
  | bump (outcome : T) : Allows (counted outcome) .bump
  | leaveJoined (outcome : T) : Allows (joined outcome) .unlockGate
  | leaveOwn (outcome : T) : Allows (bumped outcome) .unlockGate

/-- Where a call is after what it did. -/
@[simp]
def after : RefreshPhase T → (c : RefreshCall T) → c.Answer → RefreshPhase T
  | idle, .sample, generation => waiting generation
  | waiting sampled, .lockGate, _ => holding sampled
  | holding sampled, .recheck, generation => if generation = sampled then free else moved
  | moved, .last, some outcome => found outcome
  | moved, .last, none => free
  | free, .startWork, _ => running
  | found outcome, .join, _ => joined outcome
  | running, .awaitWork, outcome => completed outcome
  | completed outcome, .store _, _ => stored outcome
  | stored outcome, .perform, _ => counted outcome
  | counted outcome, .bump, _ => bumped outcome
  | joined outcome, .unlockGate, _ => returned outcome
  | bumped outcome, .unlockGate, _ => returned outcome
  | phase, _, _ => phase

/-- What is recorded of what a call did. -/
@[simp]
def event (i : ι) : RefreshPhase T → (c : RefreshCall T) → c.Answer → List (RefreshEvent ι T)
  | _, .sample, _ => [.sampled i]
  | _, .lockGate, _ => [.locked i]
  | found outcome, .join, _ => [.joined i outcome]
  | _, .awaitWork, outcome => [.completed i outcome]
  | counted outcome, .bump, _ => [.bumped i outcome]
  | _, _, _ => []

@[simp]
def result (i : ι) : RefreshPhase T → RefreshCall T → List (ι × T)
  | joined outcome, .unlockGate => [(i, outcome)]
  | bumped outcome, .unlockGate => [(i, outcome)]
  | _, _ => []

def AtGate : RefreshPhase T → Prop
  | idle | waiting _ | returned _ | dropped => False
  | _ => True

/-- The phases of a call whose result is stored and whose generation is not counted. -/
def Publishes : RefreshPhase T → Prop
  | stored _ | counted _ => True
  | _ => False

/-- The phases of a call that is counted and has not returned. -/
def owes : RefreshPhase T → Bool
  | joined _ | counted _ | bumped _ => true
  | _ => false

end RefreshPhase

/-- A coalescer, and the record of its calls. -/
structure SharedCoalescer (ι T : Type) where
  generation : UInt64
  gate : Option ι
  last : Option T
  performed : UInt64
  joined : UInt64
  phase : ι → RefreshPhase T
  log : List (RefreshEvent ι T)
  returned : List (ι × T)

namespace SharedCoalescer

variable {ι T : Type} [DecidableEq ι]

@[simp]
def acts (s : SharedCoalescer ι T) (i : ι) : RefreshCall T → SharedCoalescer ι T
  | .lockGate => { s with gate := some i }
  | .join => { s with joined := s.joined + 1 }
  | .store outcome => { s with last := some outcome }
  | .perform => { s with performed := s.performed + 1 }
  | .bump => { s with generation := s.generation + 1 }
  | .unlockGate => { s with gate := none }
  | _ => s

/-- What a call is answered. The gate is locked when it is free, and work may yield anything. -/
def Answers (s : SharedCoalescer ι T) : (c : RefreshCall T) → c.Answer → Prop
  | .sample, generation => generation = s.generation
  | .recheck, generation => generation = s.generation
  | .last, outcome => outcome = s.last
  | .lockGate, _ => s.gate = none
  | _, _ => True

def does (s : SharedCoalescer ι T) (i : ι) (c : RefreshCall T) (answer : c.Answer) :
    SharedCoalescer ι T :=
  { s.acts i c with
    phase := Function.update s.phase i ((s.phase i).after c answer)
    log := s.log ++ (s.phase i).event i c answer
    returned := s.returned ++ (s.phase i).result i c }

/-- A call is dropped that awaits the gate. -/
def dropsWaiting (s : SharedCoalescer ι T) (i : ι) : SharedCoalescer ι T :=
  { s with
    phase := Function.update s.phase i .dropped
    log := s.log ++ [.dropped i] }

/-- A call is dropped that awaits its work, and the gate with it. -/
def dropsWorking (s : SharedCoalescer ι T) (i : ι) : SharedCoalescer ι T :=
  { s with
    gate := none
    phase := Function.update s.phase i .dropped
    log := s.log ++ [.dropped i] }

end SharedCoalescer

def refreshCalls {ι T : Type} [DecidableEq ι] (i : ι) :
    Contract (RefreshCall T) RefreshCall.Answer (SharedCoalescer ι T) where
  requires s c := (s.phase i).Allows c
  steps s c answer t := s.Answers c answer ∧ t = s.does i c answer

/-- The futures that are dropped. -/
inductive RefreshDrops {ι T : Type} [DecidableEq ι] (i : ι) (s : SharedCoalescer ι T) :
    RefreshProgram T T → SharedCoalescer ι T → RefreshProgram T T → Prop
  | waiting (next : Unit → RefreshProgram T T) :
      RefreshDrops i s (.ask .lockGate next) (s.dropsWaiting i) (.fail .dropped)
  | working (next : T → RefreshProgram T T) :
      RefreshDrops i s (.ask .awaitWork next) (s.dropsWorking i) (.fail .dropped)

/-- Any number of calls of one coalescer. -/
abbrev RefreshPool (ι T : Type) :=
  Pool (RefreshCall T) RefreshCall.Answer Dropped T (SharedCoalescer ι T) ι

/-- `RefreshCoalescer::new`, and calls of it that have not begun. -/
def RefreshPool.fresh (ι T : Type) : RefreshPool ι T where
  shared := ⟨0, none, none, 0, 0, fun _ ↦ .idle, [], []⟩
  point _ := RefreshCoalescer.refresh

/-- What the calls of one coalescer reach, in any order, and with any of them dropped. -/
abbrev RefreshReached {ι T : Type} [DecidableEq ι] (Q : RefreshPool ι T) : Prop :=
  Contract.Opened refreshCalls (· = RefreshPool.fresh ι T) RefreshDrops (fun _ _ ↦ False) Q

/-! ## What one call does -/

namespace SharedCoalescer

section

variable {ι T : Type} [DecidableEq ι]

def enter (s : SharedCoalescer ι T) (i : ι) (phase : RefreshPhase T) : SharedCoalescer ι T :=
  { s with phase := Function.update s.phase i phase }

def note (s : SharedCoalescer ι T) (event : RefreshEvent ι T) : SharedCoalescer ι T :=
  { s with log := s.log ++ [event] }

/-- Everything a call does in its turn, and what dropping it does. -/
inductive Moves (i : ι) (s : SharedCoalescer ι T) : SharedCoalescer ι T → Prop
  | sample (h : s.phase i = .idle) :
      Moves i s ((s.enter i (.waiting s.generation)).note (.sampled i))
  | lock {sampled : UInt64} (h : s.phase i = .waiting sampled) (hgate : s.gate = none) :
      Moves i s (({ s with gate := some i }.enter i (.holding sampled)).note (.locked i))
  | current {sampled : UInt64} (h : s.phase i = .holding sampled) (hsame : s.generation = sampled) :
      Moves i s (s.enter i .free)
  | moved {sampled : UInt64} (h : s.phase i = .holding sampled) (hother : s.generation ≠ sampled) :
      Moves i s (s.enter i .moved)
  | found {outcome : T} (h : s.phase i = .moved) (hlast : s.last = some outcome) :
      Moves i s (s.enter i (.found outcome))
  | nothing (h : s.phase i = .moved) (hlast : s.last = none) : Moves i s (s.enter i .free)
  | join {outcome : T} (h : s.phase i = .found outcome) :
      Moves i s (({ s with joined := s.joined + 1 }.enter i (.joined outcome)).note
        (.joined i outcome))
  | start (h : s.phase i = .free) : Moves i s (s.enter i .running)
  | complete (outcome : T) (h : s.phase i = .running) :
      Moves i s ((s.enter i (.completed outcome)).note (.completed i outcome))
  | store {outcome : T} (h : s.phase i = .completed outcome) :
      Moves i s ({ s with last := some outcome }.enter i (.stored outcome))
  | perform {outcome : T} (h : s.phase i = .stored outcome) :
      Moves i s ({ s with performed := s.performed + 1 }.enter i (.counted outcome))
  | bump {outcome : T} (h : s.phase i = .counted outcome) :
      Moves i s (({ s with generation := s.generation + 1 }.enter i (.bumped outcome)).note
        (.bumped i outcome))
  | leave {outcome : T} (h : s.phase i = .joined outcome ∨ s.phase i = .bumped outcome) :
      Moves i s ({ s with gate := none, returned := s.returned ++ [(i, outcome)] }.enter i
        (.returned outcome))
  | dropWaiting {sampled : UInt64} (h : s.phase i = .waiting sampled) :
      Moves i s (s.dropsWaiting i)
  | dropWorking (h : s.phase i = .running) : Moves i s (s.dropsWorking i)

variable {i j : ι} {s t : SharedCoalescer ι T}

theorem does_eq {c : RefreshCall T} {answer : c.Answer} {p : RefreshPhase T} (hp : s.phase i = p) :
    s.does i c answer = { s.acts i c with
      phase := Function.update s.phase i (p.after c answer)
      log := s.log ++ p.event i c answer
      returned := s.returned ++ p.result i c } := by
  rw [← hp]
  rfl

theorem moves_of_does {c : RefreshCall T} {answer : c.Answer} (hallows : (s.phase i).Allows c)
    (hanswers : s.Answers c answer) : s.Moves i (s.does i c answer) := by
  obtain ⟨p, hp⟩ : ∃ p, s.phase i = p := ⟨_, rfl⟩
  rw [hp] at hallows
  rw [does_eq hp]
  cases hallows with
  | sample =>
    cases hanswers
    simpa [enter, note] using Moves.sample hp
  | lockGate sampled => simpa [enter, note] using Moves.lock hp hanswers
  | recheck sampled =>
    cases hanswers
    by_cases hsame : s.generation = sampled
    · simpa [hsame, enter] using Moves.current hp hsame
    · simpa [hsame, enter] using Moves.moved hp hsame
  | last =>
    cases answer with
    | some outcome => simpa [enter, note] using Moves.found hp hanswers.symm
    | none => simpa [enter, note] using Moves.nothing hp hanswers.symm
  | join outcome => simpa [enter, note] using Moves.join hp
  | startWork => simpa [enter, note] using Moves.start hp
  | awaitWork => simpa [enter, note] using Moves.complete answer hp
  | store outcome => simpa [enter, note] using Moves.store hp
  | perform outcome => simpa [enter, note] using Moves.perform hp
  | bump outcome => simpa [enter, note] using Moves.bump hp
  | leaveJoined outcome => simpa [enter, note] using Moves.leave (.inl hp)
  | leaveOwn outcome => simpa [enter, note] using Moves.leave (.inr hp)

end

end SharedCoalescer

/-! ## What is recorded -/

namespace RefreshEvent

variable {ι T : Type}

def published : RefreshEvent ι T → Option T
  | bumped _ outcome => some outcome
  | _ => none

end RefreshEvent

section

variable {ι T : Type}

/-- The published results, in their order. -/
def published (log : List (RefreshEvent ι T)) : List T :=
  log.filterMap RefreshEvent.published

/-- One event is recorded before another. -/
def Precedes (log : List (RefreshEvent ι T)) (earlier later : RefreshEvent ι T) : Prop :=
  ∃ before after, log = before ++ earlier :: after ∧ later ∈ after

/-- A call sampled, and what was recorded before that published as many results as the sample
counts. -/
def SampledAs (log : List (RefreshEvent ι T)) (i : ι) (sampled : UInt64) : Prop :=
  ∃ before after, log = before ++ .sampled i :: after ∧
    sampled = UInt64.ofNat (published before).length

/-- A call sampled and got the gate, and nothing was published since. -/
def LockedAs (log : List (RefreshEvent ι T)) (i : ι) (sampled : UInt64) : Prop :=
  ∃ before waited after, log = before ++ .sampled i :: (waited ++ .locked i :: after) ∧
    sampled = UInt64.ofNat (published before).length ∧ published after = []

/-- Something was published while a call waited for the gate, and nothing since. -/
def MovedFor (log : List (RefreshEvent ι T)) (i : ι) : Prop :=
  ∃ before waited after, log = before ++ .sampled i :: (waited ++ .locked i :: after) ∧
    published waited ≠ [] ∧ published after = []

/-- A result was published while a call waited for the gate. -/
def Joins (log : List (RefreshEvent ι T)) (i : ι) (outcome : T) : Prop :=
  ∃ j before waited after, log = before ++ .sampled i :: (waited ++ .locked i :: after) ∧
    .bumped j outcome ∈ waited

variable {log added : List (RefreshEvent ι T)} {i : ι} {sampled : UInt64} {outcome : T}

theorem published_append : published (log ++ added) = published log ++ published added :=
  List.filterMap_append

theorem published_cons (event : RefreshEvent ι T) :
    published (event :: log) = event.published.toList ++ published log := by
  cases h : event.published with
  | none => simp [published, h]
  | some outcome => simp [published, h]

theorem published_snoc (event : RefreshEvent ι T) :
    published (log ++ [event]) = published log ++ event.published.toList := by
  rw [published_append, published_cons]
  exact congrArg (published log ++ ·) (List.append_nil _)

theorem exists_bumped_of_published (h : outcome ∈ published log) :
    ∃ j, .bumped j outcome ∈ log := by
  obtain ⟨event, hevent, hpublished⟩ := List.mem_filterMap.mp h
  cases event with
  | bumped j found =>
    cases hpublished
    exact ⟨j, hevent⟩
  | _ => cases hpublished

theorem Precedes.append {earlier later : RefreshEvent ι T} (h : Precedes log earlier later)
    (added : List (RefreshEvent ι T)) : Precedes (log ++ added) earlier later := by
  obtain ⟨before, after, rfl, hlater⟩ := h
  exact ⟨before, after ++ added, by simp, List.mem_append_left _ hlater⟩

theorem Precedes.mem_drop {earlier later : RefreshEvent ι T} (h : Precedes log earlier later) :
    ∃ k < log.length, log[k]? = some earlier ∧ later ∈ log.drop (k + 1) := by
  obtain ⟨before, after, rfl, hlater⟩ := h
  refine ⟨before.length, by simp, by simp, ?_⟩
  rw [← List.drop_drop, List.drop_left]
  exact hlater

theorem precedes_last {earlier : RefreshEvent ι T} (h : earlier ∈ log)
    (later : RefreshEvent ι T) : Precedes (log ++ [later]) earlier later := by
  obtain ⟨before, after, rfl⟩ := List.append_of_mem h
  exact ⟨before, after ++ [later], by simp, by simp⟩

theorem SampledAs.append (h : SampledAs log i sampled) (added : List (RefreshEvent ι T)) :
    SampledAs (log ++ added) i sampled := by
  obtain ⟨before, after, rfl, hsampled⟩ := h
  exact ⟨before, after ++ added, by simp, hsampled⟩

theorem Joins.append (h : Joins log i outcome) (added : List (RefreshEvent ι T)) :
    Joins (log ++ added) i outcome := by
  obtain ⟨j, before, waited, after, rfl, hbumped⟩ := h
  exact ⟨j, before, waited, after ++ added, by simp, hbumped⟩

theorem LockedAs.append (h : LockedAs log i sampled) (hquiet : published added = []) :
    LockedAs (log ++ added) i sampled := by
  obtain ⟨before, waited, after, rfl, hsampled, hafter⟩ := h
  exact ⟨before, waited, after ++ added, by simp, hsampled,
    by rw [published_append, hafter, hquiet, List.append_nil]⟩

theorem MovedFor.append (h : MovedFor log i) (hquiet : published added = []) :
    MovedFor (log ++ added) i := by
  obtain ⟨before, waited, after, rfl, hwaited, hafter⟩ := h
  exact ⟨before, waited, after ++ added, by simp, hwaited,
    by rw [published_append, hafter, hquiet, List.append_nil]⟩

theorem published_locked (before waited after : List (RefreshEvent ι T)) :
    published (before ++ .sampled i :: (waited ++ .locked i :: after)) =
      published before ++ published waited ++ published after := by
  rw [published_append, published_cons, published_append, published_cons]
  simp [RefreshEvent.published]

theorem SampledAs.locked (h : SampledAs log i sampled) :
    LockedAs (log ++ [.locked i]) i sampled := by
  obtain ⟨before, after, rfl, hsampled⟩ := h
  exact ⟨before, after, [], by simp, hsampled, rfl⟩

theorem LockedAs.moved (h : LockedAs log i sampled)
    (hother : UInt64.ofNat (published log).length ≠ sampled) : MovedFor log i := by
  obtain ⟨before, waited, after, rfl, hsampled, hafter⟩ := h
  refine ⟨before, waited, after, rfl, fun hnone ↦ hother ?_, hafter⟩
  rw [published_locked, hnone, hafter, List.append_nil, List.append_nil, hsampled]

theorem MovedFor.joins (h : MovedFor log i) (hlast : (published log).getLast? = some outcome) :
    Joins log i outcome := by
  obtain ⟨before, waited, after, rfl, hwaited, hafter⟩ := h
  rw [published_locked, hafter, List.append_nil, List.getLast?_append,
    List.getLast?_eq_some_getLast hwaited, Option.some_or, ← List.getLast?_eq_some_getLast] at hlast
  obtain ⟨j, hj⟩ := exists_bumped_of_published (List.mem_of_getLast? hlast)
  exact ⟨j, before, waited, after, rfl, hj⟩

end

/-! ## The invariant -/

namespace SharedCoalescer

section

variable {ι T : Type}

/-- What holds of a call in a phase. -/
def Fits (s : SharedCoalescer ι T) (i : ι) : RefreshPhase T → Prop
  | .waiting sampled => SampledAs s.log i sampled
  | .holding sampled => LockedAs s.log i sampled
  | .moved => MovedFor s.log i
  | .found outcome => Joins s.log i outcome
  | .joined outcome => .joined i outcome ∈ s.log
  | .completed outcome => .completed i outcome ∈ s.log
  | .stored outcome | .counted outcome => .completed i outcome ∈ s.log ∧ s.last = some outcome
  | .bumped outcome => .completed i outcome ∈ s.log
  | .returned outcome => .completed i outcome ∈ s.log ∨ .joined i outcome ∈ s.log
  | _ => True

/-- How many calls are counted and have not returned. -/
def owed (s : SharedCoalescer ι T) : Nat :=
  match s.gate with
  | some i => if (s.phase i).owes then 1 else 0
  | none => 0

/-- What is known of a coalescer between two calls. -/
structure Sound (s : SharedCoalescer ι T) : Prop where
  atGate : ∀ i, (s.phase i).AtGate → s.gate = some i
  fits : ∀ i, s.Fits i (s.phase i)
  generation : s.generation = UInt64.ofNat (published s.log).length
  /-- The result that is shared is the one that was published last. -/
  last : (∀ i, ¬ (s.phase i).Publishes) → s.last = (published s.log).getLast?
  /-- What is published was completed before, by a call that is not dropped. -/
  bumped : ∀ i outcome, .bumped i outcome ∈ s.log →
    Precedes s.log (.completed i outcome) (.bumped i outcome) ∧
      (s.phase i = .bumped outcome ∨ s.phase i = .returned outcome)
  dropped : ∀ i, .dropped i ∈ s.log → s.phase i = .dropped
  joined : ∀ i outcome, .joined i outcome ∈ s.log → Joins s.log i outcome
  returned : ∀ i outcome, (i, outcome) ∈ s.returned ↔ s.phase i = .returned outcome
  once : (s.returned.map (·.1)).Nodup
  counted : s.performed + s.joined = UInt64.ofNat (s.returned.length + s.owed)

theorem Sound.not_publishing {s : SharedCoalescer ι T} {i : ι} (hs : s.Sound)
    (hat : (s.phase i).AtGate) (hnot : ¬ (s.phase i).Publishes) (j : ι) :
    ¬ (s.phase j).Publishes := by
  intro hj
  have hjat : (s.phase j).AtGate := by
    cases hp : s.phase j <;> rw [hp] at hj <;> trivial
  have hji : j = i := Option.some.inj ((hs.atGate j hjat).symm.trans (hs.atGate i hat))
  rw [hji] at hj
  exact hnot hj

theorem owed_of_gate {s : SharedCoalescer ι T} {i : ι} (hgate : s.gate = some i) :
    s.owed = if (s.phase i).owes then 1 else 0 := by
  unfold owed
  rw [hgate]

theorem owed_congr {s t : SharedCoalescer ι T} (hgate : t.gate = s.gate)
    (h : ∀ j, (t.phase j).owes = (s.phase j).owes) : t.owed = s.owed := by
  unfold owed
  rw [hgate]
  cases s.gate with
  | none => rfl
  | some j => simp only [h j]

variable [DecidableEq ι] {i j : ι} {s t : SharedCoalescer ι T}

theorem Moves.other (h : s.Moves i t) (hj : j ≠ i) : t.phase j = s.phase j := by
  cases h <;> exact Function.update_of_ne hj _ _

theorem Moves.adds (h : s.Moves i t) : ∃ added, t.log = s.log ++ added ∧
    (¬ (s.phase i).AtGate → published added = [] ∧ t.last = s.last) := by
  cases h with
  | sample | lock | dropWaiting => exact ⟨_, rfl, fun _ ↦ ⟨rfl, rfl⟩⟩
  | current h | moved h | found h | nothing h | start h | store h | perform h =>
    exact ⟨[], (List.append_nil _).symm, fun hnot ↦ absurd (by rw [h]; trivial) hnot⟩
  | join h | complete _ h | bump h | dropWorking h =>
    exact ⟨_, rfl, fun hnot ↦ absurd (by rw [h]; trivial) hnot⟩
  | leave h =>
    refine ⟨[], (List.append_nil _).symm, fun hnot ↦ absurd ?_ hnot⟩
    rcases h with h | h <;> rw [h] <;> trivial

theorem Moves.gate_cases (h : s.Moves i t) :
    (t.gate = s.gate ∧ ((t.phase i).AtGate → (s.phase i).AtGate)) ∨
      (s.gate = none ∧ t.gate = some i) ∨
        ((s.phase i).AtGate ∧ ¬ (t.phase i).AtGate ∧ t.gate = none) := by
  cases h with
  | sample | dropWaiting =>
    refine .inl ⟨rfl, fun hat ↦ ?_⟩
    simp [enter, note, dropsWaiting, RefreshPhase.AtGate] at hat
  | lock h hgate => exact .inr (.inl ⟨hgate, rfl⟩)
  | current h | moved h | found h | nothing h | start h | store h | perform h | join h
  | complete _ h | bump h => exact .inl ⟨rfl, fun _ ↦ by rw [h]; trivial⟩
  | dropWorking h =>
    refine .inr (.inr ⟨by rw [h]; trivial, ?_, rfl⟩)
    simp [dropsWorking, RefreshPhase.AtGate]
  | leave h =>
    refine .inr (.inr ⟨?_, ?_, rfl⟩)
    · rcases h with h | h <;> rw [h] <;> trivial
    · simp [enter, RefreshPhase.AtGate]

theorem Sound.moves_atGate (hs : s.Sound) (h : s.Moves i t) (hj : (t.phase j).AtGate) :
    t.gate = some j := by
  by_cases hji : j = i
  · subst hji
    rcases h.gate_cases with ⟨hgate, hat⟩ | ⟨-, hgate⟩ | ⟨-, hnot, -⟩
    · rw [hgate]
      exact hs.atGate j (hat hj)
    · exact hgate
    · exact absurd hj hnot
  · rw [h.other hji] at hj
    have hheld := hs.atGate j hj
    rcases h.gate_cases with ⟨hgate, -⟩ | ⟨hnone, -⟩ | ⟨hat, -, -⟩
    · rw [hgate, hheld]
    · rw [hnone] at hheld
      cases hheld
    · rw [hs.atGate i hat] at hheld
      exact absurd (Option.some.inj hheld).symm hji

/-- What fits a call still fits it after a move of another. -/
theorem Fits.moves {p : RefreshPhase T} (hfits : s.Fits j p) (h : s.Moves i t)
    (hquiet : p.AtGate → ¬ (s.phase i).AtGate) : t.Fits j p := by
  obtain ⟨added, hlog, hadds⟩ := h.adds
  unfold Fits
  cases p with
  | idle | free | running | dropped => trivial
  | waiting sampled =>
    show SampledAs t.log j sampled
    rw [hlog]
    exact SampledAs.append hfits added
  | holding sampled =>
    show LockedAs t.log j sampled
    rw [hlog]
    exact LockedAs.append hfits (hadds (hquiet trivial)).1
  | moved =>
    show MovedFor t.log j
    rw [hlog]
    exact MovedFor.append hfits (hadds (hquiet trivial)).1
  | found outcome =>
    show Joins t.log j outcome
    rw [hlog]
    exact Joins.append hfits added
  | joined outcome | completed outcome | bumped outcome =>
    rw [hlog]
    exact List.mem_append_left _ hfits
  | stored outcome | counted outcome =>
    show _ ∈ t.log ∧ t.last = some outcome
    rw [hlog, (hadds (hquiet trivial)).2]
    exact ⟨List.mem_append_left _ hfits.1, hfits.2⟩
  | returned outcome =>
    show _ ∈ t.log ∨ _ ∈ t.log
    rw [hlog]
    exact hfits.imp (List.mem_append_left _) (List.mem_append_left _)

theorem Sound.fits_moved (hs : s.Sound) (h : s.Moves i t) : t.Fits i (t.phase i) := by
  have hfits := hs.fits i
  cases h with
  | sample hp =>
    simp only [enter, note, Function.update_self]
    exact ⟨s.log, [], rfl, hs.generation⟩
  | lock hp =>
    rw [hp] at hfits
    simp only [enter, note, Function.update_self]
    exact SampledAs.locked hfits
  | current hp | nothing hp | start hp =>
    simp only [enter, Function.update_self]
    trivial
  | moved hp hother =>
    rw [hp] at hfits
    rw [hs.generation] at hother
    simp only [enter, Function.update_self]
    exact LockedAs.moved hfits hother
  | found hp hlast =>
    rw [hp] at hfits
    have hnobody := hs.not_publishing (i := i) (by rw [hp]; trivial) (by rw [hp]; exact id)
    rw [hs.last hnobody] at hlast
    simp only [enter, Function.update_self]
    exact MovedFor.joins hfits hlast
  | join hp =>
    simp only [enter, note, Function.update_self]
    exact List.mem_append_right _ (List.mem_singleton_self _)
  | complete outcome hp =>
    simp only [enter, note, Function.update_self]
    exact List.mem_append_right _ (List.mem_singleton_self _)
  | store hp =>
    rw [hp] at hfits
    simp only [enter, Function.update_self]
    exact ⟨hfits, rfl⟩
  | perform hp =>
    rw [hp] at hfits
    simp only [enter, Function.update_self]
    exact hfits
  | bump hp =>
    rw [hp] at hfits
    simp only [enter, note, Function.update_self]
    exact List.mem_append_left _ hfits.1
  | leave hp =>
    simp only [enter, Function.update_self]
    rcases hp with hp | hp
    · rw [hp] at hfits
      exact .inr hfits
    · rw [hp] at hfits
      exact .inl hfits
  | dropWaiting hp =>
    simp only [dropsWaiting, Function.update_self]
    trivial
  | dropWorking hp =>
    simp only [dropsWorking, Function.update_self]
    trivial

theorem Sound.generation_moved (hs : s.Sound) (h : s.Moves i t) :
    t.generation = UInt64.ofNat (published t.log).length := by
  cases h with
  | current | moved | found | nothing | start | store | perform | leave => exact hs.generation
  | sample | lock | join | complete | dropWaiting | dropWorking =>
    show s.generation = UInt64.ofNat (published (s.log ++ [_])).length
    rw [published_snoc]
    simpa [RefreshEvent.published] using hs.generation
  | bump =>
    show s.generation + 1 = UInt64.ofNat (published (s.log ++ [_])).length
    rw [published_snoc, hs.generation]
    simp [RefreshEvent.published]

theorem Sound.last_moved (hs : s.Sound) (h : s.Moves i t) (hnot : ∀ j, ¬ (t.phase j).Publishes) :
    t.last = (published t.log).getLast? := by
  have hbefore (hi : ¬ (s.phase i).Publishes) : s.last = (published s.log).getLast? := by
    refine hs.last fun j ↦ ?_
    by_cases hji : j = i
    · rw [hji]
      exact hi
    · rw [← h.other hji]
      exact hnot j
  cases h with
  | current hp | moved hp | found hp | nothing hp | start hp =>
    exact hbefore (by rw [hp]; exact id)
  | leave hp => exact hbefore (by rcases hp with hp | hp <;> rw [hp] <;> exact id)
  | sample hp | lock hp | join hp | complete _ hp | dropWaiting hp | dropWorking hp =>
    show s.last = (published (s.log ++ [_])).getLast?
    rw [published_snoc, hbefore (by rw [hp]; exact id)]
    simp [RefreshEvent.published]
  | store hp | perform hp =>
    refine absurd ?_ (hnot i)
    simp [enter, RefreshPhase.Publishes]
  | bump hp =>
    have hfits := hs.fits i
    rw [hp] at hfits
    show s.last = (published (s.log ++ [_])).getLast?
    rw [published_snoc, hfits.2]
    simp [RefreshEvent.published]

theorem Moves.active (h : s.Moves i t) :
    s.phase i ≠ .dropped ∧ ∀ outcome, s.phase i ≠ .returned outcome := by
  cases h with
  | leave hp =>
    rcases hp with hp | hp <;> rw [hp] <;> exact ⟨fun h ↦ (nomatch h), fun _ h ↦ (nomatch h)⟩
  | sample hp | lock hp | current hp | moved hp | found hp | nothing hp | join hp | start hp
  | complete _ hp | store hp | perform hp | bump hp | dropWaiting hp | dropWorking hp =>
    rw [hp]
    exact ⟨fun h ↦ (nomatch h), fun _ h ↦ (nomatch h)⟩

theorem Moves.recorded (h : s.Moves i t) : t.log = s.log ∨ ∃ event, t.log = s.log ++ [event] ∧
    (event = .sampled i ∨ event = .locked i ∨ (∃ outcome, event = .completed i outcome) ∨
      (∃ outcome, event = .joined i outcome ∧ s.phase i = .found outcome) ∨
      (∃ outcome, event = .bumped i outcome ∧ s.phase i = .counted outcome ∧
        t.phase i = .bumped outcome) ∨
      event = .dropped i ∧ t.phase i = .dropped) := by
  cases h with
  | current | moved | found | nothing | start | store | perform | leave => exact .inl rfl
  | sample => exact .inr ⟨_, rfl, .inl rfl⟩
  | lock => exact .inr ⟨_, rfl, .inr (.inl rfl)⟩
  | complete outcome => exact .inr ⟨_, rfl, .inr (.inr (.inl ⟨outcome, rfl⟩))⟩
  | join hp => exact .inr ⟨_, rfl, .inr (.inr (.inr (.inl ⟨_, rfl, hp⟩)))⟩
  | bump hp =>
    exact .inr ⟨_, rfl, .inr (.inr (.inr (.inr (.inl ⟨_, rfl, hp, Function.update_self _ _ _⟩))))⟩
  | dropWaiting | dropWorking =>
    exact .inr ⟨_, rfl, .inr (.inr (.inr (.inr (.inr ⟨rfl, Function.update_self _ _ _⟩))))⟩

/-- What was published was completed before, and its call goes on to return. -/
theorem Sound.bumped_moved (hs : s.Sound) (h : s.Moves i t) {outcome : T}
    (hj : .bumped j outcome ∈ t.log) :
    Precedes t.log (.completed j outcome) (.bumped j outcome) ∧
      (t.phase j = .bumped outcome ∨ t.phase j = .returned outcome) := by
  obtain ⟨added, hlog, -⟩ := h.adds
  by_cases hold : .bumped j outcome ∈ s.log
  · obtain ⟨hprecedes, hphase⟩ := hs.bumped j outcome hold
    refine ⟨hlog ▸ hprecedes.append added, ?_⟩
    by_cases hji : j = i
    · subst hji
      rcases hphase with hphase | hphase
      · -- the only move of a call that has published is to return
        cases h with
        | leave hp =>
          rcases hp with hp | hp
          · rw [hp] at hphase
            cases hphase
          · rw [hp] at hphase
            cases hphase
            exact .inr (Function.update_self _ _ _)
        | sample hp | lock hp | current hp | moved hp | found hp | nothing hp | join hp | start hp
        | complete _ hp | store hp | perform hp | bump hp | dropWaiting hp | dropWorking hp =>
          rw [hp] at hphase
          cases hphase
      · exact absurd hphase (h.active.2 outcome)
    · rw [h.other hji]
      exact hphase
  · rcases h.recorded with hsame | ⟨event, hsnoc, hevent⟩
    · exact absurd (hsame ▸ hj) hold
    · rw [hsnoc] at hj ⊢
      obtain rfl := List.mem_singleton.mp ((List.mem_append.mp hj).resolve_left hold)
      rcases hevent with h | h | ⟨_, h⟩ | ⟨_, h, -⟩ | ⟨found, hfound, hcounted, hphase⟩ | ⟨h, -⟩
      · cases h
      · cases h
      · cases h
      · cases h
      · cases hfound
        have hfits := hs.fits i
        rw [hcounted] at hfits
        exact ⟨precedes_last hfits.1 _, .inl hphase⟩
      · cases h

theorem Sound.dropped_moved (hs : s.Sound) (h : s.Moves i t) (hj : .dropped j ∈ t.log) :
    t.phase j = .dropped := by
  have hkept (hold : .dropped j ∈ s.log) : t.phase j = .dropped := by
    have hphase := hs.dropped j hold
    have hji : j ≠ i := fun hji ↦ h.active.1 (hji ▸ hphase)
    rw [h.other hji, hphase]
  rcases h.recorded with hsame | ⟨event, hsnoc, hevent⟩
  · exact hkept (hsame ▸ hj)
  · rw [hsnoc] at hj
    rcases List.mem_append.mp hj with hold | hnew
    · exact hkept hold
    · obtain rfl := List.mem_singleton.mp hnew
      rcases hevent with h | h | ⟨_, h⟩ | ⟨_, h, -⟩ | ⟨_, h, -⟩ | ⟨h, hphase⟩
      · cases h
      · cases h
      · cases h
      · cases h
      · cases h
      · cases h
        exact hphase

theorem Sound.joined_moved (hs : s.Sound) (h : s.Moves i t) {outcome : T}
    (hj : .joined j outcome ∈ t.log) : Joins t.log j outcome := by
  have hkept {log : List (RefreshEvent ι T)} (hlog : t.log = s.log ++ log)
      (hjoins : Joins s.log j outcome) : Joins t.log j outcome := hlog ▸ hjoins.append log
  rcases h.recorded with hsame | ⟨event, hsnoc, hevent⟩
  · exact hkept (hsame.trans (List.append_nil _).symm) (hs.joined j outcome (hsame ▸ hj))
  · refine hkept hsnoc ?_
    rw [hsnoc] at hj
    rcases List.mem_append.mp hj with hold | hnew
    · exact hs.joined j outcome hold
    · obtain rfl := List.mem_singleton.mp hnew
      rcases hevent with h | h | ⟨_, h⟩ | ⟨_, h, hfound⟩ | ⟨_, h, -⟩ | ⟨h, -⟩
      · cases h
      · cases h
      · cases h
      · cases h
        have hfits := hs.fits i
        rw [hfound] at hfits
        exact hfits
      · cases h
      · cases h

theorem Moves.returns (h : s.Moves i t) :
    (t.returned = s.returned ∧ ∀ outcome, t.phase i ≠ .returned outcome) ∨
      ∃ outcome, t.returned = s.returned ++ [(i, outcome)] ∧ t.phase i = .returned outcome := by
  cases h with
  | leave => exact .inr ⟨_, rfl, Function.update_self _ _ _⟩
  | sample | lock | current | moved | found | nothing | join | start | complete | store | perform
  | bump | dropWaiting | dropWorking =>
    refine .inl ⟨rfl, fun outcome hphase ↦ ?_⟩
    simp [enter, note, dropsWaiting, dropsWorking] at hphase

theorem Sound.returned_moved (hs : s.Sound) (h : s.Moves i t) (outcome : T) :
    (j, outcome) ∈ t.returned ↔ t.phase j = .returned outcome := by
  by_cases hji : j = i
  · subst hji
    have hnot : (j, outcome) ∉ s.returned := fun hold ↦
      h.active.2 outcome ((hs.returned j outcome).mp hold)
    rcases h.returns with ⟨hsame, hphase⟩ | ⟨found, hsnoc, hphase⟩
    · exact iff_of_false (hsame ▸ hnot) (hphase outcome)
    · rw [hsnoc, hphase, List.mem_append, or_iff_right hnot, List.mem_singleton, Prod.mk.injEq,
        RefreshPhase.returned.injEq, eq_comm (a := outcome)]
      exact and_iff_right rfl
  · rw [h.other hji, ← hs.returned]
    rcases h.returns with ⟨hsame, -⟩ | ⟨found, hsnoc, -⟩
    · rw [hsame]
    · rw [hsnoc, List.mem_append, List.mem_singleton, Prod.mk.injEq]
      exact or_iff_left fun hnew ↦ hji hnew.1

theorem Sound.once_moved (hs : s.Sound) (h : s.Moves i t) : (t.returned.map (·.1)).Nodup := by
  rcases h.returns with ⟨hsame, -⟩ | ⟨found, hsnoc, -⟩
  · rw [hsame]
    exact hs.once
  · rw [hsnoc, List.map_append, List.nodup_append]
    refine ⟨hs.once, by simp, fun j hj k hk hjk ↦ ?_⟩
    obtain ⟨⟨j', outcome⟩, hold, rfl⟩ := List.mem_map.mp hj
    obtain rfl : k = i := List.mem_singleton.mp hk
    subst hjk
    exact h.active.2 outcome ((hs.returned _ outcome).mp hold)

theorem Moves.owes (h : s.Moves i t) (hi : (t.phase i).owes = (s.phase i).owes) (j : ι) :
    (t.phase j).owes = (s.phase j).owes := by
  by_cases hji : j = i
  · rw [hji]
    exact hi
  · rw [h.other hji]

theorem Sound.counted_moved (hs : s.Sound) (h : s.Moves i t) :
    t.performed + t.joined = UInt64.ofNat (t.returned.length + t.owed) := by
  have hcounted := hs.counted
  have hquiet (hgate : t.gate = s.gate) (howes : (t.phase i).owes = (s.phase i).owes)
      (hcounts : t.performed + t.joined = s.performed + s.joined)
      (hreturned : t.returned = s.returned) :
      t.performed + t.joined = UInt64.ofNat (t.returned.length + t.owed) := by
    rw [owed_congr hgate (h.owes howes), hcounts, hreturned]
    exact hcounted
  have howed {p : RefreshPhase T} (hp : s.phase i = p) (hat : p.AtGate) :
      s.gate = some i ∧ s.owed = if p.owes then 1 else 0 := by
    have hgate := hs.atGate i (hp ▸ hat)
    exact ⟨hgate, hp ▸ owed_of_gate hgate⟩
  have hafter {p : RefreshPhase T} (hgate : t.gate = some i) (hp : t.phase i = p) :
      t.owed = if p.owes then 1 else 0 := hp ▸ owed_of_gate hgate
  cases h with
  | sample hp | current hp | moved hp | found hp | nothing hp | start hp | complete _ hp | store hp
  | bump hp | dropWaiting hp =>
    refine hquiet rfl ?_ rfl rfl
    simp [enter, note, dropsWaiting, hp, RefreshPhase.owes]
  | lock hp hgate =>
    have hnone : s.owed = 0 := by
      unfold owed
      rw [hgate]
    rw [hnone] at hcounted
    simpa [enter, note, owed, RefreshPhase.owes] using hcounted
  | join hp =>
    obtain ⟨hgate, hnone⟩ := howed hp trivial
    have hbefore : s.performed + s.joined = UInt64.ofNat s.returned.length := by
      rw [hnone] at hcounted
      exact hcounted
    rw [hafter hgate (Function.update_self _ _ _)]
    show s.performed + (s.joined + 1) = UInt64.ofNat (s.returned.length + 1)
    rw [← UInt64.add_assoc, hbefore]
    exact (UInt64.ofNat_add _ 1).symm
  | perform hp =>
    obtain ⟨hgate, hnone⟩ := howed hp trivial
    have hbefore : s.performed + s.joined = UInt64.ofNat s.returned.length := by
      rw [hnone] at hcounted
      exact hcounted
    rw [hafter hgate (Function.update_self _ _ _)]
    show s.performed + 1 + s.joined = UInt64.ofNat (s.returned.length + 1)
    rw [UInt64.add_assoc, UInt64.add_comm 1, ← UInt64.add_assoc, hbefore]
    exact (UInt64.ofNat_add _ 1).symm
  | leave hp =>
    have hone : s.owed = 1 := by
      rcases hp with hp | hp
      · exact (howed hp trivial).2
      · exact (howed hp trivial).2
    rw [hone] at hcounted
    show s.performed + s.joined = UInt64.ofNat ((s.returned ++ [_]).length + 0)
    rw [hcounted, List.length_append]
    rfl
  | dropWorking hp =>
    rw [(howed hp trivial).2] at hcounted
    exact hcounted

theorem Sound.moves (hs : s.Sound) (h : s.Moves i t) : t.Sound where
  atGate _ := hs.moves_atGate h
  fits j := by
    by_cases hji : j = i
    · rw [hji]
      exact hs.fits_moved h
    · rw [h.other hji]
      refine Fits.moves (hs.fits j) h fun hj hi ↦ hji ?_
      exact Option.some.inj ((hs.atGate j hj).symm.trans (hs.atGate i hi))
  generation := hs.generation_moved h
  last := hs.last_moved h
  bumped _ _ := hs.bumped_moved h
  dropped _ := hs.dropped_moved h
  joined _ _ := hs.joined_moved h
  returned _ := hs.returned_moved h
  once := hs.once_moved h
  counted := hs.counted_moved h

end

end SharedCoalescer

/-! ## Programs -/

section

variable {ι T : Type} [DecidableEq ι] {i : ι} {s t : SharedCoalescer ι T}

/-- What the other calls leave to one. -/
def RefreshRely (i : ι) (s t : SharedCoalescer ι T) : Prop :=
  t.phase i = s.phase i

abbrev refreshAmong (i : ι) : Contract (RefreshCall T) RefreshCall.Answer (SharedCoalescer ι T) :=
  (refreshCalls i).under SharedCoalescer.Sound (RefreshRely i)

/-- Where a call is that has ended. -/
def RefreshEnds (i : ι) (result : Except Dropped T) (s : SharedCoalescer ι T) : Prop :=
  match result with
  | .ok outcome => s.phase i = .returned outcome
  | .error _ => s.phase i = .dropped

theorem refresh_seq_wp {α : Type} {c : RefreshCall T} {f : c.Answer → RefreshProgram T α}
    {Q : Except Dropped α → SharedCoalescer ι T → Prop} {p : RefreshPhase T}
    (hp : s.phase i = p) (hallows : p.Allows c)
    (hf : ∀ a t, t.phase i = p.after c a → (refreshAmong i).wp (f a) Q t) :
    (refreshAmong i).wp (RefreshCoalescer.ask c >>= f) Q s := by
  refine ⟨fun t hrely _ ↦ ?_, ?_⟩
  · show (t.phase i).Allows c
    rw [hrely, hp]
    exact hallows
  · rintro a u ⟨t, hrely, -, -, rfl⟩
    refine hf a _ ?_
    show Function.update t.phase i ((t.phase i).after c a) i = _
    rw [Function.update_self, hrely, hp]

theorem refreshOwn_wp (hp : s.phase i = .free) :
    (refreshAmong i).wp RefreshCoalescer.refreshOwn (RefreshEnds i) s := by
  refine refresh_seq_wp hp .startWork fun _ s₁ h₁ ↦ ?_
  refine refresh_seq_wp h₁ .awaitWork fun outcome s₂ h₂ ↦ ?_
  refine refresh_seq_wp h₂ (.store outcome) fun _ s₃ h₃ ↦ ?_
  refine refresh_seq_wp h₃ (.perform outcome) fun _ s₄ h₄ ↦ ?_
  refine refresh_seq_wp h₄ (.bump outcome) fun _ s₅ h₅ ↦ ?_
  exact refresh_seq_wp h₅ (.leaveOwn outcome) fun _ s₆ h₆ ↦ h₆

theorem refresh_wp (hp : s.phase i = .idle) :
    (refreshAmong i).wp RefreshCoalescer.refresh (RefreshEnds i) s := by
  refine refresh_seq_wp hp .sample fun sampled s₁ h₁ ↦ ?_
  refine refresh_seq_wp h₁ (.lockGate sampled) fun _ s₂ h₂ ↦ ?_
  refine refresh_seq_wp h₂ (.recheck sampled) fun generation s₃ h₃ ↦ ?_
  have h₃ : s₃.phase i = if generation = sampled then .free else .moved := h₃
  by_cases hsame : generation = sampled
  · rw [if_pos hsame] at h₃
    rw [if_neg (not_not_intro hsame)]
    exact refreshOwn_wp h₃
  · rw [if_neg hsame] at h₃
    rw [if_pos hsame]
    refine refresh_seq_wp h₃ .last fun shared s₄ h₄ ↦ ?_
    cases shared with
    | none => exact refreshOwn_wp h₄
    | some outcome =>
      refine refresh_seq_wp h₄ (.join outcome) fun _ s₅ h₅ ↦ ?_
      exact refresh_seq_wp h₅ (.leaveJoined outcome) fun _ s₆ h₆ ↦ h₆

theorem RefreshDrops.moves {p q : RefreshProgram T T} (hdrop : RefreshDrops i s p t q)
    (hs : s.Sound) (hp : (refreshAmong i).wp p (RefreshEnds i) s) :
    s.Moves i t ∧ t.phase i = .dropped ∧ q = .fail .dropped := by
  cases hdrop with
  | waiting next =>
    have hallows : (s.phase i).Allows .lockGate := hp.1 s rfl hs
    obtain ⟨p, hphase⟩ : ∃ p, s.phase i = p := ⟨_, rfl⟩
    rw [hphase] at hallows
    cases hallows
    exact ⟨.dropWaiting hphase, Function.update_self _ _ _, rfl⟩
  | working next =>
    have hallows : (s.phase i).Allows .awaitWork := hp.1 s rfl hs
    obtain ⟨p, hphase⟩ : ∃ p, s.phase i = p := ⟨_, rfl⟩
    rw [hphase] at hallows
    cases hallows
    exact ⟨.dropWorking hphase, Function.update_self _ _ _, rfl⟩

theorem refresh_meets {Q : RefreshPool ι T} (h : RefreshReached Q) :
    Contract.Opened.Meets refreshCalls SharedCoalescer.Sound RefreshRely RefreshEnds Q := by
  refine Contract.Opened.sound (fun _ _ ↦ rfl) (fun _ _ _ _ hst htu ↦ htu.trans hst) ?_ ?_ ?_ ?_
    (fun _ _ _ hmove ↦ hmove.elim) h
  · intro i result s t hrely hends
    cases result with
    | ok outcome => exact hrely.trans hends
    | error e => exact hrely.trans hends
  · rintro P rfl
    refine ⟨⟨?_, ?_, rfl, fun _ ↦ rfl, ?_, ?_, ?_, ?_, List.nodup_nil, rfl⟩, fun i ↦ refresh_wp rfl⟩
    · exact fun _ hat ↦ hat.elim
    · exact fun _ ↦ trivial
    · exact fun _ _ hevent ↦ nomatch hevent
    · exact fun _ hevent ↦ nomatch hevent
    · exact fun _ _ hevent ↦ nomatch hevent
    · exact fun _ _ ↦ iff_of_false (fun h ↦ nomatch h) (fun h ↦ nomatch h)
  · rintro i s c a t hs hallows ⟨hanswers, rfl⟩
    have hmoves := SharedCoalescer.moves_of_does hallows hanswers
    exact ⟨hs.moves hmoves, fun j hj ↦ hmoves.other hj⟩
  · intro i s p t q hs hp hdrop
    obtain ⟨hmoves, hphase, rfl⟩ := hdrop.moves hs hp
    exact ⟨⟨hs.moves hmoves, fun j hj ↦ hmoves.other hj⟩, hphase⟩

end

/-! ## Every run -/

section

variable {ι T : Type}

/-- The rest of a call that is counted and has not returned. -/
def Settling : RefreshProgram T T → Prop
  | .ask .bump _ => True
  | .ask .unlockGate _ => True
  | _ => False

/-- What coalescing is. Work is running where a call awaits it. -/
structure Coalesces (Q : RefreshPool ι T) : Prop where
  alone : ∀ i j next next', Q.point i = .ask .awaitWork next →
    Q.point j = .ask .awaitWork next' → i = j
  /-- A call returns what its own work yielded, or what it joined. -/
  returns : ∀ i outcome, Q.point i = .done (.ok outcome) →
    .completed i outcome ∈ Q.shared.log ∨ .joined i outcome ∈ Q.shared.log
  /-- What a call joins was yielded by the work of a call that is not dropped, and was published
  between the sample of the call and its turn at the gate. -/
  joins : ∀ i outcome, .joined i outcome ∈ Q.shared.log → ∃ j before waited after,
    Q.shared.log = before ++ .sampled i :: (waited ++ .locked i :: after) ∧
      .bumped j outcome ∈ waited ∧
      Precedes Q.shared.log (.completed j outcome) (.bumped j outcome) ∧
      .dropped j ∉ Q.shared.log
  returned : ∀ i outcome, (i, outcome) ∈ Q.shared.returned ↔ Q.point i = .done (.ok outcome)
  once : (Q.shared.returned.map (·.1)).Nodup
  counted : (∀ i, ¬ Settling (Q.point i)) →
    Q.shared.performed + Q.shared.joined = UInt64.ofNat Q.shared.returned.length
  settling : ∀ i, Settling (Q.point i) →
    Q.shared.performed + Q.shared.joined = UInt64.ofNat (Q.shared.returned.length + 1)

variable [DecidableEq ι] {Q : RefreshPool ι T} {i : ι}

theorem allows_of_meets
    (h : Contract.Opened.Meets refreshCalls SharedCoalescer.Sound RefreshRely RefreshEnds Q)
    {c : RefreshCall T} {next : c.Answer → RefreshProgram T T} (hpoint : Q.point i = .ask c next) :
    (Q.shared.phase i).Allows c := by
  have hi := h.2 i
  rw [hpoint] at hi
  exact hi.1 Q.shared rfl h.1

theorem returned_iff_done
    (h : Contract.Opened.Meets refreshCalls SharedCoalescer.Sound RefreshRely RefreshEnds Q)
    {outcome : T} : Q.shared.phase i = .returned outcome ↔ Q.point i = .done (.ok outcome) := by
  have hi := h.2 i
  cases hpoint : Q.point i with
  | ask c next =>
    have hallows := allows_of_meets h hpoint
    refine iff_of_false (fun hphase ↦ ?_) fun hdone ↦ (nomatch hdone)
    rw [hphase] at hallows
    cases hallows
  | done result =>
    rw [hpoint] at hi
    cases result with
    | ok found =>
      have hi : Q.shared.phase i = .returned found := hi
      rw [hi]
      simp
    | error e =>
      have hi : Q.shared.phase i = .dropped := hi
      rw [hi]
      simp

theorem owes_iff_settling
    (h : Contract.Opened.Meets refreshCalls SharedCoalescer.Sound RefreshRely RefreshEnds Q) :
    (Q.shared.phase i).owes = true ↔ Settling (Q.point i) := by
  have hi := h.2 i
  cases hpoint : Q.point i with
  | ask c next =>
    have hallows := allows_of_meets h hpoint
    generalize Q.shared.phase i = p at hallows
    cases hallows <;> simp [RefreshPhase.owes, Settling]
  | done result =>
    rw [hpoint] at hi
    cases result with
    | ok found =>
      have hi : Q.shared.phase i = .returned found := hi
      simp [hi, RefreshPhase.owes, Settling]
    | error e =>
      have hi : Q.shared.phase i = .dropped := hi
      simp [hi, RefreshPhase.owes, Settling]

/-- In every run of any number of calls, whatever their work yields and whichever of them are
dropped: one work runs at a time, a call returns its own result or one that was published while it
waited, and the calls that returned are those that are counted. -/
theorem refresh_coalesces (h : RefreshReached Q) : Coalesces Q := by
  have hmeets := refresh_meets h
  have hs := hmeets.1
  refine ⟨?_, ?_, ?_, fun i outcome ↦ ?_, hs.once, fun hnone ↦ ?_, fun i hi ↦ ?_⟩
  · intro i j next next' hi hj
    have hgate {k : ι} {rest : T → RefreshProgram T T} (hk : Q.point k = .ask .awaitWork rest) :
        Q.shared.gate = some k := by
      have hallows := allows_of_meets hmeets hk
      obtain ⟨p, hphase⟩ : ∃ p, Q.shared.phase k = p := ⟨_, rfl⟩
      rw [hphase] at hallows
      cases hallows
      exact hs.atGate k (by rw [hphase]; trivial)
    exact Option.some.inj ((hgate hi).symm.trans (hgate hj))
  · intro i outcome hdone
    have hfits := hs.fits i
    rw [(returned_iff_done hmeets).mpr hdone] at hfits
    exact hfits
  · intro i outcome hjoined
    obtain ⟨j, before, waited, after, hlog, hbumped⟩ := hs.joined i outcome hjoined
    have hmem : .bumped j outcome ∈ Q.shared.log := by
      rw [hlog]
      simp [hbumped]
    obtain ⟨hprecedes, hphase⟩ := hs.bumped j outcome hmem
    refine ⟨j, before, waited, after, hlog, hbumped, hprecedes, fun hdropped ↦ ?_⟩
    rw [hs.dropped j hdropped] at hphase
    rcases hphase with hphase | hphase <;> cases hphase
  · exact (hs.returned i outcome).trans (returned_iff_done hmeets)
  · have howed : Q.shared.owed = 0 := by
      unfold SharedCoalescer.owed
      cases hgate : Q.shared.gate with
      | none => rfl
      | some i => exact if_neg fun howes ↦ hnone i ((owes_iff_settling hmeets).mp howes)
    have hcounted := hs.counted
    rw [howed] at hcounted
    exact hcounted
  · have howes := (owes_iff_settling hmeets).mpr hi
    have hat : (Q.shared.phase i).AtGate := by
      cases hphase : Q.shared.phase i <;> rw [hphase] at howes <;> trivial
    have hcounted := hs.counted
    rw [SharedCoalescer.owed_of_gate (hs.atGate i hat), if_pos howes] at hcounted
    exact hcounted

theorem joins_what_was_done : ∃ Q : RefreshPool (Fin 2) Nat, RefreshReached Q ∧
    Q.shared.log = [.sampled 0, .locked 0, .completed 0 7, .sampled 1, .bumped 0 7, .locked 1,
      .joined 1 7] ∧ Q.point 1 = .done (.ok 7) := by
  have h₀ : RefreshReached (RefreshPool.fresh (Fin 2) Nat) := .start rfl
  have h₁ := h₀.advance 0 .sample (0 : UInt64) _ rfl ⟨rfl, rfl⟩
  have h₂ := h₁.advance 0 .lockGate () _ rfl ⟨rfl, rfl⟩
  have h₃ := h₂.advance 0 .recheck (0 : UInt64) _ rfl ⟨rfl, rfl⟩
  have h₄ := h₃.advance 0 .startWork () _ rfl ⟨trivial, rfl⟩
  have h₅ := h₄.advance 0 .awaitWork (7 : Nat) _ rfl ⟨trivial, rfl⟩
  have j₁ := h₅.advance 1 .sample (0 : UInt64) _ rfl ⟨rfl, rfl⟩
  have h₆ := j₁.advance 0 (.store 7) () _ rfl ⟨trivial, rfl⟩
  have h₇ := h₆.advance 0 .perform () _ rfl ⟨trivial, rfl⟩
  have h₈ := h₇.advance 0 .bump () _ rfl ⟨trivial, rfl⟩
  have h₉ := h₈.advance 0 .unlockGate () _ rfl ⟨trivial, rfl⟩
  have j₂ := h₉.advance 1 .lockGate () _ rfl ⟨rfl, rfl⟩
  have j₃ := j₂.advance 1 .recheck (1 : UInt64) _ rfl ⟨rfl, rfl⟩
  have j₄ := j₃.advance 1 .last (some 7) _ rfl ⟨rfl, rfl⟩
  have j₅ := j₄.advance 1 .join () _ rfl ⟨trivial, rfl⟩
  have j₆ := j₅.advance 1 .unlockGate () _ rfl ⟨trivial, rfl⟩
  exact ⟨_, j₆, rfl, rfl⟩

/-- A call may join a result whose work completed before the call began. -/
theorem joined_work_older : ¬ ∀ Q : RefreshPool (Fin 2) Nat, RefreshReached Q →
    ∀ i outcome, .joined i outcome ∈ Q.shared.log →
      ∃ j, Precedes Q.shared.log (.sampled i) (.completed j outcome) := by
  intro hall
  obtain ⟨Q, hreached, hlog, -⟩ := joins_what_was_done
  obtain ⟨j, hprecedes⟩ := hall Q hreached 1 7 (by rw [hlog]; decide)
  rw [hlog] at hprecedes
  have hdrop := hprecedes.mem_drop
  clear hprecedes
  revert j
  decide

/-- One call joins another. -/
theorem refresh_joined : ∃ Q : RefreshPool (Fin 2) Nat, Q.point 1 = .done (.ok 7) ∧
    .joined 1 7 ∈ Q.shared.log ∧ Coalesces Q := by
  obtain ⟨Q, hreached, hlog, hdone⟩ := joins_what_was_done
  exact ⟨Q, hdone, by rw [hlog]; decide, refresh_coalesces hreached⟩

end

end RunnerManager.Github
