import RunnerManager.Lib.Program
import Mathlib.Logic.Function.Basic

/-!
# Programs interleaved over one shared state

A pool holds any number of instances, each at some point of its own program, over one shared
state. An interleaving makes one call of one instance at a time, in any order; an instance that
is never chosen again has crashed. Read `Interleaves.visits` first: what one instance did is a
path of its program, and `Interleaves.split` says where in the run each call stands.
`Interleaves.sound` is the rule for instances that rely on what the others leave alone.
-/

namespace RunnerManager

/-- Instances over one shared state. An instance that has not begun is at its root. -/
structure Pool (call : Type) (answer : call → Type) (ε α σ ι : Type) where
  shared : σ
  point : ι → Program call answer ε α

/-- One call: who made it, and the shared state before and after it. -/
structure Occurrence (σ ι : Type) where
  actor : ι
  before : σ
  after : σ

namespace Contract

variable {call : Type} {answer : call → Type} {σ ε α ι : Type}

/-- The path of one instance, as the shared states around each of its calls. -/
inductive Visits (C : Contract call answer σ) :
    Program call answer ε α → List (σ × σ) → Program call answer ε α → Prop
  | stay (p : Program call answer ε α) : Visits C p [] p
  | step {c : call} {next : answer c → Program call answer ε α} {s t : σ}
      {rest : List (σ × σ)} {q : Program call answer ε α} (a : answer c)
      (hstep : C.steps s c a t) (hrest : Visits C (next a) rest q) :
      Visits C (.ask c next) ((s, t) :: rest) q

variable {C : Contract call answer σ}

theorem Visits.snoc {p : Program call answer ε α} {path : List (σ × σ)} {c : call}
    {next : answer c → Program call answer ε α} {s t : σ} (h : C.Visits p path (.ask c next))
    (a : answer c) (hstep : C.steps s c a t) : C.Visits p (path ++ [(s, t)]) (next a) := by
  generalize hlast : Program.ask c next = last at h
  induction h with
  | stay p =>
    subst hlast
    exact .step a hstep (.stay (next a))
  | step b hfirst _ ih => exact .step b hfirst (ih hlast)

theorem Visits.of_done {result : Except ε α} {path : List (σ × σ)}
    {q : Program call answer ε α} (h : C.Visits (.done result) path q) :
    path = [] ∧ q = .done result := by
  cases h with
  | stay => exact ⟨rfl, rfl⟩

theorem Visits.of_ask {c : call} {next : answer c → Program call answer ε α}
    {path : List (σ × σ)} {result : Except ε α} (h : C.Visits (.ask c next) path (.done result)) :
    ∃ s t rest a, path = (s, t) :: rest ∧ C.steps s c a t ∧
      C.Visits (next a) rest (.done result) := by
  cases h with
  | step a hstep hrest => exact ⟨_, _, _, a, rfl, hstep, hrest⟩

variable [DecidableEq ι]

/-- Calls of any instances, one at a time and in any order; each instance sees the environment
through its own contract. -/
inductive Interleaves (C : ι → Contract call answer σ) : Pool call answer ε α σ ι →
    List (Occurrence σ ι) → Pool call answer ε α σ ι → Prop
  | start (P : Pool call answer ε α σ ι) : Interleaves C P [] P
  | call {P Q : Pool call answer ε α σ ι} {log : List (Occurrence σ ι)} {i : ι} {c : call}
      {next : answer c → Program call answer ε α} {t : σ} (h : Interleaves C P log Q)
      (hpoint : Q.point i = .ask c next) (a : answer c) (hstep : (C i).steps Q.shared c a t) :
      Interleaves C P (log ++ [⟨i, Q.shared, t⟩]) ⟨t, Function.update Q.point i (next a)⟩

namespace Interleaves

variable {C : ι → Contract call answer σ} {P Q : Pool call answer ε α σ ι}
  {log : List (Occurrence σ ι)}

theorem advance (h : Interleaves C P log Q) (i : ι) (c : call) (a : answer c) (t : σ)
    {next : answer c → Program call answer ε α} (hpoint : Q.point i = .ask c next)
    (hstep : (C i).steps Q.shared c a t) :
    Interleaves C P (log ++ [⟨i, Q.shared, t⟩]) ⟨t, Function.update Q.point i (next a)⟩ :=
  .call h hpoint a hstep

theorem restart (_ : Interleaves C P log Q) : Interleaves C Q [] Q :=
  .start Q

theorem of_steps {D : ι → Contract call answer σ}
    (hsteps : ∀ i s c a t, (C i).steps s c a t → (D i).steps s c a t)
    (h : Interleaves C P log Q) : Interleaves D P log Q := by
  induction h with
  | start => exact .start _
  | call _ hpoint a hstep ih => exact .call ih hpoint a (hsteps _ _ _ a _ hstep)

theorem invariant {I : σ → Prop} (hkeeps : ∀ i s c a t, I s → (C i).steps s c a t → I t)
    (hI : I P.shared) (h : Interleaves C P log Q) : I Q.shared := by
  induction h with
  | start => exact hI
  | call _ _ a hstep ih => exact hkeeps _ _ _ a _ ih hstep

theorem visits (h : Interleaves C P log Q) (i : ι) :
    (C i).Visits (P.point i)
      ((log.filter fun o ↦ o.actor = i).map fun o ↦ (o.before, o.after)) (Q.point i) := by
  induction h with
  | start => exact .stay _
  | @call Q log j c next t _ hpoint a hstep ih =>
    by_cases hij : j = i
    · subst hij
      rw [hpoint] at ih
      simpa using ih.snoc a hstep
    · simpa [hij, Function.update_of_ne (Ne.symm hij)] using ih

theorem split (h : Interleaves C P log Q) {o : Occurrence σ ι} (ho : o ∈ log) :
    ∃ R S : Pool call answer ε α σ ι, ∃ earlier later, log = earlier ++ o :: later ∧
      R.shared = o.before ∧ S.shared = o.after ∧
      Interleaves C P earlier R ∧ Interleaves C S later Q := by
  induction h with
  | start => cases ho
  | @call Q log j c next t hrun hpoint a hstep ih =>
    rcases List.mem_append.mp ho with ho | ho
    · obtain ⟨R, S, earlier, later, rfl, hR, hS, hearlier, hlater⟩ := ih ho
      exact ⟨R, S, earlier, later ++ [⟨j, Q.shared, t⟩], by simp, hR, hS, hearlier,
        .call hlater hpoint a hstep⟩
    · obtain rfl := List.mem_singleton.mp ho
      exact ⟨Q, _, log, [], rfl, rfl, rfl, hrun, .start _⟩

end Interleaves

/-! ## Instances that rely on each other -/

/-- A contract as one instance of many sees it: before each call the others may have moved the
shared state along `rely`, within the invariant. -/
def under (C : Contract call answer σ) (I : σ → Prop) (rely : σ → σ → Prop) :
    Contract call answer σ where
  requires s c := ∀ t, rely s t → I t → C.requires t c
  steps s c a u := ∃ t, rely s t ∧ I t ∧ C.steps t c a u

theorem wp_under_of_rely {C : Contract call answer σ} {I : σ → Prop} {rely : σ → σ → Prop}
    (htrans : ∀ s t u, rely s t → rely t u → rely s u) {Q : Except ε α → σ → Prop}
    (hQ : ∀ result s t, rely s t → Q result s → Q result t) {p : Program call answer ε α} {s t : σ}
    (hrely : rely s t) (h : (C.under I rely).wp p Q s) : (C.under I rely).wp p Q t := by
  cases p with
  | done result => exact hQ result s t hrely h
  | ask c next =>
    refine ⟨fun u hu hI ↦ h.1 u (htrans s t u hrely hu) hI, ?_⟩
    rintro a v ⟨u, hu, hI, hstep⟩
    exact h.2 a v ⟨u, htrans s t u hrely hu, hI, hstep⟩

namespace Interleaves

variable {C : ι → Contract call answer σ} {P R : Pool call answer ε α σ ι}
  {log : List (Occurrence σ ι)} {I : σ → Prop} {rely : ι → σ → σ → Prop}
  {Q : ι → Except ε α → σ → Prop}

/-- If the allowed calls of each instance keep the invariant and are what every other instance
relies on, then every instance meets its own specification in every pool reached. -/
theorem sound (hrefl : ∀ i s, rely i s s) (htrans : ∀ i s t u, rely i s t → rely i t u → rely i s u)
    (hkeeps : ∀ i s c a t, I s → (C i).requires s c → (C i).steps s c a t → I t)
    (hrely : ∀ i j s c a t, i ≠ j → I s → (C j).requires s c → (C j).steps s c a t → rely i s t)
    (hQ : ∀ i result s t, rely i s t → Q i result s → Q i result t)
    (hI : I P.shared) (hstart : ∀ i, ((C i).under I (rely i)).wp (P.point i) (Q i) P.shared)
    (h : Interleaves C P log R) :
    I R.shared ∧ ∀ i, ((C i).under I (rely i)).wp (R.point i) (Q i) R.shared := by
  induction h with
  | start => exact ⟨hI, hstart⟩
  | @call R log j c next t _ hpoint a hstep ih =>
    obtain ⟨hinv, hmeets⟩ := ih
    have hj := hmeets j
    rw [hpoint] at hj
    have hrequires : (C j).requires R.shared c := hj.1 R.shared (hrefl j R.shared) hinv
    refine ⟨hkeeps j R.shared c a t hinv hrequires hstep, ?_⟩
    intro i
    show ((C i).under I (rely i)).wp (Function.update R.point j (next a) i) (Q i) t
    by_cases hij : i = j
    · subst hij
      rw [Function.update_self]
      exact hj.2 a t ⟨R.shared, hrefl i R.shared, hinv, hstep⟩
    · rw [Function.update_of_ne hij]
      exact wp_under_of_rely (htrans i) (hQ i)
        (hrely i j R.shared c a t hij hinv hrequires hstep) (hmeets i)

theorem occurrences {D : σ → σ → Prop} (hrefl : ∀ i s, rely i s s)
    (htrans : ∀ i s t u, rely i s t → rely i t u → rely i s u)
    (hkeeps : ∀ i s c a t, I s → (C i).requires s c → (C i).steps s c a t → I t)
    (hrely : ∀ i j s c a t, i ≠ j → I s → (C j).requires s c → (C j).steps s c a t → rely i s t)
    (hQ : ∀ i result s t, rely i s t → Q i result s → Q i result t)
    (hI : I P.shared) (hstart : ∀ i, ((C i).under I (rely i)).wp (P.point i) (Q i) P.shared)
    (hdoes : ∀ i s c a t, I s → (C i).requires s c → (C i).steps s c a t → D s t)
    (h : Interleaves C P log R) : ∀ o ∈ log, D o.before o.after := by
  induction h with
  | start => exact fun o ho ↦ (nomatch ho)
  | @call R log j c next t hrun hpoint a hstep ih =>
    intro o ho
    obtain ho | ho := List.mem_append.mp ho
    · exact ih o ho
    · obtain rfl := List.mem_singleton.mp ho
      obtain ⟨hinv, hmeets⟩ := sound hrefl htrans hkeeps hrely hQ hI hstart hrun
      have hj := hmeets j
      rw [hpoint] at hj
      exact hdoes j _ c a t hinv (hj.1 R.shared (hrefl j R.shared) hinv) hstep

end Interleaves

/-! ## Instances that open new programs -/

/-- What a pool reaches where an instance may also leave its program for another one, and the
shared state may move by itself. `opens i s p t q` says that instance `i` at `p` goes on at `q`,
and the shared state from `s` to `t` with it. -/
inductive Opened (C : ι → Contract call answer σ) (starts : Pool call answer ε α σ ι → Prop)
    (opens : ι → σ → Program call answer ε α → σ → Program call answer ε α → Prop)
    (moves : σ → σ → Prop) : Pool call answer ε α σ ι → Prop
  | start {P : Pool call answer ε α σ ι} (h : starts P) : Opened C starts opens moves P
  | call {P : Pool call answer ε α σ ι} {i : ι} {c : call}
      {next : answer c → Program call answer ε α} {t : σ} (h : Opened C starts opens moves P)
      (hpoint : P.point i = .ask c next) (a : answer c) (hstep : (C i).steps P.shared c a t) :
      Opened C starts opens moves ⟨t, Function.update P.point i (next a)⟩
  | reopen {P : Pool call answer ε α σ ι} {i : ι} {t : σ} {q : Program call answer ε α}
      (h : Opened C starts opens moves P) (hopen : opens i P.shared (P.point i) t q) :
      Opened C starts opens moves ⟨t, Function.update P.point i q⟩
  | move {P : Pool call answer ε α σ ι} {t : σ} (h : Opened C starts opens moves P)
      (hmove : moves P.shared t) : Opened C starts opens moves ⟨t, P.point⟩

namespace Opened

variable {C : ι → Contract call answer σ} {starts : Pool call answer ε α σ ι → Prop}
  {opens : ι → σ → Program call answer ε α → σ → Program call answer ε α → Prop}
  {moves : σ → σ → Prop} {P : Pool call answer ε α σ ι} {I : σ → Prop} {rely : ι → σ → σ → Prop}
  {Q : ι → Except ε α → σ → Prop}

theorem advance (h : Opened C starts opens moves P) (i : ι) (c : call) (a : answer c) (t : σ)
    {next : answer c → Program call answer ε α} (hpoint : P.point i = .ask c next)
    (hstep : (C i).steps P.shared c a t) :
    Opened C starts opens moves ⟨t, Function.update P.point i (next a)⟩ :=
  .call h hpoint a hstep

theorem restart (h : Opened C starts opens moves P) (i : ι) (t : σ) (q : Program call answer ε α)
    (hopen : opens i P.shared (P.point i) t q) :
    Opened C starts opens moves ⟨t, Function.update P.point i q⟩ :=
  .reopen h hopen

theorem of_steps {D : ι → Contract call answer σ}
    (hsteps : ∀ i s c a t, (C i).steps s c a t → (D i).steps s c a t)
    (h : Opened C starts opens moves P) : Opened D starts opens moves P := by
  induction h with
  | start h => exact .start h
  | call _ hpoint a hstep ih => exact .call ih hpoint a (hsteps _ _ _ a _ hstep)
  | reopen _ hopen ih => exact .reopen ih hopen
  | move _ hmove ih => exact .move ih hmove

/-- Every instance meets its specification at its own point. -/
def Meets (C : ι → Contract call answer σ) (I : σ → Prop) (rely : ι → σ → σ → Prop)
    (Q : ι → Except ε α → σ → Prop) (P : Pool call answer ε α σ ι) : Prop :=
  I P.shared ∧ ∀ i, ((C i).under I (rely i)).wp (P.point i) (Q i) P.shared

theorem meets_update (htrans : ∀ i s t u, rely i s t → rely i t u → rely i s u)
    (hQ : ∀ i result s t, rely i s t → Q i result s → Q i result t) (h : Meets C I rely Q P)
    {i : ι} {t : σ} {q : Program call answer ε α} (hI : I t)
    (hrely : ∀ j, j ≠ i → rely j P.shared t) (hq : ((C i).under I (rely i)).wp q (Q i) t) :
    Meets C I rely Q ⟨t, Function.update P.point i q⟩ := by
  refine ⟨hI, fun j ↦ ?_⟩
  show ((C j).under I (rely j)).wp (Function.update P.point i q j) (Q j) t
  by_cases hji : j = i
  · subst hji
    rw [Function.update_self]
    exact hq
  · rw [Function.update_of_ne hji]
    exact wp_under_of_rely (htrans j) (hQ j) (hrely j hji) (h.2 j)

/-- If the allowed calls, the openings and the moves keep the invariant and are what the other
instances rely on, then every instance meets its specification in every pool reached. -/
theorem sound (hrefl : ∀ i s, rely i s s) (htrans : ∀ i s t u, rely i s t → rely i t u → rely i s u)
    (hQ : ∀ i result s t, rely i s t → Q i result s → Q i result t)
    (hstart : ∀ P, starts P → Meets C I rely Q P)
    (hcall : ∀ i s c a t, I s → (C i).requires s c → (C i).steps s c a t →
      I t ∧ ∀ j, j ≠ i → rely j s t)
    (hopen : ∀ i s p t q, I s → ((C i).under I (rely i)).wp p (Q i) s → opens i s p t q →
      (I t ∧ ∀ j, j ≠ i → rely j s t) ∧ ((C i).under I (rely i)).wp q (Q i) t)
    (hmove : ∀ s t, I s → moves s t → I t ∧ ∀ j, rely j s t)
    (h : Opened C starts opens moves P) : Meets C I rely Q P := by
  induction h with
  | start h => exact hstart _ h
  | @call P i c next t _ hpoint a hstep ih =>
    have hi := ih.2 i
    rw [hpoint] at hi
    have hrequires := hi.1 P.shared (hrefl i P.shared) ih.1
    obtain ⟨hI, hrely⟩ := hcall i _ c a t ih.1 hrequires hstep
    exact meets_update htrans hQ ih hI hrely
      (hi.2 a t ⟨P.shared, hrefl i P.shared, ih.1, hstep⟩)
  | @reopen P i t q _ hopens ih =>
    obtain ⟨⟨hI, hrely⟩, hq⟩ := hopen i _ _ t q ih.1 (ih.2 i) hopens
    exact meets_update htrans hQ ih hI hrely hq
  | @move P t _ hmoves ih =>
    obtain ⟨hI, hrely⟩ := hmove _ t ih.1 hmoves
    exact ⟨hI, fun i ↦ wp_under_of_rely (htrans i) (hQ i) (hrely i) (ih.2 i)⟩

end Opened

end Contract

end RunnerManager
