import Mathlib.Logic.Basic

/-!
# Programs that call an environment

A program is a tree of calls whose answers an environment chooses. It ends in a result or an
error, and it may be cut off before any call: an execution is a path from the root, not
necessarily to a leaf. A `Contract` says what each call requires of the state and how the
environment may answer it. Read `wp_runs` first: a program whose weakest
precondition holds makes no call that its contract refuses, on any path.
-/

namespace RunnerManager

/-- A program over calls with typed answers. -/
inductive Program (call : Type) (answer : call → Type) (ε α : Type) where
  | done (result : Except ε α)
  | ask (c : call) (next : answer c → Program call answer ε α)

namespace Program

variable {call : Type} {answer : call → Type} {ε α β : Type}

/-- Continue with the result; an error ends the program. -/
def andThen : Program call answer ε α → (α → Program call answer ε β) → Program call answer ε β
  | done (.ok value), f => f value
  | done (.error e), _ => done (.error e)
  | ask c next, f => ask c fun a ↦ andThen (next a) f

instance : Monad (Program call answer ε) where
  pure value := done (.ok value)
  bind := andThen

def perform (c : call) : Program call answer ε (answer c) :=
  ask c fun a ↦ done (.ok a)

def fail (e : ε) : Program call answer ε α :=
  done (.error e)

/-- Use an answer that may be an error. -/
def ofExcept {δ : Type} (wrap : δ → ε) : Except δ α → Program call answer ε α
  | .ok value => done (.ok value)
  | .error e => fail (wrap e)

/-- Run a part to its end and look at how it ended. -/
def outcome {δ : Type} : Program call answer ε α → Program call answer δ (Except ε α)
  | done result => done (.ok result)
  | ask c next => ask c fun a ↦ outcome (next a)

/-- The same program over a larger set of calls. -/
def mapCalls {call' : Type} {answer' : call' → Type} (f : call → call')
    (g : ∀ c, answer' (f c) → answer c) : Program call answer ε α → Program call' answer' ε α
  | done result => done result
  | ask c next => ask (f c) fun a ↦ mapCalls f g (next (g c a))

/-- Answer the calls from a list; a program that asks for more has no result. -/
def play {reply : Type} : List reply → Program call (fun _ ↦ reply) ε α → Option (Except ε α)
  | _, done result => some result
  | [], ask _ _ => none
  | a :: replies, ask _ next => play replies (next a)

theorem play_then {reply : Type} {p : Program call (fun _ ↦ reply) ε α}
    {f : α → Program call (fun _ ↦ reply) ε β} {g : α → Except ε β}
    (hf : ∀ value, f value = .done (g value)) (replies : List reply) :
    (p >>= f).play replies = (p.play replies).map (·.bind g) := by
  induction p generalizing replies with
  | done result =>
    cases result with
    | ok value =>
      show (f value).play replies = _
      rw [hf]
      cases replies <;> rfl
    | error e => cases replies <;> rfl
  | ask c next ih =>
    cases replies with
    | nil => rfl
    | cons a replies => exact ih a replies

/-- Continue with the result of a part that cannot fail. -/
def thenServe : Program call answer Empty β → (β → Program call answer ε α) →
    Program call answer ε α
  | done (.ok value), f => f value
  | done (.error e), _ => e.elim
  | ask c next, f => ask c fun a ↦ thenServe (next a) f

/-- Every call is answered by a program over other calls. -/
def interpret {call' : Type} {answer' : call' → Type}
    (handler : (c : call) → Program call' answer' Empty (answer c)) :
    Program call answer ε α → Program call' answer' ε α
  | done result => done result
  | ask c next => thenServe (handler c) fun a ↦ interpret handler (next a)

end Program

/-- What a call requires of the state, and the answers and next states the environment may
choose; the state holds the environment and the history of the calls. -/
structure Contract (call : Type) (answer : call → Type) (σ : Type) where
  requires : σ → call → Prop
  steps : σ → (c : call) → answer c → σ → Prop

namespace Contract

/-- Every call is allowed and the environment may answer anything. -/
def anything {call : Type} {answer : call → Type} : Contract call answer Unit where
  requires _ _ := True
  steps _ _ _ _ := True

/-- The environment may answer anything, and an answered call determines the next state. -/
def ofAfter {call : Type} {answer : call → Type} {σ : Type} (requires : σ → call → Prop)
    (after : σ → (c : call) → answer c → σ) : Contract call answer σ where
  requires
  steps s c a t := t = after s c a

variable {call : Type} {answer : call → Type} {σ ε α β : Type} (C : Contract call answer σ)

/-- Every call is allowed, and the result satisfies `Q`, whatever the environment chooses. -/
def wp : Program call answer ε α → (Except ε α → σ → Prop) → σ → Prop
  | .done result, Q, s => Q result s
  | .ask c next, Q, s => C.requires s c ∧ ∀ a t, C.steps s c a t → wp (next a) Q t

/-- A path of the program, cut off anywhere. -/
inductive Runs : Program call answer ε α → σ → Program call answer ε α → σ → Prop
  | cut (p : Program call answer ε α) (s : σ) : Runs p s p s
  | step {c : call} {next : answer c → Program call answer ε α} {s t u : σ}
      {rest : Program call answer ε α} (a : answer c) (hstep : C.steps s c a t)
      (hrest : Runs (next a) t rest u) : Runs (.ask c next) s rest u

variable {C} {s t : σ} {p q : Program call answer ε α} {Q : Except ε α → σ → Prop}

theorem Runs.of_ask (c : call) (a : answer c) {next : answer c → Program call answer ε α} {u : σ}
    (hask : p = .ask c next) (hstep : C.steps s c a t) (hrest : C.Runs (next a) t q u) :
    C.Runs p s q u := by
  subst hask
  exact .step a hstep hrest

theorem Runs.advance (h : C.Runs p s q t) (c : call) (a : answer c) (u : σ)
    {f : answer c → Program call answer ε α} (hask : q = .ask c f) (hstep : C.steps t c a u) :
    C.Runs p s (f a) u := by
  induction h with
  | cut p s =>
    subst hask
    exact .step a hstep (.cut _ _)
  | step b hfirst _ ih => exact .step b hfirst (ih hask hstep)

theorem Runs.trans {r : Program call answer ε α} {u : σ} (h : C.Runs p s q t)
    (hrest : C.Runs q t r u) : C.Runs p s r u := by
  induction h with
  | cut p s => exact hrest
  | step a hstep _ ih => exact .step a hstep (ih hrest)

theorem Runs.within {f : α → Program call answer ε β} (h : C.Runs p s q t) :
    C.Runs (p >>= f) s (q >>= f) t := by
  induction h with
  | cut p s => exact .cut _ _
  | step a hstep _ ih => exact .step a hstep ih

theorem Runs.seq {f : α → Program call answer ε β} {q : Program call answer ε β} {u : σ}
    {value : α} (hp : C.Runs p s (.done (.ok value)) t) (hrest : C.Runs (f value) t q u) :
    C.Runs (p >>= f) s q u :=
  hp.within.trans hrest

theorem Runs.seq_failed {f : α → Program call answer ε β} {e : ε}
    (hp : C.Runs p s (.done (.error e)) t) : C.Runs (p >>= f) s (.done (.error e)) t :=
  hp.within

theorem Runs.looked {δ : Type} (h : C.Runs p s q t) :
    C.Runs (p.outcome : Program call answer δ (Except ε α)) s q.outcome t := by
  induction h with
  | cut p s => exact .cut _ _
  | step a hstep _ ih => exact .step a hstep ih

theorem Runs.outcome_seq {δ : Type} {f : Except ε α → Program call answer δ β}
    {q : Program call answer δ β} {u : σ} {result : Except ε α}
    (hp : C.Runs p s (.done result) t) (hrest : C.Runs (f result) t q u) :
    C.Runs (p.outcome >>= f) s q u :=
  hp.looked.within.trans hrest

/-- What held at the root holds of the rest of every path. -/
theorem wp_runs (h : C.wp p Q s) (hruns : C.Runs p s q t) : C.wp q Q t := by
  induction hruns with
  | cut p s => exact h
  | step a hstep _ ih => exact ih (h.2 a _ hstep)

theorem requires_of_runs (h : C.wp p Q s) {c : call}
    {next : answer c → Program call answer ε α} (hruns : C.Runs p s (.ask c next) t) :
    C.requires t c :=
  (wp_runs h hruns).1

theorem ends_of_wp (hanswers : ∀ s c, C.requires s c → ∃ a t, C.steps s c a t) (h : C.wp p Q s) :
    ∃ result t, C.Runs p s (.done result) t := by
  induction p generalizing s with
  | done result => exact ⟨result, s, .cut _ _⟩
  | ask c next ih =>
    obtain ⟨a, t, hstep⟩ := hanswers s c h.1
    obtain ⟨result, u, hruns⟩ := ih a (h.2 a t hstep)
    exact ⟨result, u, .step a hstep hruns⟩

theorem invariant_of_runs {I : σ → Prop}
    (hkeeps : ∀ s c a t, I s → C.requires s c → C.steps s c a t → I t)
    (h : C.wp p Q s) (hI : I s) (hruns : C.Runs p s q t) : I t := by
  induction hruns with
  | cut p s => exact hI
  | step a hstep _ ih => exact ih (h.2 a _ hstep) (hkeeps _ _ a _ hI h.1 hstep)

/-! ## Systems of operations -/

/-- What a run of operations reaches. An operation may be cut off anywhere: `opens` begins the
next one from any point. -/
inductive Reaches (C : Contract call answer σ) (starts : σ → Program call answer ε α → Prop)
    (opens : σ → σ → Program call answer ε α → Prop) : σ → Program call answer ε α → Prop
  | start {s : σ} {p : Program call answer ε α} (h : starts s p) : Reaches C starts opens s p
  | call {s t : σ} {c : call} {next : answer c → Program call answer ε α}
      (h : Reaches C starts opens s (.ask c next)) (a : answer c) (hstep : C.steps s c a t) :
      Reaches C starts opens t (next a)
  | reopen {s t : σ} {p q : Program call answer ε α} (h : Reaches C starts opens s p)
      (hopen : opens s t q) : Reaches C starts opens t q

theorem Reaches.advance {starts : σ → Program call answer ε α → Prop}
    {opens : σ → σ → Program call answer ε α → Prop} (h : C.Reaches starts opens s p) (c : call)
    (a : answer c) (t : σ) {f : answer c → Program call answer ε α} (hask : p = .ask c f)
    (hstep : C.steps s c a t) : C.Reaches starts opens t (f a) := by
  subst hask
  exact .call h a hstep

theorem Reaches.sound {starts : σ → Program call answer ε α → Prop}
    {opens : σ → σ → Program call answer ε α → Prop} {I : σ → Prop}
    (hstart : ∀ s p, starts s p → I s ∧ C.wp p Q s)
    (hopen : ∀ s t p, I s → opens s t p → I t ∧ C.wp p Q t)
    (hkeeps : ∀ s c a t, I s → C.requires s c → C.steps s c a t → I t)
    (h : C.Reaches starts opens s p) : I s ∧ C.wp p Q s := by
  induction h with
  | start h => exact hstart _ _ h
  | call _ a hstep ih => exact ⟨hkeeps _ _ a _ ih.1 ih.2.1 hstep, ih.2.2 a _ hstep⟩
  | reopen _ hopens ih => exact hopen _ _ _ ih.1 hopens

theorem wp_of_map {τ : Type} {D : Contract call answer τ} (view : τ → σ)
    (hrequires : ∀ t c, C.requires (view t) c → D.requires t c)
    (hsteps : ∀ t c a u, D.steps t c a u → C.steps (view t) c a (view u)) {t : τ}
    (h : C.wp p Q (view t)) : D.wp p (fun result u ↦ Q result (view u)) t := by
  induction p generalizing t with
  | done result => exact h
  | ask c next ih =>
    exact ⟨hrequires t c h.1, fun a u hstep ↦ ih a (h.2 a _ (hsteps t c a u hstep))⟩

/-! ## Rules -/

@[simp]
theorem wp_done (result : Except ε α) : C.wp (.done result) Q s ↔ Q result s :=
  Iff.rfl

@[simp]
theorem wp_pure (value : α) :
    C.wp (pure value : Program call answer ε α) Q s ↔ Q (.ok value) s :=
  Iff.rfl

@[simp]
theorem wp_fail (e : ε) : C.wp (.fail e : Program call answer ε α) Q s ↔ Q (.error e) s :=
  Iff.rfl

@[simp]
theorem wp_perform (c : call) {Q : Except ε (answer c) → σ → Prop} :
    C.wp (.perform c) Q s ↔
      C.requires s c ∧ ∀ a t, C.steps s c a t → Q (.ok a) t :=
  Iff.rfl

@[simp]
theorem wp_bind (p : Program call answer ε α) (f : α → Program call answer ε β)
    {Q : Except ε β → σ → Prop} :
    C.wp (p >>= f) Q s ↔
      C.wp p (fun result t ↦
        match result with
        | .ok value => C.wp (f value) Q t
        | .error e => Q (.error e) t) s := by
  induction p generalizing s with
  | done result =>
    cases result with
    | ok value => exact Iff.rfl
    | error e => exact Iff.rfl
  | ask c next ih => exact and_congr Iff.rfl (forall₃_congr fun a _ _ ↦ ih a)

theorem wp_mono {R : Except ε α → σ → Prop} (h : C.wp p Q s)
    (hweaker : ∀ result t, Q result t → R result t) : C.wp p R s := by
  induction p generalizing s with
  | done result => exact hweaker result s h
  | ask c next ih => exact ⟨h.1, fun a t hstep ↦ ih a (h.2 a t hstep)⟩

theorem wp_trivial (hrequires : ∀ s c, C.requires s c) (p : Program call answer ε α) :
    C.wp p (fun _ _ ↦ True) s := by
  induction p generalizing s with
  | done result => trivial
  | ask c next ih => exact ⟨hrequires s c, fun a _ _ ↦ ih a⟩

theorem wp_along {R : σ → σ → Prop} (hrefl : ∀ s, R s s)
    (htrans : ∀ s t u, R s t → R t u → R s u)
    (hsteps : ∀ s c a t, C.steps s c a t → R s t) (h : C.wp p Q s) :
    C.wp p (fun result t ↦ R s t ∧ Q result t) s := by
  induction p generalizing s with
  | done result => exact ⟨hrefl s, h⟩
  | ask c next ih =>
    refine ⟨h.1, fun a t hstep ↦ ?_⟩
    refine wp_mono (ih a (h.2 a t hstep)) fun result u hlast ↦ ?_
    exact ⟨htrans s t u (hsteps s c a t hstep) hlast.1, hlast.2⟩

@[simp]
theorem wp_outcome {δ : Type} (p : Program call answer ε α)
    {Q : Except δ (Except ε α) → σ → Prop} :
    C.wp p.outcome Q s ↔ C.wp p (fun result t ↦ Q (.ok result) t) s := by
  induction p generalizing s with
  | done result => exact Iff.rfl
  | ask c next ih => exact and_congr Iff.rfl (forall₃_congr fun a _ _ ↦ ih a)

theorem wp_seq {f : α → Program call answer ε β} {R : Except ε α → σ → Prop}
    {Q : Except ε β → σ → Prop} (hp : C.wp p R s)
    (hok : ∀ value t, R (.ok value) t → C.wp (f value) Q t)
    (hfailed : ∀ e t, R (.error e) t → Q (.error e) t) : C.wp (p >>= f) Q s := by
  refine (wp_bind p f).mpr (wp_mono hp fun result t hresult ↦ ?_)
  cases result with
  | ok value => exact hok value t hresult
  | error e => exact hfailed e t hresult

theorem wp_outcome_seq {δ : Type} {f : Except ε α → Program call answer δ β}
    {R : Except ε α → σ → Prop} {Q : Except δ β → σ → Prop} (hp : C.wp p R s)
    (hf : ∀ result t, R result t → C.wp (f result) Q t) : C.wp (p.outcome >>= f) Q s :=
  (wp_bind _ _).mpr ((wp_outcome p).mpr (wp_mono hp hf))

/-- A contract over a larger set of calls, seen by a program over the smaller one. -/
def comap {call' : Type} {answer' : call' → Type} (D : Contract call' answer' σ)
    (f : call → call') (g : ∀ c, answer' (f c) → answer c) : Contract call answer σ where
  requires s c := D.requires s (f c)
  steps s c a t := ∃ b, g c b = a ∧ D.steps s (f c) b t

theorem wp_mapCalls {call' : Type} {answer' : call' → Type} {D : Contract call' answer' σ}
    {f : call → call'} {g : ∀ c, answer' (f c) → answer c} (p : Program call answer ε α) :
    D.wp (p.mapCalls f g) Q s ↔ (D.comap f g).wp p Q s := by
  induction p generalizing s with
  | done result => exact Iff.rfl
  | ask c next ih =>
    refine and_congr Iff.rfl ⟨?_, ?_⟩
    · rintro h _ t ⟨b, rfl, hstep⟩
      exact (ih (g c b)).mp (h b t hstep)
    · intro h b t hstep
      exact (ih (g c b)).mpr (h (g c b) t ⟨b, rfl, hstep⟩)

theorem wp_thenServe {p : Program call answer Empty β} {f : β → Program call answer ε α}
    (h : C.wp p (fun result t ↦ ∀ value, result = .ok value → C.wp (f value) Q t) s) :
    C.wp (p.thenServe f) Q s := by
  induction p generalizing s with
  | done result =>
    cases result with
    | ok value => exact h value rfl
    | error e => exact e.elim
  | ask c next ih => exact ⟨h.1, fun a t hstep ↦ ih a (h.2 a t hstep)⟩

theorem wp_interpret {call' : Type} {answer' : call' → Type} {τ : Type}
    {D : Contract call' answer' τ} {R : σ → τ → Prop}
    {handler : (c : call) → Program call' answer' Empty (answer c)}
    (hserves : ∀ c s t, R s t → C.requires s c → D.wp (handler c)
      (fun result u ↦ ∀ a, result = .ok a → ∃ s', C.steps s c a s' ∧ R s' u) t)
    {t : τ} (h : C.wp p Q s) (hrelated : R s t) :
    D.wp (p.interpret handler) (fun result u ↦ ∃ s', Q result s' ∧ R s' u) t := by
  induction p generalizing s t with
  | done result => exact ⟨s, h, hrelated⟩
  | ask c next ih =>
    refine wp_thenServe (wp_mono (hserves c s t hrelated h.1) fun result u hserved a ha ↦ ?_)
    obtain ⟨s', hstep, hrelated'⟩ := hserved a ha
    exact ih a (h.2 a s' hstep) hrelated'

/-- Two contracts side by side. -/
def both {τ : Type} (C : Contract call answer σ) (D : Contract call answer τ) :
    Contract call answer (σ × τ) where
  requires s c := C.requires s.1 c ∧ D.requires s.2 c
  steps s c a t := C.steps s.1 c a t.1 ∧ D.steps s.2 c a t.2

/-- The environment as before, under another requirement. -/
def demanding (C : Contract call answer σ) (requires : σ → call → Prop) :
    Contract call answer σ where
  requires
  steps := C.steps

theorem Runs.of_steps {D : Contract call answer σ}
    (hsteps : ∀ s c a t, C.steps s c a t → D.steps s c a t) (h : C.Runs p s q t) :
    D.Runs p s q t := by
  induction h with
  | cut p s => exact .cut _ _
  | step a hstep _ ih => exact .step a (hsteps _ _ a _ hstep) ih

/-- The environment as before, where it makes only some of the calls. -/
def restrict (C : Contract call answer σ) (allowed : σ → call → Prop) :
    Contract call answer σ where
  requires := C.requires
  steps s c a t := allowed s c ∧ C.steps s c a t

/-- The environment as before, where it gives only some of the answers. -/
def assuming (C : Contract call answer σ) (allowed : σ → (c : call) → answer c → Prop) :
    Contract call answer σ where
  requires := C.requires
  steps s c a t := allowed s c a ∧ C.steps s c a t

/-! ## Recorded paths -/

abbrev Answered (call : Type) (answer : call → Type) := (c : call) × answer c

/-- The environment may answer anything, and every call is recorded with its answer. -/
def recording {call : Type} {answer : call → Type} :
    Contract call answer (List (Answered call answer)) where
  requires _ _ := True
  steps log c a next := next = log ++ [⟨c, a⟩]

/-- Only some calls are made, if only some answers are given. -/
def making {call : Type} {answer : call → Type} (makes : call → Prop)
    (gives : (c : call) → answer c → Prop) : Contract call answer Unit where
  requires _ c := makes c
  steps _ c a _ := gives c a

theorem wp_of_making {makes : call → Prop} {gives : (c : call) → answer c → Prop} {I : σ → Prop}
    {Q : Except ε α → Unit → Prop} (h : (making makes gives).wp p Q ())
    (hrequires : ∀ s c, I s → makes c → C.requires s c)
    (hgives : ∀ s c a t, I s → C.steps s c a t → gives c a)
    (hkeeps : ∀ s c a t, I s → makes c → C.steps s c a t → I t) (hI : I s) :
    C.wp p (fun result t ↦ Q result () ∧ I t) s := by
  induction p generalizing s with
  | done result => exact ⟨h, hI⟩
  | ask c next ih =>
    refine ⟨hrequires s c hI h.1, fun a t hstep ↦ ?_⟩
    exact ih a (h.2 a () (hgives s c a t hI hstep)) (hkeeps s c a t hI h.1 hstep)

theorem Runs.recorded {log next : List (Answered call answer)}
    (h : recording.Runs p log q next) : ∃ added, next = log ++ added := by
  induction h with
  | cut p log => exact ⟨[], (List.append_nil log).symm⟩
  | @step c following log next last rest a hstep hrest ih =>
    obtain ⟨added, hlast⟩ := ih
    refine ⟨⟨c, a⟩ :: added, ?_⟩
    rw [hlast, hstep, List.append_assoc, List.singleton_append]

/-- What a path records: while only such answers are given only such calls are made, and the
rest of the program still meets what the whole did. -/
theorem wp_recorded {makes : call → Prop} {gives : (c : call) → answer c → Prop}
    {Q : Except ε α → Unit → Prop} {log next : List (Answered call answer)}
    (h : (making makes gives).wp p Q ()) (hruns : recording.Runs p log q next) :
    ∃ added, next = log ++ added ∧ ((∀ entry ∈ added, gives entry.1 entry.2) →
      (∀ entry ∈ added, makes entry.1) ∧ (making makes gives).wp q Q ()) := by
  induction hruns with
  | cut p log =>
    refine ⟨[], (List.append_nil log).symm, fun _ ↦ ⟨?_, h⟩⟩
    intro entry hentry
    cases hentry
  | @step c following log next last rest a hstep hrest ih =>
    -- Whether the answer was one of those decides what the rest may rely on.
    by_cases hgives : gives c a
    · obtain ⟨added, hlast, hadded⟩ := ih (h.2 a () hgives)
      refine ⟨⟨c, a⟩ :: added, ?_, ?_⟩
      · rw [hlast, hstep, List.append_assoc, List.singleton_append]
      · intro hall
        rw [List.forall_mem_cons] at hall
        obtain ⟨hmakes, hrest⟩ := hadded hall.2
        exact ⟨List.forall_mem_cons.mpr ⟨h.1, hmakes⟩, hrest⟩
    · obtain ⟨added, hlast⟩ := hrest.recorded
      refine ⟨⟨c, a⟩ :: added, ?_, ?_⟩
      · rw [hlast, hstep, List.append_assoc, List.singleton_append]
      · intro hall
        exact absurd (hall ⟨c, a⟩ List.mem_cons_self) hgives

/-! ## Any environment -/

/-- What a program returns, if it returns, whatever the environment answers. -/
def Returns (p : Program call answer ε α) (P : α → Prop) : Prop :=
  anything.wp p (fun result _ ↦ ∀ value, result = .ok value → P value) ()

theorem of_play {reply : Type} {p : Program call (fun _ ↦ reply) ε α}
    {Q : Except ε α → Unit → Prop} (h : anything.wp p Q ()) {replies : List reply}
    {result : Except ε α} (hplay : p.play replies = some result) : Q result () := by
  induction p generalizing replies with
  | done r =>
    cases replies <;> cases hplay <;> exact h
  | ask c next ih =>
    cases replies with
    | nil => cases hplay
    | cons a replies => exact ih a (h.2 a () trivial) hplay

theorem returns_trivial (p : Program call answer ε α) : Returns p fun _ ↦ True :=
  wp_mono (wp_trivial (fun _ _ ↦ trivial) p) fun _ _ _ _ _ ↦ trivial

theorem returns_pure {P : α → Prop} {value : α} (h : P value) :
    Returns (pure value : Program call answer ε α) P := by
  rintro _ ⟨⟩
  exact h

theorem returns_fail (e : ε) (P : α → Prop) : Returns (.fail e : Program call answer ε α) P :=
  fun _ h ↦ nomatch h

theorem returns_ofExcept {δ : Type} {wrap : δ → ε} {result : Except δ α} {P : α → Prop}
    (h : ∀ value, result = .ok value → P value) :
    Returns (.ofExcept wrap result : Program call answer ε α) P := by
  cases result with
  | ok value => exact returns_pure (h value rfl)
  | error e => exact returns_fail (wrap e) P

theorem returns_bind {p : Program call answer ε α} {f : α → Program call answer ε β}
    {P : α → Prop} {R : β → Prop} (hp : Returns p P) (hf : ∀ value, P value → Returns (f value) R) :
    Returns (p >>= f) R := by
  refine (wp_bind p f).mpr (wp_mono hp fun result _ h ↦ ?_)
  cases result with
  | ok value => exact hf value (h value rfl)
  | error e => exact fun _ h ↦ nomatch h

theorem returned_of_runs {P : α → Prop} (h : Returns p P) {value : α}
    (hruns : anything.Runs p () (.done (.ok value)) ()) : P value :=
  wp_runs h hruns value rfl

@[simp]
theorem wp_ofExcept {δ : Type} (wrap : δ → ε) (result : Except δ α) :
    C.wp (.ofExcept wrap result : Program call answer ε α) Q s ↔ Q (result.mapError wrap) s := by
  cases result <;> exact Iff.rfl

end Contract

end RunnerManager
