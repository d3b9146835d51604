import RunnerManager.Github.Client

/-!
# A lockout stops traffic

A caller looks at the lockout before it sends, but what it sends then is not bound to that look: a
sleep, the gate or the exchange of a credential lies between, and a retry with a new credential is
not preceded by a look at all. Read `Prompt` first: it is what a run has to do for the rule to hold
(`lockout_respected`), and `retry_into_lockout` is a run that does not do it.
-/

namespace RunnerManager.Github

open RunnerManager.Domain

namespace Shared

variable {ι : Type}

/-- No lockout was latched between a request and its caller's last look, and the back-off of a
`403` does not end before the one that runs. -/
def Prompt (i : ι) (s : Shared ι) : ClientCall → Prop
  | .start .. => (s.callers i).latchedSince = false
  | .latch response => ∀ ends, s.lockedUntil = some ends → ends ≤ s.now + latchBackoff response
  | _ => True

/-- A lockout stops traffic, is not cut short, and is bounded. -/
structure LockoutRespected (s : Shared ι) : Prop where
  /-- No request was started before the end of a lockout. -/
  traffic : ∀ entry ∈ s.wire, ∀ ends, entry.2 = some ends → ends ≤ entry.1
  /-- No lockout ended an earlier one. -/
  later : ∀ latched ∈ s.latches, ∀ before, latched.before = some before → before ≤ latched.ends
  bounded : ∀ latched ∈ s.latches,
    latched.time ≤ latched.ends ∧ latched.ends ≤ latched.time + maxLockoutBackoff
  /-- Once a lockout was latched there is one to look at. -/
  present : s.latches ≠ [] → s.lockedUntil.isSome = true

/-- A caller that saw no lockout since the last one was latched may rely on it. -/
structure Watched (s : Shared ι) : Prop where
  respected : s.LockoutRespected
  clear : ∀ i, (s.callers i).latchedSince = false → ∀ ends, s.lockedUntil = some ends → ends ≤ s.now

theorem latchBackoff_le (response : ApiResponse) : latchBackoff response ≤ maxLockoutBackoff :=
  min_le_right _ _

variable {s t : Shared ι} {i : ι}

theorem Watched.passes (h : s.Watched) {now : Timestamp} (hnow : s.now ≤ now) :
    { s with now }.Watched :=
  ⟨⟨h.respected.traffic, h.respected.later, h.respected.bounded, h.respected.present⟩,
    fun j hclear ends hends ↦ Int.le_trans (h.clear j hclear ends hends) hnow⟩

theorem Watched.congr (h : s.Watched) (hnow : t.now = s.now)
    (hlocked : t.lockedUntil = s.lockedUntil)
    (hwire : t.wire = s.wire) (hlatches : t.latches = s.latches)
    (hcallers : ∀ j, (t.callers j).latchedSince = (s.callers j).latchedSince) : t.Watched where
  respected := by
    refine ⟨?_, ?_, ?_, ?_⟩
    · rw [hwire]
      exact h.respected.traffic
    · rw [hlatches]
      exact h.respected.later
    · rw [hlatches]
      exact h.respected.bounded
    · rw [hlatches, hlocked]
      exact h.respected.present
  clear j hclear ends hends := by
    rw [hnow]
    exact h.clear j (hcallers j ▸ hclear) ends (hlocked ▸ hends)

theorem Watched.latch (h : s.Watched) {response : ApiResponse}
    (hlater : ∀ ends, s.lockedUntil = some ends → ends ≤ s.now + latchBackoff response) :
    (s.latch response).Watched := by
  refine ⟨⟨h.respected.traffic, fun latched hlatched ↦ ?_, fun latched hlatched ↦ ?_, fun _ ↦ rfl⟩,
    fun _ hclear ↦ nomatch hclear⟩
  · rcases List.mem_append.mp hlatched with hlatched | hlatched
    · exact h.respected.later latched hlatched
    · rw [List.mem_singleton] at hlatched
      subst hlatched
      exact hlater
  · rcases List.mem_append.mp hlatched with hlatched | hlatched
    · exact h.respected.bounded latched hlatched
    · rw [List.mem_singleton] at hlatched
      subst hlatched
      have hbound := latchBackoff_le response
      show s.now ≤ s.now + _ ∧ s.now + _ ≤ s.now + _
      exact ⟨Int.le_add_of_nonneg_right (Int.natCast_nonneg _),
        Int.add_le_add_left (Int.ofNat_le.mpr hbound) _⟩

variable [DecidableEq ι]

theorem Watched.note (h : s.Watched) (change : Caller → Caller)
    (hchange : ∀ caller, (change caller).latchedSince = caller.latchedSince) :
    (s.note i change).Watched := by
  refine h.congr rfl rfl rfl rfl fun j ↦ ?_
  rw [note_callers]
  split
  · next hj => rw [hchange, hj]
  · rfl

theorem Watched.enter (h : s.Watched) (phase : Phase) : (s.enter i phase).Watched :=
  h.note _ fun _ ↦ rfl

theorem Watched.change (h : s.Watched) : (s.change i).Watched := by
  unfold Shared.change
  split
  · exact h.enter _
  · exact h

theorem Watched.look (h : s.Watched) (hnone : s.remaining = none) :
    (s.note i fun caller ↦ { caller with latchedSince := false }).Watched := by
  refine ⟨⟨h.respected.traffic, h.respected.later, h.respected.bounded, h.respected.present⟩, ?_⟩
  intro _ _ ends hends
  have hends : s.lockedUntil = some ends := hends
  unfold remaining at hnone
  rw [hends, Option.bind_some] at hnone
  by_cases hover : ends ≤ s.now
  · exact hover
  · rw [if_neg hover] at hnone
    cases hnone

theorem Watched.start (h : s.Watched) (hclear : (s.callers i).latchedSince = false)
    (token : String) :
    ({ s with wire := s.wire ++ [(s.now, s.lockedUntil)] }.note i
      fun caller ↦ { caller with sentWith := some token }).Watched := by
  have hstarted : { s with wire := s.wire ++ [(s.now, s.lockedUntil)] }.Watched := by
    refine ⟨⟨fun entry hentry ↦ ?_, h.respected.later, h.respected.bounded, h.respected.present⟩,
      h.clear⟩
    rcases List.mem_append.mp hentry with hentry | hentry
    · exact h.respected.traffic entry hentry
    · rw [List.mem_singleton] at hentry
      subst hentry
      exact h.clear i hclear
  exact hstarted.note _ fun _ ↦ rfl

theorem Watched.does (h : s.Watched) {c : ClientCall} {answer : c.Answer} (hprompt : s.Prompt i c)
    (hdoes : s.Does i c answer t) : t.Watched := by
  unfold Does at hdoes
  split at hdoes
  · obtain ⟨hremaining, rfl⟩ := hdoes
    split
    · next hnone => exact h.look (hremaining.symm.trans hnone)
    · exact h
  · subst hdoes
    exact h.latch hprompt
  · exact hdoes.2 ▸ h
  · subst hdoes
    exact h.start hprompt _
  · subst hdoes
    split
    · exact h.note _ fun _ ↦ rfl
    · exact h
  · obtain ⟨-, rfl⟩ := hdoes
    exact h.enter _
  · obtain ⟨-, rfl⟩ := hdoes
    exact h.congr rfl rfl rfl rfl fun _ ↦ rfl
  · obtain ⟨-, rfl⟩ := hdoes
    unfold turn
    repeat' split
    · exact h.enter _
    · refine Watched.enter ?_ _
      exact h.congr rfl rfl rfl rfl fun _ ↦ rfl
    · refine Watched.enter ?_ _
      exact h.congr rfl rfl rfl rfl fun _ ↦ rfl
    · exact h
  · subst hdoes
    refine Watched.enter ?_ _
    exact h.congr rfl rfl rfl rfl fun _ ↦ rfl
  · exact hdoes.2 ▸ h
  · subst hdoes
    unfold hand
    dsimp only
    split
    · refine Watched.enter ?_ _
      exact h.congr rfl rfl rfl rfl fun _ ↦ rfl
    · exact h.congr rfl rfl rfl rfl fun _ ↦ rfl
  · obtain ⟨-, rfl⟩ := hdoes
    split
    · refine Watched.change ?_
      exact h.congr rfl rfl rfl rfl fun _ ↦ rfl
    · exact h
  · exact hdoes.2 ▸ h
  · subst hdoes
    refine Watched.change ?_
    exact h.congr rfl rfl rfl rfl fun _ ↦ rfl
  · subst hdoes
    unfold count
    dsimp only
    repeat' split
    · refine Watched.enter ?_ _
      exact h.congr rfl rfl rfl rfl fun _ ↦ rfl
    · refine Watched.enter ?_ _
      exact h.congr rfl rfl rfl rfl fun _ ↦ rfl
    · exact h.congr rfl rfl rfl rfl fun _ ↦ rfl
  · exact hdoes ▸ h

theorem Watched.steps (h : s.Watched) {c : ClientCall} {answer : c.Answer} (hprompt : s.Prompt i c)
    (hstep : s.Steps i c answer t) : t.Watched := by
  obtain ⟨u, now, hdoes, hnow, rfl⟩ := hstep
  exact (h.does hprompt hdoes).passes hnow

end Shared

section

variable {ι : Type} [DecidableEq ι] {client : Client} {tasks : ι → Client.Task}
  {P Q : ClientPool ι} {log : List (Occurrence (Shared ι) ι)}

/-- In every run of callers where no lockout is latched between a request and its caller's last
look, and no `403` asks for a back-off that ends before the one that runs, a lockout stops
traffic. -/
theorem lockout_respected (hstart : P.Starts client tasks)
    (h : Contract.Interleaves (fun i ↦ (clientCalls i).restrict (Shared.Prompt i)) P log Q) :
    Q.shared.LockoutRespected := by
  have hwatched : P.shared.Watched := by
    refine ⟨⟨?_, ?_, ?_, ?_⟩, ?_⟩
    · intro entry hentry
      rw [hstart.wire] at hentry
      cases hentry
    · intro latched hlatched
      rw [hstart.latches] at hlatched
      cases hlatched
    · intro latched hlatched
      rw [hstart.latches] at hlatched
      cases hlatched
    · exact fun hne ↦ absurd hstart.latches hne
    · intro i _ ends hends
      rw [hstart.lockedUntil] at hends
      cases hends
  have hkeeps : ∀ (i : ι) (s : Shared ι) (c : ClientCall) (a : c.Answer) (t : Shared ι), s.Watched →
      ((clientCalls i).restrict (Shared.Prompt i)).steps s c a t → t.Watched :=
    fun i s c a t hs hstep ↦ hs.steps hstep.1 hstep.2
  exact (Contract.Interleaves.invariant hkeeps hwatched h).respected

end

/-- A client that can reload its credential and not renew it. -/
def sourcedClient : Client where
  urls := ⟨fun _ ↦ none, fun base _ ↦ some base⟩
  apiBase := ⟨"https", "api.github.com", 443, "https://api.github.com/"⟩
  hasSource := true
  hasRenewal := false
  readMessage _ := none

/-- A `403` that asks for fifteen minutes and says nothing else. -/
def lockedOut : ApiResponse := ⟨403, [("retry-after", [57, 48, 48])], []⟩

/-- Two callers that send the same request. -/
def twoSenders : ClientPool (Fin 2) :=
  .fresh sourcedClient (fun _ ↦ .send (.get "/user")) ⟨"t0", none⟩

/-- One caller is locked out; the other one comes when the lockout has ended. -/
theorem sent_after_lockout : ∃ log Q,
    Contract.Interleaves (fun i ↦ (clientCalls i).restrict (Shared.Prompt i)) twoSenders log Q ∧
      Q.shared.latches ≠ [] ∧ Q.shared.wire.length = 2 ∧ Q.shared.LockoutRespected := by
  have h₀ := Contract.Interleaves.start twoSenders
    (C := fun i ↦ (clientCalls i).restrict (Shared.Prompt i))
  have h₁ := h₀.advance 1 .lockoutRemaining none _ rfl ⟨trivial, Shared.Does.steps ⟨rfl, rfl⟩⟩
  have h₂ := h₁.advance 1 .bearer "t0" _ rfl ⟨trivial, Shared.Does.steps ⟨rfl, rfl⟩⟩
  have h₃ := h₂.advance 1 (.start sourcedClient.apiBase (.get "/user") "t0") () _ rfl
    ⟨rfl, Shared.Does.steps rfl⟩
  have h₄ := h₃.advance 1 .receive (.ok lockedOut) _ rfl ⟨trivial, Shared.Does.steps rfl⟩
  have h₅ := h₄.advance 1 (.latch lockedOut) () _ rfl
    ⟨(fun _ h ↦ nomatch h), _, secondsOf 900, rfl, Int.natCast_nonneg _, rfl⟩
  have k₁ := h₅.advance 0 .lockoutRemaining none _ rfl ⟨trivial, Shared.Does.steps ⟨rfl, rfl⟩⟩
  have k₂ := k₁.advance 0 .bearer "t0" _ rfl ⟨trivial, Shared.Does.steps ⟨rfl, rfl⟩⟩
  have k₃ := k₂.advance 0 (.start sourcedClient.apiBase (.get "/user") "t0") () _ rfl
    ⟨rfl, Shared.Does.steps rfl⟩
  exact ⟨_, _, k₃, (fun h ↦ nomatch h), rfl,
    lockout_respected (ClientPool.fresh_starts _ _ _) k₃⟩

/-- One caller was refused and sleeps; the other one is locked out. The first one finds a new
credential and sends its request again, with fifteen minutes to go. -/
theorem retry_into_lockout : ∃ log Q, Contract.Interleaves clientCalls twoSenders log Q ∧
    ¬ Q.shared.LockoutRespected := by
  have h₀ := Contract.Interleaves.start twoSenders (C := clientCalls)
  have h₁ := h₀.advance 0 .lockoutRemaining none _ rfl (Shared.Does.steps ⟨rfl, rfl⟩)
  have h₂ := h₁.advance 0 .bearer "t0" _ rfl (Shared.Does.steps ⟨rfl, rfl⟩)
  have h₃ := h₂.advance 0 (.start sourcedClient.apiBase (.get "/user") "t0") () _ rfl
    (Shared.Does.steps rfl)
  have h₄ := h₃.advance 0 .receive (.ok ⟨401, [], []⟩) _ rfl (Shared.Does.steps rfl)
  have k₁ := h₄.advance 1 .lockoutRemaining none _ rfl (Shared.Does.steps ⟨rfl, rfl⟩)
  have k₂ := k₁.advance 1 .bearer "t0" _ rfl (Shared.Does.steps ⟨rfl, rfl⟩)
  have k₃ := k₂.advance 1 (.start sourcedClient.apiBase (.get "/user") "t0") () _ rfl
    (Shared.Does.steps rfl)
  have k₄ := k₃.advance 1 .receive (.ok lockedOut) _ rfl (Shared.Does.steps rfl)
  have k₅ := k₄.advance 1 (.latch lockedOut) () _ rfl (Shared.Does.steps rfl)
  -- From here on nothing looks at the lockout.
  have l₁ := k₅.advance 0 .sleep () _ rfl (Shared.Does.steps rfl)
  have l₂ := l₁.advance 0 (.sample .reload) 0 _ rfl (Shared.Does.steps ⟨rfl, rfl⟩)
  have l₃ := l₂.advance 0 .lockGate () _ rfl (Shared.Does.steps ⟨rfl, rfl⟩)
  have l₄ := l₃.advance 0 .recheck 0 _ rfl (Shared.Does.steps ⟨rfl, rfl⟩)
  have l₅ := l₄.advance 0 .reload (some ⟨"t1", none⟩) _ rfl (Shared.Does.steps rfl)
  have l₆ := l₅.advance 0 (.swap ⟨"t1", none⟩) true _ rfl (Shared.Does.steps ⟨rfl, rfl⟩)
  have l₇ := l₆.advance 0 .count () _ rfl (Shared.Does.steps rfl)
  have l₈ := l₇.advance 0 .unlockGate () _ rfl (Shared.Does.steps rfl)
  have l₉ := l₈.advance 0 .bearer "t1" _ rfl (Shared.Does.steps ⟨rfl, rfl⟩)
  have m₁ := l₉.advance 0 (.start sourcedClient.apiBase (.get "/user") "t1") () _ rfl
    (Shared.Does.steps rfl)
  refine ⟨_, _, m₁, fun h ↦ ?_⟩
  have hlate := h.traffic (0, some (secondsOf 900))
    (List.mem_append_right _ (List.mem_singleton.mpr rfl)) _ rfl
  revert hlate
  decide

end RunnerManager.Github
