import RunnerManager.Github.SingleFlight

/-!
# Every caller takes its turn

The programs of the client make their calls in the phases that `Turn` asks for, whatever the
others do meanwhile. With the invariant of `SingleFlight` this is `single_flight`: in every run
whose answers are timely a credential is renewed once. `late_refusal` is a run whose answers are
not.
-/

namespace RunnerManager.Github

open RunnerManager.Domain
open Contract (wp_bind wp_mono wp_outcome_seq wp_seq)

variable {ι : Type} [DecidableEq ι]

/-- The calls of a caller, each in its turn and answered in time. -/
def turnCalls (i : ι) : Contract ClientCall ClientCall.Answer (Shared ι) where
  requires := Shared.Turn i
  steps := ((clientCalls i).assuming (Shared.Timely i)).steps

/-- The calls as one caller sees them among the others. -/
abbrev flightCalls (i : ι) : Contract ClientCall ClientCall.Answer (Shared ι) :=
  (turnCalls i).under Shared.Flight (Shared.Rely i)

def At (i : ι) (phase : Phase) (s : Shared ι) : Prop :=
  (s.callers i).phase = phase

namespace Client

variable {client : Client} {i : ι} {s : Shared ι} {α : Type} {sample : Sample}

theorem ask_wp {c : ClientCall} {f : c.Answer → ClientProgram α}
    {Q : Except GithubError α → Shared ι → Prop}
    (hcall : ∀ t, s.Rely i t → t.Flight → t.Turn i c ∧ ∀ answer u now, t.Timely i c answer →
      t.Does i c answer u → (flightCalls i).wp (f answer) Q { u with now }) :
    (flightCalls i).wp (ask c >>= f) Q s := by
  refine (wp_bind _ _).mpr ⟨fun t hrely hflight ↦ (hcall t hrely hflight).1, ?_⟩
  intro answer v hstep
  obtain ⟨t, hrely, hflight, htimely, u, now, hdoes, -, rfl⟩ := hstep
  exact (hcall t hrely hflight).2 answer u now htimely hdoes

/-- The calls that do not concern the gate. -/
def aside : ClientCall → Bool
  | .lockoutRemaining | .latch _ | .bearer | .start .. | .sleep | .reload | .refreshToken
  | .lastRevalidation => true
  | _ => false

theorem aside_wp {c : ClientCall} {f : c.Answer → ClientProgram α} {phase : Phase}
    {Q : Except GithubError α → Shared ι → Prop} (haside : aside c = true) (h : At i phase s)
    (hnext : ∀ answer t, At i phase t → (flightCalls i).wp (f answer) Q t) :
    (flightCalls i).wp (ask c >>= f) Q s := by
  refine ask_wp fun t hrely _ ↦ ⟨?_, fun answer u now _ hdoes ↦ hnext answer _ ?_⟩
  · cases c <;> trivial
  · have ht : At i phase t := hrely.phase.trans h
    show (u.callers i).phase = phase
    cases c with
    | lockoutRemaining =>
      obtain ⟨-, rfl⟩ := hdoes
      split
      · rw [Shared.note_phase]
        · exact ht
        · exact fun _ ↦ rfl
      · exact ht
    | start url request token =>
      subst hdoes
      rw [Shared.note_phase]
      · exact ht
      · exact fun _ ↦ rfl
    | latch response =>
      subst hdoes
      exact ht
    | bearer | refreshToken | lastRevalidation => exact hdoes.2 ▸ ht
    | sleep | reload => exact hdoes ▸ ht
    | receive | sample _ | lockGate | recheck | unlockGate | renew _ | swap _ | record _ | count =>
      cases haside

theorem receive_wp {f : Except GithubError ApiResponse → ClientProgram α} {phase : Phase}
    {Q : Except GithubError α → Shared ι → Prop} (h : At i phase s)
    (hphase : phase = .idle ∨ ∃ sample, phase = .holding sample ∧ sample.isProbe = true)
    (hnext : ∀ answer t, At i phase t → (flightCalls i).wp (f answer) Q t) :
    (flightCalls i).wp (ask .receive >>= f) Q s := by
  refine ask_wp fun t hrely _ ↦ ⟨?_, fun answer u now _ hdoes ↦ hnext answer _ ?_⟩
  · have ht : At i phase t := hrely.phase.trans h
    show (t.callers i).phase = _ ∨ ∃ sample, (t.callers i).phase = _ ∧ _
    rw [ht]
    exact hphase
  · have ht : At i phase t := hrely.phase.trans h
    show (u.callers i).phase = phase
    cases answer with
    | ok response =>
      subst hdoes
      split
      · rw [Shared.note_phase]
        · exact ht
        · exact fun _ ↦ rfl
      · exact ht
    | error error => exact hdoes ▸ ht

theorem sample_wp {f : Nat → ClientProgram α} {purpose : Purpose}
    {Q : Except GithubError α → Shared ι → Prop} (h : At i .idle s)
    (hnext : ∀ mine t, mine.purpose = purpose → At i (.waiting mine) t →
      (flightCalls i).wp (f mine.generation) Q t) :
    (flightCalls i).wp (ask (.sample purpose) >>= f) Q s := by
  refine ask_wp fun t hrely _ ↦ ⟨hrely.phase.trans h, fun answer u now _ hdoes ↦ ?_⟩
  obtain ⟨rfl, rfl⟩ := hdoes
  refine hnext ⟨purpose, t.generation, t.credential.secret, t.recorded⟩ _ rfl ?_
  show ((t.enter i _).callers i).phase = _
  rw [Shared.enter_phase, if_pos rfl]

theorem lockGate_wp {f : Unit → ClientProgram α} {Q : Except GithubError α → Shared ι → Prop}
    (h : At i (.waiting sample) s)
    (hnext : ∀ t, At i (.waiting sample) t → t.gate = some i → (flightCalls i).wp (f ()) Q t) :
    (flightCalls i).wp (ask .lockGate >>= f) Q s := by
  refine ask_wp fun t hrely _ ↦ ⟨trivial, fun answer u now _ hdoes ↦ ?_⟩
  obtain ⟨-, rfl⟩ := hdoes
  exact hnext _ (hrely.phase.trans h) rfl

theorem recheck_wp {f : Nat → ClientProgram α} {Q : Except GithubError α → Shared ι → Prop}
    (h : At i (.waiting sample) s) (hgate : s.gate = some i)
    (hcurrent : ∀ t, At i (.holding sample) t → (flightCalls i).wp (f sample.generation) Q t)
    (hover : ∀ generation t, generation ≠ sample.generation → At i .leaving t →
      (flightCalls i).wp (f generation) Q t) : (flightCalls i).wp (ask .recheck >>= f) Q s := by
  refine ask_wp fun t hrely _ ↦
    ⟨⟨hrely.gate hgate, sample, hrely.phase.trans h⟩, fun answer u now _ hdoes ↦ ?_⟩
  have ht : At i (.waiting sample) t := hrely.phase.trans h
  obtain ⟨rfl, rfl⟩ := hdoes
  unfold Shared.turn
  rw [ht]
  dsimp only
  split
  · next hsame =>
    rw [hsame]
    refine hcurrent _ ?_
    show ((t.enter i _).callers i).phase = _
    rw [Shared.enter_phase, if_pos rfl]
  · next hother =>
    refine hover _ _ hother ?_
    split
    · show ((Shared.enter _ i _).callers i).phase = _
      rw [Shared.enter_phase, if_pos rfl]
    · show ((Shared.enter _ i _).callers i).phase = _
      rw [Shared.enter_phase, if_pos rfl]

theorem unlockGate_wp {f : Unit → ClientProgram α} {Q : Except GithubError α → Shared ι → Prop}
    (h : (∃ sample, At i (.holding sample) s) ∨ At i .leaving s)
    (hnext : ∀ t, At i .idle t → (flightCalls i).wp (f ()) Q t) :
    (flightCalls i).wp (ask .unlockGate >>= f) Q s := by
  refine ask_wp fun t hrely hflight ↦ ⟨?_, fun answer u now _ hdoes ↦ ?_⟩
  · rcases h with ⟨sample, hholding⟩ | hleaving
    · have ht : At i (.holding sample) t := hrely.phase.trans hholding
      exact ⟨hflight.atGate i (by rw [ht]; trivial), .inl ⟨sample, ht⟩⟩
    · have ht : At i .leaving t := hrely.phase.trans hleaving
      exact ⟨hflight.atGate i (by rw [ht]; trivial), .inr ht⟩
  · subst hdoes
    refine hnext _ ?_
    show ((Shared.enter _ i _).callers i).phase = _
    rw [Shared.enter_phase, if_pos rfl]

theorem renew_wp {refresh : String} {f : Except RenewalError UserAccessToken → ClientProgram α}
    {Q : Except GithubError α → Shared ι → Prop} (h : At i (.holding sample) s)
    (hrenew : sample.purpose = .renew)
    (hok : ∀ fresh t, At i (.renewed sample fresh) t → (flightCalls i).wp (f (.ok fresh)) Q t)
    (hfailed : ∀ error t, At i (.holding sample) t → (flightCalls i).wp (f (.error error)) Q t) :
    (flightCalls i).wp (ask (.renew refresh) >>= f) Q s := by
  refine ask_wp fun t hrely _ ↦
    ⟨⟨sample, hrely.phase.trans h, hrenew⟩, fun answer u now _ hdoes ↦ ?_⟩
  have ht : At i (.holding sample) t := hrely.phase.trans h
  have hsample : t.sampleOf i = some sample := by
    unfold Shared.sampleOf
    rw [ht]
  obtain rfl : u = t.hand i refresh answer := hdoes
  cases answer with
  | ok fresh =>
    refine hok fresh _ ?_
    show ((t.hand i refresh (.ok fresh)).callers i).phase = _
    unfold Shared.hand
    rw [hsample]
    dsimp only
    rw [Shared.enter_phase, if_pos rfl]
  | error error => exact hfailed error _ ht

/-- Where a caller with a new credential may be. -/
def Bears (i : ι) (sample : Sample) (fresh : UserAccessToken) (s : Shared ι) : Prop :=
  At i (.holding sample) s ∧ sample.isProbe = false ∨ At i (.renewed sample fresh) s

/-- The caller at the gate replaces the credential, unless it found the one in hand. -/
theorem swap_wp {fresh : UserAccessToken} {f : Bool → ClientProgram α}
    {Q : Except GithubError α → Shared ι → Prop} (h : Bears i sample fresh s)
    (hyes : ∀ t, At i (.changed sample) t → (flightCalls i).wp (f true) Q t)
    (hno : ∀ t, At i (.holding sample) t → (flightCalls i).wp (f false) Q t) :
    (flightCalls i).wp (ask (.swap fresh) >>= f) Q s := by
  refine ask_wp fun t hrely hflight ↦ ?_
  have ht : Bears i sample fresh t :=
    h.imp (fun hholding ↦ ⟨hrely.phase.trans hholding.1, hholding.2⟩) hrely.phase.trans
  have hsample : t.sampleOf i = some sample := by
    unfold Shared.sampleOf
    rcases ht with ⟨hholding, -⟩ | hrenewed
    · rw [hholding]
    · rw [hrenewed]
  refine ⟨ht.imp (fun hholding ↦ ⟨sample, hholding⟩) fun hrenewed ↦ ⟨sample, hrenewed⟩, ?_⟩
  intro answer u now _ hdoes
  obtain ⟨hswapped, rfl⟩ := hdoes
  cases answer with
  | true =>
    refine hyes _ ?_
    show ((Shared.change _ i).callers i).phase = _
    unfold Shared.change
    have hsample' : Shared.sampleOf { t with
      credential := fresh, past := t.past ++ [t.credential.secret] } i = some sample := hsample
    rw [hsample']
    dsimp only
    rw [Shared.enter_phase, if_pos rfl]
  | false =>
    refine hno _ ?_
    rcases ht with ⟨hholding, -⟩ | hrenewed
    · exact hholding
    · -- What was minted is not what was in hand.
      have hfits := hflight.fits i
      rw [hrenewed] at hfits
      exact absurd hfits.2.2.2 (of_decide_eq_false hswapped.symm)

theorem record_wp {outcome : Revalidation} {f : Unit → ClientProgram α}
    {Q : Except GithubError α → Shared ι → Prop} (h : At i (.holding sample) s)
    (hprobe : sample.isProbe = true)
    (hnext : ∀ t, At i (.changed sample) t → (flightCalls i).wp (f ()) Q t) :
    (flightCalls i).wp (ask (.record outcome) >>= f) Q s := by
  refine ask_wp fun t hrely _ ↦
    ⟨⟨sample, hrely.phase.trans h, hprobe⟩, fun answer u now _ hdoes ↦ hnext _ ?_⟩
  have ht : At i (.holding sample) t := hrely.phase.trans h
  subst hdoes
  have hsample : Shared.sampleOf { t with
      lastRevalidation := outcome, recorded := t.recorded + 1 } i = some sample := by
    unfold Shared.sampleOf
    dsimp only
    rw [ht]
  show ((Shared.change _ i).callers i).phase = _
  unfold Shared.change
  rw [hsample]
  dsimp only
  rw [Shared.enter_phase, if_pos rfl]

theorem count_wp {f : Unit → ClientProgram α} {Q : Except GithubError α → Shared ι → Prop}
    (h : At i (.changed sample) s)
    (hnext : ∀ t, At i .leaving t → (flightCalls i).wp (f ()) Q t) :
    (flightCalls i).wp (ask .count >>= f) Q s := by
  refine ask_wp fun t hrely _ ↦
    ⟨⟨sample, hrely.phase.trans h⟩, fun answer u now _ hdoes ↦ hnext _ ?_⟩
  have ht : At i (.changed sample) t := hrely.phase.trans h
  have hsample : t.sampleOf i = some sample := by
    unfold Shared.sampleOf
    rw [ht]
  subst hdoes
  show ((t.count i).callers i).phase = _
  unfold Shared.count
  rw [hsample]
  dsimp only
  split
  · rw [Shared.enter_phase, if_pos rfl]
  · rw [Shared.enter_phase, if_pos rfl]

/-! ## The programs -/

/-- A program that begins and ends away from the gate, or with it and a probe to make. -/
def Stays (i : ι) (phase : Phase) (p : ClientProgram α) : Prop :=
  ∀ s, At i phase s → (flightCalls i).wp p (fun _ t ↦ At i phase t) s

theorem sendRaw_stays (client : Client) {phase : Phase} (request : ApiRequest)
    (hphase : phase = .idle ∨ ∃ sample, phase = .holding sample ∧ sample.isProbe = true) :
    Stays i phase (client.sendRaw request) := by
  intro s h
  unfold sendRaw
  cases client.resolve request.path with
  | error error => exact h
  | ok url =>
    refine aside_wp rfl h fun token t ht ↦ ?_
    refine aside_wp rfl ht fun _ u hu ↦ ?_
    refine receive_wp hu hphase fun answer v hv ↦ ?_
    cases answer with
    | ok response => exact hv
    | error error => exact hv

theorem classify_stays {phase : Phase} (request : ApiRequest) (response : ApiResponse)
    (attempt : Attempt) : Stays i phase (client.classify request response attempt) := by
  intro s h
  unfold classify
  split
  · exact h
  split
  · exact h
  split
  · exact aside_wp rfl h fun _ t ht ↦ ht
  dsimp only
  split
  · exact h
  · exact h

/-- What a caller has produced for its swap. -/
def Produces (i : ι) (sample : Sample) :
    Except GithubError (Option UserAccessToken) → Shared ι → Prop
  | .ok none, s => At i (.holding sample) s
  | .ok (some fresh), s => Bears i sample fresh s
  | .error _, _ => False

theorem swapCredentialOnce_stays {purpose : Purpose}
    {produce : ClientProgram (Option UserAccessToken)}
    (hproduce : ∀ sample s, sample.purpose = purpose → At i (.holding sample) s →
      (flightCalls i).wp produce (Produces i sample) s) :
    Stays i .idle (swapCredentialOnce purpose produce) := by
  intro s h
  refine sample_wp h fun sample t hpurpose ht ↦ ?_
  refine lockGate_wp ht fun u hu hgate ↦ ?_
  refine recheck_wp hu hgate (fun v hv ↦ ?_) fun generation v hother hv ↦ ?_
  · rw [if_neg (not_not.mpr rfl)]
    refine wp_seq (hproduce sample v hpurpose hv) (fun found w hw ↦ ?_)
      fun _ _ hw ↦ hw.elim
    cases found with
    | none => exact unlockGate_wp (.inl ⟨sample, hw⟩) fun x hx ↦ hx
    | some fresh =>
      refine swap_wp hw (fun x hx ↦ ?_) fun x hx ↦ ?_
      · rw [if_pos rfl]
        exact count_wp hx fun y hy ↦ unlockGate_wp (.inr hy) fun z hz ↦ hz
      · exact unlockGate_wp (.inl ⟨sample, hx⟩) fun y hy ↦ hy
  · rw [if_pos hother]
    exact unlockGate_wp (.inr hv) fun w hw ↦ hw

theorem reloadOnce_stays : Stays i .idle client.reloadOnce := by
  unfold reloadOnce
  split
  · refine swapCredentialOnce_stays fun sample s hpurpose h ↦ ?_
    show (flightCalls i).wp (ask .reload >>= pure) _ s
    refine aside_wp rfl h fun found t ht ↦ ?_
    cases found with
    | none => exact ht
    | some fresh =>
      refine .inl ⟨ht, ?_⟩
      rw [Sample.isProbe, hpurpose]
      rfl
  · exact fun s h ↦ h

theorem renewOnce_stays : Stays i .idle client.renewOnce := by
  unfold renewOnce
  split
  · refine swapCredentialOnce_stays fun sample s hpurpose h ↦ ?_
    refine aside_wp rfl h fun refresh t ht ↦ ?_
    cases refresh with
    | none => exact ht
    | some refresh =>
      exact renew_wp ht hpurpose (fun fresh u hu ↦ .inr hu) fun error u hu ↦ hu
  · exact fun s h ↦ h

theorem replaceOnce_stays : Stays i .idle client.replaceOnce := by
  intro s h
  refine wp_seq (reloadOnce_stays s h) (fun replaced t ht ↦ ?_) fun _ _ ht ↦ ht
  split
  · exact ht
  · exact renewOnce_stays t ht

/-- A program that does not fail. -/
def Ends (Q : α → Shared ι → Prop) : Except GithubError α → Shared ι → Prop
  | .ok value, s => Q value s
  | .error _, _ => False

theorem probeCredential_wp (hprobe : sample.isProbe = true) (attempt : Attempt)
    (h : At i (.holding sample) s) :
    (flightCalls i).wp (client.probeCredential attempt)
      (Ends fun _ t ↦ At i (.holding sample) t) s := by
  have hsent := sendRaw_stays client probeRequest (.inr ⟨sample, rfl, hprobe⟩) s h
  unfold probeCredential
  refine wp_outcome_seq hsent fun result t ht ↦ ?_
  cases result with
  | error error => exact ht
  | ok response =>
    dsimp only
    split
    · exact ht
    split
    · exact ht
    split
    · exact aside_wp rfl ht fun _ u hu ↦ hu
    · exact ht

theorem sharedOrProbed_wp (attempt : Attempt) (h : At i (.waiting sample) s)
    (hgate : s.gate = some i) (hprobe : sample.isProbe = true) :
    (flightCalls i).wp (client.sharedOrProbed attempt sample.generation)
      (Ends fun _ t ↦ At i .leaving t) s := by
  refine recheck_wp h hgate (fun t ht ↦ ?_) fun generation t hother ht ↦ ?_
  · rw [if_neg (not_not.mpr rfl)]
    refine wp_seq (probeCredential_wp hprobe attempt ht) (fun fresh u hu ↦ ?_)
      fun _ _ hu ↦ hu
    refine record_wp hu hprobe fun v hv ↦ ?_
    exact count_wp hv fun w hw ↦ hw
  · rw [if_pos hother]
    show (flightCalls i).wp (ask .lastRevalidation >>= pure) _ t
    exact aside_wp rfl ht fun outcome u hu ↦ hu

theorem revalidateFrom_stays (attempt : Attempt) :
    Stays i .idle (client.revalidateFrom attempt) := by
  intro s h
  refine aside_wp rfl h fun remaining t ht ↦ ?_
  cases remaining with
  | some remaining => exact ht
  | none =>
    refine sample_wp ht fun sample u hpurpose hu ↦ ?_
    have hprobe : sample.isProbe = true := by
      rw [Sample.isProbe, hpurpose]
      rfl
    refine lockGate_wp hu fun v hv hgate ↦ ?_
    refine wp_seq (sharedOrProbed_wp attempt hv hgate hprobe) (fun outcome w hw ↦ ?_)
      fun _ _ hw ↦ hw.elim
    refine aside_wp rfl hw fun remaining x hx ↦ ?_
    refine unlockGate_wp (.inr hx) fun y hy ↦ ?_
    cases remaining with
    | some remaining => exact hy
    | none => exact hy

theorem retryOnce_stays (request : ApiRequest) : Stays i .idle (client.retryOnce request) := by
  intro s h
  refine wp_seq (sendRaw_stays client request (.inl rfl) s h) (fun second t ht ↦ ?_)
    fun _ _ ht ↦ ht
  refine wp_seq (classify_stays request second .retry t ht) (fun classified u hu ↦ ?_)
    fun _ _ hu ↦ hu
  cases classified with
  | ok | unauthorized | error => exact hu

theorem revalidateAndRetryOnce_stays (request : ApiRequest) :
    Stays i .idle (client.revalidateAndRetryOnce request) := by
  intro s h
  refine aside_wp rfl h fun _ t ht ↦ ?_
  refine wp_seq (replaceOnce_stays t ht) (fun replaced u hu ↦ ?_) fun _ _ hu ↦ hu
  cases replaced with
  | true => exact retryOnce_stays request u hu
  | false =>
    refine wp_seq (revalidateFrom_stays .retry u hu) (fun outcome v hv ↦ ?_)
      fun _ _ hv ↦ hv
    cases outcome with
    | rejected => exact hv
    | valid | unavailable =>
      refine aside_wp rfl hv fun remaining w hw ↦ ?_
      cases remaining with
      | some remaining => exact hw
      | none => exact retryOnce_stays request w hw

theorem send_stays (request : ApiRequest) : Stays i .idle (client.send request) := by
  intro s h
  refine aside_wp rfl h fun remaining t ht ↦ ?_
  cases remaining with
  | some remaining => exact ht
  | none =>
    refine wp_seq (sendRaw_stays client request (.inl rfl) t ht) (fun first u hu ↦ ?_)
      fun _ _ hu ↦ hu
    refine wp_seq (classify_stays request first .first u hu)
      (fun classified v hv ↦ ?_) fun _ _ hv ↦ hv
    cases classified with
    | unauthorized => exact revalidateAndRetryOnce_stays request v hv
    | ok | error => exact hv

theorem program_stays (task : Task) : Stays i .idle (task.program client) := by
  intro s h
  cases task with
  | send request =>
    exact wp_seq (send_stays request s h) (fun _ _ ht ↦ ht) fun _ _ ht ↦ ht
  | revalidate =>
    exact wp_seq (revalidateFrom_stays .first s h) (fun _ _ ht ↦ ht) fun _ _ ht ↦ ht
  | replace =>
    exact wp_seq (replaceOnce_stays s h) (fun _ _ ht ↦ ht) fun _ _ ht ↦ ht

end Client

section

variable {client : Client} {tasks : ι → Client.Task} {P R : ClientPool ι}
  {log : List (Occurrence (Shared ι) ι)}

omit [DecidableEq ι] in
theorem ClientPool.Starts.flight (h : P.Starts client tasks) : P.shared.Flight := by
  have hidle : ∀ i, (P.shared.callers i).phase = .idle := by
    intro i
    rw [h.callers]
  refine ⟨⟨?_, ?_, ?_, ?_⟩, ?_, ?_, ?_, ?_⟩
  · rw [h.handed]
    exact .nil
  · rw [h.handed]
    exact fun _ hentry ↦ nomatch hentry
  · rw [h.swaps]
    exact fun _ hentry ↦ nomatch hentry
  · rw [h.reuses]
    exact fun _ hentry ↦ nomatch hentry
  · intro i hat
    rw [hidle] at hat
    cases hat
  · rw [h.past]
    exact fun hpast ↦ nomatch hpast
  · intro i
    rw [hidle]
    trivial
  · rw [h.handed]
    exact fun _ hentry ↦ nomatch hentry

/-- In every run of callers whose answers are timely, a credential is renewed once, for a `401` of
its own, and who is told that it was swapped or probed is told the truth. -/
theorem single_flight (hstart : P.Starts client tasks)
    (h : Contract.Interleaves (fun i ↦ (clientCalls i).assuming (Shared.Timely i)) P log R) :
    R.shared.SingleFlight := by
  have hsteps : ∀ (i : ι) s c a t, ((clientCalls i).assuming (Shared.Timely i)).steps s c a t →
      (turnCalls i).steps s c a t := fun _ _ _ _ _ hstep ↦ hstep
  have hrun : Contract.Interleaves turnCalls P log R := h.of_steps hsteps
  have hmeets := hrun.sound (I := Shared.Flight) (Q := fun _ _ _ ↦ True) Shared.rely_refl
    Shared.rely_trans ?_ ?_ (fun _ _ _ _ _ _ ↦ trivial) hstart.flight ?_
  · exact hmeets.1.single
  · intro i s c answer t hflight hturn hstep
    obtain ⟨htimely, u, now, hdoes, -, rfl⟩ := hstep
    exact (hflight.does hturn htimely hdoes).congr rfl rfl rfl rfl rfl rfl rfl rfl (fun _ ↦ rfl)
      fun _ ↦ rfl
  · intro i j s c answer t hij _ hturn hstep
    obtain ⟨-, u, now, hdoes, -, rfl⟩ := hstep
    have hrely := hdoes.rely hij hturn
    exact ⟨hrely.phase, hrely.gate⟩
  · intro i
    rw [hstart.points]
    refine wp_mono (Client.program_stays (tasks i) P.shared ?_) fun _ _ _ ↦ trivial
    show (P.shared.callers i).phase = _
    rw [hstart.callers]

end

/-- A client that can renew its credential and not reload it. -/
def renewingClient : Client where
  urls := ⟨fun _ ↦ none, fun base _ ↦ some base⟩
  apiBase := ⟨"https", "api.github.com", 443, "https://api.github.com/"⟩
  hasSource := false
  hasRenewal := true
  readMessage _ := none

/-- Two callers that send the same request with a credential that can be renewed. -/
def twoRenewers : ClientPool (Fin 2) :=
  .fresh renewingClient (fun _ ↦ .send (.get "/user")) ⟨"t0", some "r0"⟩

theorem two_not_counting {s : Shared (Fin 2)}
    (hzero : ∀ sample, (s.callers 0).phase ≠ .changed sample)
    (hone : ∀ sample, (s.callers 1).phase ≠ .changed sample) (probe : Bool) :
    ¬ s.Counting probe := by
  rintro ⟨j, sample, hj, -⟩
  match j with
  | 0 => exact hzero sample hj
  | 1 => exact hone sample hj

theorem two_timely_count {s : Shared (Fin 2)} (mine theirs : Sample)
    (hzero : (s.callers 0).phase = .changed mine) (hone : (s.callers 1).phase = .waiting theirs)
    (hkind : theirs.isProbe = mine.isProbe) : s.Timely 0 .count () := by
  intro sample hsample j other hother
  cases hzero.symm.trans hsample
  match j with
  | 0 => cases hzero.symm.trans hother
  | 1 =>
    cases hone.symm.trans hother
    exact hkind

/-- Two callers were refused; one renews, the other one waits for it. -/
theorem renewed_for_both : ∃ log R, Contract.Interleaves
    (fun i ↦ (clientCalls i).assuming (Shared.Timely i)) twoRenewers log R ∧
    R.shared.handed = [⟨some "t0", "t0", "r0", true⟩] ∧ R.shared.swaps.length = 2 ∧
    R.shared.SingleFlight := by
  have h₀ := Contract.Interleaves.start twoRenewers
    (C := fun i ↦ (clientCalls i).assuming (Shared.Timely i))
  have h₁ := h₀.advance 0 .lockoutRemaining none _ rfl ⟨trivial, Shared.Does.steps ⟨rfl, rfl⟩⟩
  have h₂ := h₁.advance 0 .bearer "t0" _ rfl ⟨trivial, Shared.Does.steps ⟨rfl, rfl⟩⟩
  have h₃ := h₂.advance 0 (.start renewingClient.apiBase (.get "/user") "t0") () _ rfl
    ⟨trivial, Shared.Does.steps rfl⟩
  have h₄ := h₃.advance 0 .receive (.ok ⟨401, [], []⟩) _ rfl ⟨trivial, Shared.Does.steps rfl⟩
  have h₅ := h₄.advance 0 .sleep () _ rfl ⟨trivial, Shared.Does.steps rfl⟩
  have k₁ := h₅.advance 1 .lockoutRemaining none _ rfl ⟨trivial, Shared.Does.steps ⟨rfl, rfl⟩⟩
  have k₂ := k₁.advance 1 .bearer "t0" _ rfl ⟨trivial, Shared.Does.steps ⟨rfl, rfl⟩⟩
  have k₃ := k₂.advance 1 (.start renewingClient.apiBase (.get "/user") "t0") () _ rfl
    ⟨trivial, Shared.Does.steps rfl⟩
  have k₄ := k₃.advance 1 .receive (.ok ⟨401, [], []⟩) _ rfl ⟨trivial, Shared.Does.steps rfl⟩
  have k₅ := k₄.advance 1 .sleep () _ rfl ⟨trivial, Shared.Does.steps rfl⟩
  have l₁ := k₅.advance 0 (.sample .renew) 0 _ rfl
    ⟨⟨two_not_counting (fun _ h ↦ nomatch h) (fun _ h ↦ nomatch h),
      fun _ _ hown ↦ (Option.some.inj hown).symm⟩, Shared.Does.steps ⟨rfl, rfl⟩⟩
  have l₂ := l₁.advance 1 (.sample .renew) 0 _ rfl
    ⟨⟨two_not_counting (fun _ h ↦ nomatch h) (fun _ h ↦ nomatch h),
      fun _ _ hown ↦ (Option.some.inj hown).symm⟩, Shared.Does.steps ⟨rfl, rfl⟩⟩
  have l₃ := l₂.advance 0 .lockGate () _ rfl ⟨trivial, Shared.Does.steps ⟨rfl, rfl⟩⟩
  have l₄ := l₃.advance 0 .recheck 0 _ rfl ⟨trivial, Shared.Does.steps ⟨rfl, rfl⟩⟩
  have l₅ := l₄.advance 0 .refreshToken (some "r0") _ rfl
    ⟨trivial, Shared.Does.steps ⟨rfl, rfl⟩⟩
  have l₆ := l₅.advance 0 (.renew "r0") (.ok ⟨"t1", some "r1"⟩) _ rfl
    ⟨(by decide : "t1" ≠ "t0"), Shared.Does.steps rfl⟩
  have l₇ := l₆.advance 0 (.swap ⟨"t1", some "r1"⟩) true _ rfl
    ⟨(fun h ↦ nomatch h), Shared.Does.steps ⟨rfl, rfl⟩⟩
  have l₈ := l₇.advance 0 .count () _ rfl
    ⟨two_timely_count ⟨.renew, 0, "t0", 0⟩ ⟨.renew, 0, "t0", 0⟩ rfl rfl rfl, Shared.Does.steps rfl⟩
  have l₉ := l₈.advance 0 .unlockGate () _ rfl ⟨trivial, Shared.Does.steps rfl⟩
  have m₁ := l₉.advance 1 .lockGate () _ rfl ⟨trivial, Shared.Does.steps ⟨rfl, rfl⟩⟩
  have m₂ := m₁.advance 1 .recheck 1 _ rfl ⟨trivial, Shared.Does.steps ⟨rfl, rfl⟩⟩
  exact ⟨_, _, m₂, rfl, rfl, single_flight (ClientPool.fresh_starts _ _ _) m₂⟩

/-- The refusal of an old credential comes late: its caller samples the generation of the new one,
and hands over the refresh token that was just minted. -/
theorem late_refusal : ∃ log R, Contract.Interleaves clientCalls twoRenewers log R ∧
    R.shared.handed = [⟨some "t0", "t0", "r0", true⟩, ⟨some "t0", "t1", "r1", true⟩] ∧
    ¬ R.shared.SingleFlight := by
  have h₀ := Contract.Interleaves.start twoRenewers (C := clientCalls)
  have h₁ := h₀.advance 0 .lockoutRemaining none _ rfl (Shared.Does.steps ⟨rfl, rfl⟩)
  have h₂ := h₁.advance 0 .bearer "t0" _ rfl (Shared.Does.steps ⟨rfl, rfl⟩)
  have h₃ := h₂.advance 0 (.start renewingClient.apiBase (.get "/user") "t0") () _ rfl
    (Shared.Does.steps rfl)
  have h₄ := h₃.advance 0 .receive (.ok ⟨401, [], []⟩) _ rfl (Shared.Does.steps rfl)
  have k₁ := h₄.advance 1 .lockoutRemaining none _ rfl (Shared.Does.steps ⟨rfl, rfl⟩)
  have k₂ := k₁.advance 1 .bearer "t0" _ rfl (Shared.Does.steps ⟨rfl, rfl⟩)
  have k₃ := k₂.advance 1 (.start renewingClient.apiBase (.get "/user") "t0") () _ rfl
    (Shared.Does.steps rfl)
  have l₁ := k₃.advance 0 .sleep () _ rfl (Shared.Does.steps rfl)
  have l₂ := l₁.advance 0 (.sample .renew) 0 _ rfl (Shared.Does.steps ⟨rfl, rfl⟩)
  have l₃ := l₂.advance 0 .lockGate () _ rfl (Shared.Does.steps ⟨rfl, rfl⟩)
  have l₄ := l₃.advance 0 .recheck 0 _ rfl (Shared.Does.steps ⟨rfl, rfl⟩)
  have l₅ := l₄.advance 0 .refreshToken (some "r0") _ rfl (Shared.Does.steps ⟨rfl, rfl⟩)
  have l₆ := l₅.advance 0 (.renew "r0") (.ok ⟨"t1", some "r1"⟩) _ rfl (Shared.Does.steps rfl)
  have l₇ := l₆.advance 0 (.swap ⟨"t1", some "r1"⟩) true _ rfl (Shared.Does.steps ⟨rfl, rfl⟩)
  have l₈ := l₇.advance 0 .count () _ rfl (Shared.Does.steps rfl)
  have l₉ := l₈.advance 0 .unlockGate () _ rfl (Shared.Does.steps rfl)
  -- The other request went out before the renewal and is refused after it.
  have m₁ := l₉.advance 1 .receive (.ok ⟨401, [], []⟩) _ rfl (Shared.Does.steps rfl)
  have m₂ := m₁.advance 1 .sleep () _ rfl (Shared.Does.steps rfl)
  have m₃ := m₂.advance 1 (.sample .renew) 1 _ rfl (Shared.Does.steps ⟨rfl, rfl⟩)
  have m₄ := m₃.advance 1 .lockGate () _ rfl (Shared.Does.steps ⟨rfl, rfl⟩)
  have m₅ := m₄.advance 1 .recheck 1 _ rfl (Shared.Does.steps ⟨rfl, rfl⟩)
  have m₆ := m₅.advance 1 .refreshToken (some "r1") _ rfl (Shared.Does.steps ⟨rfl, rfl⟩)
  have m₇ := m₆.advance 1 (.renew "r1") (.ok ⟨"t2", some "r2"⟩) _ rfl (Shared.Does.steps rfl)
  refine ⟨_, _, m₇, rfl, fun h ↦ ?_⟩
  have hown := h.own ⟨some "t0", "t1", "r1", true⟩
    (List.mem_append_right _ (List.mem_singleton.mpr rfl)) "t0" rfl
  revert hown
  decide

end RunnerManager.Github
