import RunnerManager.Github.Client

/-!
# A credential is renewed once

One generation counts the swaps of the credential and the probes of it, and a caller samples it
after its `401` and its sleep. A caller that was not faster than the others is told so by the
generation alone. Read `Timely` first: it is what a run has to do for that to be right. `Flight` is
the invariant: a sample that waits is current, or what it saw has been replaced and the replacement
is counted or about to be. `Flight.does` says that every call keeps it that is made in its turn.
-/

namespace RunnerManager.Github

open RunnerManager.Domain

def Sample.isProbe (sample : Sample) : Bool := sample.purpose = .probe

/-- A renewal is for the credential that the caller's `401` refused. -/
def Sample.ForOwn (sample : Sample) (own : Option String) : Prop :=
  sample.purpose = .renew → ∀ token, own = some token → token = sample.token

/-- The phases of a caller that has the gate and has looked at the generation. -/
def Phase.AtGate : Phase → Prop
  | .idle | .waiting _ => False
  | _ => True

namespace Shared

variable {ι : Type}

/-- The callers renew a credential once, for a credential of theirs, and are told so only when it
is so. -/
structure SingleFlight (s : Shared ι) : Prop where
  /-- After an exchange no other `401` for the same access token causes one. -/
  once : s.handed.Pairwise fun earlier later ↦ earlier.exchanged = true →
    ∀ token, earlier.own = some token → later.own ≠ some token
  /-- A refresh token is handed over only for a `401` of the access token in hand. -/
  own : ∀ entry ∈ s.handed, ∀ token, entry.own = some token → token = entry.inHand
  /-- A swap answers `true` only when another credential is in hand than when it was called. -/
  swapped : ∀ entry ∈ s.swaps, entry.1 ≠ entry.2
  /-- A reused outcome was recorded while its caller waited. -/
  reused : ∀ entry ∈ s.reuses, entry.1 < entry.2

/-- Somebody has changed what the generation counts, and not counted it. -/
def Counting (s : Shared ι) (probe : Bool) : Prop :=
  ∃ j sample, (s.callers j).phase = .changed sample ∧ sample.isProbe = probe

/-- The answers under which one generation is enough: a caller samples only what is counted, and
for a renewal only while the credential that its `401` refused is in hand; a credential that is
found or minted was not in hand before; and a count is not taken for one of the other kind. -/
def Timely (i : ι) (s : Shared ι) (c : ClientCall) (answer : c.Answer) : Prop :=
  match c, answer with
  | .sample purpose, _ => (∀ probe, ¬ s.Counting probe) ∧
      (purpose = .renew → ∀ token, (s.callers i).own = some token → token = s.credential.secret)
  | .renew _, .ok fresh => fresh.secret ≠ s.credential.secret
  | .swap fresh, _ => fresh.secret ∉ s.past
  | .count, _ => ∀ mine, (s.callers i).phase = .changed mine → ∀ j theirs,
      (s.callers j).phase = .waiting theirs → theirs.isProbe = mine.isProbe
  | _, _ => True

/-- Where a caller has to be to make a call. -/
def Turn (i : ι) (s : Shared ι) : ClientCall → Prop
  | .receive => (s.callers i).phase = .idle ∨
      ∃ sample, (s.callers i).phase = .holding sample ∧ sample.isProbe = true
  | .sample _ => (s.callers i).phase = .idle
  | .recheck => s.gate = some i ∧ ∃ sample, (s.callers i).phase = .waiting sample
  | .unlockGate => s.gate = some i ∧
      ((∃ sample, (s.callers i).phase = .holding sample) ∨ (s.callers i).phase = .leaving)
  | .renew _ => ∃ sample, (s.callers i).phase = .holding sample ∧ sample.purpose = .renew
  | .swap fresh => (∃ sample, (s.callers i).phase = .holding sample ∧ sample.isProbe = false) ∨
      ∃ sample, (s.callers i).phase = .renewed sample fresh
  | .record _ => ∃ sample, (s.callers i).phase = .holding sample ∧ sample.isProbe = true
  | .count => ∃ sample, (s.callers i).phase = .changed sample
  | _ => True

/-! ## The invariant -/

def Current (s : Shared ι) (sample : Sample) : Prop :=
  if sample.isProbe then sample.recorded = s.recorded else sample.token = s.credential.secret

def Replaced (s : Shared ι) (sample : Sample) : Prop :=
  if sample.isProbe then sample.recorded < s.recorded else sample.token ∈ s.past

/-- What a waiting caller may rely on. -/
def Waits (s : Shared ι) (sample : Sample) : Prop :=
  (sample.generation = s.generation ∧ s.Current sample ∧ ¬ s.Counting sample.isProbe) ∨
    (s.Replaced sample ∧ (sample.generation < s.generation ∨
      sample.generation = s.generation ∧ s.Counting sample.isProbe))

/-- What holds of a caller in a phase. -/
def Fits (s : Shared ι) (own : Option String) : Phase → Prop
  | .idle | .leaving => True
  | .waiting sample => s.Waits sample ∧ sample.ForOwn own
  | .holding sample => sample.generation = s.generation ∧ s.Current sample ∧ sample.ForOwn own
  | .renewed sample fresh => sample.generation = s.generation ∧ s.Current sample ∧
      sample.isProbe = false ∧ fresh.secret ≠ s.credential.secret
  | .changed sample => sample.generation = s.generation ∧ s.Replaced sample

/-- A caller that has exchanged its credential is about to swap it. -/
def Swapping (s : Shared ι) : Prop :=
  ∃ j sample fresh, (s.callers j).phase = .renewed sample fresh

/-- The invariant. -/
structure Flight (s : Shared ι) : Prop where
  single : s.SingleFlight
  atGate : ∀ i, (s.callers i).phase.AtGate → s.gate = some i
  unused : s.credential.secret ∉ s.past
  fits : ∀ i, s.Fits (s.callers i).own (s.callers i).phase
  /-- A credential that was exchanged for another one is not in hand any more, or not for long. -/
  spent : ∀ entry ∈ s.handed, entry.exchanged = true → ∀ token, entry.own = some token →
    token ∈ s.past ∨ token = s.credential.secret ∧ s.Swapping

section

variable {s t : Shared ι} {i j : ι} {sample mine : Sample} {probe : Bool}

theorem Flight.alone (h : s.Flight) (hi : s.gate = some i) (hj : (s.callers j).phase.AtGate) :
    j = i :=
  Option.some.inj ((h.atGate j hj).symm.trans hi)

theorem Flight.others (h : s.Flight) (hi : s.gate = some i) (hj : j ≠ i) :
    (s.callers j).phase = .idle ∨ ∃ sample, (s.callers j).phase = .waiting sample := by
  have hnot : ¬ (s.callers j).phase.AtGate := fun hat ↦ hj (h.alone hi hat)
  cases hphase : (s.callers j).phase with
  | idle => exact .inl rfl
  | waiting sample => exact .inr ⟨sample, rfl⟩
  | holding | renewed | changed | leaving =>
    rw [hphase] at hnot
    exact absurd trivial hnot

theorem Flight.not_counting (h : s.Flight) (hi : s.gate = some i)
    (hphase : ∀ sample, (s.callers i).phase ≠ .changed sample) : ¬ s.Counting probe := by
  rintro ⟨j, sample, hj, -⟩
  have hji : j = i := h.alone hi (by rw [hj]; trivial)
  subst hji
  exact hphase sample hj

theorem Flight.not_swapping (h : s.Flight) (hi : s.gate = some i)
    (hphase : ∀ sample fresh, (s.callers i).phase ≠ .renewed sample fresh) : ¬ s.Swapping := by
  rintro ⟨j, sample, fresh, hj⟩
  have hji : j = i := h.alone hi (by rw [hj]; trivial)
  subst hji
  exact hphase sample fresh hj

theorem Waits.current (h : s.Waits sample) (hgeneration : s.generation = sample.generation)
    (hcounting : ¬ s.Counting sample.isProbe) : s.Current sample := by
  rcases h with ⟨-, hcurrent, -⟩ | ⟨-, hless | ⟨-, hchanged⟩⟩
  · exact hcurrent
  · omega
  · exact absurd hchanged hcounting

theorem Waits.replaced (h : s.Waits sample) (hgeneration : s.generation ≠ sample.generation) :
    s.Replaced sample := by
  rcases h with ⟨hsame, -, -⟩ | ⟨hreplaced, -⟩
  · exact absurd hsame.symm hgeneration
  · exact hreplaced

theorem Flight.ne_of_replaced (h : s.Flight) (hreplaced : s.Replaced sample)
    (hprobe : sample.isProbe = false) : sample.token ≠ s.credential.secret := by
  unfold Replaced at hreplaced
  rw [hprobe] at hreplaced
  intro hsame
  exact h.unused (hsame ▸ hreplaced)

/-! ## Steps that change neither the credential nor the outcome -/

/-- A step of one caller that leaves alone what the generation counts. -/
structure Beside (i : ι) (s t : Shared ι) : Prop where
  generation : t.generation = s.generation
  credential : t.credential = s.credential
  past : t.past = s.past
  recorded : t.recorded = s.recorded
  phase : ∀ j, j ≠ i → (t.callers j).phase = (s.callers j).phase
  own : ∀ j, j ≠ i → (t.callers j).own = (s.callers j).own
  counting : ∀ probe, t.Counting probe ↔ s.Counting probe

theorem counting_of_settled (hphase : ∀ j, j ≠ i → (t.callers j).phase = (s.callers j).phase)
    (hbefore : ∀ sample, (s.callers i).phase ≠ .changed sample)
    (hafter : ∀ sample, (t.callers i).phase ≠ .changed sample) (probe : Bool) :
    t.Counting probe ↔ s.Counting probe := by
  constructor
  · rintro ⟨j, sample, hj, hprobe⟩
    have hji : j ≠ i := fun hji ↦ hafter sample (hji ▸ hj)
    exact ⟨j, sample, (hphase j hji).symm.trans hj, hprobe⟩
  · rintro ⟨j, sample, hj, hprobe⟩
    have hji : j ≠ i := fun hji ↦ hbefore sample (hji ▸ hj)
    exact ⟨j, sample, (hphase j hji).trans hj, hprobe⟩

theorem Beside.current (h : Beside i s t) : t.Current sample ↔ s.Current sample := by
  unfold Current
  rw [h.recorded, h.credential]

theorem Beside.replaced (h : Beside i s t) : t.Replaced sample ↔ s.Replaced sample := by
  unfold Replaced
  rw [h.recorded, h.past]

theorem Beside.waits (h : Beside i s t) : t.Waits sample ↔ s.Waits sample := by
  unfold Waits
  rw [h.generation, h.current, h.replaced, h.counting sample.isProbe]

theorem Beside.fits (h : Beside i s t) {own : Option String} {phase : Phase} :
    t.Fits own phase ↔ s.Fits own phase := by
  cases phase with
  | idle | leaving => exact Iff.rfl
  | waiting sample =>
    simp only [Fits, h.waits]
  | holding sample =>
    simp only [Fits, h.generation, h.current]
  | renewed sample fresh =>
    simp only [Fits, h.generation, h.current, h.credential]
  | changed sample =>
    simp only [Fits, h.generation, h.replaced]

theorem Flight.beside (h : s.Flight) (hbeside : Beside i s t) (hsingle : t.SingleFlight)
    (hatGate : ∀ j, (t.callers j).phase.AtGate → t.gate = some j)
    (hfits : s.Fits (t.callers i).own (t.callers i).phase)
    (hspent : ∀ entry ∈ t.handed, entry.exchanged = true → ∀ token, entry.own = some token →
      token ∈ s.past ∨ token = s.credential.secret ∧ t.Swapping) : t.Flight where
  single := hsingle
  atGate := hatGate
  unused := by
    rw [hbeside.credential, hbeside.past]
    exact h.unused
  fits j := by
    rw [hbeside.fits]
    by_cases hji : j = i
    · rw [hji]
      exact hfits
    · rw [hbeside.own j hji, hbeside.phase j hji]
      exact h.fits j
  spent := by
    rw [hbeside.credential, hbeside.past]
    exact hspent

theorem Beside.swapping (h : Beside i s t)
    (hphase : ∀ sample fresh, (s.callers i).phase ≠ .renewed sample fresh) (hs : s.Swapping) :
    t.Swapping := by
  obtain ⟨j, sample, fresh, hj⟩ := hs
  have hji : j ≠ i := fun hji ↦ hphase sample fresh (hji ▸ hj)
  exact ⟨j, sample, fresh, (h.phase j hji).trans hj⟩

theorem Flight.spent_beside (h : s.Flight) (hbeside : Beside i s t)
    (hphase : ∀ sample fresh, (s.callers i).phase ≠ .renewed sample fresh) :
    ∀ entry ∈ s.handed, entry.exchanged = true → ∀ token, entry.own = some token →
      token ∈ s.past ∨ token = s.credential.secret ∧ t.Swapping := by
  intro entry hentry hexchanged token htoken
  refine (h.spent entry hentry hexchanged token htoken).imp_right fun hhand ↦ ⟨hhand.1, ?_⟩
  exact hbeside.swapping hphase hhand.2

theorem beside_of_callers {u : Shared ι} (hgeneration : u.generation = s.generation)
    (hcredential : u.credential = s.credential) (hpast : u.past = s.past)
    (hrecorded : u.recorded = s.recorded)
    (hphase : ∀ j, (u.callers j).phase = (s.callers j).phase)
    (hown : ∀ j, j ≠ i → (u.callers j).own = (s.callers j).own) : Beside i s u where
  generation := hgeneration
  credential := hcredential
  past := hpast
  recorded := hrecorded
  phase j _ := hphase j
  own := hown
  counting probe := by simp only [Counting, hphase]

theorem Flight.congr (h : s.Flight) (hgate : t.gate = s.gate)
    (hgeneration : t.generation = s.generation) (hcredential : t.credential = s.credential)
    (hpast : t.past = s.past) (hrecorded : t.recorded = s.recorded) (hhanded : t.handed = s.handed)
    (hswaps : t.swaps = s.swaps) (hreuses : t.reuses = s.reuses)
    (hphase : ∀ j, (t.callers j).phase = (s.callers j).phase)
    (hown : ∀ j, (t.callers j).own = (s.callers j).own) : t.Flight where
  single := by
    obtain ⟨honce, hmine, hswapped, hreused⟩ := h.single
    exact ⟨hhanded ▸ honce, hhanded ▸ hmine, hswaps ▸ hswapped, hreuses ▸ hreused⟩
  atGate j := by
    rw [hphase, hgate]
    exact h.atGate j
  unused := by
    rw [hcredential, hpast]
    exact h.unused
  fits j := by
    have hbeside : Beside j s t :=
      beside_of_callers hgeneration hcredential hpast hrecorded hphase fun k _ ↦ hown k
    rw [hbeside.fits, hphase, hown]
    exact h.fits j
  spent := by
    rw [hhanded, hpast, hcredential]
    simp only [Swapping, hphase]
    exact h.spent

theorem Flight.locks (h : s.Flight) (hgate : s.gate = none) : { s with gate := some i }.Flight := by
  have hnone : ∀ j, ¬ (s.callers j).phase.AtGate := by
    intro j hj
    have hheld := h.atGate j hj
    rw [hgate] at hheld
    cases hheld
  have hbeside : Beside i s { s with gate := some i } :=
    beside_of_callers rfl rfl rfl rfl (fun _ ↦ rfl) fun _ _ ↦ rfl
  refine h.beside hbeside ⟨h.single.once, h.single.own, h.single.swapped, h.single.reused⟩ ?_
    (h.fits i) h.spent
  exact fun j hj ↦ absurd hj (hnone j)

theorem Flight.for_own (h : s.Flight) (hholding : (s.callers i).phase = .holding mine)
    (hrenew : mine.purpose = .renew) {token : String} (hown : (s.callers i).own = some token) :
    token = s.credential.secret := by
  have hfits := h.fits i
  rw [hholding] at hfits
  obtain ⟨-, hcurrent, hmine⟩ := hfits
  have hprobe : mine.isProbe = false := by
    rw [Sample.isProbe, hrenew]
    rfl
  unfold Current at hcurrent
  rw [hprobe] at hcurrent
  exact (hmine hrenew token hown).trans hcurrent

theorem Flight.single_hand (h : s.Flight) (hholding : (s.callers i).phase = .holding mine)
    (hrenew : mine.purpose = .renew) (refresh : String) (exchanged : Bool) :
    { s with handed := s.handed ++
      [(⟨(s.callers i).own, s.credential.secret, refresh, exchanged⟩ : Handed)] }.SingleFlight := by
  refine ⟨?_, ?_, h.single.swapped, h.single.reused⟩
  · refine List.pairwise_append.mpr ⟨h.single.once, List.pairwise_singleton _ _, ?_⟩
    intro earlier hearlier later hlater hexchanged token htoken hown
    rw [List.mem_singleton] at hlater
    subst hlater
    have hsecret : token = s.credential.secret := h.for_own hholding hrenew hown
    rcases h.spent earlier hearlier hexchanged token htoken with hpast | ⟨-, hswapping⟩
    · exact h.unused (hsecret ▸ hpast)
    · refine h.not_swapping (h.atGate i (by rw [hholding]; trivial)) ?_ hswapping
      rw [hholding]
      exact fun _ _ h ↦ nomatch h
  · refine List.forall_mem_append.mpr ⟨h.single.own, List.forall_mem_singleton.mpr ?_⟩
    exact fun token hown ↦ h.for_own hholding hrenew hown

/-- The others neither move a caller nor take the gate from it. -/
structure Rely (i : ι) (s t : Shared ι) : Prop where
  phase : (t.callers i).phase = (s.callers i).phase
  gate : s.gate = some i → t.gate = some i

theorem rely_refl (i : ι) (s : Shared ι) : Rely i s s :=
  ⟨rfl, id⟩

theorem rely_trans (i : ι) (s t u : Shared ι) (hst : Rely i s t) (htu : Rely i t u) :
    Rely i s u :=
  ⟨htu.phase.trans hst.phase, fun h ↦ htu.gate (hst.gate h)⟩

/-! ## Steps that change what the generation counts -/

/-- The caller at the gate replaces the credential or records an outcome. -/
structure Changes (i : ι) (mine : Sample) (s t : Shared ι) : Prop where
  generation : t.generation = s.generation
  gate : s.gate = some i ∧ t.gate = some i
  before : ∀ sample, (s.callers i).phase ≠ .changed sample
  after : (t.callers i).phase = .changed mine
  phase : ∀ j, j ≠ i → (t.callers j).phase = (s.callers j).phase
  own : ∀ j, j ≠ i → (t.callers j).own = (s.callers j).own
  /-- What is replaced of one kind is replaced, and the other kind is left alone. -/
  current : ∀ sample, s.Current sample →
    if sample.isProbe = mine.isProbe then t.Replaced sample else t.Current sample
  replaced : ∀ sample, s.Replaced sample → t.Replaced sample

theorem Changes.counting (h : Changes i mine s t) : t.Counting mine.isProbe :=
  ⟨i, mine, h.after, rfl⟩

theorem Changes.not_counting (h : Changes i mine s t) (hs : s.Flight)
    (hprobe : sample.isProbe ≠ mine.isProbe) : ¬ t.Counting sample.isProbe := by
  rintro ⟨j, theirs, hj, hkind⟩
  by_cases hji : j = i
  · subst hji
    cases h.after.symm.trans hj
    exact hprobe hkind.symm
  · have hj' : (s.callers j).phase = .changed theirs := (h.phase j hji).symm.trans hj
    exact hji (hs.alone h.gate.1 (by rw [hj']; trivial))

theorem Changes.waits (h : Changes i mine s t) (hs : s.Flight) (hwaits : s.Waits sample) :
    t.Waits sample := by
  have hnot : ¬ s.Counting sample.isProbe := hs.not_counting h.gate.1 h.before
  by_cases hprobe : sample.isProbe = mine.isProbe
  · right
    rw [h.generation, hprobe]
    rcases hwaits with ⟨hsame, hcurrent, -⟩ | ⟨hreplaced, hless | ⟨-, hcounting⟩⟩
    · have hreplaced := h.current sample hcurrent
      rw [if_pos hprobe] at hreplaced
      exact ⟨hreplaced, .inr ⟨hsame, h.counting⟩⟩
    · exact ⟨h.replaced sample hreplaced, .inl hless⟩
    · exact absurd hcounting hnot
  · rcases hwaits with ⟨hsame, hcurrent, -⟩ | ⟨hreplaced, hless | ⟨-, hcounting⟩⟩
    · have hcurrent := h.current sample hcurrent
      rw [if_neg hprobe] at hcurrent
      exact .inl ⟨hsame.trans h.generation.symm, hcurrent, h.not_counting hs hprobe⟩
    · exact .inr ⟨h.replaced sample hreplaced, .inl (h.generation.symm ▸ hless)⟩
    · exact absurd hcounting hnot

theorem Changes.atGate (h : Changes i mine s t) (hs : s.Flight)
    (hj : (t.callers j).phase.AtGate) : t.gate = some j := by
  by_cases hji : j = i
  · rw [hji]
    exact h.gate.2
  · rw [h.phase j hji] at hj
    exact absurd (hs.alone h.gate.1 hj) hji

theorem Changes.fits (h : Changes i mine s t) (hs : s.Flight)
    (hmine : mine.generation = s.generation) (hcurrent : s.Current mine) (j : ι) :
    t.Fits (t.callers j).own (t.callers j).phase := by
  by_cases hji : j = i
  · have hreplaced := h.current mine hcurrent
    rw [if_pos rfl] at hreplaced
    rw [hji, h.after]
    exact ⟨hmine.trans h.generation.symm, hreplaced⟩
  · have hfits := hs.fits j
    rw [h.own j hji, h.phase j hji]
    rcases hs.others h.gate.1 hji with hidle | ⟨theirs, hwaiting⟩
    · rw [hidle]
      trivial
    · rw [hwaiting] at hfits ⊢
      exact ⟨h.waits hs hfits.1, hfits.2⟩

end

/-! ## The calls -/

section

variable [DecidableEq ι] {s t : Shared ι} {i : ι} {mine : Sample}

theorem note_phase (change : Caller → Caller)
    (hchange : ∀ caller, (change caller).phase = caller.phase) (j : ι) :
    ((s.note i change).callers j).phase = (s.callers j).phase := by
  rw [note_callers]
  split
  · next hji => rw [hji, hchange]
  · rfl

theorem note_own (change : Caller → Caller)
    (hchange : ∀ caller, (change caller).own = caller.own) (j : ι) :
    ((s.note i change).callers j).own = (s.callers j).own := by
  rw [note_callers]
  split
  · next hji => rw [hji, hchange]
  · rfl

@[simp]
theorem enter_phase (s : Shared ι) (i : ι) (phase : Phase) (j : ι) :
    ((s.enter i phase).callers j).phase = if j = i then phase else (s.callers j).phase := by
  unfold enter
  rw [note_callers]
  split <;> rfl

@[simp]
theorem enter_own (s : Shared ι) (i : ι) (phase : Phase) (j : ι) :
    ((s.enter i phase).callers j).own = (s.callers j).own :=
  note_own (fun caller ↦ { caller with phase }) (fun _ ↦ rfl) j

theorem beside_enter {u : Shared ι} {phase : Phase} (hu : Beside i s u)
    (hcallers : u.callers = s.callers)
    (hbefore : ∀ sample, (s.callers i).phase ≠ .changed sample)
    (hafter : ∀ sample, phase ≠ .changed sample) : Beside i s (u.enter i phase) where
  generation := hu.generation
  credential := hu.credential
  past := hu.past
  recorded := hu.recorded
  phase j hji := by rw [enter_phase, if_neg hji, hcallers]
  own j _ := by rw [enter_own, hcallers]
  counting := by
    refine counting_of_settled (fun j hji ↦ ?_) hbefore ?_
    · rw [enter_phase, if_neg hji, hcallers]
    · rw [enter_phase, if_pos rfl]
      exact hafter

theorem Flight.samples (h : s.Flight) (hidle : (s.callers i).phase = .idle) {purpose : Purpose}
    (hnot : ∀ probe, ¬ s.Counting probe)
    (hown : purpose = .renew → ∀ token, (s.callers i).own = some token →
      token = s.credential.secret) :
    (s.enter i (.waiting ⟨purpose, s.generation, s.credential.secret, s.recorded⟩)).Flight := by
  have hbeside : Beside i s
      (s.enter i (.waiting ⟨purpose, s.generation, s.credential.secret, s.recorded⟩)) := by
    refine beside_enter (beside_of_callers rfl rfl rfl rfl (fun _ ↦ rfl) fun _ _ ↦ rfl) rfl ?_ ?_
    · rw [hidle]
      exact fun _ h ↦ nomatch h
    · exact fun _ h ↦ nomatch h
  refine h.beside hbeside ⟨h.single.once, h.single.own, h.single.swapped, h.single.reused⟩ ?_ ?_ ?_
  · intro j hj
    rw [enter_phase] at hj
    split at hj
    · cases hj
    · exact h.atGate j hj
  · rw [enter_phase, if_pos rfl, enter_own]
    refine ⟨.inl ⟨rfl, ?_, hnot _⟩, hown⟩
    unfold Current
    split <;> rfl
  · refine h.spent_beside hbeside ?_
    rw [hidle]
    exact fun _ _ h ↦ nomatch h

/-- The token of a `401` is noted by a caller that does not wait with another one. -/
theorem Flight.refused (h : s.Flight)
    (hturn : (s.callers i).phase = .idle ∨
      ∃ sample, (s.callers i).phase = .holding sample ∧ sample.isProbe = true) :
    (s.note i fun caller ↦ { caller with own := caller.sentWith }).Flight := by
  have hphase : ∀ j, ((s.note i fun caller ↦ { caller with own := caller.sentWith }).callers
      j).phase = (s.callers j).phase :=
    note_phase _ fun _ ↦ rfl
  have hbeside : Beside i s (s.note i fun caller ↦ { caller with own := caller.sentWith }) := by
    refine beside_of_callers rfl rfl rfl rfl hphase fun j hji ↦ ?_
    rw [note_callers, if_neg hji]
  refine h.beside hbeside ⟨h.single.once, h.single.own, h.single.swapped, h.single.reused⟩ ?_ ?_ ?_
  · intro j
    rw [hphase]
    exact h.atGate j
  · rw [hphase]
    have hfits := h.fits i
    rcases hturn with hidle | ⟨sample, hholding, hprobe⟩
    · rw [hidle]
      trivial
    · rw [hholding] at hfits ⊢
      refine ⟨hfits.1, hfits.2.1, fun hrenew ↦ ?_⟩
      rw [Sample.isProbe, hrenew] at hprobe
      cases hprobe
  · refine h.spent_beside hbeside ?_
    rcases hturn with hidle | ⟨sample, hholding, -⟩
    · rw [hidle]
      exact fun _ _ h ↦ nomatch h
    · rw [hholding]
      exact fun _ _ h ↦ nomatch h

theorem Flight.unlocks (h : s.Flight) (hgate : s.gate = some i)
    (hphase : (∃ sample, (s.callers i).phase = .holding sample) ∨
      (s.callers i).phase = .leaving) : ({ s with gate := none }.enter i .idle).Flight := by
  have hsettled : (∀ sample, (s.callers i).phase ≠ .changed sample) ∧
      ∀ sample fresh, (s.callers i).phase ≠ .renewed sample fresh := by
    rcases hphase with ⟨sample, hholding⟩ | hleaving
    · rw [hholding]
      exact ⟨(fun _ h ↦ nomatch h), fun _ _ h ↦ nomatch h⟩
    · rw [hleaving]
      exact ⟨(fun _ h ↦ nomatch h), fun _ _ h ↦ nomatch h⟩
  have hbeside : Beside i s ({ s with gate := none }.enter i .idle) :=
    beside_enter (beside_of_callers rfl rfl rfl rfl (fun _ ↦ rfl) fun _ _ ↦ rfl) rfl hsettled.1
      fun _ h ↦ nomatch h
  refine h.beside hbeside ⟨h.single.once, h.single.own, h.single.swapped, h.single.reused⟩ ?_ ?_
    (h.spent_beside hbeside hsettled.2)
  · intro j hj
    rw [enter_phase] at hj
    split at hj
    · cases hj
    · next hji => exact absurd (h.alone hgate hj) hji
  · rw [enter_phase, if_pos rfl]
    trivial

theorem Flight.atGate_enter (h : s.Flight) (hgate : s.gate = some i) {u : Shared ι}
    (hcallers : u.callers = s.callers) {phase : Phase} {j : ι}
    (hj : ((u.enter i phase).callers j).phase.AtGate) : s.gate = some j := by
  rw [enter_phase, hcallers] at hj
  split at hj
  · next hji => rw [hji, hgate]
  · exact h.atGate j hj

/-- The caller with the gate finds its sample current, or was overtaken. -/
theorem Flight.turns (h : s.Flight) (hgate : s.gate = some i)
    (hwaiting : (s.callers i).phase = .waiting mine) : (s.turn i).Flight := by
  have hfits := h.fits i
  rw [hwaiting] at hfits
  have hsettled : ∀ sample, (s.callers i).phase ≠ .changed sample := by
    rw [hwaiting]
    exact fun _ h ↦ nomatch h
  have hrenewed : ∀ sample fresh, (s.callers i).phase ≠ .renewed sample fresh := by
    rw [hwaiting]
    exact fun _ _ h ↦ nomatch h
  -- Whatever is recorded, only the phase of this caller changes.
  have hgo : ∀ (u : Shared ι) (phase : Phase), Beside i s u → u.callers = s.callers →
      u.gate = s.gate → u.handed = s.handed → u.SingleFlight →
      (∀ sample, phase ≠ .changed sample) → s.Fits (s.callers i).own phase →
      (u.enter i phase).Flight := by
    intro u phase hu hcallers hsame hhanded hsingle hafter hphase
    have hbeside := beside_enter hu hcallers hsettled hafter
    refine h.beside hbeside ⟨hsingle.once, hsingle.own, hsingle.swapped, hsingle.reused⟩ ?_ ?_ ?_
    · intro j hj
      show u.gate = some j
      rw [hsame]
      exact h.atGate_enter hgate hcallers hj
    · rw [enter_phase, if_pos rfl, enter_own, hcallers]
      exact hphase
    · show ∀ entry ∈ u.handed, _
      rw [hhanded]
      exact h.spent_beside hbeside hrenewed
  unfold turn
  rw [hwaiting]
  dsimp only
  split
  · next hsame =>
    refine hgo s (.holding mine) (beside_of_callers rfl rfl rfl rfl (fun _ ↦ rfl) fun _ _ ↦ rfl)
      rfl rfl rfl h.single (fun _ h ↦ nomatch h) ⟨hsame.symm, ?_, hfits.2⟩
    exact hfits.1.current hsame (h.not_counting hgate hsettled)
  · next hother =>
    have hreplaced := hfits.1.replaced hother
    split
    · next hprobe =>
      refine hgo _ .leaving (beside_of_callers rfl rfl rfl rfl (fun _ ↦ rfl) fun _ _ ↦ rfl)
        rfl rfl rfl ⟨h.single.once, h.single.own, h.single.swapped, ?_⟩ (fun _ h ↦ nomatch h)
        trivial
      have hmine : mine.isProbe = true := decide_eq_true hprobe
      unfold Replaced at hreplaced
      rw [if_pos hmine] at hreplaced
      exact List.forall_mem_append.mpr
        ⟨h.single.reused, List.forall_mem_singleton.mpr hreplaced⟩
    · next hprobe =>
      refine hgo _ .leaving (beside_of_callers rfl rfl rfl rfl (fun _ ↦ rfl) fun _ _ ↦ rfl)
        rfl rfl rfl ⟨h.single.once, h.single.own, ?_, h.single.reused⟩ (fun _ h ↦ nomatch h)
        trivial
      exact List.forall_mem_append.mpr ⟨h.single.swapped,
        List.forall_mem_singleton.mpr (h.ne_of_replaced hreplaced (decide_eq_false hprobe))⟩

theorem Flight.hands (h : s.Flight) (hholding : (s.callers i).phase = .holding mine)
    (hrenew : mine.purpose = .renew) {refresh : String}
    {answer : Except RenewalError UserAccessToken}
    (hfresh : ∀ fresh, answer = .ok fresh → fresh.secret ≠ s.credential.secret) :
    (s.hand i refresh answer).Flight := by
  have hfits := h.fits i
  rw [hholding] at hfits
  have hgate : s.gate = some i := h.atGate i (by rw [hholding]; trivial)
  have hsample : s.sampleOf i = some mine := by
    unfold sampleOf
    rw [hholding]
  unfold hand
  rw [hsample]
  cases answer with
  | ok fresh =>
    have hsingle := h.single_hand hholding hrenew refresh true
    have hbeside : Beside i s ({ s with handed := s.handed ++
        [(⟨(s.callers i).own, s.credential.secret, refresh, true⟩ : Handed)] }.enter i
          (.renewed mine fresh)) := by
      refine beside_enter (beside_of_callers rfl rfl rfl rfl (fun _ ↦ rfl) fun _ _ ↦ rfl) rfl
        ?_ ?_
      · rw [hholding]
        exact fun _ h ↦ nomatch h
      · exact fun _ h ↦ nomatch h
    refine h.beside hbeside ⟨hsingle.once, hsingle.own, hsingle.swapped, hsingle.reused⟩
      (fun j hj ↦ h.atGate_enter hgate rfl hj) ?_ ?_
    · rw [enter_phase, if_pos rfl]
      refine ⟨hfits.1, hfits.2.1, ?_, hfresh fresh rfl⟩
      rw [Sample.isProbe, hrenew]
      rfl
    · have hswapping : ({ s with handed := s.handed ++
          [(⟨(s.callers i).own, s.credential.secret, refresh, true⟩ : Handed)] }.enter i
            (.renewed mine fresh)).Swapping :=
        ⟨i, mine, fresh, by rw [enter_phase, if_pos rfl]⟩
      refine List.forall_mem_append.mpr ⟨?_, List.forall_mem_singleton.mpr ?_⟩
      · intro entry hentry hexchanged token htoken
        exact (h.spent entry hentry hexchanged token htoken).imp_right
          fun hhand ↦ ⟨hhand.1, hswapping⟩
      · exact fun _ token hown ↦ .inr ⟨h.for_own hholding hrenew hown, hswapping⟩
  | error error =>
    refine h.beside (i := i) (beside_of_callers rfl rfl rfl rfl (fun _ ↦ rfl) fun _ _ ↦ rfl)
      (h.single_hand hholding hrenew refresh false) h.atGate (h.fits i) ?_
    exact List.forall_mem_append.mpr
      ⟨h.spent, List.forall_mem_singleton.mpr fun hexchanged ↦ nomatch hexchanged⟩

theorem changes_enter {u : Shared ι} (hgeneration : u.generation = s.generation)
    (hcallers : u.callers = s.callers) (hgate : s.gate = some i) (hsame : u.gate = s.gate)
    (hbefore : ∀ sample, (s.callers i).phase ≠ .changed sample)
    (hcurrent : ∀ sample, s.Current sample →
      if sample.isProbe = mine.isProbe then u.Replaced sample else u.Current sample)
    (hreplaced : ∀ sample, s.Replaced sample → u.Replaced sample) :
    Changes i mine s (u.enter i (.changed mine)) where
  generation := hgeneration
  gate := ⟨hgate, hsame.trans hgate⟩
  before := hbefore
  after := by rw [enter_phase, if_pos rfl]
  phase j hji := by rw [enter_phase, if_neg hji, hcallers]
  own j _ := by rw [enter_own, hcallers]
  current := hcurrent
  replaced := hreplaced

/-- The credential is replaced by one that was never in hand. -/
theorem Flight.swaps (h : s.Flight) {fresh : UserAccessToken} (hgate : s.gate = some i)
    (hbefore : ∀ sample, (s.callers i).phase ≠ .changed sample)
    (hsample : s.sampleOf i = some mine) (hprobe : mine.isProbe = false)
    (hmine : mine.generation = s.generation) (hcurrent : s.Current mine)
    (hdiffers : fresh.secret ≠ s.credential.secret) (hfresh : fresh.secret ∉ s.past) :
    ({ s with credential := fresh, past := s.past ++ [s.credential.secret] }.change i).Flight := by
  unfold change
  have hsample' : sampleOf { s with
    credential := fresh, past := s.past ++ [s.credential.secret] } i = some mine := hsample
  rw [hsample']
  have hchanges : Changes i mine s ({ s with
      credential := fresh, past := s.past ++ [s.credential.secret] }.enter i (.changed mine)) := by
    refine changes_enter rfl rfl hgate rfl hbefore ?_ ?_
    · intro sample hsees
      unfold Current at hsees
      rw [hprobe]
      split
      · next hswap =>
        unfold Replaced
        rw [hswap] at hsees ⊢
        exact List.mem_append_right _ (List.mem_singleton.mpr hsees)
      · next hswap =>
        rw [Bool.not_eq_false] at hswap
        unfold Current
        rw [hswap] at hsees ⊢
        exact hsees
    · intro sample hreplaced
      unfold Replaced at hreplaced ⊢
      split
      · next hkind =>
        rw [if_pos hkind] at hreplaced
        exact hreplaced
      · next hkind =>
        rw [if_neg hkind] at hreplaced
        exact List.mem_append_left _ hreplaced
  refine ⟨⟨h.single.once, h.single.own, h.single.swapped, h.single.reused⟩,
    fun j hj ↦ hchanges.atGate h hj, ?_, hchanges.fits h hmine hcurrent, ?_⟩
  · intro hpast
    rcases List.mem_append.mp hpast with hpast | hpast
    · exact hfresh hpast
    · exact hdiffers (List.mem_singleton.mp hpast)
  · intro entry hentry hexchanged token htoken
    left
    rcases h.spent entry hentry hexchanged token htoken with hpast | ⟨hhand, -⟩
    · exact List.mem_append_left _ hpast
    · exact List.mem_append_right _ (List.mem_singleton.mpr hhand)

theorem Flight.records (h : s.Flight) (hholding : (s.callers i).phase = .holding mine)
    (hprobe : mine.isProbe = true) (outcome : Revalidation) :
    ({ s with lastRevalidation := outcome, recorded := s.recorded + 1 }.change i).Flight := by
  have hfits := h.fits i
  rw [hholding] at hfits
  have hgate : s.gate = some i := h.atGate i (by rw [hholding]; trivial)
  have hsample : sampleOf { s with
      lastRevalidation := outcome, recorded := s.recorded + 1 } i = some mine := by
    unfold sampleOf
    dsimp only
    rw [hholding]
  unfold change
  rw [hsample]
  have hchanges : Changes i mine s ({ s with
      lastRevalidation := outcome, recorded := s.recorded + 1 }.enter i (.changed mine)) := by
    refine changes_enter rfl rfl hgate rfl ?_ ?_ ?_
    · rw [hholding]
      exact fun _ h ↦ nomatch h
    · intro sample hsees
      unfold Current at hsees
      rw [hprobe]
      split
      · next hkind =>
        unfold Replaced
        rw [if_pos hkind] at hsees ⊢
        exact Nat.lt_succ_of_le hsees.le
      · next hkind =>
        unfold Current
        rw [if_neg hkind] at hsees ⊢
        exact hsees
    · intro sample hreplaced
      unfold Replaced at hreplaced ⊢
      split
      · next hkind =>
        rw [if_pos hkind] at hreplaced
        exact Nat.lt_succ_of_lt hreplaced
      · next hkind =>
        rw [if_neg hkind] at hreplaced
        exact hreplaced
  refine ⟨⟨h.single.once, h.single.own, h.single.swapped, h.single.reused⟩,
    fun j hj ↦ hchanges.atGate h hj, h.unused, hchanges.fits h hfits.1 hfits.2.1, ?_⟩
  intro entry hentry hexchanged token htoken
  refine (h.spent entry hentry hexchanged token htoken).imp_right fun hhand ↦ ?_
  refine absurd hhand.2 (h.not_swapping hgate ?_)
  rw [hholding]
  exact fun _ _ h ↦ nomatch h

/-- A change is counted while only those wait whom it concerns. -/
theorem Flight.counts (h : s.Flight) (hchanged : (s.callers i).phase = .changed mine)
    (hwaiting : ∀ j theirs, (s.callers j).phase = .waiting theirs →
      theirs.isProbe = mine.isProbe) : (s.count i).Flight := by
  have hmine := h.fits i
  rw [hchanged] at hmine
  have hgate : s.gate = some i := h.atGate i (by rw [hchanged]; trivial)
  have hsample : s.sampleOf i = some mine := by
    unfold sampleOf
    rw [hchanged]
  have hspent : ∀ entry ∈ s.handed, entry.exchanged = true → ∀ token, entry.own = some token →
      token ∈ s.past := by
    intro entry hentry hexchanged token htoken
    rcases h.spent entry hentry hexchanged token htoken with hpast | ⟨-, hswapping⟩
    · exact hpast
    · refine absurd hswapping (h.not_swapping hgate ?_)
      rw [hchanged]
      exact fun _ _ h ↦ nomatch h
  -- Everybody who waits was overtaken by this change or an earlier one.
  have hwaits : ∀ (u : Shared ι) theirs, s.Waits theirs → theirs.isProbe = mine.isProbe →
      u.generation = s.generation + 1 → u.past = s.past → u.recorded = s.recorded →
      u.Waits theirs := by
    intro u theirs hwaits hkind hgeneration hpast hrecorded
    have hcounting : s.Counting theirs.isProbe := ⟨i, mine, hchanged, hkind.symm⟩
    have hreplaced : u.Replaced theirs ↔ s.Replaced theirs := by
      unfold Replaced
      rw [hpast, hrecorded]
    right
    rw [hgeneration, hreplaced]
    rcases hwaits with ⟨-, -, hnot⟩ | ⟨hreplaced, hless | ⟨hsame, -⟩⟩
    · exact absurd hcounting hnot
    · exact ⟨hreplaced, .inl (by omega)⟩
    · exact ⟨hreplaced, .inl (by omega)⟩
  have hgo : ∀ u : Shared ι, u.callers = s.callers → u.gate = s.gate →
      u.generation = s.generation + 1 → u.credential = s.credential → u.past = s.past →
      u.recorded = s.recorded → u.handed = s.handed → u.SingleFlight →
      (u.enter i .leaving).Flight := by
    intro u hcallers hsame hgeneration hcredential hpast hrecorded hhanded hsingle
    refine ⟨⟨hsingle.once, hsingle.own, hsingle.swapped, hsingle.reused⟩, ?_, ?_, ?_, ?_⟩
    · intro j hj
      show u.gate = some j
      rw [hsame]
      exact h.atGate_enter hgate hcallers hj
    · show u.credential.secret ∉ u.past
      rw [hcredential, hpast]
      exact h.unused
    · intro j
      rw [enter_phase, enter_own, hcallers]
      split
      · trivial
      · next hji =>
        have hfits := h.fits j
        rcases h.others hgate hji with hidle | ⟨theirs, htheirs⟩
        · rw [hidle]
          trivial
        · rw [htheirs] at hfits ⊢
          exact ⟨hwaits _ theirs hfits.1 (hwaiting j theirs htheirs) hgeneration hpast hrecorded,
            hfits.2⟩
    · show ∀ entry ∈ u.handed, _
      rw [hhanded]
      intro entry hentry hexchanged token htoken
      left
      show token ∈ u.past
      rw [hpast]
      exact hspent entry hentry hexchanged token htoken
  unfold count
  rw [hsample]
  dsimp only
  split
  · exact hgo _ rfl rfl rfl rfl rfl rfl rfl
      ⟨h.single.once, h.single.own, h.single.swapped, h.single.reused⟩
  · next hprobe =>
    refine hgo _ rfl rfl rfl rfl rfl rfl rfl
      ⟨h.single.once, h.single.own, ?_, h.single.reused⟩
    exact List.forall_mem_append.mpr ⟨h.single.swapped,
      List.forall_mem_singleton.mpr (h.ne_of_replaced hmine.2 (decide_eq_false hprobe))⟩

theorem Flight.does (h : s.Flight) {c : ClientCall} {answer : c.Answer} (hturn : s.Turn i c)
    (htimely : s.Timely i c answer) (hdoes : s.Does i c answer t) : t.Flight := by
  cases c with
  | lockoutRemaining =>
    obtain ⟨-, rfl⟩ := hdoes
    split
    · exact h.congr rfl rfl rfl rfl rfl rfl rfl rfl (note_phase _ fun _ ↦ rfl)
        (note_own _ fun _ ↦ rfl)
    · exact h
  | latch response =>
    subst hdoes
    exact h.congr rfl rfl rfl rfl rfl rfl rfl rfl (fun _ ↦ rfl) fun _ ↦ rfl
  | start url request token =>
    subst hdoes
    exact h.congr rfl rfl rfl rfl rfl rfl rfl rfl (note_phase _ fun _ ↦ rfl)
      (note_own _ fun _ ↦ rfl)
  | receive =>
    cases answer with
    | ok response =>
      subst hdoes
      split
      · exact h.refused hturn
      · exact h
    | error error => exact hdoes ▸ h
  | bearer | refreshToken | lastRevalidation => exact hdoes.2 ▸ h
  | sleep | reload => exact hdoes ▸ h
  | sample purpose =>
    obtain ⟨-, rfl⟩ := hdoes
    exact h.samples hturn htimely.1 htimely.2
  | lockGate =>
    obtain ⟨hgate, rfl⟩ := hdoes
    exact h.locks hgate
  | recheck =>
    obtain ⟨-, rfl⟩ := hdoes
    obtain ⟨hgate, mine, hwaiting⟩ := hturn
    exact h.turns hgate hwaiting
  | unlockGate =>
    subst hdoes
    exact h.unlocks hturn.1 hturn.2
  | renew refresh =>
    subst hdoes
    obtain ⟨mine, hholding, hrenew⟩ := hturn
    refine h.hands hholding hrenew fun fresh hanswer ↦ ?_
    subst hanswer
    exact htimely
  | swap fresh =>
    obtain ⟨hswapped, rfl⟩ := hdoes
    split
    · next hyes =>
      have hdiffers : fresh.secret ≠ s.credential.secret :=
        of_decide_eq_true (hswapped.symm.trans hyes)
      rcases hturn with ⟨mine, hholding, hprobe⟩ | ⟨mine, hrenewed⟩
      · have hfits := h.fits i
        rw [hholding] at hfits
        refine h.swaps (h.atGate i ?_) ?_ ?_ hprobe hfits.1 hfits.2.1 hdiffers htimely
        · rw [hholding]
          trivial
        · rw [hholding]
          exact fun _ h ↦ nomatch h
        · unfold sampleOf
          rw [hholding]
      · have hfits := h.fits i
        rw [hrenewed] at hfits
        refine h.swaps (h.atGate i ?_) ?_ ?_ hfits.2.2.1 hfits.1 hfits.2.1 hdiffers htimely
        · rw [hrenewed]
          trivial
        · rw [hrenewed]
          exact fun _ h ↦ nomatch h
        · unfold sampleOf
          rw [hrenewed]
    · exact h
  | record outcome =>
    subst hdoes
    obtain ⟨mine, hholding, hprobe⟩ := hturn
    exact h.records hholding hprobe outcome
  | count =>
    subst hdoes
    obtain ⟨mine, hchanged⟩ := hturn
    exact h.counts hchanged (htimely mine hchanged)

/-! ## What the others leave alone -/

theorem rely_enter {j : ι} (hji : j ≠ i) {u : Shared ι} (hu : Rely j s u) (phase : Phase) :
    Rely j s (u.enter i phase) := by
  refine ⟨?_, hu.gate⟩
  rw [enter_phase, if_neg hji]
  exact hu.phase

theorem Does.rely {j : ι} (hji : j ≠ i) {c : ClientCall} {answer : c.Answer} (hturn : s.Turn i c)
    (hdoes : s.Does i c answer t) : Rely j s t := by
  have hnote : ∀ (u : Shared ι) change, Rely j s u → Rely j s (u.note i change) := by
    intro u change hu
    refine ⟨?_, hu.gate⟩
    rw [note_callers, if_neg hji]
    exact hu.phase
  have hchange : ∀ u : Shared ι, Rely j s u → Rely j s (u.change i) := by
    intro u hu
    unfold change
    split
    · exact rely_enter hji hu _
    · exact hu
  cases c with
  | lockoutRemaining =>
    obtain ⟨-, rfl⟩ := hdoes
    split
    · exact hnote s _ (rely_refl j s)
    · exact rely_refl j s
  | latch response =>
    subst hdoes
    exact ⟨rfl, id⟩
  | start url request token =>
    subst hdoes
    exact hnote _ _ ⟨rfl, id⟩
  | receive =>
    cases answer with
    | ok response =>
      subst hdoes
      split
      · exact hnote s _ (rely_refl j s)
      · exact rely_refl j s
    | error error => exact hdoes ▸ rely_refl j s
  | bearer | refreshToken | lastRevalidation => exact hdoes.2 ▸ rely_refl j s
  | sleep | reload => exact hdoes ▸ rely_refl j s
  | sample purpose =>
    obtain ⟨-, rfl⟩ := hdoes
    exact rely_enter hji (rely_refl j s) _
  | lockGate =>
    obtain ⟨hgate, rfl⟩ := hdoes
    refine ⟨rfl, fun hheld ↦ ?_⟩
    rw [hgate] at hheld
    cases hheld
  | recheck =>
    obtain ⟨-, rfl⟩ := hdoes
    unfold turn
    split
    · split
      · exact rely_enter hji (rely_refl j s) _
      · split
        · refine rely_enter hji ?_ _
          exact ⟨rfl, id⟩
        · refine rely_enter hji ?_ _
          exact ⟨rfl, id⟩
    · exact rely_refl j s
  | unlockGate =>
    subst hdoes
    refine rely_enter hji ?_ _
    refine ⟨rfl, fun hheld ↦ ?_⟩
    exact absurd (Option.some.inj (hheld.symm.trans hturn.1)) hji
  | renew refresh =>
    subst hdoes
    unfold hand
    dsimp only
    split
    · refine rely_enter hji ?_ _
      exact ⟨rfl, id⟩
    · exact ⟨rfl, id⟩
  | swap fresh =>
    obtain ⟨-, rfl⟩ := hdoes
    split
    · exact hchange _ ⟨rfl, id⟩
    · exact rely_refl j s
  | record outcome =>
    subst hdoes
    exact hchange _ ⟨rfl, id⟩
  | count =>
    subst hdoes
    unfold count
    dsimp only
    split
    · split
      · refine rely_enter hji ?_ _
        exact ⟨rfl, id⟩
      · refine rely_enter hji ?_ _
        exact ⟨rfl, id⟩
    · exact ⟨rfl, id⟩

end

end Shared

end RunnerManager.Github
