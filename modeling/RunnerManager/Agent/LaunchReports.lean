import RunnerManager.Agent.BlockedLaunches

/-!
# When blocked launches are reported

`Kept` is the invariant of a daemon whose launches keep to `promptContract`: the streak and the
record follow from the refusals noted since the last grant. `reported_of_run` is the promise for
every state such a daemon reaches. `silent_of_slow` is a daemon whose refresh interval is no
shorter than the gap that starts a new run: it counts every refusal as the first.
-/

namespace RunnerManager.Agent.WslRecoveryAllocationLock

open RunnerManager.Domain RunnerManager.Platform

/-! ## Ages -/

theorem elapsed_iff {since now : Timestamp} {limit : Nat} :
    elapsedAtLeast since now limit = true ↔ 0 ≤ now - since ∧ (limit : Int) ≤ now - since := by
  simp [elapsedAtLeast]

theorem elapsed_mono {since since' now now' : Timestamp} {limit : Nat} (hsince : since' ≤ since)
    (hnow : now ≤ now') (h : elapsedAtLeast since now limit = true) :
    elapsedAtLeast since' now' limit = true := by
  rw [elapsed_iff] at h ⊢
  have hage : now - since ≤ now' - since' := Int.sub_le_sub hnow hsince
  exact ⟨h.1.trans hage, h.2.trans hage⟩

/-! ## What the noted refusals come to -/

/-- When the first refusal was noted. -/
def sinceOf : Noted → List Noted → Timestamp
  | latest, [] => latest.time
  | _, earlier :: rest => sinceOf earlier rest

def streakOf : List Noted → Option Streak
  | [] => none
  | latest :: rest =>
    some ⟨sinceOf latest rest, latest.time, min (rest.length + 1) maxCount⟩

/-- The noted refusals are enough, and over long enough. -/
def Lasting (latest : Noted) (rest : List Noted) : Prop :=
  blockedAfterDeferrals ≤ rest.length + 1 ∧
    elapsedAtLeast (sinceOf latest rest) latest.time blockedAfter = true

instance (latest : Noted) (rest : List Noted) : Decidable (Lasting latest rest) :=
  inferInstanceAs (Decidable (_ ∧ _))

/-- The refusal that the record is about. -/
def recordedAt : List Noted → Option Timestamp
  | [] => none
  | latest :: rest => if Lasting latest rest then some latest.time else none

/-- The latest refusal comes first. -/
def InOrder (noted : List Noted) : Prop :=
  noted.Pairwise fun later earlier ↦ earlier.time ≤ later.time

theorem sinceOf_mem (latest : Noted) (rest : List Noted) :
    ∃ first ∈ latest :: rest, first.time = sinceOf latest rest := by
  induction rest generalizing latest with
  | nil => exact ⟨latest, List.mem_cons_self, rfl⟩
  | cons earlier rest ih =>
    obtain ⟨first, hfirst, htime⟩ := ih earlier
    exact ⟨first, List.mem_cons_of_mem _ hfirst, htime⟩

theorem sinceOf_le {latest : Noted} {rest : List Noted} (h : InOrder (latest :: rest)) :
    ∀ noted ∈ latest :: rest, sinceOf latest rest ≤ noted.time := by
  induction rest generalizing latest with
  | nil =>
    intro noted hnoted
    rw [List.mem_singleton.mp hnoted]
    exact le_refl _
  | cons earlier rest ih =>
    obtain ⟨hlatest, hrest⟩ := List.pairwise_cons.mp h
    intro noted hnoted
    obtain rfl | hnoted := List.mem_cons.mp hnoted
    · have hfirst := ih hrest earlier List.mem_cons_self
      exact hfirst.trans (hlatest earlier List.mem_cons_self)
    · exact ih hrest noted hnoted

theorem le_latest {latest : Noted} {rest : List Noted} (h : InOrder (latest :: rest)) :
    ∀ noted ∈ latest :: rest, noted.time ≤ latest.time := by
  intro noted hnoted
  obtain rfl | hnoted := List.mem_cons.mp hnoted
  · exact le_refl _
  · exact (List.pairwise_cons.mp h).1 noted hnoted

theorem enough_of_count (n : Nat) :
    blockedAfterDeferrals ≤ min n maxCount ↔ blockedAfterDeferrals ≤ n := by
  simp only [blockedAfterDeferrals, maxCount]
  omega

theorem Lasting.grow {latest earlier : Noted} {rest : List Noted}
    (h : Lasting earlier rest) (hlater : earlier.time ≤ latest.time) :
    Lasting latest (earlier :: rest) := by
  obtain ⟨henough, hspan⟩ := h
  refine ⟨?_, elapsed_mono (le_refl _) hlater hspan⟩
  simp only [List.length_cons]
  omega

theorem nextStreak_eq {refusals : Refusals} {noted : List Noted} {next : Noted}
    (hstreak : refusals.streak = streakOf noted)
    (hsoon : ∀ previous ∈ noted.head?, elapsedAtLeast previous.time next.time streakGap = false) :
    streakOf (next :: noted) = some (refusals.nextStreak next.time) := by
  unfold Refusals.nextStreak
  rw [hstreak]
  cases noted with
  | nil => rfl
  | cons latest rest =>
    have hgap := hsoon latest (by simp)
    simp only [streakOf, hgap, List.length_cons, sinceOf, Bool.false_eq_true, if_false]
    congr 2
    simp only [maxCount]
    omega

theorem blocked_iff {latest : Noted} {rest : List Noted} {streak : Streak}
    (h : streakOf (latest :: rest) = some streak) :
    streak.blocked latest.time = true ↔ Lasting latest rest := by
  obtain rfl := Option.some.inj h
  simp only [Streak.blocked, Lasting, Bool.and_eq_true, decide_eq_true_eq, enough_of_count]

theorem noteRefusedLocked_blocked {paths : BlockPaths} {cause : BlockCause} {now : Timestamp}
    {refusals : Refusals} {record : Option LaunchesBlockedRecord}
    (h : (refusals.nextStreak now).blocked now = true) :
    noteRefusedLocked paths true cause now refusals record =
      (⟨some (refusals.nextStreak now), true⟩,
        some ⟨1, now, blockedSince paths cause (refusals.nextStreak now).since⟩) := by
  simp [noteRefusedLocked, h]

theorem noteRefusedLocked_counted {paths : BlockPaths} {cause : BlockCause} {now : Timestamp}
    {refusals : Refusals} {record : Option LaunchesBlockedRecord}
    (h : (refusals.nextStreak now).blocked now = false) :
    noteRefusedLocked paths true cause now refusals record =
      (⟨some (refusals.nextStreak now), refusals.recorded⟩, record) := by
  simp [noteRefusedLocked, h]

/-! ## The invariant -/

variable {ι : Type} {s t : LaunchState ι} {paths : BlockPaths} {i : ι}

namespace LaunchState

/-- The counter counts the guards, and the streak and the record follow from what was noted. -/
structure Kept (s : LaunchState ι) : Prop where
  counter : s.inFlight = s.guards.card
  noted : ∀ noted ∈ s.noted, noted.guarded = false ∧ noted.rival = false ∧ noted.time ≤ s.clock
  sorted : InOrder s.noted
  streak : s.refusals.streak = streakOf s.noted
  recorded : s.refusals.recorded = s.record.isSome
  record : s.record.map (·.lastRefusedAt) = recordedAt s.noted

theorem Fresh.kept (h : s.Fresh) : s.Kept where
  counter := by rw [h.inFlight, h.guards, Finset.card_empty]
  noted noted hnoted := by
    rw [h.noted] at hnoted
    cases hnoted
  sorted := by
    rw [h.noted]
    exact .nil
  streak := by
    rw [h.refusals, h.noted]
    rfl
  recorded := by
    rw [h.refusals, h.record]
    rfl
  record := by
    rw [h.record, h.noted]
    rfl

theorem Kept.congr (h : s.Kept) (hclock : s.clock ≤ t.clock) (hinFlight : t.inFlight = s.inFlight)
    (hguards : t.guards = s.guards) (hnoted : t.noted = s.noted)
    (hrefusals : t.refusals = s.refusals) (hrecord : t.record = s.record) : t.Kept where
  counter := by rw [hinFlight, hguards, h.counter]
  noted noted hin := by
    obtain ⟨hguarded, hrival, htime⟩ := h.noted noted (hnoted ▸ hin)
    exact ⟨hguarded, hrival, htime.trans hclock⟩
  sorted := hnoted ▸ h.sorted
  streak := by rw [hrefusals, hnoted, h.streak]
  recorded := by rw [hrefusals, hrecord, h.recorded]
  record := by rw [hrecord, hnoted, h.record]

theorem Kept.grant (h : s.Kept) : s.grant.Kept ∧ s.grant.record = none := by
  have hnone : s.grant.record = none := by
    have hrecorded := h.recorded
    cases hrecord : s.record with
    | none => simp [LaunchState.grant, noteGrantedLocked, hrecorded, hrecord]
    | some record => simp [LaunchState.grant, noteGrantedLocked, hrecorded, hrecord]
  refine ⟨⟨h.counter, (fun _ hnoted ↦ nomatch hnoted), .nil, ?_, ?_, ?_⟩, hnone⟩
  · show (noteGrantedLocked true s.refusals s.record).1.streak = none
    unfold noteGrantedLocked
    split <;> rfl
  · rw [hnone]
    show (noteGrantedLocked true s.refusals s.record).1.recorded = false
    unfold noteGrantedLocked
    cases hrecorded : s.refusals.recorded with
    | true => rfl
    | false => rfl
  · rw [hnone]
    rfl

/-- A refusal that is noted in order and soon: the streak goes on, and it is recorded once it has
lasted. -/
theorem Kept.note (h : s.Kept) {cause : BlockCause} {now : Timestamp}
    (hrequires : s.guarded i = false ∧ s.rival i = false ∧ now ≤ s.clock)
    (hsoon : ∀ previous ∈ s.noted.head?,
      previous.time ≤ now ∧ elapsedAtLeast previous.time now streakGap = false) :
    (s.note paths i cause now).Kept := by
  set next : Noted := ⟨now, s.guarded i, s.rival i⟩ with hnext
  have hstreak := @nextStreak_eq s.refusals s.noted next h.streak
    fun previous hin ↦ (hsoon previous hin).2
  have hblocked : (s.refusals.nextStreak now).blocked now = true ↔ Lasting next s.noted :=
    blocked_iff hstreak
  have hnoted : ∀ noted ∈ next :: s.noted,
      noted.guarded = false ∧ noted.rival = false ∧ noted.time ≤ s.clock := by
    intro noted hin
    obtain rfl | hin := List.mem_cons.mp hin
    · exact hrequires
    · exact h.noted noted hin
  have hsorted : InOrder (next :: s.noted) := by
    refine List.pairwise_cons.mpr ⟨fun earlier hin ↦ ?_, h.sorted⟩
    obtain ⟨latest, rest, hlist⟩ := List.exists_cons_of_ne_nil (List.ne_nil_of_mem hin)
    have hlatest : latest.time ≤ now := (hsoon latest (by rw [hlist]; rfl)).1
    have horder := h.sorted
    rw [hlist] at hin horder
    exact (le_latest horder earlier hin).trans hlatest
  by_cases hlasting : Lasting next s.noted
  · have hnote := @noteRefusedLocked_blocked paths cause now s.refusals s.record
      (hblocked.mpr hlasting)
    refine ⟨h.counter, hnoted, hsorted, ?_, ?_, ?_⟩
    · show (noteRefusedLocked paths true cause now s.refusals s.record).1.streak = _
      rw [hnote]
      exact hstreak.symm
    · show (noteRefusedLocked paths true cause now s.refusals s.record).1.recorded =
        (noteRefusedLocked paths true cause now s.refusals s.record).2.isSome
      rw [hnote]
      rfl
    · show (noteRefusedLocked paths true cause now s.refusals s.record).2.map _ =
        recordedAt (next :: s.noted)
      rw [hnote, recordedAt, if_pos hlasting]
      rfl
  · have hnote := @noteRefusedLocked_counted paths cause now s.refusals s.record
      (Bool.eq_false_iff.mpr (mt hblocked.mp hlasting))
    -- A shorter streak has not lasted either, so that there is no record to go stale.
    have hbefore : recordedAt s.noted = none := by
      cases hlist : s.noted with
      | nil => rfl
      | cons latest rest =>
        refine if_neg fun hearlier ↦ hlasting ?_
        rw [hlist]
        exact hearlier.grow (hsoon latest (by rw [hlist]; rfl)).1
    refine ⟨h.counter, hnoted, hsorted, ?_, ?_, ?_⟩
    · show (noteRefusedLocked paths true cause now s.refusals s.record).1.streak = _
      rw [hnote]
      exact hstreak.symm
    · show (noteRefusedLocked paths true cause now s.refusals s.record).1.recorded =
        (noteRefusedLocked paths true cause now s.refusals s.record).2.isSome
      rw [hnote]
      exact h.recorded
    · show (noteRefusedLocked paths true cause now s.refusals s.record).2.map _ =
        recordedAt (next :: s.noted)
      rw [hnote, recordedAt, if_neg hlasting, h.record, hbefore]

theorem read_iff (record : Option LaunchesBlockedRecord) (now : Timestamp) :
    (recordedLaunchesBlocked record now).isSome = true ↔
      ∃ time, record.map (·.lastRefusedAt) = some time ∧
        elapsedAtLeast time now recordFresh = false := by
  cases record with
  | none => simp [recordedLaunchesBlocked]
  | some record => simp [recordedLaunchesBlocked, Option.filter_some]

/-- What the daemon keeps is what it promises. -/
theorem Kept.reported (h : s.Kept) : s.Reported := by
  have hunguarded : s.unguarded = s.noted :=
    List.filter_eq_self.mpr fun noted hin ↦ by rw [(h.noted noted hin).1]; rfl
  have hnone (hempty : s.noted = []) : s.record = none := by
    have hrecord := h.record
    rw [hempty] at hrecord
    exact Option.map_eq_none_iff.mp hrecord
  refine ⟨?_, hnone, fun hsome ↦ ?_⟩
  · rw [read_iff, h.record]
    constructor
    · rintro ⟨time, hrecorded, hfresh⟩
      cases hlist : s.noted with
      | nil =>
        rw [hlist] at hrecorded
        cases hrecorded
      | cons latest rest =>
        rw [hlist, recordedAt] at hrecorded
        split at hrecorded
        case isFalse => cases hrecorded
        case isTrue hlasting =>
          obtain rfl := Option.some.inj hrecorded
          rw [hlist] at hunguarded
          obtain ⟨first, hfirst, htime⟩ := sinceOf_mem latest rest
          refine ⟨?_, ⟨first, ?_, latest, ?_, ?_⟩, latest, ?_, hfresh⟩
          · rw [hunguarded]
            exact hlasting.1
          · rw [hunguarded]
            exact hfirst
          · rw [hunguarded]
            exact List.mem_cons_self
          · rw [htime]
            exact hlasting.2
          · rw [hunguarded]
            exact List.mem_cons_self
    · rintro ⟨henough, ⟨first, hfirst, last, hlast, hspan⟩, fresh, hin, hfresh⟩
      have horder := h.sorted
      rw [hunguarded] at henough hfirst hlast hin
      cases hlist : s.noted with
      | nil =>
        rw [hlist] at hfirst
        cases hfirst
      | cons latest rest =>
        rw [hlist] at henough hfirst hlast hin horder
        have hlasting : Lasting latest rest :=
          ⟨henough, elapsed_mono (sinceOf_le horder first hfirst)
            (le_latest horder last hlast) hspan⟩
        refine ⟨latest.time, if_pos hlasting, ?_⟩
        have hclock := (h.noted latest (by rw [hlist]; exact List.mem_cons_self)).2.2
        refine Bool.eq_false_iff.mpr fun hstale ↦ ?_
        rw [elapsed_mono (le_latest horder fresh hin) (le_refl _) hstale] at hfresh
        cases hfresh
  · cases hlist : s.noted with
    | nil =>
      rw [hnone hlist] at hsome
      cases hsome
    | cons latest rest =>
      refine ⟨latest, List.mem_cons_self, ?_⟩
      exact (h.noted latest (by rw [hlist]; exact List.mem_cons_self)).2.1

/-! ## Steps -/

/-- What a launch relies on while others move. -/
structure Rely (i : ι) (s t : LaunchState ι) : Prop where
  clock : s.clock ≤ t.clock
  guards : i ∈ s.guards ↔ i ∈ t.guards
  guarded : t.guarded i = s.guarded i
  rival : t.rival i = s.rival i

theorem Rely.refl (i : ι) (s : LaunchState ι) : Rely i s s :=
  ⟨le_refl _, Iff.rfl, rfl, rfl⟩

theorem Rely.trans {u : LaunchState ι} (h : Rely i s t) (hnext : Rely i t u) : Rely i s u :=
  ⟨h.clock.trans hnext.clock, h.guards.trans hnext.guards, hnext.guarded.trans h.guarded,
    hnext.rival.trans h.rival⟩

theorem Kept.moves (h : s.Kept) (hmoves : s.Moves t) : t.Kept ∧ ∀ j, Rely j s t := by
  obtain ⟨clock, fence, lock, hclock, rfl, -⟩ := hmoves
  exact ⟨h.congr hclock rfl rfl rfl rfl rfl, fun j ↦ ⟨hclock, Iff.rfl, rfl, rfl⟩⟩

variable [DecidableEq ι]

theorem Kept.enter (h : s.Kept) (hi : i ∉ s.guards) : (s.enter i).Kept where
  counter := by
    show s.inFlight + 1 = (insert i s.guards).card
    rw [Finset.card_insert_of_notMem hi, h.counter]
  noted := h.noted
  sorted := h.sorted
  streak := h.streak
  recorded := h.recorded
  record := h.record

theorem Kept.leave (h : s.Kept) (hi : i ∈ s.guards) : (s.leave i).Kept where
  counter := by
    show s.inFlight - 1 = (s.guards.erase i).card
    rw [Finset.card_erase_of_mem hi, h.counter]
  noted := h.noted
  sorted := h.sorted
  streak := h.streak
  recorded := h.recorded
  record := h.record

theorem Kept.step (h : s.Kept) {c : LaunchCall} {answer : c.Answer} (hrequires : s.Requires i c)
    (hprompt : Prompt i s c answer) (hstep : s.Steps paths i c answer t) :
    t.Kept ∧ ∀ j, j ≠ i → Rely j s t := by
  have hblame (rival : Bool) : (s.blame i rival).Kept ∧ ∀ j, j ≠ i → Rely j s (s.blame i rival) :=
    ⟨h.congr (le_refl _) rfl rfl rfl rfl rfl, fun j hj ↦
      ⟨le_refl _, Iff.rfl, rfl, Function.update_of_ne hj _ _⟩⟩
  unfold Steps at hstep
  split at hstep
  · obtain rfl := hstep
    exact hblame _
  · obtain rfl := hstep
    exact ⟨h, fun j _ ↦ .refl j _⟩
  · obtain ⟨-, rfl⟩ := hstep
    exact ⟨h.congr (le_refl _) rfl rfl rfl rfl rfl, fun j _ ↦ ⟨le_refl _, Iff.rfl, rfl, rfl⟩⟩
  · obtain rfl := hstep
    exact hblame _
  · obtain rfl := hstep
    exact ⟨h, fun j _ ↦ .refl j _⟩
  · obtain rfl := hstep
    exact hblame _
  · obtain ⟨-, rfl⟩ := hstep
    exact ⟨h.congr (le_refl _) rfl rfl rfl rfl rfl, fun j _ ↦ ⟨le_refl _, Iff.rfl, rfl, rfl⟩⟩
  · obtain rfl := hstep
    exact hblame _
  · obtain rfl := hstep
    exact ⟨h.grant.1, fun j _ ↦ ⟨le_refl _, Iff.rfl, rfl, rfl⟩⟩
  · obtain rfl := hstep
    refine ⟨h.enter hrequires, fun j hj ↦ ⟨le_refl _, ?_, rfl, rfl⟩⟩
    show j ∈ s.guards ↔ j ∈ insert i s.guards
    simp [hj]
  · obtain ⟨-, rfl⟩ := hstep
    exact ⟨h.congr (le_refl _) rfl rfl rfl rfl rfl, fun j hj ↦
      ⟨le_refl _, Iff.rfl, Function.update_of_ne hj _ _, rfl⟩⟩
  · obtain ⟨-, rfl⟩ := hstep
    exact ⟨h, fun j _ ↦ .refl j _⟩
  · obtain rfl := hstep
    exact ⟨h.note hrequires hprompt, fun j _ ↦ ⟨le_refl _, Iff.rfl, rfl, rfl⟩⟩
  · rcases hstep with rfl | rfl
    · exact ⟨h.congr (le_refl _) rfl rfl rfl rfl rfl, fun j _ ↦ ⟨le_refl _, Iff.rfl, rfl, rfl⟩⟩
    · exact ⟨h.congr (le_refl _) rfl rfl rfl rfl rfl, fun j _ ↦ ⟨le_refl _, Iff.rfl, rfl, rfl⟩⟩
  · obtain rfl := hstep
    exact ⟨h.congr (le_refl _) rfl rfl rfl rfl rfl, fun j _ ↦ ⟨le_refl _, Iff.rfl, rfl, rfl⟩⟩
  · obtain rfl := hstep
    refine ⟨h.leave hrequires, fun j hj ↦ ⟨le_refl _, ?_, rfl, rfl⟩⟩
    show j ∈ s.guards ↔ j ∈ s.guards.erase i
    simp [hj]

/-! ## Launches -/

/-- The contract of a launch while others move. -/
def launchContract (paths : BlockPaths) (i : ι) :
    Contract LaunchCall LaunchCall.Answer (LaunchState ι) :=
  (promptContract paths i).under Kept (Rely i)

def Standing (i : ι) (live : Bool) (s : LaunchState ι) : Prop :=
  i ∈ s.guards ↔ live = true

variable {α : Type} {live : Bool} {Q : Except AllocationLockBusy α → LaunchState ι → Prop}

omit [DecidableEq ι] in
theorem Standing.of_rely (h : Standing i live s) (hrely : Rely i s t) : Standing i live t :=
  hrely.guards.symm.trans h

theorem ask_wp {c : LaunchCall} {f : c.Answer → LaunchProgram α} (h : Standing i live s)
    (hrequires : ∀ t, Rely i s t → t.Kept → Standing i live t → t.Requires i c)
    (hnext : ∀ t answer u, Rely i s t → t.Kept → Standing i live t → Prompt i t c answer →
      t.Steps paths i c answer u → (launchContract paths i).wp (f answer) Q u) :
    (launchContract paths i).wp (ask c >>= f) Q s := by
  refine (Contract.wp_bind _ _).mpr ⟨fun t hrely hkept ↦ ?_, fun answer u hstep ↦ ?_⟩
  · exact hrequires t hrely hkept (h.of_rely hrely)
  · obtain ⟨t, hrely, hkept, hprompt, hstep⟩ := hstep
    exact hnext t answer u hrely hkept (h.of_rely hrely) hprompt hstep

/-- The step requires nothing and leaves the guards alone. -/
def quiet : LaunchCall → Bool
  | .enter | .leave | .note _ _ => false
  | _ => true

theorem guards_of_quiet {c : LaunchCall} {answer : c.Answer} (hquiet : quiet c = true)
    (hstep : s.Steps paths i c answer t) : t.guards = s.guards := by
  unfold Steps at hstep
  split at hstep
  all_goals first
    | exact Bool.noConfusion hquiet
    | (subst hstep; rfl)
    | (obtain ⟨-, rfl⟩ := hstep; rfl; done)
    | (rcases hstep with rfl | rfl <;> rfl)

theorem quiet_wp {c : LaunchCall} {f : c.Answer → LaunchProgram α} (hquiet : quiet c = true)
    (h : Standing i live s)
    (hnext : ∀ answer u, Standing i live u → (launchContract paths i).wp (f answer) Q u) :
    (launchContract paths i).wp (ask c >>= f) Q s := by
  refine ask_wp h (fun t _ _ _ ↦ ?_) fun t answer u _ _ ht _ hstep ↦ hnext answer u ?_
  · cases c <;> trivial
  · rw [Standing, guards_of_quiet hquiet hstep]
    exact ht

theorem noteRefused_wp {cause : BlockCause} (h : Standing i false s) :
    (launchContract paths i).wp (noteRefused cause) (fun _ t ↦ Standing i false t) s := by
  refine ask_wp h (fun _ _ _ _ ↦ trivial) fun t count u _ hkept ht hprompt hstep ↦ ?_
  obtain ⟨rfl, rfl⟩ := hstep
  show (launchContract paths i).wp (ite _ _ _) _ _
  split
  case isTrue => exact ht
  case isFalse hzero =>
    have hnone : ¬ t.guards.Nonempty := by
      have hcard := hkept.counter
      rw [Finset.nonempty_iff_ne_empty, not_not]
      exact Finset.card_eq_zero.mp (hcard.symm.trans (Nat.eq_zero_of_not_pos hzero))
    have hguarded : (t.look i).guarded i = false :=
      (Function.update_self ..).trans (decide_eq_false hnone)
    have hrival : (t.look i).rival i = false := by
      cases hmine : t.rival i with
      | false => exact hmine
      | true => exact absurd (hprompt hmine) hnone
    have hlook : Standing i false (t.look i) := ht
    refine ask_wp hlook (fun _ _ _ _ ↦ trivial) fun v now w hfirst _ hv _ hstep ↦ ?_
    obtain ⟨rfl, rfl⟩ := hstep
    refine ⟨fun x hsecond _ ↦ ⟨?_, ?_, hsecond.clock⟩, ?_⟩
    · rw [hsecond.guarded, hfirst.guarded, hguarded]
    · rw [hsecond.rival, hfirst.rival, hrival]
    · rintro _ x ⟨y, hsecond, _, _, hstep⟩
      obtain rfl := hstep
      show Standing i false y
      exact hv.of_rely hsecond

theorem refuse_wp {cause : BlockCause} (h : Standing i false s)
    (hQ : ∀ t, Standing i false t → Q (.error .busy) t) :
    (launchContract paths i).wp (refuse cause) Q s :=
  Contract.wp_seq (noteRefused_wp h) (fun _ t ht ↦ hQ t ht) fun e t ht ↦ by
    cases e
    exact hQ t ht

theorem dropClaim_wp {fenced : Bool} {f : Unit → LaunchProgram α} (h : Standing i live s)
    (hnext : ∀ u, Standing i live u → (launchContract paths i).wp (f ()) Q u) :
    (launchContract paths i).wp (dropClaim fenced >>= f) Q s := by
  cases fenced with
  | false => exact hnext s h
  | true => exact quiet_wp rfl h fun _ u hu ↦ hnext u hu

/-- A granted launch has a guard, and a refused one has none. -/
def Acquired (i : ι) : Except AllocationLockBusy Bool → LaunchState ι → Prop
  | .ok _ => Standing i true
  | .error _ => Standing i false

theorem allocate_wp {fenced : Bool} (h : Standing i false s) :
    (launchContract paths i).wp (allocate fenced) (Acquired i) s := by
  refine quiet_wp rfl h fun granted t ht ↦ ?_
  cases granted with
  | true =>
    refine quiet_wp rfl ht fun _ u hu ↦ ?_
    refine ask_wp hu (fun v _ _ hv hin ↦ ?_) fun v _ w _ _ _ _ hstep ↦ ?_
    · exact Bool.noConfusion (hv.mp hin)
    · obtain rfl := hstep
      exact iff_of_true (Finset.mem_insert_self i v.guards) rfl
  | false =>
    refine Contract.wp_seq (noteRefused_wp ht) (fun _ u hu ↦ ?_) fun _ _ hu ↦ hu
    exact dropClaim_wp hu fun _ hv ↦ hv

theorem allocation_wp (h : Standing i false s) :
    (launchContract paths i).wp allocation (Acquired i) s := by
  refine quiet_wp rfl h fun config t ht ↦ ?_
  cases config with
  | unfinished => exact ht
  | unusable error => exact refuse_wp ht fun _ hu ↦ hu
  | unfenced => exact allocate_wp ht
  | fenced =>
    refine quiet_wp rfl ht fun claim u hu ↦ ?_
    cases claim with
    | some cause => exact refuse_wp hu fun _ hv ↦ hv
    | none =>
      refine quiet_wp rfl hu fun drain v hv ↦ ?_
      cases drain with
      | none => exact allocate_wp hv
      | some cause => exact quiet_wp rfl hv fun _ _ hw ↦ refuse_wp hw fun _ hx ↦ hx

theorem launch_wp (h : Standing i false s) :
    (launchContract paths i).wp launch (fun _ t ↦ Standing i false t) s := by
  refine Contract.wp_seq (allocation_wp h) (fun fenced t ht ↦ ?_) fun _ _ ht ↦ ht
  refine dropClaim_wp ht fun u hu ↦ quiet_wp rfl hu fun _ v hv ↦ ?_
  refine ⟨fun w hrely _ ↦ (hv.of_rely hrely).mpr rfl, ?_⟩
  rintro _ w ⟨x, _, _, _, hstep⟩
  obtain rfl := hstep
  exact iff_of_false (Finset.notMem_erase i x.guards) Bool.noConfusion

end LaunchState

/-! ## Runs -/

section Runs

variable [DecidableEq ι] {P : LaunchPool ι}

theorem sound_of_run (h : Daemon (promptContract paths) P) :
    Contract.Opened.Meets (promptContract paths) LaunchState.Kept LaunchState.Rely
      (fun i _ t ↦ LaunchState.Standing i false t) P := by
  refine Contract.Opened.sound (fun i s ↦ .refl i s) (fun i s t u h hnext ↦ h.trans hnext)
    (fun i _ s t hrely h ↦ h.of_rely hrely) ?_ ?_ ?_ ?_ h
  · rintro P ⟨hfresh, hpoint⟩
    refine ⟨hfresh.kept, fun i ↦ ?_⟩
    rw [hpoint i]
    refine LaunchState.launch_wp (iff_of_false ?_ Bool.noConfusion)
    rw [hfresh.guards]
    exact Finset.notMem_empty i
  · intro i s c answer t hkept hrequires hstep
    exact hkept.step hrequires hstep.1 hstep.2
  · rintro i s p t q hkept hp ⟨result, rfl, rfl, rfl⟩
    exact ⟨⟨hkept, fun j _ ↦ .refl j t⟩, LaunchState.launch_wp hp⟩
  · intro s t hkept hmoves
    exact hkept.moves hmoves

/-- Where refusals come promptly, the record is read exactly when launches are blocked and still
refused; it is no launch of this process that blocks them; and a grant removes it. -/
theorem reported_of_run (h : Daemon (promptContract paths) P) :
    P.shared.Reported ∧
      ∀ i t, P.shared.Steps paths i .noteGranted () t → t.record = none := by
  obtain ⟨hkept, -⟩ := sound_of_run h
  refine ⟨hkept.reported, fun i t hstep ↦ ?_⟩
  obtain rfl := hstep
  exact hkept.grant.2

end Runs

/-! ## A target that is refused on every pass -/

/-- The refusals of a target that is refused on every pass, the passes one interval apart. -/
def passes (interval : Nat) : Nat → List Noted
  | 0 => [⟨0, false, false⟩]
  | n + 1 => ⟨((n + 1) * interval : Nat), false, false⟩ :: passes interval n

theorem passes_length (interval n : Nat) : (passes interval n).length = n + 1 := by
  induction n with
  | zero => rfl
  | succ n ih => rw [passes, List.length_cons, ih]

theorem passes_unguarded (interval n : Nat) :
    ∀ noted ∈ passes interval n, noted.guarded = false := by
  induction n with
  | zero =>
    intro noted hin
    rw [List.mem_singleton.mp hin]
  | succ n ih =>
    intro noted hin
    obtain rfl | hin := List.mem_cons.mp hin
    · rfl
    · exact ih noted hin

theorem first_pass (interval n : Nat) : (⟨0, false, false⟩ : Noted) ∈ passes interval n := by
  induction n with
  | zero => exact List.mem_cons_self
  | succ n ih => exact List.mem_cons_of_mem _ ih

theorem last_pass (interval n : Nat) :
    (passes interval n).head? = some ⟨(n * interval : Nat), false, false⟩ := by
  cases n with
  | zero => simp [passes]
  | succ n => rfl

theorem pass_age (interval n : Nat) (limit : Nat) :
    elapsedAtLeast ((n * interval : Nat) : Timestamp) (((n + 1) * interval : Nat) : Timestamp)
      limit = decide (limit ≤ interval) := by
  have hage : (((n + 1) * interval : Nat) : Int) - (n * interval : Nat) = (interval : Nat) := by
    rw [Nat.add_mul, Nat.one_mul]
    omega
  rw [Bool.eq_iff_iff, elapsed_iff, hage, decide_eq_true_eq]
  exact ⟨fun h ↦ Int.ofNat_le.mp h.2, fun h ↦ ⟨Int.natCast_nonneg _, Int.ofNat_le.mpr h⟩⟩

/-- A daemon that was just refused, as on every pass before. -/
structure Passed (interval n : Nat) (s : LaunchState ι) : Prop where
  clock : s.clock = (n * interval : Nat)
  inFlight : s.inFlight = 0
  guards : s.guards = ∅
  fence : heldHere s.fence = false
  noted : s.noted = passes interval n

/-- It has counted each refusal as the first, and recorded nothing. -/
structure Uncounted (interval n : Nat) (s : LaunchState ι) : Prop where
  streak : s.refusals.streak = some ⟨(n * interval : Nat), (n * interval : Nat), 1⟩
  record : s.record = none

theorem Passed.blocked {interval n : Nat} (h : Passed interval n s) (hn : 4 ≤ n)
    (hspan : blockedAfter ≤ n * interval) : s.Blocked := by
  have hunguarded : s.unguarded = passes interval n := by
    unfold LaunchState.unguarded
    rw [h.noted]
    exact List.filter_eq_self.mpr fun noted hin ↦ by rw [passes_unguarded interval n noted hin]; rfl
  let last : Noted := ⟨(n * interval : Nat), false, false⟩
  have hlast : last ∈ passes interval n := List.mem_of_head? (last_pass interval n)
  refine ⟨?_, ⟨⟨0, false, false⟩, ?_, last, ?_, ?_⟩, last, ?_, ?_⟩
  · rw [hunguarded, passes_length]
    simp only [blockedAfterDeferrals]
    omega
  · rw [hunguarded]
    exact first_pass interval n
  · rw [hunguarded]
    exact hlast
  · rw [elapsed_iff, Int.sub_zero]
    exact ⟨Int.natCast_nonneg _, Int.ofNat_le.mpr hspan⟩
  · rw [hunguarded]
    exact hlast
  · rw [h.clock]
    simp [last, elapsedAtLeast, recordFresh, seconds]

variable [DecidableEq ι] {P : LaunchPool ι} {strict : Prop} {interval n : Nat}

/-- The contract of one launch, where refusals come promptly if they have to. -/
def passContract (strict : Prop) (paths : BlockPaths) (i : ι) :
    Contract LaunchCall LaunchCall.Answer (LaunchState ι) :=
  (lockContract paths i).assuming fun s c answer ↦ strict → Prompt i s c answer

/-- The state after a launch that found the fence busy. -/
def refusedState (paths : BlockPaths) (i : ι) (cause : BlockCause) (s : LaunchState ι) :
    LaunchState ι :=
  ((s.blame i (heldHere s.fence)).look i).note paths i cause s.clock

theorem refused_pass (h : Daemon (passContract strict paths) P) (hpoint : P.point i = launch)
    (hzero : P.shared.inFlight = 0) (hfence : heldHere P.shared.fence = false) (cause : BlockCause)
    (hsoon : strict → ∀ previous ∈ P.shared.noted.head?, previous.time ≤ P.shared.clock ∧
      elapsedAtLeast previous.time P.shared.clock streakGap = false) :
    ∃ Q, Daemon (passContract strict paths) Q ∧ Q.point i = .done (.error .busy) ∧
      Q.shared = refusedState paths i cause P.shared := by
  have hrival : (P.shared.blame i (heldHere P.shared.fence)).rival i = false :=
    (Function.update_self ..).trans hfence
  have hconfig := h.advance i .readConfig .fenced P.shared hpoint ⟨fun _ ↦ trivial, rfl⟩
  have hclaim := hconfig.advance i .tryClaim (some cause) _ (Function.update_self ..)
    ⟨fun _ ↦ trivial, rfl⟩
  have hlook := hclaim.advance i .inFlight P.shared.inFlight _ (Function.update_self ..)
    ⟨fun _ hmine ↦ Bool.noConfusion (hrival.symm.trans hmine), rfl, rfl⟩
  rw [hzero] at hlook
  have hnow := hlook.advance i .now P.shared.clock _ (Function.update_self ..)
    ⟨fun _ ↦ trivial, rfl, rfl⟩
  have hnote := hnow.advance i (.note cause P.shared.clock) () _ (Function.update_self ..)
    ⟨hsoon, rfl⟩
  exact ⟨_, hnote, Function.update_self .., rfl⟩

theorem Passed.of_refused {cause : BlockCause} (hguards : s.guards = ∅) (hinFlight : s.inFlight = 0)
    (hfence : heldHere s.fence = false) (hclock : s.clock = (n * interval : Nat))
    (hnoted : (⟨(n * interval : Nat), false, false⟩ :: s.noted) = passes interval n) :
    Passed interval n (refusedState paths i cause s) := by
  have hguarded : ((s.blame i (heldHere s.fence)).look i).guarded i = false := by
    refine (Function.update_self ..).trans (decide_eq_false ?_)
    show ¬ s.guards.Nonempty
    rw [hguards]
    exact Finset.not_nonempty_empty
  have hrival : ((s.blame i (heldHere s.fence)).look i).rival i = false :=
    (Function.update_self ..).trans hfence
  refine ⟨hclock, hinFlight, hguards, hfence, ?_⟩
  rw [← hnoted, ← hclock]
  show (⟨s.clock, _, _⟩ : Noted) :: s.noted = _
  rw [hguarded, hrival]

theorem Uncounted.of_refused {cause : BlockCause} (hrecord : s.record = none)
    (hstreak : s.refusals.nextStreak s.clock = ⟨(n * interval : Nat), (n * interval : Nat), 1⟩) :
    Uncounted interval n (refusedState paths i cause s) := by
  have hcounted : noteRefusedLocked paths true cause s.clock s.refusals s.record =
      (⟨some (s.refusals.nextStreak s.clock), s.refusals.recorded⟩, s.record) := by
    refine noteRefusedLocked_counted ?_
    rw [hstreak]
    rfl
  constructor
  · show (noteRefusedLocked paths true cause s.clock s.refusals s.record).1.streak = _
    rw [hcounted, hstreak]
  · show (noteRefusedLocked paths true cause s.clock s.refusals s.record).2 = _
    rw [hcounted, hrecord]

theorem refused_passes (strict : Prop) (paths : BlockPaths) (i : ι) (interval : Nat)
    (hstrict : strict → interval < streakGap) (n : Nat) :
    ∃ P, Daemon (passContract strict paths) P ∧ P.point i = .done (.error .busy) ∧
      Passed interval n P.shared ∧ (streakGap ≤ interval → Uncounted interval n P.shared) := by
  induction n with
  | zero =>
    let first : LaunchState ι :=
      ⟨0, ⟨none, false⟩, none, 0, some none, none, ∅, fun _ ↦ false, fun _ ↦ false, []⟩
    have hstart : Daemon (passContract strict paths) ⟨first, fun _ ↦ launch⟩ :=
      .start ⟨⟨rfl, rfl, rfl, rfl, rfl, rfl, rfl⟩, fun _ ↦ rfl⟩
    obtain ⟨P, hP, hpoint, hshared⟩ := refused_pass (i := i) hstart rfl rfl rfl (.fenceHeld none)
      fun _ previous hin ↦ nomatch hin
    refine ⟨P, hP, hpoint, ?_, fun _ ↦ ?_⟩
    · rw [hshared]
      refine Passed.of_refused rfl rfl rfl ?_ ?_
      · simp [first]
      · simp [first, passes]
    · rw [hshared]
      refine Uncounted.of_refused rfl ?_
      simp [first, Refusals.nextStreak]
  | succ n ih =>
    obtain ⟨P, hP, hpoint, h, huncounted⟩ := ih
    have hopen := hP.restart i P.shared launch ⟨_, hpoint, rfl, rfl⟩
    let later : LaunchState ι := { P.shared with clock := ((n + 1) * interval : Nat) }
    have hclock : P.shared.clock ≤ later.clock := by
      rw [h.clock]
      exact Int.ofNat_le.mpr (Nat.mul_le_mul_right _ (by omega))
    have hmove : P.shared.Moves later := by
      refine ⟨_, P.shared.fence, P.shared.lock, hclock, rfl, ?_, ?_⟩
      · split <;> simp_all
      · split <;> simp_all
    obtain ⟨Q, hQ, hpointQ, hshared⟩ := refused_pass (i := i) (hopen.move hmove)
      (Function.update_self ..) h.inFlight h.fence (.fenceHeld none) (by
        intro hsoon previous hin
        have hlast : previous = ⟨(n * interval : Nat), false, false⟩ := by
          have hhead : P.shared.noted.head? = some previous := hin
          rw [h.noted, last_pass] at hhead
          exact (Option.some.inj hhead).symm
        subst hlast
        refine ⟨h.clock ▸ hclock, ?_⟩
        show elapsedAtLeast ((n * interval : Nat) : Timestamp)
          (((n + 1) * interval : Nat) : Timestamp) streakGap = false
        rw [pass_age]
        exact decide_eq_false (not_le.mpr (hstrict hsoon)))
    refine ⟨Q, hQ, hpointQ, ?_, fun hslow ↦ ?_⟩
    · rw [hshared]
      refine Passed.of_refused h.guards h.inFlight h.fence rfl ?_
      show _ :: P.shared.noted = _
      rw [h.noted]
      rfl
    · rw [hshared]
      refine Uncounted.of_refused (huncounted hslow).record ?_
      show P.shared.refusals.nextStreak (((n + 1) * interval : Nat) : Timestamp) = _
      unfold Refusals.nextStreak
      rw [(huncounted hslow).streak]
      exact if_pos ((pass_age interval n streakGap).trans (decide_eq_true hslow))

def guestPaths : BlockPaths :=
  ⟨"launch-fence", "drain-request.json", "allocation.lock", fun _ ↦ "io"⟩

theorem reported_of_run_minutes : ∃ P : LaunchPool Unit,
    P.shared.noted = passes (seconds 60) 5 ∧ P.shared.Reported ∧
      (recordedLaunchesBlocked P.shared.record P.shared.clock).isSome = true := by
  obtain ⟨P, hP, -, h, -⟩ := refused_passes True guestPaths () (seconds 60)
    (fun _ ↦ by decide) 5
  have hprompt : Daemon (promptContract guestPaths) P :=
    Contract.Opened.of_steps (C := passContract True guestPaths)
      (fun _ _ _ _ _ hstep ↦ ⟨hstep.1 trivial, hstep.2⟩) hP
  have hreported := (reported_of_run hprompt).1
  exact ⟨P, h.noted, hreported, hreported.read.mpr (h.blocked (by decide) (by decide))⟩

/-- A daemon whose refresh interval is as long as the gap records nothing, however many passes
refuse the target. -/
theorem silent_of_slow (paths : BlockPaths) (i : ι) (interval : RefreshInterval)
    (hslow : streakGap ≤ seconds interval.val) (n : Nat) :
    ∃ P : LaunchPool ι, Daemon (lockContract paths) P ∧ Passed (seconds interval.val) n P.shared ∧
      P.shared.record = none := by
  obtain ⟨P, hP, -, h, huncounted⟩ := refused_passes False paths i (seconds interval.val)
    False.elim n
  have hdaemon : Daemon (lockContract paths) P :=
    Contract.Opened.of_steps (C := passContract False paths) (fun _ _ _ _ _ hstep ↦ hstep.2) hP
  exact ⟨P, hdaemon, h, (huncounted hslow).record⟩

/-- A target is refused every ten minutes, and nothing is ever said. -/
theorem slow_host_is_silent : ∃ P : LaunchPool Unit, Daemon (lockContract guestPaths) P ∧
    P.shared.noted = passes (seconds 600) 4 ∧ P.shared.Blocked ∧ P.shared.record = none ∧
      ¬ P.shared.Reported := by
  obtain ⟨P, hP, h, hrecord⟩ := silent_of_slow guestPaths () ⟨600, by decide⟩ (by decide) 4
  have hblocked := h.blocked (le_refl 4) (by decide)
  refine ⟨P, hP, h.noted, hblocked, hrecord, fun hreported ↦ ?_⟩
  have hread := hreported.read.mpr hblocked
  rw [hrecord] at hread
  cases hread

end RunnerManager.Agent.WslRecoveryAllocationLock
