import RunnerManager.Github.QuietPeriod

/-!
# The quiet period and a clock that jumps back

`RestDemand::held`, `RestDemand::hold_for` and `RestDemand::clear_hold` once the clock of the host
was set back. `held` caps the time it reports and not the time the hold ends at, so a hold that the
jump takes far away silences the gateway until the clock has come back to its end.
-/

namespace RunnerManager.Github

open RunnerManager.Domain

/-- `RestDemand::clear_hold`: a hold that is over goes. -/
def RateLimitHold.clearHold (hold : Option RateLimitHold) (now : Timestamp) :
    Option RateLimitHold :=
  hold.filter fun current ↦ now < current.holdUntil

/-- What is done to the hold under its lock, with one reading of the clock. -/
inductive HoldOp where
  | held
  | holdFor (limit : RateLimited)
  | clearHold
deriving DecidableEq

namespace HoldOp

variable (now : Timestamp) (hold : Option RateLimitHold)

def after : HoldOp → Option RateLimitHold
  | held => hold
  | holdFor limit => some (RateLimitHold.holdFor hold limit now).1
  | clearHold => RateLimitHold.clearHold hold now

/-- The limit that is reported: a request is withheld, or was answered with one. -/
def reports : HoldOp → Option RateLimited
  | held => RateLimitHold.held hold now
  | holdFor limit => some (RateLimitHold.holdFor hold limit now).2
  | clearHold => none

end HoldOp

/-- The hold after calls at readings of the clock, in the order the lock gives them. -/
def holdAfterOps (hold : Option RateLimitHold) (ops : List (Timestamp × HoldOp)) :
    Option RateLimitHold :=
  ops.foldl (fun hold call ↦ call.2.after call.1 hold) hold

/-- The hold a task's call leaves: these operations and no other call change it. -/
def HoldCall.holdAfter (clock : Timestamp) (hold : Option RateLimitHold) :
    HoldCall → Option RateLimitHold
  | holdFor limit asked => (HoldOp.holdFor limit).after asked hold
  | clearHold => HoldOp.clearHold.after clock hold
  | _ => hold

/-! ## After the jump -/

/-- The calls at the readings of a clock that goes on normally from the instant it was set to. -/
def readings (landed : Timestamp) (calls : List (Nat × HoldOp)) : List (Timestamp × HoldOp) :=
  calls.map fun call ↦ (landed + call.1, call.2)

/-- When the last limit was answered since the jump; the jump itself, if none was. -/
def lastLimit (calls : List (Nat × HoldOp)) : Nat :=
  calls.foldl (fun last call ↦ match call.2 with
    | .holdFor _ => call.1
    | _ => last) 0

/-- What the cap promises after a jump: the gateway is silent no longer than the cap since the jump,
or since the last limit it was answered with, and asks nobody to wait longer. -/
structure JumpBounded (hold : Option RateLimitHold) (landed : Timestamp)
    (calls : List (Nat × HoldOp)) : Prop where
  silence : ∀ front (elapsed : Nat) rest, calls = front ++ (elapsed, HoldOp.held) :: rest →
    (RateLimitHold.held (holdAfterOps hold (readings landed front)) (landed + elapsed)).isSome →
      elapsed < lastLimit front + maxRateLimitBackoff
  reported : ∀ front (elapsed : Nat) op rest, calls = front ++ (elapsed, op) :: rest →
    ∀ limit, op.reports (landed + elapsed) (holdAfterOps hold (readings landed front)) =
      some limit → ∃ wait, limit.retryAfter = some wait ∧ wait ≤ maxRateLimitBackoff

theorem holdAfterOps_concat (hold : Option RateLimitHold) (landed : Timestamp)
    (front : List (Nat × HoldOp)) (elapsed : Nat) (op : HoldOp) :
    holdAfterOps hold (readings landed (front ++ [(elapsed, op)])) =
      op.after (landed + elapsed) (holdAfterOps hold (readings landed front)) := by
  simp [holdAfterOps, readings]

theorem lastLimit_concat (front : List (Nat × HoldOp)) (elapsed : Nat) (op : HoldOp) :
    lastLimit (front ++ [(elapsed, op)]) = match op with
      | .holdFor _ => elapsed
      | _ => lastLimit front := by
  simp [lastLimit]

theorem lastLimit_le {front : List (Nat × HoldOp)} {elapsed : Nat}
    (h : ∀ call ∈ front, call.1 ≤ elapsed) : lastLimit front ≤ elapsed := by
  induction front using List.reverseRecOn with
  | nil => exact Nat.zero_le _
  | append_singleton front call ih =>
    have hfront := ih fun earlier hearlier ↦ h earlier (List.mem_append_left _ hearlier)
    have hcall := h call (List.mem_append_right _ (List.mem_singleton_self _))
    obtain ⟨time, op⟩ := call
    rw [lastLimit_concat]
    cases op with
    | held => exact hfront
    | holdFor limit => exact hcall
    | clearHold => exact hfront

theorem ends_within {hold : Option RateLimitHold} {landed : Timestamp}
    (hnear : ∀ current, hold = some current → current.holdUntil ≤ landed + maxRateLimitBackoff)
    {front : List (Nat × HoldOp)} (hsorted : front.Pairwise (·.1 ≤ ·.1)) :
    ∀ current, holdAfterOps hold (readings landed front) = some current →
      current.holdUntil ≤ landed + lastLimit front + maxRateLimitBackoff := by
  induction front using List.reverseRecOn with
  | nil =>
    intro current hcurrent
    have hbound := hnear current hcurrent
    have hnone : lastLimit [] = 0 := rfl
    unfold Timestamp at *
    omega
  | append_singleton front call ih =>
    rw [List.pairwise_append] at hsorted
    have hfront := ih hsorted.1
    have hlast : lastLimit front ≤ call.1 :=
      lastLimit_le fun earlier hearlier ↦
        hsorted.2.2 earlier hearlier call (List.mem_singleton_self _)
    obtain ⟨elapsed, op⟩ := call
    intro current hcurrent
    rw [holdAfterOps_concat] at hcurrent
    rw [lastLimit_concat]
    cases op with
    | held => exact hfront current hcurrent
    | clearHold => exact hfront current (Option.filter_eq_some_iff.mp hcurrent).1
    | holdFor limit =>
      obtain rfl := Option.some.inj hcurrent
      dsimp only at hlast ⊢
      rcases RateLimitHold.holdFor_cases (holdAfterOps hold (readings landed front)) limit
        (landed + elapsed) with ⟨hends, -⟩ | ⟨live, hlive, -, hends⟩
      · have hcap := RateLimitHold.asked_le_max
          (holdAfterOps hold (readings landed front)) limit (landed + elapsed)
        rw [hends]
        unfold Timestamp at *
        omega
      · have hbound := hfront live hlive
        rw [hends]
        unfold Timestamp at *
        omega

theorem holdFor_reported (hold : Option RateLimitHold) (limit : RateLimited) (now : Timestamp) :
    ∃ wait : Nat, (RateLimitHold.holdFor hold limit now).2.retryAfter = some wait ∧
      (wait = RateLimitHold.asked hold limit now ∨
        ∃ current, hold = some current ∧ (wait : Int) = current.holdUntil - now) := by
  unfold RateLimitHold.holdFor RateLimitHold.asked
  dsimp only
  cases hlive : RateLimitHold.live hold now with
  | none => exact ⟨_, rfl, .inl rfl⟩
  | some current =>
    obtain ⟨hcurrent, hforce⟩ := RateLimitHold.live_eq_some_iff.mp hlive
    dsimp only
    split_ifs
    · refine ⟨_, rfl, .inr ⟨current, hcurrent, ?_⟩⟩
      omega
    · exact ⟨_, rfl, .inl rfl⟩

theorem held_reported {hold : Option RateLimitHold} {now : Timestamp} {limit : RateLimited}
    (h : RateLimitHold.held hold now = some limit) : ∃ current, hold = some current ∧
      now < current.holdUntil ∧
        ∃ wait, limit.retryAfter = some wait ∧ wait ≤ maxRateLimitBackoff := by
  obtain ⟨current, hcurrent, hreported⟩ := Option.bind_eq_some_iff.mp h
  split_ifs at hreported with hforce
  obtain rfl := Option.some.inj hreported
  exact ⟨current, hcurrent, hforce, _, rfl, Nat.min_le_right _ _⟩

/-- A hold that the jump leaves within the cap is waited out as the cap promises. -/
theorem jump_bounded {hold : Option RateLimitHold} {landed : Timestamp}
    (hnear : ∀ current, hold = some current → current.holdUntil ≤ landed + maxRateLimitBackoff)
    {calls : List (Nat × HoldOp)} (hsorted : calls.Pairwise (·.1 ≤ ·.1)) :
    JumpBounded hold landed calls := by
  constructor
  · rintro front elapsed rest rfl hheld
    rw [List.pairwise_append] at hsorted
    obtain ⟨limit, hlimit⟩ := Option.isSome_iff_exists.mp hheld
    obtain ⟨current, hcurrent, hforce, -⟩ := held_reported hlimit
    have hends := ends_within hnear hsorted.1 current hcurrent
    unfold Timestamp at *
    omega
  · rintro front elapsed op rest rfl limit hlimit
    rw [List.pairwise_append] at hsorted
    have hlast : lastLimit front ≤ elapsed := lastLimit_le fun earlier hearlier ↦
      hsorted.2.2 earlier hearlier (elapsed, op) List.mem_cons_self
    cases op with
    | held =>
      obtain ⟨-, -, -, hwait⟩ := held_reported hlimit
      exact hwait
    | clearHold => cases hlimit
    | holdFor answered =>
      obtain rfl := Option.some.inj hlimit
      obtain ⟨wait, hwait, hasked | ⟨current, hcurrent, hleft⟩⟩ := holdFor_reported
        (holdAfterOps hold (readings landed front)) answered (landed + elapsed)
      · exact ⟨wait, hwait, hasked ▸ RateLimitHold.asked_le_max _ _ _⟩
      · have hends := ends_within hnear hsorted.1 current hcurrent
        refine ⟨wait, hwait, ?_⟩
        unfold Timestamp at *
        omega

/-- Whatever set the hold, at whatever readings: after a jump every course of calls keeps what the
cap promises exactly if the hold ends no later than the cap after the instant the clock was set
to. -/
theorem jump_bounded_iff (history : List (Timestamp × HoldOp)) (landed : Timestamp) :
    (∀ calls : List (Nat × HoldOp), calls.Pairwise (·.1 ≤ ·.1) →
      JumpBounded (holdAfterOps none history) landed calls) ↔
    ∀ hold, holdAfterOps none history = some hold →
      hold.holdUntil ≤ landed + maxRateLimitBackoff := by
  constructor
  · intro h hold hhold
    by_contra hfar
    have hbounded := h [(maxRateLimitBackoff, .held)] (List.pairwise_singleton _ _)
    have hsilent : (RateLimitHold.held (holdAfterOps none history)
        (landed + maxRateLimitBackoff)).isSome := by
      rw [hhold, RateLimitHold.held, Option.bind_some, if_pos (Int.not_le.mp hfar)]
      rfl
    have hover := hbounded.silence [] maxRateLimitBackoff [] rfl hsilent
    have hnone : lastLimit [] = 0 := rfl
    omega
  · exact fun hnear _ hsorted ↦ jump_bounded hnear hsorted

/-- A clock that is set back by a day silences the gateway for that day. -/
theorem set_back_a_day : ¬ ∀ (history : List (Timestamp × HoldOp)) (landed : Timestamp),
    (∀ call ∈ history, landed ≤ call.1) → ∀ calls : List (Nat × HoldOp),
      calls.Pairwise (·.1 ≤ ·.1) → JumpBounded (holdAfterOps none history) landed calls := by
  intro h
  let day : Timestamp := secondsOf (24 * 60 * 60)
  have hback : ∀ call ∈ [(day, HoldOp.holdFor briefLimit)], (0 : Timestamp) ≤ call.1 := by
    decide
  have hbounded := h [(day, .holdFor briefLimit)] 0 hback
    [(secondsOf (12 * 60 * 60), .held)] (List.pairwise_singleton _ _)
  have hover := hbounded.silence [] _ [] rfl (by decide)
  exact absurd hover (by decide)

end RunnerManager.Github
