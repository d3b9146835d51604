import Mathlib.Algebra.BigOperators.Fin
import Mathlib.Data.List.Induction
import Mathlib.Logic.Function.Basic

/-!
# Rings of tagged buckets

A ring of `n` buckets that stands for a history of any length: an event at time `t` goes into the
bucket `t` modulo `n`, and each bucket is tagged with the time it is about, so that what an earlier
time left there is recognised and dropped. Read `windowed_eq` first: seen from any later time, what
the ring holds of the last `n` times is what the history holds of them.
-/

namespace RunnerManager

/-- What one bucket holds, and the time it is about. -/
structure Bucket (β : Type) where
  tag : Int
  value : β
deriving DecidableEq

/-- A ring of `n` buckets. -/
abbrev Ring (n : Nat) (β : Type) := Fin n → Bucket β

namespace Ring

variable {n : Nat} [NeZero n] {β ε : Type}

def slot (n : Nat) [NeZero n] (time : Int) : Fin n :=
  ⟨(time % n).toNat, by
    have hpos : (0 : Int) < n := Int.natCast_pos.mpr (Nat.pos_of_neZero n)
    have hlow := Int.emod_nonneg time (Int.ne_of_gt hpos)
    have hhigh := Int.emod_lt_of_pos time hpos
    omega⟩

/-- A time is one of the `n` that end with `now`. -/
def InWindow (n : Nat) (now time : Int) : Prop :=
  now - n < time ∧ time ≤ now

instance (n : Nat) (now time : Int) : Decidable (InWindow n now time) :=
  inferInstanceAs (Decidable (_ ∧ _))

def record (add : β → ε → β) (empty : β) (ring : Ring n β) (event : Int × ε) : Ring n β :=
  let bucket := ring (slot n event.1)
  Function.update ring (slot n event.1)
    ⟨event.1, add (if bucket.tag = event.1 then bucket.value else empty) event.2⟩

/-- The events of a history, in order. -/
def recordAll (add : β → ε → β) (empty : β) (ring : Ring n β) (history : List (Int × ε)) :
    Ring n β :=
  history.foldl (record add empty) ring

/-- What a bucket holds, if it is about one of the last `n` times. -/
def windowed (empty : β) (ring : Ring n β) (now : Int) (i : Fin n) : β :=
  if InWindow n now (ring i).tag then (ring i).value else empty

/-! ## Slots -/

theorem slot_eq_iff {s t : Int} : slot n s = slot n t ↔ s % n = t % n := by
  have hpos : (0 : Int) < n := Int.natCast_pos.mpr (Nat.pos_of_neZero n)
  have hs := Int.emod_nonneg s (Int.ne_of_gt hpos)
  have ht := Int.emod_nonneg t (Int.ne_of_gt hpos)
  rw [slot, slot, Fin.mk.injEq]
  omega

theorem InWindow.eq_of_slot {now s t : Int} (hs : InWindow n now s) (ht : InWindow n now t)
    (h : slot n s = slot n t) : s = t := by
  have hdvd : (n : Int) ∣ s - t :=
    Int.dvd_of_emod_eq_zero (Int.emod_eq_emod_iff_emod_sub_eq_zero.mp (slot_eq_iff.mp h))
  obtain ⟨hslow, hshigh⟩ := hs
  obtain ⟨htlow, hthigh⟩ := ht
  have hnear : (s - t).natAbs < (n : Int).natAbs := by omega
  have hzero : s - t = 0 := Int.eq_zero_of_dvd_of_natAbs_lt_natAbs hdvd hnear
  omega

/-! ## What a history leaves -/

section

variable (add : β → ε → β) (empty : β) (ring : Ring n β)

theorem recordAll_concat (history : List (Int × ε)) (event : Int × ε) :
    recordAll add empty ring (history ++ [event]) =
      record add empty (recordAll add empty ring history) event := by
  simp [recordAll]

theorem tag_of_mem {history : List (Int × ε)} (hsorted : history.Pairwise (·.1 ≤ ·.1)) :
    ∀ event ∈ history, ∃ later ∈ history, event.1 ≤ later.1 ∧
      (recordAll add empty ring history (slot n event.1)).tag = later.1 := by
  induction history using List.reverseRecOn with
  | nil => exact fun _ h ↦ nomatch h
  | append_singleton history last ih =>
    rw [List.pairwise_append] at hsorted
    intro event hevent
    rw [recordAll_concat]
    by_cases hslot : slot n event.1 = slot n last.1
    · refine ⟨last, List.mem_append_right _ (List.mem_singleton_self _), ?_, ?_⟩
      · rcases List.mem_append.mp hevent with hearlier | hlast
        · exact hsorted.2.2 event hearlier last (List.mem_singleton_self _)
        · exact Int.le_of_eq (congrArg Prod.fst (List.mem_singleton.mp hlast))
      · rw [hslot, record, Function.update_self]
    · have hearlier : event ∈ history := by
        rcases List.mem_append.mp hevent with hearlier | hlast
        · exact hearlier
        · exact absurd (by rw [List.mem_singleton.mp hlast]) hslot
      obtain ⟨later, hlater, hle, htag⟩ := ih hsorted.1 event hearlier
      refine ⟨later, List.mem_append_left _ hlater, hle, ?_⟩
      rw [record, Function.update_of_ne hslot, htag]

variable {add : β → ε → β} {empty : β} {ring : Ring n β}

def eventsOf (history : List (Int × ε)) (now : Int) (i : Fin n) : List (Int × ε) :=
  history.filter fun event ↦ InWindow n now event.1 ∧ slot n event.1 = i

/-- Seen from any time that is not earlier, each bucket of the last `n` times holds the events of
its time and nothing else. -/
theorem windowed_eq {history : List (Int × ε)} (hsorted : history.Pairwise (·.1 ≤ ·.1))
    {now : Int} (hlater : ∀ event ∈ history, event.1 ≤ now)
    (hfresh : ∀ i, (ring i).value = empty) (i : Fin n) :
    windowed empty (recordAll add empty ring history) now i =
      (eventsOf history now i).foldl (fun value event ↦ add value event.2) empty := by
  induction history using List.reverseRecOn with
  | nil =>
    show (if _ then (ring i).value else empty) = empty
    rw [hfresh i, ite_self]
  | append_singleton history last ih =>
    rw [List.pairwise_append] at hsorted
    have hprevious := ih hsorted.1 fun event hevent ↦
      hlater event (List.mem_append_left _ hevent)
    have hlast : last.1 ≤ now :=
      hlater last (List.mem_append_right _ (List.mem_singleton_self _))
    have hbefore : ∀ event ∈ history, event.1 ≤ last.1 := fun event hevent ↦
      hsorted.2.2 event hevent last (List.mem_singleton_self _)
    rw [recordAll_concat, eventsOf, List.filter_append, List.foldl_append]
    by_cases hslot : slot n last.1 = i
    · subst hslot
      by_cases hwindow : InWindow n now last.1
      · have hkept : [last].filter (fun event ↦
            InWindow n now event.1 ∧ slot n event.1 = slot n last.1) = [last] := by
          simp [hwindow]
        rw [hkept, windowed, record, Function.update_self, if_pos hwindow]
        show add _ last.2 = add _ last.2
        congr 1
        split_ifs with htag
        · -- the bucket is about this time already
          rw [windowed, htag, if_pos hwindow] at hprevious
          exact hprevious
        · -- what the bucket held is older than the window
          have hnone : eventsOf history now (slot n last.1) = [] := by
            refine List.filter_eq_nil_iff.mpr fun event hevent hheld ↦ htag ?_
            obtain ⟨hin, hsame⟩ := of_decide_eq_true hheld
            have htime := hin.eq_of_slot hwindow hsame
            obtain ⟨later, hlater', hle, hbucket⟩ :=
              tag_of_mem add empty ring hsorted.1 event hevent
            have hover := hbefore later hlater'
            rw [hsame] at hbucket
            omega
          rw [eventsOf] at hnone
          rw [hnone]
          rfl
      · have hout : ¬ InWindow n now (record add empty (recordAll add empty ring history) last
            (slot n last.1)).tag := by
          rw [record, Function.update_self]
          exact hwindow
        have hnone : history.filter (fun event ↦
            InWindow n now event.1 ∧ slot n event.1 = slot n last.1) = [] := by
          refine List.filter_eq_nil_iff.mpr fun event hevent hheld ↦ hwindow ?_
          have hin := (of_decide_eq_true hheld).1
          exact ⟨Int.lt_of_lt_of_le hin.1 (hbefore event hevent), hlast⟩
        rw [windowed, if_neg hout, hnone]
        simp [hwindow]
    · rw [windowed, record, Function.update_of_ne (Ne.symm hslot)]
      simpa [hslot, windowed, eventsOf] using hprevious

end

/-! ## All buckets -/

theorem eventsOf_slot (history : List (Int × ε)) {now time : Int} (h : InWindow n now time) :
    eventsOf history now (slot n time) = history.filter fun event ↦ event.1 = time := by
  refine List.filter_congr fun event _ ↦ decide_eq_decide.mpr ⟨?_, ?_⟩
  · rintro ⟨hin, hsame⟩
    exact hin.eq_of_slot h hsame
  · intro htime
    rw [htime]
    exact ⟨h, rfl⟩

theorem sum_countP_eventsOf (history : List (Int × ε)) (now : Int) (p : ε → Bool) :
    ((List.finRange n).map fun i ↦ (eventsOf history now i).countP fun event ↦ p event.2).sum =
      history.countP fun event ↦ decide (InWindow n now event.1) && p event.2 := by
  rw [← Fin.sum_univ_def]
  induction history with
  | nil => simp [eventsOf]
  | cons event history ih =>
    have hcons (i : Fin n) : (eventsOf (event :: history) now i).countP (fun event ↦ p event.2) =
        (eventsOf history now i).countP (fun event ↦ p event.2) +
          if slot n event.1 = i then
            if InWindow n now event.1 ∧ p event.2 = true then 1 else 0 else 0 := by
      unfold eventsOf
      rw [List.countP_filter, List.countP_filter, List.countP_cons]
      by_cases hslot : slot n event.1 = i
      · simp [hslot, and_comm]
      · simp [hslot]
    rw [Finset.sum_congr rfl fun i _ ↦ hcons i, Finset.sum_add_distrib, ih,
      Finset.sum_ite_eq Finset.univ (slot n event.1), List.countP_cons]
    simp

end Ring

end RunnerManager
