import RunnerManager.Github.RateLimit
import RunnerManager.Lib.Ring
import RunnerManager.Lib.Saturating

/-!
# Measured traffic

`ApiTraffic` of `crates/github/src/traffic.rs`: every response is counted by its class in the
bucket of its minute, and sixty buckets stand for the last hour. `traffic_window` says what a
summary shows of a whole history.
-/

namespace RunnerManager.Github

open RunnerManager.Text RunnerManager.Domain

/-! ## Counting -/

/-- The classes responses are counted under. -/
inductive ResponseClass where
  | full
  | notModified
  | failed
deriving DecidableEq

def ApiResponse.trafficClass (response : ApiResponse) : ResponseClass :=
  if response.status = 304 then .notModified
  else if response.isSuccess then .full
  else .failed

/-- The counts of a `Minute`. -/
structure MinuteCounts where
  full : BitVec 32
  notModified : BitVec 32
  failed : BitVec 32
deriving DecidableEq

/-- `Minute`: its counts, tagged with its `epoch_minute`. -/
abbrev Minute := Bucket MinuteCounts

namespace MinuteCounts

/-- The counts of `Minute::default`. -/
def zero : MinuteCounts := ⟨0, 0, 0⟩

def add (counts : MinuteCounts) : ResponseClass → MinuteCounts
  | .full => { counts with full := Saturating.add counts.full 1 }
  | .notModified => { counts with notModified := Saturating.add counts.notModified 1 }
  | .failed => { counts with failed := Saturating.add counts.failed 1 }

def total (counts : MinuteCounts) : BitVec 32 :=
  Saturating.add (Saturating.add counts.full counts.notModified) counts.failed

def of (counts : MinuteCounts) : ResponseClass → BitVec 32
  | .full => counts.full
  | .notModified => counts.notModified
  | .failed => counts.failed

end MinuteCounts

def windowMinutes : Nat := 60

instance : NeZero windowMinutes := ⟨by decide⟩

/-- The minutes since the Unix epoch, rounded down before it too. -/
def epochMinute (now : Timestamp) : Int := timestampSecs now / 60

def RateLimitSnapshot.fromHeaders (response : ApiResponse) (now : Timestamp) :
    Option RateLimitSnapshot := do
  let number (name : String) : Option Nat :=
    (response.header name).bind fun value ↦ readU64 (trim value.toList)
  if (response.header "x-ratelimit-resource").any fun resource ↦
      foldAscii (trim resource.toList) ≠ "core".toList then none
  let limit ← number "x-ratelimit-limit"
  let remaining ← number "x-ratelimit-remaining"
  let resetUnixSecs ← number "x-ratelimit-reset"
  return ⟨limit, remaining, number "x-ratelimit-used", resetUnixSecs, now⟩

/-- `Inner` of `ApiTraffic`. -/
structure ApiTraffic where
  minutes : Ring windowMinutes MinuteCounts
  firstSeen : Option Timestamp
  latest : Option RateLimitSnapshot

structure TrafficSummary where
  observedMinutes : Nat
  full : BitVec 32
  notModified : BitVec 32
  failed : BitVec 32
  peakRequestsPerMinute : BitVec 32
  rateLimit : Option RateLimitSnapshot
deriving DecidableEq

namespace ApiTraffic

def new : ApiTraffic := ⟨fun _ ↦ ⟨0, .zero⟩, none, none⟩

def record (traffic : ApiTraffic) (response : ApiResponse) (now : Timestamp) : ApiTraffic :=
  let snapshot :=
    if response.isSuccess || response.status = 304 then
      RateLimitSnapshot.fromHeaders response now
    else none
  { minutes := traffic.minutes.record MinuteCounts.add .zero
      (epochMinute now, response.trafficClass)
    firstSeen := traffic.firstSeen.or (some now)
    latest := snapshot.or traffic.latest }

/-- One bucket of the loop in `summary`. -/
def addMinute (current : Int) (summary : TrafficSummary) (minute : Minute) : TrafficSummary :=
  if current - windowMinutes < minute.tag ∧ minute.tag ≤ current then
    { summary with
      full := Saturating.add summary.full minute.value.full
      notModified := Saturating.add summary.notModified minute.value.notModified
      failed := Saturating.add summary.failed minute.value.failed
      peakRequestsPerMinute :=
        if minute.value.total.toNat ≤ summary.peakRequestsPerMinute.toNat then
          summary.peakRequestsPerMinute
        else minute.value.total }
  else summary

def summary (traffic : ApiTraffic) (now : Timestamp) : TrafficSummary :=
  let current := epochMinute now
  let counted := ((List.finRange windowMinutes).map traffic.minutes).foldl (addMinute current)
    ⟨0, 0, 0, 0, 0, traffic.latest⟩
  { counted with
    observedMinutes := match traffic.firstSeen with
      | none => 0
      | some first => (min (current - epochMinute first + 1) windowMinutes).toNat }

def recordAll (calls : List (ApiResponse × Timestamp)) : ApiTraffic :=
  calls.foldl (fun traffic call ↦ traffic.record call.1 call.2) new

end ApiTraffic

/-! ## The window -/

def trafficEvents (calls : List (ApiResponse × Timestamp)) : List (Int × ResponseClass) :=
  calls.map fun call ↦ (epochMinute call.2, call.1.trafficClass)

/-- How many responses of a class were recorded in the sixty minutes that end with that of `now`. -/
def recordedInWindow (calls : List (ApiResponse × Timestamp)) (now : Timestamp)
    (responses : ResponseClass) : Nat :=
  calls.countP fun call ↦
    Ring.InWindow windowMinutes (epochMinute now) (epochMinute call.2) ∧
      call.1.trafficClass = responses

def recordedIn (calls : List (ApiResponse × Timestamp)) (minute : Int) : Nat :=
  calls.countP fun call ↦ epochMinute call.2 = minute

/-- A summary shows what a history holds of the window, as far as the counters go. -/
structure ShowsWindow (calls : List (ApiResponse × Timestamp)) (now : Timestamp)
    (summary : TrafficSummary) : Prop where
  full : summary.full.toNat =
    min (recordedInWindow calls now .full) (Saturating.maxValue 32)
  notModified : summary.notModified.toNat =
    min (recordedInWindow calls now .notModified) (Saturating.maxValue 32)
  failed : summary.failed.toNat =
    min (recordedInWindow calls now .failed) (Saturating.maxValue 32)
  peak_reached : ∃ minute, Ring.InWindow windowMinutes (epochMinute now) minute ∧
    summary.peakRequestsPerMinute.toNat =
      min (recordedIn calls minute) (Saturating.maxValue 32)
  peak_most : ∀ minute, Ring.InWindow windowMinutes (epochMinute now) minute →
    min (recordedIn calls minute) (Saturating.maxValue 32) ≤
      summary.peakRequestsPerMinute.toNat
  stale : ∀ call ∈ calls, call.2 + secondsOf (60 * 60) ≤ now →
    ¬ Ring.InWindow windowMinutes (epochMinute now) (epochMinute call.2)

namespace MinuteCounts

@[simp]
theorem add_of (counts : MinuteCounts) (recorded asked : ResponseClass) :
    (counts.add recorded).of asked =
      if recorded = asked then Saturating.add (counts.of asked) 1 else counts.of asked := by
  cases recorded with
  | full => cases asked <;> rfl
  | notModified => cases asked <;> rfl
  | failed => cases asked <;> rfl

theorem foldl_add_of (events : List (Int × ResponseClass)) (counts : MinuteCounts)
    (asked : ResponseClass) :
    ((events.foldl (fun counts event ↦ counts.add event.2) counts).of asked).toNat =
      min ((counts.of asked).toNat + events.countP fun event ↦ event.2 = asked)
        (Saturating.maxValue 32) := by
  have hone : (1 : BitVec 32).toNat = 1 := rfl
  induction events generalizing counts with
  | nil =>
    have h := Saturating.le_maxValue (counts.of asked)
    simpa using h
  | cons event events ih =>
    rw [List.foldl_cons, ih, add_of, List.countP_cons]
    by_cases h : event.2 = asked
    · simp only [h, if_true, Saturating.add_toNat, hone, decide_true]
      omega
    · simp [h]

theorem total_toNat (counts : MinuteCounts) :
    counts.total.toNat = min (counts.full.toNat + counts.notModified.toNat + counts.failed.toNat)
      (Saturating.maxValue 32) := by
  rw [total, Saturating.add_toNat, Saturating.add_toNat]
  omega

end MinuteCounts

namespace ApiTraffic

def shownOf (summary : TrafficSummary) : ResponseClass → BitVec 32
  | .full => summary.full
  | .notModified => summary.notModified
  | .failed => summary.failed

def counted (current : Int) (minute : Minute) : MinuteCounts :=
  if Ring.InWindow windowMinutes current minute.tag then minute.value else .zero

theorem addMinute_of (current : Int) (summary : TrafficSummary) (minute : Minute)
    (asked : ResponseClass) :
    shownOf (addMinute current summary minute) asked =
      Saturating.add (shownOf summary asked) ((counted current minute).of asked) := by
  by_cases h : Ring.InWindow windowMinutes current minute.tag
  · rw [addMinute, if_pos (show _ ∧ _ from h), counted, if_pos h]
    cases asked <;> rfl
  · rw [addMinute, if_neg (show ¬ (_ ∧ _) from h), counted, if_neg h]
    cases asked <;> exact (Saturating.add_zero _).symm

theorem addMinute_peak (current : Int) (summary : TrafficSummary) (minute : Minute) :
    (addMinute current summary minute).peakRequestsPerMinute.toNat =
      max summary.peakRequestsPerMinute.toNat (counted current minute).total.toNat := by
  by_cases h : Ring.InWindow windowMinutes current minute.tag
  · rw [addMinute, if_pos (show _ ∧ _ from h), counted, if_pos h]
    dsimp only
    split_ifs with hpeak
    · exact (Nat.max_eq_left hpeak).symm
    · exact (Nat.max_eq_right (Nat.le_of_not_le hpeak)).symm
  · rw [addMinute, if_neg (show ¬ (_ ∧ _) from h), counted, if_neg h]
    exact (Nat.max_eq_left (Nat.zero_le _)).symm

theorem foldl_addMinute_of (current : Int) (minutes : List Minute) (start : TrafficSummary)
    (asked : ResponseClass) :
    shownOf (minutes.foldl (addMinute current) start) asked =
      minutes.foldl (fun total minute ↦ Saturating.add total ((counted current minute).of asked))
        (shownOf start asked) := by
  induction minutes generalizing start with
  | nil => rfl
  | cons minute minutes ih => rw [List.foldl_cons, List.foldl_cons, ih, addMinute_of]

theorem foldl_addMinute_peak (current : Int) (minutes : List Minute) (start : TrafficSummary) :
    (∀ minute ∈ minutes, (counted current minute).total.toNat ≤
      (minutes.foldl (addMinute current) start).peakRequestsPerMinute.toNat) ∧
    start.peakRequestsPerMinute.toNat ≤
      (minutes.foldl (addMinute current) start).peakRequestsPerMinute.toNat ∧
    ((minutes.foldl (addMinute current) start).peakRequestsPerMinute.toNat =
        start.peakRequestsPerMinute.toNat ∨
      ∃ minute ∈ minutes,
        (minutes.foldl (addMinute current) start).peakRequestsPerMinute.toNat =
          (counted current minute).total.toNat) := by
  induction minutes generalizing start with
  | nil => exact ⟨fun _ h ↦ (nomatch h), Nat.le_refl _, .inl rfl⟩
  | cons minute minutes ih =>
    obtain ⟨hmost, hstart, hreached⟩ := ih (addMinute current start minute)
    rw [addMinute_peak] at hstart hreached
    obtain ⟨hprevious, hthis⟩ := Nat.max_le.mp hstart
    refine ⟨?_, hprevious, ?_⟩
    · intro other hother
      rcases List.mem_cons.mp hother with rfl | hother
      · exact hthis
      · exact hmost other hother
    · rcases hreached with hreached | ⟨other, hother, hreached⟩
      · rcases Nat.le_total (counted current minute).total.toNat
          start.peakRequestsPerMinute.toNat with hle | hle
        · exact .inl (hreached.trans (Nat.max_eq_left hle))
        · exact .inr ⟨minute, List.mem_cons_self, hreached.trans (Nat.max_eq_right hle)⟩
      · exact .inr ⟨other, List.mem_cons_of_mem _ hother, hreached⟩

theorem recordAll_minutes (calls : List (ApiResponse × Timestamp)) :
    (recordAll calls).minutes =
      Ring.recordAll MinuteCounts.add .zero new.minutes (trafficEvents calls) := by
  have hfold (traffic : ApiTraffic) :
      (calls.foldl (fun traffic call ↦ traffic.record call.1 call.2) traffic).minutes =
        Ring.recordAll MinuteCounts.add .zero traffic.minutes (trafficEvents calls) := by
    induction calls generalizing traffic with
    | nil => rfl
    | cons call calls ih => exact ih (traffic.record call.1 call.2)
  exact hfold new

theorem epochMinute_mono {earlier later : Timestamp} (h : earlier ≤ later) :
    epochMinute earlier ≤ epochMinute later :=
  Int.ediv_le_ediv (by decide) (Int.ediv_le_ediv (by decide) h)

theorem shownOf_summary (traffic : ApiTraffic) (now : Timestamp) (asked : ResponseClass) :
    (shownOf (traffic.summary now) asked).toNat =
      min ((List.finRange windowMinutes).map fun i ↦
        ((counted (epochMinute now) (traffic.minutes i)).of asked).toNat).sum
          (Saturating.maxValue 32) := by
  have hloop : shownOf (traffic.summary now) asked =
      shownOf (((List.finRange windowMinutes).map traffic.minutes).foldl
        (addMinute (epochMinute now)) ⟨0, 0, 0, 0, 0, traffic.latest⟩) asked := by
    cases asked <;> rfl
  have hstart : (shownOf ⟨0, 0, 0, 0, 0, traffic.latest⟩ asked).toNat = 0 := by
    cases asked <;> rfl
  rw [hloop, foldl_addMinute_of, Saturating.sum_toNat, hstart, Nat.zero_add, List.map_map]
  rfl

section

variable {calls : List (ApiResponse × Timestamp)} (hsorted : calls.Pairwise (·.2 ≤ ·.2))
  {now : Timestamp} (hlater : ∀ call ∈ calls, call.2 ≤ now)

include hsorted hlater

theorem counted_eq (i : Fin windowMinutes) :
    counted (epochMinute now) ((recordAll calls).minutes i) =
      (Ring.eventsOf (trafficEvents calls) (epochMinute now) i).foldl
        (fun counts event ↦ counts.add event.2) .zero := by
  have hevents : (trafficEvents calls).Pairwise (·.1 ≤ ·.1) :=
    List.pairwise_map.mpr (hsorted.imp epochMinute_mono)
  have hpast : ∀ event ∈ trafficEvents calls, event.1 ≤ epochMinute now := by
    intro event hevent
    obtain ⟨call, hcall, rfl⟩ := List.mem_map.mp hevent
    exact epochMinute_mono (hlater call hcall)
  have hfresh : ∀ i, (new.minutes i).value = .zero := fun _ ↦ rfl
  rw [recordAll_minutes]
  exact Ring.windowed_eq hevents hpast hfresh i

theorem counted_of (i : Fin windowMinutes) (asked : ResponseClass) :
    ((counted (epochMinute now) ((recordAll calls).minutes i)).of asked).toNat =
      min ((Ring.eventsOf (trafficEvents calls) (epochMinute now) i).countP
        fun event ↦ event.2 = asked) (Saturating.maxValue 32) := by
  have hzero : (MinuteCounts.zero.of asked).toNat = 0 := by cases asked <;> rfl
  rw [counted_eq hsorted hlater, MinuteCounts.foldl_add_of, hzero, Nat.zero_add]

theorem counted_total (i : Fin windowMinutes) :
    (counted (epochMinute now) ((recordAll calls).minutes i)).total.toNat =
      min (Ring.eventsOf (trafficEvents calls) (epochMinute now) i).length
        (Saturating.maxValue 32) := by
  have hparts (events : List (Int × ResponseClass)) :
      events.countP (fun event ↦ event.2 = .full) +
        events.countP (fun event ↦ event.2 = .notModified) +
          events.countP (fun event ↦ event.2 = .failed) = events.length := by
    induction events with
    | nil => rfl
    | cons event events ih =>
      obtain ⟨minute, recorded⟩ := event
      rw [List.countP_cons, List.countP_cons, List.countP_cons, List.length_cons]
      cases recorded <;> simp <;> omega
  have hfull := counted_of hsorted hlater i .full
  have hunchanged := counted_of hsorted hlater i .notModified
  have hfailed := counted_of hsorted hlater i .failed
  have hlength := hparts (Ring.eventsOf (trafficEvents calls) (epochMinute now) i)
  simp only [MinuteCounts.of] at hfull hunchanged hfailed
  rw [MinuteCounts.total_toNat, hfull, hunchanged, hfailed]
  omega

theorem summary_of (asked : ResponseClass) :
    (shownOf ((recordAll calls).summary now) asked).toNat =
      min (recordedInWindow calls now asked) (Saturating.maxValue 32) := by
  have hcounted : recordedInWindow calls now asked =
      (trafficEvents calls).countP fun event ↦
        decide (Ring.InWindow windowMinutes (epochMinute now) event.1) &&
          decide (event.2 = asked) := by
    rw [trafficEvents, List.countP_map]
    exact List.countP_congr fun _ _ ↦ by simp
  have hparts : ((List.finRange windowMinutes).map fun i ↦
      (Ring.eventsOf (trafficEvents calls) (epochMinute now) i).countP fun event ↦
        decide (event.2 = asked)).sum = _ :=
    Ring.sum_countP_eventsOf (trafficEvents calls) (epochMinute now) fun recorded ↦
      decide (recorded = asked)
  rw [shownOf_summary, hcounted, ← hparts]
  simp only [counted_of hsorted hlater]
  exact Saturating.min_sum_min _ _ _

theorem counted_minute {minute : Int}
    (hminute : Ring.InWindow windowMinutes (epochMinute now) minute) :
    (counted (epochMinute now)
      ((recordAll calls).minutes (Ring.slot windowMinutes minute))).total.toNat =
        min (recordedIn calls minute) (Saturating.maxValue 32) := by
  rw [counted_total hsorted hlater, Ring.eventsOf_slot _ hminute, ← List.countP_eq_length_filter,
    trafficEvents, List.countP_map]
  rfl

theorem summary_peak :
    (∀ minute, Ring.InWindow windowMinutes (epochMinute now) minute →
      min (recordedIn calls minute) (Saturating.maxValue 32) ≤
        ((recordAll calls).summary now).peakRequestsPerMinute.toNat) ∧
    ∃ minute, Ring.InWindow windowMinutes (epochMinute now) minute ∧
      ((recordAll calls).summary now).peakRequestsPerMinute.toNat =
        min (recordedIn calls minute) (Saturating.maxValue 32) := by
  obtain ⟨hmost, -, hreached⟩ := foldl_addMinute_peak (epochMinute now)
    ((List.finRange windowMinutes).map (recordAll calls).minutes)
    ⟨0, 0, 0, 0, 0, (recordAll calls).latest⟩
  have hall : ∀ minute, Ring.InWindow windowMinutes (epochMinute now) minute →
      min (recordedIn calls minute) (Saturating.maxValue 32) ≤
        ((recordAll calls).summary now).peakRequestsPerMinute.toNat := by
    intro minute hminute
    rw [← counted_minute hsorted hlater hminute]
    exact hmost _ (List.mem_map_of_mem (List.mem_finRange _))
  refine ⟨hall, ?_⟩
  have hpresent : Ring.InWindow windowMinutes (epochMinute now) (epochMinute now) := by
    have hpos : (0 : Int) < windowMinutes := by decide
    exact ⟨Int.sub_lt_self _ hpos, Int.le_refl _⟩
  have hnothing : ((recordAll calls).summary now).peakRequestsPerMinute.toNat = 0 →
      ∃ minute, Ring.InWindow windowMinutes (epochMinute now) minute ∧
        ((recordAll calls).summary now).peakRequestsPerMinute.toNat =
          min (recordedIn calls minute) (Saturating.maxValue 32) := by
    intro hzero
    have hle := hall (epochMinute now) hpresent
    exact ⟨epochMinute now, hpresent, by omega⟩
  rcases hreached with hzero | ⟨bucket, hbucket, hpeak⟩
  · exact hnothing hzero
  · obtain ⟨i, -, rfl⟩ := List.mem_map.mp hbucket
    rw [counted_total hsorted hlater] at hpeak
    -- A bucket that holds something holds one minute of the window.
    cases hheld : Ring.eventsOf (trafficEvents calls) (epochMinute now) i with
    | nil =>
      rw [hheld] at hpeak
      exact hnothing hpeak
    | cons event events =>
      have hevent : event ∈ Ring.eventsOf (trafficEvents calls) (epochMinute now) i :=
        hheld ▸ List.mem_cons_self
      obtain ⟨hin, rfl⟩ := of_decide_eq_true (List.mem_filter.mp hevent).2
      rw [← counted_total hsorted hlater, counted_minute hsorted hlater hin] at hpeak
      exact ⟨event.1, hin, hpeak⟩

end

theorem not_inWindow_of_hour {recorded now : Timestamp}
    (h : recorded + secondsOf (60 * 60) ≤ now) :
    ¬ Ring.InWindow windowMinutes (epochMinute now) (epochMinute recorded) := by
  intro hin
  have hlow := hin.1
  unfold epochMinute timestampSecs windowMinutes at hlow
  unfold secondsOf Timestamp at *
  omega

end ApiTraffic

/-- What a summary shows of any history that was recorded in order, at any later time: of each
class the responses of the sixty minutes that end with the present one, as far as the counters go,
and of those minutes the busiest. -/
theorem traffic_window {calls : List (ApiResponse × Timestamp)}
    (hsorted : calls.Pairwise (·.2 ≤ ·.2)) {now : Timestamp}
    (hlater : ∀ call ∈ calls, call.2 ≤ now) :
    ShowsWindow calls now ((ApiTraffic.recordAll calls).summary now) where
  full := ApiTraffic.summary_of hsorted hlater .full
  notModified := ApiTraffic.summary_of hsorted hlater .notModified
  failed := ApiTraffic.summary_of hsorted hlater .failed
  peak_reached := (ApiTraffic.summary_peak hsorted hlater).2
  peak_most := (ApiTraffic.summary_peak hsorted hlater).1
  stale _ _ hhour := ApiTraffic.not_inWindow_of_hour hhour

/-- A response before the Unix epoch, one in the first minute after it, and one an hour later: the
last two minutes of the hour are shown, the response before them is not. -/
theorem first_hour_shown :
    ShowsWindow [(⟨200, [], []⟩, -1), (⟨304, [], []⟩, 0), (⟨500, [], []⟩, secondsOf 3599)]
      (secondsOf 3599)
      ((ApiTraffic.recordAll
        [(⟨200, [], []⟩, -1), (⟨304, [], []⟩, 0), (⟨500, [], []⟩, secondsOf 3599)]).summary
          (secondsOf 3599)) :=
  traffic_window (by decide) (by decide)

end RunnerManager.Github
