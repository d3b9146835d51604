import RunnerManager.Agent.ReconcilePass
import RunnerManager.Domain.Profiles
import RunnerManager.Domain.RunsOn
import RunnerManager.Github.Demand
import Mathlib.Data.List.Nodup
import Mathlib.Algebra.BigOperators.Group.List.Basic

/-!
# Routing demand to profiles

`demand_for` and `route_demand` of `crates/agent/src/reconcile.rs`. Each polled profile is first
given every job its labels cover; a second pass over all the owners of the target, polled or not,
takes back the jobs that two of them cover. The counters of a tally are subtracted from, so the
second pass answers nothing when one would fall below zero. Read `route_demand_exact` first.
-/

namespace RunnerManager.Agent

open RunnerManager.Domain RunnerManager.Text
open RunnerManager.Github (repositoryKey)

/-! ## Readings -/

/-- What a poll read: the queued jobs of each repository that answered. -/
structure QueuedDemand where
  perRepository : List (OwnerRepo × List RunsOn)
  distinct : (perRepository.map fun entry ↦ repositoryKey entry.1).Nodup

namespace QueuedDemand

def jobsFor (reading : QueuedDemand) (repository : OwnerRepo) : List RunsOn :=
  ((reading.perRepository.find? fun entry ↦
    repositoryKey entry.1 == repositoryKey repository).map (·.2)).getD []

def jobs (reading : QueuedDemand) : List RunsOn :=
  reading.perRepository.flatMap (·.2)

/-- The jobs a target answers for: one repository's, or every job read. -/
def inScope (reading : QueuedDemand) : ScaleTarget → List RunsOn
  | .repository repository => reading.jobsFor repository
  | .organization _ => reading.jobs

end QueuedDemand

/-! ## The two passes -/

inductive RoutingRefusal where
  | overlappingProfiles
deriving DecidableEq

/-- The tally of each polled profile. -/
abbrev Tallies := PolicyId → Option DemandTally

/-- What routing one reading answers. -/
structure Routed where
  tallies : Tallies
  refusals : RoutingRefusal → Option Nat

def demandFor (policy : ScalePolicy) (reading : QueuedDemand) : DemandTally :=
  match policy.routingLabels with
  | none => .default
  | some labels => labels.tally (reading.inScope policy.target)

/-- One entry of the map the first pass collects; a later one of the same id replaces it. -/
def addDemand (reading : QueuedDemand) (tallies : Tallies) (policy : ScalePolicy) : Tallies :=
  Function.update tallies policy.id (some (demandFor policy reading))

def demandOf (profiles : List ScalePolicy) (reading : QueuedDemand) : Tallies :=
  profiles.foldl (addDemand reading) fun _ ↦ none

/-- The policies of a target and host that own runners, active or not. -/
def ownersOf (policies : List ScalePolicy) (target : ScaleTarget) (host : HostId) :
    List ScalePolicy :=
  (policies.filter fun policy ↦ policy.target.same target && policy.hostId = host).filter
    ownsRunners

/-- The policy's labels match the job. -/
def covers (policy : ScalePolicy) (job : RunsOn) : Bool :=
  match policy.routingLabels with
  | none => false
  | some labels => (labels.matchesRunsOn job).isMatch

/-- A tally after a job is taken back. -/
def withdrawn (tally : DemandTally) : DemandTally :=
  { tally with matched := tally.matched - 1, notMatched := tally.notMatched + 1 }

/-- `tally.matched -= 1` and `tally.not_matched += 1`; no answer is an underflow. -/
def withdraw (tally : DemandTally) : Option DemandTally :=
  if tally.matched = 0 then none else some (withdrawn tally)

/-- Take a job back from each policy that has a tally. -/
def withdrawAll : List PolicyId → Tallies → Option Tallies
  | [], tallies => some tallies
  | id :: rest, tallies =>
    match tallies id with
    | none => withdrawAll rest tallies
    | some tally =>
      match withdraw tally with
      | none => none
      | some tally => withdrawAll rest (Function.update tallies id (some tally))

def countRefusal (refusals : RoutingRefusal → Option Nat) (reason : RoutingRefusal) :
    RoutingRefusal → Option Nat :=
  Function.update refusals reason (some ((refusals reason).getD 0 + 1))

/-- The second pass. -/
def refuseOverlaps (owners : List ScalePolicy) : List RunsOn → Routed → Option Routed
  | [], routed => some routed
  | job :: jobs, routed =>
    match job.requiredLabels with
    | .error _ => refuseOverlaps owners jobs routed
    | .ok _ =>
      let matched := (owners.filter fun policy ↦ covers policy job).map (·.id)
      if 1 < matched.length then
        match withdrawAll matched routed.tallies with
        | none => none
        | some tallies => refuseOverlaps owners jobs
            ⟨tallies, countRefusal routed.refusals .overlappingProfiles⟩
      else refuseOverlaps owners jobs routed

/-- `route_demand`; no answer means that a counter underflowed. -/
def routeDemand (policies profiles : List ScalePolicy) (reading : QueuedDemand) : Option Routed :=
  let routed := ⟨demandOf profiles reading, fun _ ↦ none⟩
  match profiles with
  | [] => some routed
  | first :: _ =>
    refuseOverlaps (ownersOf policies first.target first.hostId) (reading.inScope first.target)
      routed

/-! ## Polled profiles -/

/-- The policies a pass polls for, when `supervised` says which of them were supervised. -/
def pollable (host : HostId) (supervised : ScalePolicy → Bool) (policies : List ScalePolicy) :
    List ScalePolicy :=
  policies.filter fun policy ↦
    ownsRunners policy && isOwnedBy policy host && supervised policy && policy.mayStartRunners

/-- The polled profiles of one target. -/
def profilesOf (host : HostId) (supervised : ScalePolicy → Bool) (policies : List ScalePolicy)
    (target : ScaleTarget) : List ScalePolicy :=
  (pollable host supervised policies).filter fun policy ↦ policy.target.same target

def coversAlone (owners : List ScalePolicy) (policy : ScalePolicy) (job : RunsOn) : Bool :=
  covers policy job && owners.all fun other ↦ other.id = policy.id || !covers other job

/-- Two owners or more cover a job. -/
def overlaps (owners : List ScalePolicy) (job : RunsOn) : Bool :=
  1 < (owners.filter fun policy ↦ covers policy job).length

/-! ## One job -/

theorem covers_unresolvable {job : RunsOn} {reason : UnresolvableRunsOn}
    (h : job.requiredLabels = .error reason) (policy : ScalePolicy) :
    covers policy job = false := by
  unfold covers
  cases policy.routingLabels with
  | none => rfl
  | some labels => exact RoutingLabels.isMatch_of_unresolvable h

theorem coversAlone_eq {owners : List ScalePolicy} (hids : (owners.map (·.id)).Nodup)
    {policy : ScalePolicy} (howner : policy ∈ owners) (job : RunsOn) :
    coversAlone owners policy job = (covers policy job && !overlaps owners job) := by
  unfold coversAlone overlaps
  cases hcovers : covers policy job with
  | false => rfl
  | true =>
    rw [Bool.true_and, Bool.true_and, Bool.eq_iff_iff, List.all_eq_true, Bool.not_eq_true',
      decide_eq_false_iff_not, Nat.not_lt]
    have hself : policy ∈ owners.filter fun other ↦ covers other job :=
      List.mem_filter.mpr ⟨howner, hcovers⟩
    have hfiltered : ((owners.filter fun other ↦ covers other job).map (·.id)).Nodup :=
      hids.sublist (List.filter_sublist.map _)
    constructor
    · intro h
      -- Every owner that covers the job has the id of the policy, so there is only one.
      have hsame : ∀ id ∈ (owners.filter fun other ↦ covers other job).map (·.id),
          id = policy.id := by
        intro id hid
        obtain ⟨other, hother, rfl⟩ := List.mem_map.mp hid
        obtain ⟨hmem, hcovers'⟩ := List.mem_filter.mp hother
        simpa [hcovers'] using h other hmem
      have hreplicate := List.eq_replicate_of_mem hsame
      rw [hreplicate, List.nodup_replicate, List.length_map] at hfiltered
      exact hfiltered
    · intro h other hother
      cases hcovers' : covers other job with
      | false => simp
      | true =>
        have hmem : other ∈ owners.filter fun other ↦ covers other job :=
          List.mem_filter.mpr ⟨hother, hcovers'⟩
        have hequal : other = policy := by
          have hone : (owners.filter fun other ↦ covers other job).length = 1 :=
            Nat.le_antisymm h (List.length_pos_of_mem hself)
          obtain ⟨only, honly⟩ := List.length_eq_one_iff.mp hone
          rw [honly, List.mem_singleton] at hself hmem
          rw [hmem, hself]
        simp [hequal]

theorem withdrawn_totalSeen {tally : DemandTally} (h : 0 < tally.matched) :
    (withdrawn tally).totalSeen = tally.totalSeen := by
  simp only [withdrawn, DemandTally.totalSeen]
  omega

/-- A job that every tally counted is taken back from each of them. -/
theorem withdrawAll_eq {ids : List PolicyId} (hids : ids.Nodup) {tallies : Tallies}
    (hcounted : ∀ id ∈ ids, ∀ tally, tallies id = some tally → 0 < tally.matched) :
    withdrawAll ids tallies =
      some fun id ↦ if id ∈ ids then (tallies id).map withdrawn else tallies id := by
  induction ids generalizing tallies with
  | nil => simp [withdrawAll]
  | cons id ids ih =>
    obtain ⟨hfresh, hids⟩ := List.nodup_cons.mp hids
    cases htally : tallies id with
    | none =>
      have hrest : ∀ id' ∈ ids, ∀ tally, tallies id' = some tally → 0 < tally.matched :=
        fun id' hid' ↦ hcounted id' (List.mem_cons_of_mem _ hid')
      simp only [withdrawAll, htally, ih hids hrest, Option.some.injEq]
      funext other
      by_cases hother : other = id
      · subst hother
        simp [htally, hfresh]
      · simp [hother]
    | some tally =>
      have hpos : tally.matched ≠ 0 :=
        Nat.ne_of_gt (hcounted id List.mem_cons_self tally htally)
      have hrest : ∀ id' ∈ ids, ∀ tally',
          Function.update tallies id (some (withdrawn tally)) id' = some tally' →
            0 < tally'.matched := by
        intro id' hid' tally' h
        have hne : id' ≠ id := fun heq ↦ hfresh (heq ▸ hid')
        rw [Function.update_of_ne hne] at h
        exact hcounted id' (List.mem_cons_of_mem _ hid') tally' h
      simp only [withdrawAll, htally, withdraw, if_neg hpos, ih hids hrest, Option.some.injEq]
      funext other
      by_cases hother : other = id
      · subst hother
        simp [htally, hfresh]
      · simp [hother]

/-! ## The second pass -/

/-- What holds between two jobs of the second pass: the jobs behind it are demand when covered
alone, the jobs ahead of it when covered at all. -/
structure Between (owners profiles : List ScalePolicy) (done todo : List RunsOn)
    (routed : Routed) : Prop where
  tallies : ∀ policy ∈ profiles, ∃ tally, routed.tallies policy.id = some tally ∧
    tally.matched = done.countP (coversAlone owners policy) + todo.countP (covers policy) ∧
    tally.totalSeen = (done ++ todo).length
  others : ∀ id, (∀ policy ∈ profiles, policy.id ≠ id) → routed.tallies id = none
  refusals : (routed.refusals .overlappingProfiles).getD 0 = done.countP (overlaps owners)

namespace Between

variable {owners profiles : List ScalePolicy} {done todo : List RunsOn} {job : RunsOn}
  {routed : Routed}

theorem keep (h : Between owners profiles done (job :: todo) routed)
    (hids : (owners.map (·.id)).Nodup) (hprofiles : ∀ policy ∈ profiles, policy ∈ owners)
    (halone : overlaps owners job = false) :
    Between owners profiles (done ++ [job]) todo routed := by
  refine ⟨fun policy hpolicy ↦ ?_, h.others, ?_⟩
  · obtain ⟨tally, htally, hmatched, htotal⟩ := h.tallies policy hpolicy
    refine ⟨tally, htally, ?_, by simpa using htotal⟩
    have hcovers := coversAlone_eq hids (hprofiles policy hpolicy) job
    rw [halone, Bool.not_false, Bool.and_true] at hcovers
    rw [hmatched, List.countP_append, List.countP_singleton, hcovers, List.countP_cons]
    omega
  · rw [h.refusals, List.countP_append, List.countP_singleton, halone]
    simp

theorem takeBack (h : Between owners profiles done (job :: todo) routed)
    (hids : (owners.map (·.id)).Nodup) (hprofiles : ∀ policy ∈ profiles, policy ∈ owners)
    (hoverlap : overlaps owners job = true) :
    ∃ tallies, withdrawAll ((owners.filter fun policy ↦ covers policy job).map (·.id))
        routed.tallies = some tallies ∧
      Between owners profiles (done ++ [job]) todo
        ⟨tallies, countRefusal routed.refusals .overlappingProfiles⟩ := by
  have hmem : ∀ policy ∈ owners, (policy.id ∈ (owners.filter fun other ↦ covers other job).map
      (·.id) ↔ covers policy job = true) := by
    intro policy hpolicy
    constructor
    · intro hid
      obtain ⟨other, hother, hsame⟩ := List.mem_map.mp hid
      obtain ⟨howner, hcovers⟩ := List.mem_filter.mp hother
      rw [← List.inj_on_of_nodup_map hids howner hpolicy hsame]
      exact hcovers
    · intro hcovers
      exact List.mem_map.mpr ⟨policy, List.mem_filter.mpr ⟨hpolicy, hcovers⟩, rfl⟩
  have hcounted : ∀ id ∈ (owners.filter fun policy ↦ covers policy job).map (·.id), ∀ tally,
      routed.tallies id = some tally → 0 < tally.matched := by
    intro id hid tally htally
    -- A tally belongs to a profile, whose first pass counted this job.
    by_cases hprofile : ∃ policy ∈ profiles, policy.id = id
    · obtain ⟨policy, hpolicy, rfl⟩ := hprofile
      obtain ⟨tally', htally', hmatched, -⟩ := h.tallies policy hpolicy
      rw [htally] at htally'
      cases htally'
      have hcovers := (hmem policy (hprofiles policy hpolicy)).mp hid
      rw [hmatched, List.countP_cons, if_pos hcovers]
      omega
    · have hnone := h.others id fun policy hpolicy heq ↦ hprofile ⟨policy, hpolicy, heq⟩
      rw [htally] at hnone
      cases hnone
  refine ⟨_, withdrawAll_eq (hids.sublist (List.filter_sublist.map _)) hcounted, ?_, ?_, ?_⟩
  · intro policy hpolicy
    obtain ⟨tally, htally, hmatched, htotal⟩ := h.tallies policy hpolicy
    have halone := coversAlone_eq hids (hprofiles policy hpolicy) job
    rw [hoverlap, Bool.not_true, Bool.and_false] at halone
    rw [List.countP_cons] at hmatched
    have hlength : (done ++ job :: todo).length = (done ++ [job] ++ todo).length := by simp
    rw [hlength] at htotal
    have hdone : (done ++ [job]).countP (coversAlone owners policy) =
        done.countP (coversAlone owners policy) := by
      rw [List.countP_append, List.countP_singleton, halone]
      simp
    cases hcovers : covers policy job with
    | true =>
      rw [if_pos hcovers] at hmatched
      refine ⟨withdrawn tally, ?_, ?_, ?_⟩
      · simp only [htally, if_pos ((hmem policy (hprofiles policy hpolicy)).mpr hcovers),
          Option.map_some]
      · rw [hdone]
        simp only [withdrawn, hmatched]
        omega
      · rw [withdrawn_totalSeen (by omega), htotal]
    | false =>
      have hnot : ¬ covers policy job = true := by simp [hcovers]
      rw [if_neg hnot] at hmatched
      refine ⟨tally, ?_, by rw [hdone, hmatched]; omega, htotal⟩
      simp only [htally, if_neg fun hid ↦ hnot ((hmem policy (hprofiles policy hpolicy)).mp hid)]
  · intro id hid
    simp [h.others id hid]
  · simp [countRefusal, h.refusals, List.countP_append, hoverlap]

theorem refuseOverlaps (hids : (owners.map (·.id)).Nodup)
    (hprofiles : ∀ policy ∈ profiles, policy ∈ owners)
    (h : Between owners profiles done todo routed) :
    ∃ result, Agent.refuseOverlaps owners todo routed = some result ∧
      Between owners profiles (done ++ todo) [] result := by
  induction todo generalizing done routed with
  | nil => exact ⟨routed, rfl, by simpa using h⟩
  | cons job todo ih =>
    rw [List.append_cons]
    unfold Agent.refuseOverlaps
    cases hrequired : job.requiredLabels with
    | error reason =>
      have hnobody : overlaps owners job = false := by
        simp [overlaps, covers_unresolvable hrequired]
      exact ih (h.keep hids hprofiles hnobody)
    | ok required =>
      simp only [List.length_map]
      cases hoverlap : overlaps owners job with
      | false =>
        rw [if_neg (by simpa [overlaps] using hoverlap)]
        exact ih (h.keep hids hprofiles hoverlap)
      | true =>
        rw [if_pos (by simpa [overlaps] using hoverlap)]
        obtain ⟨tallies, htallies, hbetween⟩ := h.takeBack hids hprofiles hoverlap
        rw [htallies]
        exact ih hbetween

end Between

/-! ## The first pass -/

theorem demandOf_eq {profiles : List ScalePolicy} (hids : (profiles.map (·.id)).Nodup)
    (reading : QueuedDemand) :
    (∀ policy ∈ profiles, demandOf profiles reading policy.id = some (demandFor policy reading)) ∧
      ∀ id, (∀ policy ∈ profiles, policy.id ≠ id) → demandOf profiles reading id = none := by
  have hfold : ∀ tallies : Tallies,
      (∀ policy ∈ profiles,
        profiles.foldl (addDemand reading) tallies policy.id = some (demandFor policy reading)) ∧
      ∀ id, (∀ policy ∈ profiles, policy.id ≠ id) →
        profiles.foldl (addDemand reading) tallies id = tallies id := by
    induction profiles with
    | nil => exact fun _ ↦ ⟨fun _ h ↦ (nomatch h), fun _ _ ↦ rfl⟩
    | cons head profiles ih =>
      intro tallies
      rw [List.map_cons, List.nodup_cons] at hids
      obtain ⟨hmembers, hothers⟩ := ih hids.2 (addDemand reading tallies head)
      refine ⟨fun policy hpolicy ↦ ?_, fun id hid ↦ ?_⟩
      · obtain rfl | hpolicy := List.mem_cons.mp hpolicy
        · have hlast : ∀ other ∈ profiles, other.id ≠ policy.id :=
            fun other hother heq ↦ hids.1 (heq ▸ List.mem_map_of_mem hother)
          rw [List.foldl_cons, hothers policy.id hlast, addDemand, Function.update_self]
        · exact hmembers policy hpolicy
      · have hrest : ∀ policy ∈ profiles, policy.id ≠ id :=
          fun policy hpolicy ↦ hid policy (List.mem_cons_of_mem _ hpolicy)
        rw [List.foldl_cons, hothers id hrest, addDemand,
          Function.update_of_ne (hid head List.mem_cons_self).symm]
  exact hfold fun _ ↦ none

theorem inScope_same {a b : ScaleTarget} (h : a.same b = true) (reading : QueuedDemand) :
    reading.inScope a = reading.inScope b := by
  cases a with
  | repository a =>
    cases b with
    | repository b =>
      have hkey : repositoryKey a = repositoryKey b := by
        simpa [ScaleTarget.same, eqIgnoreAsciiCase, repositoryKey] using h
      show reading.jobsFor a = reading.jobsFor b
      rw [QueuedDemand.jobsFor, QueuedDemand.jobsFor, hkey]
    | organization b => cases h
  | organization a =>
    cases b with
    | repository b => cases h
    | organization b => rfl

theorem demandFor_counts {policy : ScalePolicy} (howns : ownsRunners policy = true)
    (reading : QueuedDemand) :
    (demandFor policy reading).matched =
        (reading.inScope policy.target).countP (covers policy) ∧
      (demandFor policy reading).totalSeen = (reading.inScope policy.target).length := by
  cases hlabels : policy.routingLabels with
  | none =>
    unfold ownsRunners at howns
    unfold ScalePolicy.routingLabels at hlabels
    cases hmode : policy.mode <;> simp_all [PolicyMode.isAutoscale, PolicyMode.routingLabels]
  | some labels =>
    have hcovers : covers policy = fun job ↦ (labels.matchesRunsOn job).isMatch := by
      funext job
      simp [covers, hlabels]
    simp only [demandFor, hlabels, hcovers]
    exact ⟨labels.tally_matched _, labels.tally_total _⟩

/-! ## Exactness -/

theorem same_congr {a b : ScaleTarget} (h : a.same b = true) (target : ScaleTarget) :
    target.same a = target.same b := by
  rw [Bool.eq_iff_iff]
  exact ⟨fun hta ↦ ScaleTarget.same_trans hta h,
    fun htb ↦ ScaleTarget.same_trans htb (ScaleTarget.same_symm h)⟩

section Exactness

variable {host : HostId} {supervised : ScalePolicy → Bool} {policies : List ScalePolicy}

theorem mem_ownersOf_of_profile {policy : ScalePolicy} {target : ScaleTarget}
    (h : policy ∈ profilesOf host supervised policies target) :
    policy ∈ ownersOf policies target host := by
  simp only [profilesOf, pollable, List.mem_filter, Bool.and_eq_true, isOwnedBy,
    decide_eq_true_eq] at h
  obtain ⟨⟨hmem, ⟨⟨howns, hhost⟩, -⟩, -⟩, hsame⟩ := h
  simp only [ownersOf, List.mem_filter, Bool.and_eq_true, decide_eq_true_eq]
  exact ⟨⟨hmem, hsame, hhost⟩, howns⟩

theorem profileIds_nodup {target : ScaleTarget} (hids : (policies.map (·.id)).Nodup) :
    ((profilesOf host supervised policies target).map (·.id)).Nodup :=
  hids.sublist ((List.filter_sublist.trans List.filter_sublist).map _)

theorem ownerIds_nodup {target : ScaleTarget} (hids : (policies.map (·.id)).Nodup) :
    ((ownersOf policies target host).map (·.id)).Nodup :=
  hids.sublist ((List.filter_sublist.trans List.filter_sublist).map _)

theorem coversAlone_unique {owners profiles : List ScalePolicy}
    (hids : (profiles.map (·.id)).Nodup) (hprofiles : ∀ policy ∈ profiles, policy ∈ owners)
    (job : RunsOn) : profiles.countP (fun policy ↦ coversAlone owners policy job) ≤ 1 := by
  rw [List.countP_eq_length_filter]
  cases hfiltered : profiles.filter fun policy ↦ coversAlone owners policy job with
  | nil => exact Nat.zero_le 1
  | cons first rest =>
    cases rest with
    | nil => exact Nat.le_refl 1
    | cons second rest =>
      have hsub : [first, second].Sublist profiles := by
        refine List.Sublist.trans ?_ (List.filter_sublist (p := fun policy ↦
          coversAlone owners policy job))
        rw [hfiltered]
        exact ((List.nil_sublist rest).cons_cons second).cons_cons first
      have hdistinct := hids.sublist (hsub.map (·.id))
      have hboth : ∀ policy ∈ [first, second], coversAlone owners policy job = true := by
        intro policy hpolicy
        have hmem : policy ∈ profiles.filter fun policy ↦ coversAlone owners policy job := by
          rw [hfiltered]
          exact (((List.nil_sublist rest).cons_cons second).cons_cons first).subset hpolicy
        exact (List.mem_filter.mp hmem).2
      have hfirst := hboth first (by simp)
      have hsecond := hboth second (by simp)
      simp only [coversAlone, Bool.and_eq_true, List.all_eq_true] at hfirst hsecond
      have hother := hfirst.2 second (hprofiles second (hsub.subset (by simp)))
      simp only [hsecond.1, Bool.not_true, Bool.or_false, decide_eq_true_eq] at hother
      simp [hother] at hdistinct

theorem sum_counts_le {profiles : List ScalePolicy} {counted : ScalePolicy → RunsOn → Bool}
    (h : ∀ job, profiles.countP (fun policy ↦ counted policy job) ≤ 1) (jobs : List RunsOn) :
    (profiles.map fun policy ↦ jobs.countP (counted policy)).sum ≤ jobs.length := by
  induction jobs with
  | nil => simp
  | cons job jobs ih =>
    have hsplit : (profiles.map fun policy ↦ (job :: jobs).countP (counted policy)).sum =
        (profiles.map fun policy ↦ jobs.countP (counted policy)).sum +
          profiles.countP fun policy ↦ counted policy job := by
      clear ih h
      induction profiles with
      | nil => rfl
      | cons policy profiles ih =>
        rw [List.map_cons, List.sum_cons, ih, List.map_cons, List.sum_cons, List.countP_cons,
          List.countP_cons]
        omega
    have hone := h job
    rw [hsplit, List.length_cons]
    omega

/-- Routing the jobs of a polled target ends behind the last job. -/
theorem routeDemand_between (hids : (policies.map (·.id)).Nodup) (reading : QueuedDemand)
    {policy : ScalePolicy} (hpolicy : policy ∈ pollable host supervised policies) :
    ∃ routed, routeDemand policies (profilesOf host supervised policies policy.target) reading =
        some routed ∧
      Between (ownersOf policies policy.target host)
        (profilesOf host supervised policies policy.target) (reading.inScope policy.target) []
        routed := by
  obtain ⟨profiles, hdef⟩ : ∃ profiles,
      profiles = profilesOf host supervised policies policy.target := ⟨_, rfl⟩
  rw [← hdef]
  have hmember : policy ∈ profiles :=
    hdef ▸ List.mem_filter.mpr ⟨hpolicy, ScaleTarget.same_refl policy.target⟩
  have hprofiles : ∀ profile ∈ profiles, profile ∈ ownersOf policies policy.target host :=
    fun profile h ↦ mem_ownersOf_of_profile (hdef ▸ h)
  have hsame : ∀ profile ∈ profiles, profile.target.same policy.target = true := by
    intro profile h
    rw [hdef] at h
    exact (List.mem_filter.mp h).2
  obtain ⟨hmembers, hothers⟩ := demandOf_eq (hdef ▸ profileIds_nodup hids) reading
  have hstart : Between (ownersOf policies policy.target host) profiles []
      (reading.inScope policy.target) ⟨demandOf profiles reading, fun _ ↦ none⟩ := by
    refine ⟨fun profile hprofile ↦ ?_, hothers, rfl⟩
    have howns : ownsRunners profile = true := (List.mem_filter.mp (hprofiles profile hprofile)).2
    obtain ⟨hmatched, htotal⟩ := demandFor_counts howns reading
    rw [inScope_same (hsame profile hprofile) reading] at hmatched htotal
    exact ⟨_, hmembers profile hprofile, by simpa using hmatched, htotal⟩
  obtain ⟨routed, hrouted, hend⟩ := hstart.refuseOverlaps (ownerIds_nodup hids) hprofiles
  refine ⟨routed, ?_, by simpa using hend⟩
  unfold routeDemand
  cases hlist : profiles with
  | nil =>
    rw [hlist] at hmember
    cases hmember
  | cons first rest =>
    -- The owners are those of the first profile, which has the same target and host.
    have hfirst : first ∈ profiles := by simp [hlist]
    have hhost : first.hostId = host := by
      have howner := hprofiles first hfirst
      simp only [ownersOf, List.mem_filter, Bool.and_eq_true, decide_eq_true_eq] at howner
      exact howner.1.2.2
    have howners : ownersOf policies first.target first.hostId =
        ownersOf policies policy.target host := by
      simp only [ownersOf, same_congr (hsame first hfirst), hhost]
    show Agent.refuseOverlaps (ownersOf policies first.target first.hostId)
      (reading.inScope first.target) _ = _
    rw [howners, inScope_same (hsame first hfirst) reading, ← hlist]
    exact hrouted

/-- Routing is exact: it never underflows, a profile's demand is the jobs it alone covers among the
owners of its target, and every job in scope is in one of a profile's three counts. -/
theorem route_demand_exact (hids : (policies.map (·.id)).Nodup) (reading : QueuedDemand)
    {policy : ScalePolicy} (hpolicy : policy ∈ pollable host supervised policies) :
    let profiles := profilesOf host supervised policies policy.target
    let owners := ownersOf policies policy.target host
    let jobs := reading.inScope policy.target
    policy ∈ profiles ∧
    ∃ routed, routeDemand policies profiles reading = some routed ∧
      (∀ profile ∈ profiles, ∃ tally, routed.tallies profile.id = some tally ∧
        tally.matched = jobs.countP (coversAlone owners profile) ∧
        tally.matched + tally.notMatched + tally.unresolvable.length = jobs.length) ∧
      (∀ job, profiles.countP (fun profile ↦ coversAlone owners profile job) ≤ 1) ∧
      (profiles.map fun profile ↦ ((routed.tallies profile.id).map (·.matched)).getD 0).sum ≤
        jobs.length ∧
      (routed.refusals .overlappingProfiles).getD 0 = jobs.countP (overlaps owners) := by
  intro profiles owners jobs
  have hids' : (profiles.map (·.id)).Nodup := profileIds_nodup hids
  have hprofiles : ∀ profile ∈ profiles, profile ∈ owners :=
    fun profile h ↦ mem_ownersOf_of_profile h
  have hunique := coversAlone_unique hids' hprofiles
  obtain ⟨routed, hrouted, hend⟩ := routeDemand_between hids reading hpolicy
  have htallies : ∀ profile ∈ profiles, ∃ tally, routed.tallies profile.id = some tally ∧
      tally.matched = jobs.countP (coversAlone owners profile) ∧
      tally.matched + tally.notMatched + tally.unresolvable.length = jobs.length := by
    intro profile hprofile
    obtain ⟨tally, htally, hmatched, htotal⟩ := hend.tallies profile hprofile
    exact ⟨tally, htally, by simpa using hmatched, by simpa [DemandTally.totalSeen] using htotal⟩
  refine ⟨List.mem_filter.mpr ⟨hpolicy, ScaleTarget.same_refl policy.target⟩, routed, hrouted,
    htallies, hunique, ?_, hend.refusals⟩
  have hcounts : (profiles.map fun profile ↦
      ((routed.tallies profile.id).map (·.matched)).getD 0) =
      profiles.map fun profile ↦ jobs.countP (coversAlone owners profile) := by
    refine List.map_congr_left fun profile hprofile ↦ ?_
    obtain ⟨tally, htally, hmatched, -⟩ := htallies profile hprofile
    rw [htally]
    exact hmatched
  rw [hcounts]
  exact sum_counts_le hunique jobs

/-- A policy of one repository that carries given labels. -/
def profileWith (id : PolicyId) (state : PolicyState) (labels : RoutingLabels) : ScalePolicy where
  id
  target := .repository ⟨⟨"acme", acme_owner⟩, ⟨"app", app_repo⟩⟩
  installationId := 3
  hostId := ⟨1⟩
  requestedHostLabel := ⟨"build", build_label⟩
  profileName := .default
  mode := .autoscale ⟨labels, 0, ⟨2, two_nonZero⟩, zero_ordered_two⟩
  enabled := true
  state
  cachePolicy := .retainRunnerPackage
  workspacePolicy := .ephemeral
  executionPolicy := .native
  revision := 1

/-- An active profile and an inactive one that share a label. -/
def sharedLabel : List ScalePolicy :=
  [profileWith ⟨1⟩ .active (.fromParts ⟨"one", by decide⟩ {⟨"linux", by decide⟩}),
    profileWith ⟨2⟩ .disabled (.fromParts ⟨"two", by decide⟩ {⟨"linux", by decide⟩})]

/-- A job of the first profile, one that both cover and one that cannot be resolved. -/
def threeJobs : QueuedDemand where
  perRepository := [(⟨⟨"Acme", by decide⟩, ⟨"app", app_repo⟩⟩,
    [.single "One", .many ["linux"], .many []])]
  distinct := List.nodup_singleton _

/-- The shared job is refused although the other owner is inactive. -/
theorem shared_job_refused : ∃ routed tally,
    routeDemand sharedLabel (profilesOf ⟨1⟩ (fun _ ↦ true) sharedLabel
      (.repository ⟨⟨"acme", by decide⟩, ⟨"app", by decide⟩⟩)) threeJobs = some routed ∧
    routed.tallies ⟨1⟩ = some tally ∧ tally.matched = 1 ∧ tally.unresolvable.length ≤ 2 ∧
    (routed.refusals .overlappingProfiles).getD 0 = 1 := by
  obtain ⟨hprofile, routed, hrouted, htallies, -, -, hrefusals⟩ :=
    @route_demand_exact ⟨1⟩ (fun _ ↦ true) sharedLabel (by decide) threeJobs
      (sharedLabel.head (by decide)) (by decide)
  obtain ⟨tally, htally, hmatched, htotal⟩ := htallies _ hprofile
  refine ⟨routed, tally, hrouted, htally, hmatched.trans (by decide), ?_,
    hrefusals.trans (by decide)⟩
  have hone : tally.matched = 1 := hmatched.trans (by decide)
  have hthree : tally.matched + tally.notMatched + tally.unresolvable.length = 3 :=
    htotal.trans (by decide)
  omega

/-- `route_demand` as a pass uses it: the demand of one profile. -/
def routedDemand : RouteDemand QueuedDemand := fun policies profiles reading id ↦
  (((routeDemand policies profiles reading).bind (·.tallies id)).map (·.matched)).getD 0

end Exactness

end RunnerManager.Agent
