import RunnerManager.Domain.Policy
import RunnerManager.Lib.Result

/-!
# What a job asks for

The `runs-on` half of `crates/domain/src/policy.rs`: the labels a queued job requires, and which
routing labels cover them. A job that cannot be resolved is neither demand nor dropped, so a tally
keeps three counts apart; `tally_total` says that together they are every job.
-/

namespace RunnerManager.Domain

open RunnerManager.Text

/-! ## Required labels -/

/-- The `labels` key of the map form. -/
inductive RunsOnLabels where
  | one (label : String)
  | many (labels : List String)
deriving DecidableEq

/-- A queued job's `runs-on`, in each documented form. -/
inductive RunsOn where
  | single (label : String)
  | many (labels : List String)
  | grouped (group : Option String) (labels : RunsOnLabels)
deriving DecidableEq

/-- Why a `runs-on` cannot be resolved here. -/
inductive UnresolvableRunsOn where
  | expression (raw : String)
  | runnerGroupWithoutLabels (group : String)
  | noLabels
  | invalidLabel (raw : String) (source : ValidationError)
deriving DecidableEq

def RunsOnLabels.asSlice : RunsOnLabels → List String
  | one label => [label]
  | many labels => labels

namespace RunsOn

/-- `RunsOn::from_job_labels`: the form the jobs API answers with. -/
def fromJobLabels (labels : List String) : RunsOn :=
  many labels

def runnerGroup : RunsOn → Option String
  | grouped group _ => group
  | _ => none

def rawLabels : RunsOn → List String
  | single label => [label]
  | many labels => labels
  | grouped _ labels => labels.asSlice

def isExpression (raw : String) : Bool :=
  contains "$\x7b\x7b".toList raw.toList

/-- The elements that carry a routing meaning. -/
def usable (raws : List String) : List String :=
  raws.filter fun raw ↦ !(trim raw.toList).isEmpty

def requiredLabels (runsOn : RunsOn) : Except UnresolvableRunsOn (List Label) :=
  match runsOn.rawLabels.find? isExpression with
  | some raw => .error (.expression raw)
  | none =>
    if (usable runsOn.rawLabels).isEmpty then
      match runsOn.runnerGroup with
      | some group => .error (.runnerGroupWithoutLabels group)
      | none => .error .noLabels
    else (usable runsOn.rawLabels).mapM fun raw ↦
      (Label.new raw).mapError (UnresolvableRunsOn.invalidLabel raw)

end RunsOn

/-! ## Matching -/

/-- The outcome of matching one job against a policy's labels. -/
inductive RunsOnMatch where
  | matched (runnerGroup : Option String)
  | noMatch (missing : List Label)
  | unresolvable (reason : UnresolvableRunsOn)
deriving DecidableEq

def RunsOnMatch.isMatch : RunsOnMatch → Bool
  | .matched _ => true
  | _ => false

/-- The result of one poll's label matching. -/
structure DemandTally where
  matched : Nat
  notMatched : Nat
  unresolvable : List UnresolvableRunsOn
deriving DecidableEq

namespace DemandTally

def default : DemandTally := ⟨0, 0, []⟩

/-- Count one more job. -/
def count (tally : DemandTally) : RunsOnMatch → DemandTally
  | .matched _ => { tally with matched := tally.matched + 1 }
  | .noMatch _ => { tally with notMatched := tally.notMatched + 1 }
  | .unresolvable reason => { tally with unresolvable := tally.unresolvable ++ [reason] }

def totalSeen (tally : DemandTally) : Nat :=
  tally.matched + tally.notMatched + tally.unresolvable.length

end DemandTally

namespace RoutingLabels

def contains (labels : RoutingLabels) (label : Label) : Bool :=
  labels.hostLabel = label || label ∈ labels.additional

/-- `RoutingLabels::matches`: the job's required labels must all be present here. -/
def matchesRunsOn (labels : RoutingLabels) (runsOn : RunsOn) : RunsOnMatch :=
  match runsOn.requiredLabels with
  | .error reason => .unresolvable reason
  | .ok required =>
    let missing := required.filter fun label ↦ !labels.contains label
    if missing.isEmpty then .matched runsOn.runnerGroup else .noMatch missing

def tally (labels : RoutingLabels) (jobs : List RunsOn) : DemandTally :=
  jobs.foldl (fun tally job ↦ tally.count (labels.matchesRunsOn job)) .default

variable {labels : RoutingLabels} {job : RunsOn}

theorem isMatch_of_required {required : List Label} (h : job.requiredLabels = .ok required) :
    (labels.matchesRunsOn job).isMatch = required.all labels.contains := by
  simp only [matchesRunsOn, h]
  cases hmissing : required.filter fun label ↦ !labels.contains label with
  | nil =>
    show true = _
    rw [List.filter_eq_nil_iff] at hmissing
    simpa using hmissing
  | cons label rest =>
    show false = _
    have hmem : label ∈ required.filter fun label ↦ !labels.contains label := by
      rw [hmissing]
      exact List.mem_cons_self
    obtain ⟨hlabel, habsent⟩ := List.mem_filter.mp hmem
    symm
    rw [List.all_eq_false]
    exact ⟨label, hlabel, by simpa using habsent⟩

theorem isMatch_of_unresolvable {reason : UnresolvableRunsOn}
    (h : job.requiredLabels = .error reason) : (labels.matchesRunsOn job).isMatch = false := by
  simp only [matchesRunsOn, h]
  rfl

theorem foldl_count (labels : RoutingLabels) (jobs : List RunsOn) (tally : DemandTally) :
    let result := jobs.foldl (fun tally job ↦ tally.count (labels.matchesRunsOn job)) tally
    result.matched = tally.matched + jobs.countP (fun job ↦ (labels.matchesRunsOn job).isMatch) ∧
      result.totalSeen = tally.totalSeen + jobs.length := by
  induction jobs generalizing tally with
  | nil => exact ⟨rfl, rfl⟩
  | cons job jobs ih =>
    obtain ⟨hmatched, htotal⟩ := ih (tally.count (labels.matchesRunsOn job))
    refine ⟨?_, ?_⟩
    · rw [List.foldl_cons, hmatched, List.countP_cons]
      cases labels.matchesRunsOn job <;> simp [DemandTally.count, RunsOnMatch.isMatch]
      omega
    · rw [List.foldl_cons, htotal, List.length_cons]
      cases labels.matchesRunsOn job <;> simp [DemandTally.count, DemandTally.totalSeen] <;> omega

theorem tally_matched (labels : RoutingLabels) (jobs : List RunsOn) :
    (labels.tally jobs).matched = jobs.countP fun job ↦ (labels.matchesRunsOn job).isMatch := by
  have h := (labels.foldl_count jobs .default).1
  rw [show DemandTally.default.matched = 0 from rfl, Nat.zero_add] at h
  exact h

/-- Every job is counted once. -/
theorem tally_total (labels : RoutingLabels) (jobs : List RunsOn) :
    (labels.tally jobs).totalSeen = jobs.length := by
  have h := (labels.foldl_count jobs .default).2
  rw [show DemandTally.default.totalSeen = 0 from rfl, Nat.zero_add] at h
  exact h

end RoutingLabels

end RunnerManager.Domain
