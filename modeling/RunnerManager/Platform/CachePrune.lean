import RunnerManager.Lib.Saturating
import Mathlib

/-!
# Which caches are pruned

`plan_prune` of `crates/platform/src/dependency_cache.rs`. The sum of the sizes is a plain one: a
build with overflow checks stops at the first total that leaves 64 bits, and any other build goes
on with what is left of it. Read `PrunePlan` first: it is what a plan is, over the exact total.
-/

namespace RunnerManager.Platform

/-! ## The code -/

/-- `NamespaceUsage`; the time of its last use is in nanoseconds. -/
structure NamespaceUsage where
  name : String
  bytes : BitVec 64
  lastUsed : Option Int
  inUse : Bool
deriving DecidableEq

namespace NamespaceUsage

/-- What the idle namespaces are sorted by; one that was never used comes first. -/
def key (usage : NamespaceUsage) : WithBot Int ×ₗ String :=
  toLex (usage.lastUsed, usage.name)

/-- `Iterator::sum` over the sizes, from a total on. -/
def sumFrom (overflowChecks : Bool) : BitVec 64 → List NamespaceUsage → Option (BitVec 64)
  | total, [] => some total
  | total, usage :: rest =>
    if overflowChecks && decide (2 ^ 64 ≤ total.toNat + usage.bytes.toNat) then none
    else sumFrom overflowChecks (total + usage.bytes) rest

/-- The idle namespaces, least recently used first. -/
def idle (namespaces : List NamespaceUsage) : List NamespaceUsage :=
  (namespaces.filter (!·.inUse)).mergeSort fun a b ↦ a.key ≤ b.key

/-- The loop of `plan_prune`. -/
def choose (max : BitVec 64) : BitVec 64 → List NamespaceUsage → List String
  | _, [] => []
  | total, usage :: rest =>
    if total ≤ max then []
    else usage.name :: choose max (Saturating.sub total usage.bytes) rest

/-- `plan_prune`; there is no plan where it panics. -/
def planPrune (overflowChecks : Bool) (namespaces : List NamespaceUsage)
    (maxBytes : Option (BitVec 64)) : Option (List String) :=
  match maxBytes with
  | none => some []
  | some max => do
    let total ← sumFrom overflowChecks 0 namespaces
    return choose max total (idle namespaces)

/-! ## What a plan is -/

def totalBytes (namespaces : List NamespaceUsage) : Nat :=
  (namespaces.map (·.bytes.toNat)).sum

/-- What is left without the removed namespaces is within the cap. -/
def Fits (namespaces : List NamespaceUsage) (maxBytes : Option (BitVec 64))
    (removed : List NamespaceUsage) : Prop :=
  ∀ max ∈ maxBytes, totalBytes namespaces ≤ max.toNat + totalBytes removed

/-- The shortest prefix of the idle namespaces, in the order of their last use, that brings the
total within the cap, or all of them. -/
structure PrunePlan (namespaces : List NamespaceUsage) (maxBytes : Option (BitVec 64))
    (plan : List String) : Prop where
  shortest : ∃ removed kept : List NamespaceUsage,
    (removed ++ kept).Perm (namespaces.filter (!·.inUse)) ∧
      (removed ++ kept).Pairwise (fun a b ↦ a.key < b.key) ∧ plan = removed.map (·.name) ∧
      (Fits namespaces maxBytes removed ∨ kept = []) ∧
      ∀ shorter, shorter <+: removed → shorter ≠ removed → ¬ Fits namespaces maxBytes shorter
  idle : ∀ usage ∈ namespaces, usage.name ∈ plan → usage.inUse = false
  nothing : Fits namespaces maxBytes [] → plan = []

/-- What pruning is to do: the sum is the exact one, and there is a plan. -/
structure PruneLaw (overflowChecks : Bool) (namespaces : List NamespaceUsage)
    (maxBytes : Option (BitVec 64)) : Prop where
  exact : maxBytes.isSome → ∃ total, sumFrom overflowChecks 0 namespaces = some total ∧
    total.toNat = totalBytes namespaces
  plan : ∃ plan, planPrune overflowChecks namespaces maxBytes = some plan ∧
    PrunePlan namespaces maxBytes plan

/-! ## Sums -/

section

variable {namespaces removed kept : List NamespaceUsage}
  {total max : BitVec 64} {maxBytes : Option (BitVec 64)}

@[simp]
theorem totalBytes_nil : totalBytes [] = 0 := rfl

@[simp]
theorem totalBytes_cons (usage : NamespaceUsage) (rest : List NamespaceUsage) :
    totalBytes (usage :: rest) = usage.bytes.toNat + totalBytes rest :=
  List.sum_cons

@[simp]
theorem totalBytes_append :
    totalBytes (removed ++ kept) = totalBytes removed + totalBytes kept := by
  simp [totalBytes]

theorem totalBytes_perm (h : removed.Perm kept) : totalBytes removed = totalBytes kept :=
  (h.map _).sum_nat

theorem totalBytes_filter_le (p : NamespaceUsage → Bool) :
    totalBytes (namespaces.filter p) ≤ totalBytes namespaces :=
  List.Sublist.sum_le_sum (List.filter_sublist.map _) (by simp)

theorem sumFrom_exact (overflowChecks : Bool) (total : BitVec 64)
    (h : total.toNat + totalBytes namespaces < 2 ^ 64) :
    ∃ sum, sumFrom overflowChecks total namespaces = some sum ∧
      sum.toNat = total.toNat + totalBytes namespaces := by
  induction namespaces generalizing total with
  | nil => exact ⟨total, rfl, rfl⟩
  | cons usage rest ih =>
    rw [totalBytes_cons] at h
    have hadd : (total + usage.bytes).toNat = total.toNat + usage.bytes.toNat := by
      rw [BitVec.toNat_add, Nat.mod_eq_of_lt (by omega)]
    obtain ⟨sum, hsum, hexact⟩ := ih (total + usage.bytes) (by omega)
    refine ⟨sum, ?_, ?_⟩
    · rw [sumFrom, if_neg, hsum]
      simp only [Bool.and_eq_true, decide_eq_true_eq, not_and]
      omega
    · rw [hexact, hadd, totalBytes_cons]
      omega

theorem fits_of_exact (h : total.toNat = totalBytes namespaces) :
    totalBytes namespaces < 2 ^ 64 :=
  h ▸ total.isLt

/-! ## The loop -/

/-- The loop takes the shortest prefix that brings its total within the cap. -/
theorem choose_shortest (max total : BitVec 64) (h : totalBytes kept ≤ total.toNat) :
    ∃ chosen rest, kept = chosen ++ rest ∧ choose max total kept = chosen.map (·.name) ∧
      (total.toNat ≤ max.toNat + totalBytes chosen ∨ rest = []) ∧
      ∀ shorter, shorter <+: chosen → shorter ≠ chosen →
        ¬ total.toNat ≤ max.toNat + totalBytes shorter := by
  induction kept generalizing total with
  | nil =>
    refine ⟨[], [], rfl, rfl, .inr rfl, fun shorter hshorter hne ↦ ?_⟩
    exact absurd (List.prefix_nil.mp hshorter) hne
  | cons usage rest ih =>
    unfold choose
    split_ifs with hfits
    · refine ⟨[], usage :: rest, rfl, rfl, .inl ?_, fun shorter hshorter hne ↦ ?_⟩
      · rw [totalBytes_nil, Nat.add_zero]
        exact hfits
      · exact absurd (List.prefix_nil.mp hshorter) hne
    · have hover : max.toNat < total.toNat := Nat.lt_of_not_le hfits
      rw [totalBytes_cons] at h
      have hleft := Saturating.sub_toNat total usage.bytes
      obtain ⟨chosen, kept, rfl, hchoose, hends, hshortest⟩ :=
        ih (Saturating.sub total usage.bytes) (by omega)
      refine ⟨usage :: chosen, kept, rfl, by rw [hchoose, List.map_cons], ?_, ?_⟩
      · refine hends.imp_left fun hle ↦ ?_
        rw [totalBytes_cons]
        omega
      · intro shorter hshorter hne
        cases shorter with
        | nil =>
          rw [totalBytes_nil]
          omega
        | cons first others =>
          obtain ⟨rfl, hothers⟩ := List.cons_prefix_cons.mp hshorter
          have hmore := hshortest others hothers fun heq ↦ hne (by rw [heq])
          rw [totalBytes_cons]
          omega

/-! ## The order -/

theorem idle_pairwise (hnames : (namespaces.map (·.name)).Nodup) :
    (idle namespaces).Pairwise fun a b ↦ a.key < b.key := by
  have hsorted : (idle namespaces).Pairwise fun a b ↦ a.key ≤ b.key := by
    have h : (idle namespaces).Pairwise fun a b ↦ decide (a.key ≤ b.key) = true := by
      refine List.pairwise_mergeSort (fun a b c hab hbc ↦ ?_) (fun a b ↦ ?_) _
      · exact decide_eq_true ((of_decide_eq_true hab).trans (of_decide_eq_true hbc))
      · simpa using le_total a.key b.key
    exact h.imp fun hle ↦ of_decide_eq_true hle
  have hdistinct : (idle namespaces).Pairwise fun a b ↦ a.name ≠ b.name := by
    have hperm : (idle namespaces).Perm (namespaces.filter (!·.inUse)) := List.mergeSort_perm _ _
    refine hperm.symm.pairwise ?_ fun {a b} hab ↦ hab.symm
    exact (List.pairwise_map.mp hnames).filter _
  refine (hsorted.and hdistinct).imp fun {a b} hab ↦ lt_of_le_of_ne hab.1 fun hkey ↦ hab.2 ?_
  exact congrArg (fun key ↦ (ofLex key).2) hkey

/-! ## The plan -/

/-- What is left of a machine total that is exact. -/
theorem choose_plan (hnames : (namespaces.map (·.name)).Nodup)
    (htotal : total.toNat = totalBytes namespaces) :
    PrunePlan namespaces (some max) (choose max total (idle namespaces)) := by
  have hperm : (idle namespaces).Perm (namespaces.filter (!·.inUse)) := List.mergeSort_perm _ _
  have hle : totalBytes (idle namespaces) ≤ total.toNat := by
    rw [totalBytes_perm hperm, htotal]
    exact totalBytes_filter_le _
  have hfits (removed : List NamespaceUsage) : Fits namespaces (some max) removed ↔
      total.toNat ≤ max.toNat + totalBytes removed := by
    rw [htotal]
    exact ⟨fun h ↦ h max rfl, fun h _ hmax ↦ Option.some.inj hmax ▸ h⟩
  obtain ⟨chosen, rest, hidle, hchoose, hends, hshortest⟩ := choose_shortest max total hle
  refine ⟨⟨chosen, rest, hidle ▸ hperm, hidle ▸ idle_pairwise hnames, hchoose, ?_, ?_⟩, ?_, ?_⟩
  · exact hends.imp_left (hfits chosen).mpr
  · intro shorter hshorter hne hfit
    exact hshortest shorter hshorter hne ((hfits shorter).mp hfit)
  · intro usage husage hchosen
    rw [hchoose] at hchosen
    obtain ⟨other, hother, hname⟩ := List.mem_map.mp hchosen
    have hmem : other ∈ namespaces.filter (!·.inUse) :=
      hperm.subset (hidle ▸ List.mem_append_left _ hother)
    obtain ⟨hin, hfree⟩ := List.mem_filter.mp hmem
    obtain rfl : other = usage := List.inj_on_of_nodup_map hnames hin husage hname
    simpa using hfree
  · intro hfit
    rw [hchoose]
    by_contra hsome
    refine hshortest [] List.nil_prefix (fun hnil ↦ hsome ?_) ((hfits []).mp hfit)
    rw [← hnil, List.map_nil]

end

/-- A plan is the shortest one over an exact total, for all sizes and in every build, if and only
if there is no cap or the total fits 64 bits. -/
theorem prune_law_iff {overflowChecks : Bool} {namespaces : List NamespaceUsage}
    {maxBytes : Option (BitVec 64)} (hnames : (namespaces.map (·.name)).Nodup) :
    PruneLaw overflowChecks namespaces maxBytes ↔
      maxBytes = none ∨ totalBytes namespaces < 2 ^ 64 := by
  cases maxBytes with
  | none =>
    refine iff_of_true ⟨fun h ↦ (nomatch h), [], rfl, ?_⟩ (.inl rfl)
    refine ⟨⟨[], idle namespaces, List.mergeSort_perm _ _, idle_pairwise hnames, rfl, ?_, ?_⟩,
      fun _ _ h ↦ (nomatch h), fun _ ↦ rfl⟩
    · exact .inl fun _ hmax ↦ nomatch hmax
    · exact fun shorter hshorter hne ↦ absurd (List.prefix_nil.mp hshorter) hne
  | some max =>
    constructor
    · intro hlaw
      obtain ⟨total, -, hexact⟩ := hlaw.exact rfl
      exact .inr (fits_of_exact hexact)
    · rintro (hnone | hfits)
      · cases hnone
      have hzero : (0 : BitVec 64).toNat + totalBytes namespaces < 2 ^ 64 := by
        simpa using hfits
      obtain ⟨total, hsum, htotal⟩ := sumFrom_exact overflowChecks 0 hzero
      have htotal : total.toNat = totalBytes namespaces := by simpa using htotal
      refine ⟨fun _ ↦ ⟨total, hsum, htotal⟩, choose max total (idle namespaces), ?_,
        choose_plan hnames htotal⟩
      unfold planPrune
      simp only [hsum]
      rfl

/-- The least recently used of two namespaces goes. -/
theorem prune_older : PruneLaw true
    [⟨"a/new", 3, some 20, false⟩, ⟨"a/old", 2, some 10, false⟩] (some 4) :=
  (prune_law_iff (by decide)).mpr (.inr (by decide))

/-- Two namespaces whose sizes add up to `2 ^ 64`, and neither of which is in use. -/
def vastNamespaces : List NamespaceUsage :=
  [⟨"a/b", 0x8000000000000000#64, some 10, false⟩,
    ⟨"a/c", 0x8000000000000000#64, some 20, false⟩]

/-- One build panics over them, and the other one finds a total of zero and removes nothing. -/
theorem nothing_pruned : planPrune true vastNamespaces (some 1) = none ∧
    planPrune false vastNamespaces (some 1) = some [] ∧
      ¬ PruneLaw true vastNamespaces (some 1) ∧ ¬ PruneLaw false vastNamespaces (some 1) := by
  have hpanics : planPrune true vastNamespaces (some 1) = none := by decide
  have hkeeps : planPrune false vastNamespaces (some 1) = some [] := by
    have hsum : sumFrom false 0 vastNamespaces = some 0 := by decide
    unfold planPrune
    simp only [hsum]
    cases idle vastNamespaces with
    | nil => rfl
    | cons usage rest => rfl
  refine ⟨hpanics, hkeeps, fun hlaw ↦ ?_, fun hlaw ↦ ?_⟩
  · obtain ⟨plan, hplan, -⟩ := hlaw.plan
    rw [hpanics] at hplan
    cases hplan
  · obtain ⟨plan, hplan, hshortest⟩ := hlaw.plan
    rw [hkeeps] at hplan
    cases hplan
    obtain ⟨removed, kept, hperm, -, hnone, hends, -⟩ := hshortest.shortest
    obtain rfl : removed = [] := List.map_eq_nil_iff.mp hnone.symm
    rcases hends with hfits | rfl
    · exact absurd (hfits 1 rfl) (by decide)
    · exact absurd hperm.length_eq (by decide)

end NamespaceUsage

end RunnerManager.Platform
