import Mathlib.Algebra.Order.BigOperators.Group.List
import Mathlib.Algebra.Order.Ring.Nat
import Mathlib.Data.List.Dedup
import Mathlib.Data.List.Flatten
import Mathlib.Data.List.Nodup
import Mathlib.Data.List.Perm.Subperm
import RunnerManager.Github.Demand

/-!
# What one reading asks and what it counts

One call of `RestDemand::repository_queued` of `crates/github/src/demand.rs`, against a GitHub
whose answers are arbitrary: `reply` gives the page that answers each request, so the two run
listings may overlap and a chain of job pages may be of any length or have no end. No request is
made twice, so this leaves out no order of answers; and a request may fail at any point. Read
`repositoryQueued_issues` first: the requests follow `plan`, and what is returned is what the
pages of the plan hold.
-/

namespace RunnerManager.Github

def maxDemandRequestsPerRepositoryPerPoll : Nat :=
  2 + RunStatus.queued.cap + RunStatus.inProgress.cap

/-- The labels of the jobs of a page that wait for a runner. -/
def Page.queuedJobs (page : Page) : List RunsOn :=
  (page.jobs.filter (·.1 == "queued")).map (·.2)

/-! ## The plan -/

/-- The runs of a list that are neither in another one nor earlier in it. -/
def firstSeen : (seen runs : List Nat) → List Nat
  | _, [] => []
  | seen, run :: rest =>
    if seen.contains run then firstSeen seen rest else run :: firstSeen (seen ++ [run]) rest

section

variable (reply : Query → Page)

/-- The requests for the jobs of a run from some page on, within a budget. -/
def jobQueries (run : Nat) : (left page : Nat) → List Query
  | 0, _ => []
  | left + 1, page =>
    .jobs run page ::
      if (reply (.jobs run page)).hasNext then jobQueries run left (page + 1) else []

/-- The budget is enough for the last page. -/
def reachesLast (run : Nat) : (left page : Nat) → Bool
  | 0, _ => false
  | left + 1, page => !(reply (.jobs run page)).hasNext || reachesLast run left (page + 1)

def jobsWithin (pages run : Nat) : List RunsOn :=
  (jobQueries reply run pages 0).flatMap fun query ↦ (reply query).queuedJobs

def listedRuns (status : RunStatus) : List Nat :=
  (reply (.runs status)).runIds.take status.cap

/-- A listing is complete: no run is past the cap and no page follows. -/
def listsAll (status : RunStatus) : Bool :=
  (reply (.runs status)).runIds.length ≤ status.cap && !(reply (.runs status)).hasNext

def queuedRuns : List Nat := firstSeen [] (listedRuns reply .queued)

def startedRuns : List Nat := firstSeen (queuedRuns reply) (listedRuns reply .inProgress)

def resolvedRuns : List Nat := queuedRuns reply ++ startedRuns reply

/-- The requests for the jobs of some runs. -/
def runQueries (runs : List Nat) : List Query :=
  runs.flatMap fun run ↦ jobQueries reply run maxJobPagesPerRun 0

/-- The requests of a reading that nothing interrupts. -/
def plan : List Query :=
  .runs .queued :: (runQueries reply (queuedRuns reply) ++
    .runs .inProgress :: runQueries reply (startedRuns reply))

/-- The pages of jobs of the resolved runs, within the page budget. -/
def jobPages : Nat :=
  ((resolvedRuns reply).map fun run ↦ (jobQueries reply run maxJobPagesPerRun 0).length).sum

end

/-! ## The answers -/

/-- GitHub as it answers one reading, with the requests issued so far. Where requests may fail,
one may be withheld before it is issued, or be issued and not answered. -/
def answering (failing : Prop) (reply : Query → Page) :
    Contract DemandCall DemandCall.Answer (List Query) where
  requires _ _ := True
  steps issued c answer next :=
    match c, answer with
    | .send _ _ query, .ok _ => next = issued ++ [query]
    | .send .., .error _ => failing ∧ next = issued
    | .receive query, .ok page => page = reply query ∧ next = issued
    | .receive _, .error _ => failing ∧ next = issued
    | _, _ => next = issued

/-- Only the next request of a plan is issued. -/
def Follows (requests : List Query) (issued : List Query) : DemandCall → Prop
  | .send _ _ query => issued ++ [query] <+: requests
  | _ => True

/-- GitHub, asked for nothing but the requests of a plan in their order. -/
abbrev planned (failing : Prop) (reply : Query → Page) (requests : List Query) :
    Contract DemandCall DemandCall.Answer (List Query) :=
  (answering failing reply).demanding (Follows requests)

/-- A part ends with what is expected after exactly some requests, or by a failure. -/
def EndsWith {α : Type} (failing : Prop) (issued : List Query) (expected : α → Prop) :
    Except InventoryError α → List Query → Prop
  | .ok value, next => next = issued ∧ expected value
  | .error _, _ => failing

/-- A part issues the requests from one point of a plan to another, and what it returns is as
expected. -/
def Issues {α : Type} (failing : Prop) (reply : Query → Page) (requests : List Query)
    (p : DemandProgram α) (before after : List Query) (expected : α → Prop) : Prop :=
  (planned failing reply requests).wp p (EndsWith failing after expected) before

/-- What resolving runs adds to a fetch. -/
structure Gathers (reply : Query → Page) (runs : List Nat) (before after : Fetch) : Prop where
  jobs : after.jobs = before.jobs ++ runs.flatMap (jobsWithin reply maxJobPagesPerRun)
  exact : after.exact =
    (before.exact && runs.all fun run ↦ reachesLast reply run maxJobPagesPerRun 0)
  resolved : after.resolved = before.resolved ++ runs

section

variable {failing : Prop} {reply : Query → Page} {requests issued : List Query}
  {key : RepositoryKey} {gated : Bool}

theorem Issues.bind {α β : Type} {p : DemandProgram α} {f : α → DemandProgram β}
    {middle last : List Query} {P : α → Prop} {R : β → Prop}
    (hp : Issues failing reply requests p issued middle P)
    (hf : ∀ value, P value → Issues failing reply requests (f value) middle last R) :
    Issues failing reply requests (p >>= f) issued last R := by
  refine Contract.wp_seq hp ?_ fun e next hfailed ↦ hfailed
  rintro value next ⟨rfl, hvalue⟩
  exact hf value hvalue

theorem Issues.return {α : Type} {P : α → Prop} {value : α} (h : P value) :
    Issues failing reply requests (pure value) issued issued P :=
  ⟨rfl, h⟩

theorem Issues.mono {α : Type} {p : DemandProgram α} {last : List Query} {P R : α → Prop}
    (h : Issues failing reply requests p issued last P) (hweaker : ∀ value, P value → R value) :
    Issues failing reply requests p issued last R := by
  refine Contract.wp_mono h fun result next hresult ↦ ?_
  cases result with
  | ok value => exact ⟨hresult.1, hweaker value hresult.2⟩
  | error e => exact hresult

theorem get_issues (query : Query) (h : issued ++ [query] <+: requests) :
    Issues failing reply requests (get key gated query) issued (issued ++ [query])
      fun answer ↦ answer.2 = reply query := by
  refine ⟨h, ?_⟩
  rintro (e | sentAt) next hsent
  · exact hsent.1
  · obtain rfl : next = issued ++ [query] := hsent
    refine ⟨trivial, ?_⟩
    rintro (e | page) next hreceived
    · exact hreceived.1
    · exact ⟨hreceived.2, hreceived.1⟩

theorem queuedJobsOfRun_issues (run left page : Nat) (fetch : Fetch)
    (h : issued ++ jobQueries reply run left page <+: requests) :
    Issues failing reply requests (queuedJobsOfRun key gated run left page fetch) issued
      (issued ++ jobQueries reply run left page) fun after ↦
        after.jobs = fetch.jobs ++
          (jobQueries reply run left page).flatMap (fun query ↦ (reply query).queuedJobs) ∧
        after.exact = (fetch.exact && reachesLast reply run left page) ∧
        after.resolved = fetch.resolved := by
  induction left generalizing page fetch issued with
  | zero =>
    rw [jobQueries, List.append_nil]
    exact Issues.return (by simp [reachesLast])
  | succ left ih =>
    have hsplit : issued ++ jobQueries reply run (left + 1) page =
        (issued ++ [.jobs run page]) ++
          if (reply (.jobs run page)).hasNext then jobQueries reply run left (page + 1)
          else [] := by
      rw [jobQueries, List.append_assoc, List.singleton_append]
    rw [hsplit] at h ⊢
    refine Issues.bind (get_issues (.jobs run page) ((List.prefix_append _ _).trans h)) ?_
    rintro ⟨sentAt, response⟩ rfl
    show Issues failing reply requests
      (if (reply (.jobs run page)).hasNext then _ else _) _ _ _
    split_ifs at h ⊢ with hnext
    · refine Issues.mono (ih (page + 1) _ h) ?_
      rintro after ⟨hjobs, hexact, hresolved⟩
      refine ⟨?_, ?_, hresolved⟩
      · rw [hjobs]
        simp [jobQueries, hnext, Page.queuedJobs]
      · rw [hexact]
        simp [reachesLast, hnext]
    · rw [List.append_nil]
      refine Issues.return ⟨?_, ?_, rfl⟩
      · simp [jobQueries, hnext, Page.queuedJobs]
      · simp [reachesLast, hnext]

theorem resolveRuns_issues (runs : List Nat) (fetch : Fetch)
    (h : issued ++ runQueries reply (firstSeen fetch.resolved runs) <+: requests) :
    Issues failing reply requests (resolveRuns key gated runs fetch) issued
      (issued ++ runQueries reply (firstSeen fetch.resolved runs))
      (Gathers reply (firstSeen fetch.resolved runs) fetch) := by
  induction runs generalizing fetch issued with
  | nil =>
    rw [firstSeen, runQueries, List.flatMap_nil, List.append_nil]
    exact Issues.return ⟨by simp, by simp, by simp⟩
  | cons run rest ih =>
    rw [resolveRuns]
    rw [firstSeen] at h ⊢
    split_ifs at h ⊢ with hseen
    · exact ih fetch h
    · have hsplit : issued ++ runQueries reply
            (run :: firstSeen (fetch.resolved ++ [run]) rest) =
          (issued ++ jobQueries reply run maxJobPagesPerRun 0) ++
            runQueries reply (firstSeen (fetch.resolved ++ [run]) rest) := by
        rw [runQueries, List.flatMap_cons, ← runQueries, List.append_assoc]
      rw [hsplit] at h ⊢
      have hfirst := (List.prefix_append _ _).trans h
      refine Issues.bind (queuedJobsOfRun_issues run maxJobPagesPerRun 0 _ hfirst) ?_
      rintro gathered ⟨hjobs, hexact, hresolved⟩
      have hseen' : gathered.resolved = fetch.resolved ++ [run] := hresolved
      rw [← hseen'] at h ⊢
      refine Issues.mono (ih gathered h) fun after hafter ↦ ⟨?_, ?_, ?_⟩
      · rw [hafter.jobs, hjobs, List.append_assoc]
        rfl
      · rw [hafter.exact, hexact, List.all_cons, Bool.and_assoc]
      · rw [hafter.resolved, hseen', List.append_assoc, List.singleton_append]

theorem readRuns_issues (status : RunStatus) {fetch : Fetch} {seen : List Nat}
    (hseen : fetch.resolved = seen)
    (h : issued ++ .runs status :: runQueries reply (firstSeen seen (listedRuns reply status)) <+:
      requests) :
    Issues failing reply requests (readRuns key gated status fetch) issued
      (issued ++ .runs status :: runQueries reply (firstSeen seen (listedRuns reply status)))
      (Gathers reply (firstSeen seen (listedRuns reply status))
        { fetch with exact := fetch.exact && listsAll reply status }) := by
  subst hseen
  rw [← List.singleton_append, ← List.append_assoc] at h ⊢
  refine Issues.bind (get_issues (.runs status) ((List.prefix_append _ _).trans h)) ?_
  rintro ⟨sentAt, response⟩ rfl
  exact Issues.mono (resolveRuns_issues (listedRuns reply status) _ h)
    fun after hafter ↦ ⟨hafter.jobs, hafter.exact, hafter.resolved⟩

/-- What a reading that nothing interrupts returns. -/
structure ReadsOut (reply : Query → Page) (reading : RepositoryDemand) : Prop where
  jobs : reading.jobs = (resolvedRuns reply).flatMap (jobsWithin reply maxJobPagesPerRun)
  exact : reading.exact = (listsAll reply .queued && listsAll reply .inProgress &&
    (resolvedRuns reply).all fun run ↦ reachesLast reply run maxJobPagesPerRun 0)

/-- A reading issues the requests of its plan in order. -/
theorem repositoryQueued_issues :
    Issues failing reply (plan reply) (repositoryQueued key gated) [] (plan reply)
      (ReadsOut reply) := by
  have hfront : [] ++ .runs .queued :: runQueries reply (queuedRuns reply) <+: plan reply :=
    List.prefix_append _ _
  refine Issues.bind (readRuns_issues .queued rfl hfront) ?_
  intro first hfirst
  have hseen : first.resolved = queuedRuns reply := hfirst.resolved
  have hwhole : plan reply <+: plan reply := List.prefix_rfl
  refine Issues.bind (readRuns_issues .inProgress hseen hwhole) ?_
  intro second hsecond
  refine Issues.return ⟨?_, ?_⟩
  · show second.jobs = _
    rw [hsecond.jobs, hfirst.jobs, resolvedRuns, List.flatMap_append]
    rfl
  · show second.exact = _
    rw [hsecond.exact, hfirst.exact, resolvedRuns, List.all_append]
    show ((true && listsAll reply .queued && _) && listsAll reply .inProgress && _) = _
    rw [Bool.true_and, Bool.and_right_comm (listsAll reply .queued), Bool.and_assoc]
    rfl

end

/-! ## The runs of a reading -/

theorem mem_firstSeen {run : Nat} {runs : List Nat} :
    ∀ {seen : List Nat}, run ∈ firstSeen seen runs ↔ run ∈ runs ∧ run ∉ seen := by
  induction runs with
  | nil => simp [firstSeen]
  | cons first rest ih =>
    intro seen
    rw [firstSeen]
    split_ifs with hseen
    · have hfirst : first ∈ seen := by simpa using hseen
      rw [ih, List.mem_cons]
      constructor
      · exact fun h ↦ ⟨.inr h.1, h.2⟩
      · rintro ⟨rfl | hrest, hnew⟩
        · exact absurd hfirst hnew
        · exact ⟨hrest, hnew⟩
    · have hfirst : first ∉ seen := by simpa using hseen
      rw [List.mem_cons, ih, List.mem_cons, List.mem_append, List.mem_singleton]
      by_cases heq : run = first
      · simp [heq, hfirst]
      · simp [heq]

theorem nodup_firstSeen {runs : List Nat} : ∀ {seen : List Nat}, (firstSeen seen runs).Nodup := by
  induction runs with
  | nil => simp [firstSeen]
  | cons first rest ih =>
    intro seen
    rw [firstSeen]
    split_ifs
    · exact ih
    · refine List.nodup_cons.mpr ⟨?_, ih⟩
      simp [mem_firstSeen]

section

variable (reply : Query → Page)

theorem mem_resolvedRuns {run : Nat} :
    run ∈ resolvedRuns reply ↔
      run ∈ listedRuns reply .queued ∨ run ∈ listedRuns reply .inProgress := by
  simp only [resolvedRuns, startedRuns, queuedRuns, List.mem_append, mem_firstSeen,
    List.not_mem_nil, not_false_eq_true, and_true]
  tauto

theorem nodup_resolvedRuns : (resolvedRuns reply).Nodup := by
  refine List.nodup_append.mpr ⟨nodup_firstSeen, nodup_firstSeen, ?_⟩
  rintro run hqueued other hstarted rfl
  exact (mem_firstSeen.mp hstarted).2 hqueued

/-! ## The pages of a run -/

theorem jobQueries_extends (run : Nat) {fewer more : Nat} (h : fewer ≤ more) (page : Nat) :
    jobQueries reply run fewer page <+: jobQueries reply run more page := by
  induction fewer generalizing more page with
  | zero => exact List.nil_prefix
  | succ fewer ih =>
    obtain ⟨more, rfl⟩ : ∃ n, more = n + 1 := ⟨more - 1, by omega⟩
    rw [jobQueries, jobQueries]
    refine List.cons_prefix_cons.mpr ⟨rfl, ?_⟩
    split_ifs
    · exact ih (by omega) (page + 1)
    · exact List.prefix_rfl

theorem jobQueries_of_reachesLast (run : Nat) {enough more : Nat} (h : enough ≤ more) (page : Nat)
    (hlast : reachesLast reply run enough page) :
    jobQueries reply run more page = jobQueries reply run enough page := by
  induction enough generalizing more page with
  | zero => simp [reachesLast] at hlast
  | succ enough ih =>
    obtain ⟨more, rfl⟩ : ∃ n, more = n + 1 := ⟨more - 1, by omega⟩
    rw [jobQueries, jobQueries]
    split_ifs with hnext
    · have hrest : reachesLast reply run enough (page + 1) := by
        simpa [reachesLast, hnext] using hlast
      rw [ih (by omega) (page + 1) hrest]
    · rfl

theorem reachesLast_eq_false (run left page : Nat) :
    reachesLast reply run left page = false ↔
      ∀ k < left, (reply (.jobs run (page + k))).hasNext = true := by
  induction left generalizing page with
  | zero => simp [reachesLast]
  | succ left ih =>
    rw [reachesLast, Bool.or_eq_false_iff, Bool.not_eq_false', ih]
    constructor
    · rintro ⟨hfirst, hrest⟩ k hk
      cases k with
      | zero => exact hfirst
      | succ k =>
        have hnext := hrest k (by omega)
        rwa [show page + (k + 1) = page + 1 + k by omega]
    · intro h
      refine ⟨h 0 (by omega), fun k hk ↦ ?_⟩
      have hnext := h (k + 1) (by omega)
      rwa [show page + 1 + k = page + (k + 1) by omega]

theorem mem_jobQueries {run left page : Nat} {query : Query}
    (h : query ∈ jobQueries reply run left page) : ∃ k, page ≤ k ∧ query = .jobs run k := by
  induction left generalizing page with
  | zero => simp [jobQueries] at h
  | succ left ih =>
    rw [jobQueries, List.mem_cons] at h
    rcases h with rfl | hrest
    · exact ⟨page, Nat.le_refl _, rfl⟩
    · split_ifs at hrest
      · obtain ⟨k, hk, hquery⟩ := ih hrest
        exact ⟨k, by omega, hquery⟩
      · cases hrest

theorem nodup_jobQueries (run left page : Nat) : (jobQueries reply run left page).Nodup := by
  induction left generalizing page with
  | zero => exact List.nodup_nil
  | succ left ih =>
    rw [jobQueries]
    refine List.nodup_cons.mpr ⟨?_, ?_⟩
    · intro hmem
      split_ifs at hmem
      · obtain ⟨k, hk, hquery⟩ := mem_jobQueries reply hmem
        obtain ⟨-, rfl⟩ := Query.jobs.inj hquery
        omega
      · cases hmem
    · split_ifs
      · exact ih (page + 1)
      · exact List.nodup_nil

theorem nodup_runQueries {runs : List Nat} (h : runs.Nodup) : (runQueries reply runs).Nodup := by
  refine List.nodup_flatMap.mpr ⟨fun run _ ↦ nodup_jobQueries reply run _ 0, ?_⟩
  refine h.imp fun {first second} hne query hfirst hsecond ↦ hne ?_
  obtain ⟨j, -, rfl⟩ := mem_jobQueries reply hfirst
  obtain ⟨k, -, hquery⟩ := mem_jobQueries reply hsecond
  exact (Query.jobs.inj hquery).1

theorem plan_perm :
    (plan reply).Perm
      (.runs .queued :: .runs .inProgress :: runQueries reply (resolvedRuns reply)) := by
  have hsplit : runQueries reply (resolvedRuns reply) =
      runQueries reply (queuedRuns reply) ++ runQueries reply (startedRuns reply) :=
    List.flatMap_append
  rw [hsplit]
  exact List.perm_middle.cons _

theorem length_plan : (plan reply).length = 2 + jobPages reply := by
  rw [(plan_perm reply).length_eq, List.length_cons, List.length_cons, runQueries,
    List.length_flatMap, jobPages]
  omega

theorem nodup_plan : (plan reply).Nodup := by
  have hlisting : ∀ status, .runs status ∉ runQueries reply (resolvedRuns reply) := by
    intro status hmem
    obtain ⟨run, -, hquery⟩ := List.mem_flatMap.mp hmem
    obtain ⟨k, -, hjobs⟩ := mem_jobQueries reply hquery
    cases hjobs
  rw [(plan_perm reply).nodup_iff, List.nodup_cons, List.nodup_cons, List.mem_cons]
  refine ⟨?_, hlisting .inProgress, nodup_runQueries reply (nodup_resolvedRuns reply)⟩
  rintro (hsame | hmem)
  · cases hsame
  · exact hlisting .queued hmem

end

/-! ## The requests of a reading -/

section

variable {failing : Prop} (reply : Query → Page) (key : RepositoryKey) (gated : Bool)

theorem answering_answers (issued : List Query) (c : DemandCall) :
    ∃ answer next, (answering failing reply).steps issued c answer next := by
  cases c with
  | send sender held query => exact ⟨.ok 0, _, rfl⟩
  | receive query => exact ⟨.ok (reply query), _, rfl, rfl⟩
  | window => exact ⟨0, _, rfl⟩
  | lockGate => exact ⟨.ok (), _, rfl⟩
  | unlockGate => exact ⟨(), _, rfl⟩
  | now => exact ⟨0, _, rfl⟩
  | lookup => exact ⟨none, _, rfl⟩
  | insert => exact ⟨(), _, rfl⟩
  | forget => exact ⟨(), _, rfl⟩
  | notify => exact ⟨(), _, rfl⟩
  | setWindow => exact ⟨(), _, rfl⟩

theorem answering_may_fail {issued next : List Query} {c : DemandCall} {answer : c.Answer}
    (h : (answering False reply).steps issued c answer next) :
    (answering True reply).steps issued c answer next := by
  cases c with
  | send =>
    cases answer with
    | ok sentAt => exact h
    | error e => exact h.1.elim
  | receive =>
    cases answer with
    | ok page => exact h
    | error e => exact h.1.elim
  | window => exact h
  | lockGate => exact h
  | unlockGate => exact h
  | now => exact h
  | lookup => exact h
  | insert => exact h
  | forget => exact h
  | notify => exact h
  | setWindow => exact h

theorem follows_keeps {requests issued next : List Query} {c : DemandCall} {answer : c.Answer}
    (h : issued <+: requests) (hfollows : Follows requests issued c)
    (hstep : (answering failing reply).steps issued c answer next) : next <+: requests := by
  cases c with
  | send =>
    cases answer with
    | ok sentAt => exact hstep ▸ hfollows
    | error e => exact hstep.2 ▸ h
  | receive =>
    cases answer with
    | ok page => exact hstep.2 ▸ h
    | error e => exact hstep.2 ▸ h
  | window => exact hstep ▸ h
  | lockGate => exact hstep ▸ h
  | unlockGate => exact hstep ▸ h
  | now => exact hstep ▸ h
  | lookup => exact hstep ▸ h
  | insert => exact hstep ▸ h
  | forget => exact hstep ▸ h
  | notify => exact hstep ▸ h
  | setWindow => exact hstep ▸ h

variable {reply key gated} {p : DemandProgram RepositoryDemand} {issued : List Query}

theorem planned_runs_iff {requests next : List Query}
    {first rest : DemandProgram RepositoryDemand} :
    (planned failing reply requests).Runs first issued rest next ↔
      (answering failing reply).Runs first issued rest next := by
  constructor
  · intro h
    refine h.of_steps ?_
    exact fun _ _ _ _ hstep ↦ hstep
  · intro h
    refine h.of_steps ?_
    exact fun _ _ _ _ hstep ↦ hstep

theorem rest_issues
    (h : (answering failing reply).Runs (repositoryQueued key gated) [] p issued) :
    Issues failing reply (plan reply) p issued (plan reply) (ReadsOut reply) :=
  Contract.wp_runs repositoryQueued_issues (planned_runs_iff.mpr h)

theorem issued_along
    (h : (answering failing reply).Runs (repositoryQueued key gated) [] p issued) :
    issued <+: plan reply := by
  have hissues : Issues failing reply (plan reply) (repositoryQueued key gated) [] (plan reply)
      (ReadsOut reply) := repositoryQueued_issues
  refine Contract.invariant_of_runs (I := (· <+: plan reply)) ?_ hissues List.nil_prefix
    (planned_runs_iff.mpr h)
  exact fun _ _ _ _ hfront hfollows hstep ↦ follows_keeps reply hfront hfollows hstep

theorem Issues.ends {after : List Query} {P : RepositoryDemand → Prop}
    (h : Issues failing reply (plan reply) p issued after P) :
    ∃ result last, (answering failing reply).Runs p issued (.done result) last ∧
      EndsWith failing after P result last := by
  have hanswers : ∀ s c, (planned failing reply (plan reply)).requires s c →
      ∃ a t, (planned failing reply (plan reply)).steps s c a t :=
    fun issued c _ ↦ answering_answers reply issued c
  obtain ⟨result, last, hruns⟩ := Contract.ends_of_wp hanswers h
  exact ⟨result, last, planned_runs_iff.mp hruns, Contract.wp_runs h hruns⟩

theorem plan_issued (reply : Query → Page) (key : RepositoryKey) (gated : Bool) :
    ∃ reading, ReadsOut reply reading ∧
      (answering True reply).Runs (repositoryQueued key gated) [] (.done (.ok reading))
        (plan reply) := by
  have hissues : Issues False reply (plan reply) (repositoryQueued key gated) [] (plan reply)
      (ReadsOut reply) := repositoryQueued_issues
  obtain ⟨result, last, hruns, hend⟩ := hissues.ends
  have hmay := hruns.of_steps fun _ _ _ _ hstep ↦ answering_may_fail reply hstep
  cases result with
  | error e => exact hend.elim
  | ok reading =>
    obtain ⟨rfl, hreading⟩ := hend
    exact ⟨reading, hreading, hmay⟩

theorem length_jobQueries_le (run left page : Nat) :
    (jobQueries reply run left page).length ≤ left := by
  induction left generalizing page with
  | zero => exact Nat.le_refl 0
  | succ left ih =>
    rw [jobQueries, List.length_cons]
    split_ifs
    · have hrest := ih (page + 1)
      omega
    · exact Nat.le_add_left 1 left

theorem length_firstSeen_le {runs : List Nat} :
    ∀ {seen : List Nat}, (firstSeen seen runs).length ≤ runs.length := by
  induction runs with
  | nil => simp [firstSeen]
  | cons first rest ih =>
    intro seen
    rw [firstSeen]
    split_ifs
    · exact Nat.le_succ_of_le ih
    · exact Nat.succ_le_succ ih

theorem jobPages_le (reply : Query → Page) :
    jobPages reply ≤ maxJobPagesPerRun * (RunStatus.queued.cap + RunStatus.inProgress.cap) := by
  have hlisted (status : RunStatus) : (listedRuns reply status).length ≤ status.cap := by
    rw [listedRuns, List.length_take]
    exact Nat.min_le_left _ _
  have hruns : (resolvedRuns reply).length ≤ RunStatus.queued.cap + RunStatus.inProgress.cap := by
    rw [resolvedRuns, List.length_append]
    exact Nat.add_le_add (length_firstSeen_le.trans (hlisted .queued))
      (length_firstSeen_le.trans (hlisted .inProgress))
  calc jobPages reply
      ≤ ((resolvedRuns reply).map fun _ ↦ maxJobPagesPerRun).sum :=
        List.sum_le_sum fun run _ ↦ length_jobQueries_le run _ 0
    _ = maxJobPagesPerRun * (resolvedRuns reply).length := by
        rw [List.map_const', List.sum_replicate_nat, Nat.mul_comm]
    _ ≤ _ := Nat.mul_le_mul_left _ hruns

end

/-! ## The bound on requests -/

/-- A reading of a repository always ends, within three pages for each run of the caps. It keeps
to the documented ceiling exactly if the resolved runs have no more pages of jobs, together, than
the caps admit runs. -/
theorem demand_requests_bounded_iff (reply : Query → Page) (key : RepositoryKey) (gated : Bool) :
    (∀ p issued, (answering True reply).Runs (repositoryQueued key gated) [] p issued →
      issued.length ≤
          2 + maxJobPagesPerRun * (RunStatus.queued.cap + RunStatus.inProgress.cap) ∧
        ∃ result last, (answering True reply).Runs p issued (.done result) last) ∧
    ((∀ p issued, (answering True reply).Runs (repositoryQueued key gated) [] p issued →
      issued.length ≤ maxDemandRequestsPerRepositoryPerPoll) ↔
        jobPages reply ≤ RunStatus.queued.cap + RunStatus.inProgress.cap) := by
  refine ⟨?_, ?_, ?_⟩
  · intro p issued hruns
    obtain ⟨result, last, hend, -⟩ := (rest_issues hruns).ends
    have hlength := (issued_along hruns).length_le
    have hpages := jobPages_le reply
    rw [length_plan] at hlength
    exact ⟨by omega, result, last, hend⟩
  · intro hbounded
    obtain ⟨reading, -, hruns⟩ := plan_issued reply key gated
    have hlength := hbounded _ _ hruns
    rw [length_plan, maxDemandRequestsPerRepositoryPerPoll] at hlength
    omega
  · intro hpages p issued hruns
    have hlength := (issued_along hruns).length_le
    rw [length_plan] at hlength
    rw [maxDemandRequestsPerRepositoryPerPoll]
    omega

/-- Six queued runs, each with two pages of jobs. -/
def pagedReply : Query → Page
  | .runs .queued => ⟨[1, 2, 3, 4, 5, 6], [], false, false⟩
  | .runs .inProgress => ⟨[], [], false, false⟩
  | .jobs _ page => ⟨[], [("queued", ["linux"])], page = 0, false⟩

/-- Six runs of more than a hundred jobs cost fourteen requests, two over the ceiling. -/
theorem paged_runs_over_ceiling :
    ¬ ∀ (reply : Query → Page) (key : RepositoryKey) (gated : Bool) (p issued),
      (answering True reply).Runs (repositoryQueued key gated) [] p issued →
        issued.length ≤ maxDemandRequestsPerRepositoryPerPoll := by
  intro h
  obtain ⟨reading, -, hruns⟩ := plan_issued pagedReply ([], []) false
  have hlength := h pagedReply ([], []) false _ _ hruns
  exact absurd hlength (by decide)

/-! ## The jobs of a reading -/

theorem RunStatus.exists_iff {P : RunStatus → Prop} :
    (∃ status, P status) ↔ P .queued ∨ P .inProgress := by
  constructor
  · rintro ⟨status, h⟩
    cases status with
    | queued => exact .inl h
    | inProgress => exact .inr h
  · exact fun h ↦ h.elim (⟨_, ·⟩) (⟨_, ·⟩)

section

variable (reply : Query → Page)

/-- Every run either listing names. -/
def namedRuns : List Nat :=
  ((reply (.runs .queued)).runIds ++ (reply (.runs .inProgress)).runIds).dedup

/-- The queued jobs of every run either listing names, on any number of pages of each. -/
def allJobs (pages : Nat) : List RunsOn :=
  (namedRuns reply).flatMap (jobsWithin reply pages)

/-- A run is past the cap of its listing, a page of runs follows, or a resolved run has a page of
jobs after the last that is read. -/
def Truncated : Prop :=
  (∃ status : RunStatus, status.cap < (reply (.runs status)).runIds.length) ∨
    (∃ status, (reply (.runs status)).hasNext = true) ∨
      ∃ run ∈ resolvedRuns reply, ∀ page < maxJobPagesPerRun,
        (reply (.jobs run page)).hasNext = true

theorem mem_namedRuns {run : Nat} :
    run ∈ namedRuns reply ↔ ∃ status, run ∈ (reply (.runs status)).runIds := by
  rw [namedRuns, List.mem_dedup, List.mem_append, RunStatus.exists_iff]

theorem resolvedRuns_subset : resolvedRuns reply ⊆ namedRuns reply := by
  intro run hrun
  rw [mem_namedRuns, RunStatus.exists_iff]
  exact ((mem_resolvedRuns reply).mp hrun).imp List.mem_of_mem_take List.mem_of_mem_take

theorem jobsWithin_sublist {fewer more : Nat} (h : fewer ≤ more) (run : Nat) :
    (jobsWithin reply fewer run).Sublist (jobsWithin reply more run) :=
  (jobQueries_extends reply run h 0).sublist.flatMap _

theorem jobs_subperm {pages : Nat} (h : maxJobPagesPerRun ≤ pages) :
    ((resolvedRuns reply).flatMap (jobsWithin reply maxJobPagesPerRun)).Subperm
      (allJobs reply pages) := by
  obtain ⟨runs, hperm, hsub⟩ := (nodup_resolvedRuns reply).subperm (resolvedRuns_subset reply)
  refine ⟨runs.flatMap (jobsWithin reply maxJobPagesPerRun), hperm.flatMap_right _, ?_⟩
  exact (List.Sublist.flatMap_right runs fun run _ ↦ jobsWithin_sublist reply h run).trans
    (hsub.flatMap _)

theorem exact_iff {reading : RepositoryDemand} (h : ReadsOut reply reading) :
    reading.exact = true ↔ ¬ Truncated reply := by
  have hlists (status : RunStatus) : listsAll reply status = true ↔
      ¬ status.cap < (reply (.runs status)).runIds.length ∧
        ¬ (reply (.runs status)).hasNext = true := by
    rw [listsAll, Bool.and_eq_true, decide_eq_true_eq, Bool.not_eq_true', Nat.not_lt,
      Bool.not_eq_true]
  have hreaches : (resolvedRuns reply).all (reachesLast reply · maxJobPagesPerRun 0) = true ↔
      ¬ ∃ run ∈ resolvedRuns reply, ∀ page < maxJobPagesPerRun,
        (reply (.jobs run page)).hasNext = true := by
    have hcut (run : Nat) := reachesLast_eq_false reply run maxJobPagesPerRun 0
    simp only [Nat.zero_add] at hcut
    rw [List.all_eq_true, not_exists]
    refine forall_congr' fun run ↦ ?_
    rw [← hcut run, not_and, Bool.not_eq_false]
  rw [h.exact, Bool.and_eq_true, Bool.and_eq_true, hlists, hlists, hreaches, Truncated,
    RunStatus.exists_iff, RunStatus.exists_iff, and_and_and_comm, and_assoc]
  simp only [not_or]

theorem jobs_perm {pages : Nat} (h : maxJobPagesPerRun ≤ pages) (hwhole : ¬ Truncated reply) :
    ((resolvedRuns reply).flatMap (jobsWithin reply maxJobPagesPerRun)).Perm
      (allJobs reply pages) := by
  have hlisted (status : RunStatus) : listedRuns reply status = (reply (.runs status)).runIds :=
    List.take_of_length_le (Nat.le_of_not_lt fun hlong ↦ hwhole (.inl ⟨status, hlong⟩))
  have hruns : (resolvedRuns reply).Perm (namedRuns reply) := by
    refine (List.perm_ext_iff_of_nodup (nodup_resolvedRuns reply) (List.nodup_dedup _)).mpr ?_
    intro run
    rw [mem_resolvedRuns, ← namedRuns, mem_namedRuns, RunStatus.exists_iff, hlisted, hlisted]
  have hpages : ∀ run ∈ resolvedRuns reply,
      jobsWithin reply maxJobPagesPerRun run = jobsWithin reply pages run := by
    intro run hrun
    have hlast : reachesLast reply run maxJobPagesPerRun 0 = true := by
      by_contra hcut
      have hnext := (reachesLast_eq_false reply run maxJobPagesPerRun 0).mp (by simpa using hcut)
      simp only [Nat.zero_add] at hnext
      exact hwhole (.inr (.inr ⟨run, hrun, hnext⟩))
    rw [jobsWithin, jobsWithin, jobQueries_of_reachesLast reply run h 0 hlast]
  rw [List.flatMap_congr hpages]
  exact hruns.flatMap_right _

end

/-- What a finished reading counted: it resolved every run the listings name within their caps,
once, and no request was made twice. If it says it is exact the jobs are those of every named
run, however deep its pages are followed; if anything was cut off it says that it is not, and the
jobs are some of those. -/
theorem demand_reading_exact {reply : Query → Page} {key : RepositoryKey} {gated : Bool}
    {reading : RepositoryDemand} {issued : List Query}
    (h : (answering True reply).Runs (repositoryQueued key gated) [] (.done (.ok reading))
      issued) :
    issued.Nodup ∧
    (∃ resolved : List Nat, resolved.Nodup ∧
      (∀ run, run ∈ resolved ↔
        run ∈ listedRuns reply .queued ∨ run ∈ listedRuns reply .inProgress) ∧
      reading.jobs = resolved.flatMap (jobsWithin reply maxJobPagesPerRun)) ∧
    ∀ pages, maxJobPagesPerRun ≤ pages →
      (reading.exact = true → reading.jobs.Perm (allJobs reply pages)) ∧
      (Truncated reply → reading.exact = false ∧ reading.jobs.Subperm (allJobs reply pages)) := by
  obtain ⟨rfl, hreading⟩ := rest_issues h
  refine ⟨nodup_plan reply, ⟨resolvedRuns reply, nodup_resolvedRuns reply,
    fun run ↦ mem_resolvedRuns reply, hreading.jobs⟩, ?_⟩
  intro pages hpages
  rw [hreading.jobs]
  refine ⟨fun hexact ↦ jobs_perm reply hpages ((exact_iff reply hreading).mp hexact), ?_⟩
  intro hcut
  have hfloor : ¬ reading.exact = true := fun hexact ↦ (exact_iff reply hreading).mp hexact hcut
  exact ⟨by simpa using hfloor, jobs_subperm reply hpages⟩

/-- A run that starts between the two listings, and is in both. -/
def startedBetween : Query → Page
  | .runs _ => ⟨[7], [], false, false⟩
  | .jobs _ _ => ⟨[], [("queued", ["linux"]), ("in_progress", ["linux"])], false, false⟩

theorem started_run_counted_once : ∃ reading issued, reading.jobs = [["linux"]] ∧
    (answering True startedBetween).Runs (repositoryQueued ([], []) false) []
      (.done (.ok reading)) issued ∧
    issued.Nodup ∧
    ∀ pages, maxJobPagesPerRun ≤ pages → reading.jobs.Perm (allJobs startedBetween pages) := by
  obtain ⟨reading, hreading, hruns⟩ := plan_issued startedBetween ([], []) false
  obtain ⟨hnodup, -, hcounted⟩ := demand_reading_exact hruns
  have hjobs : reading.jobs = [["linux"]] := hreading.jobs.trans (by decide)
  have hexact : reading.exact = true := hreading.exact.trans (by decide)
  exact ⟨reading, _, hjobs, hruns, hnodup, fun pages hpages ↦ (hcounted pages hpages).1 hexact⟩

end RunnerManager.Github
