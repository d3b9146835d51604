import RunnerManager.Domain.Model
import RunnerManager.Lib.Interleaving

/-!
# Shared readings of a repository's queue

`RestDemand::repository_reading` of `crates/github/src/demand.rs`. Every target loop of the host
reads through one gateway: a gate for each repository admits one fetch at a time, and a finished
fetch is handed to the loops that ask within the window. A fetch is many requests, and each is
two calls, so anything may happen between a request and its response. Readings carry when their
requests were sent, as a count of the wakes delivered for the repository by then.
-/

namespace RunnerManager.Github

open RunnerManager.Domain RunnerManager.Text

/-- Why a reading failed. -/
inductive InventoryError where
  | cancelled
  | rateLimited
  | github (detail : String)
deriving DecidableEq

/-- What finds a repository: GitHub compares names without regard to ASCII case. -/
abbrev RepositoryKey := List Char × List Char

def repositoryKey (repository : OwnerRepo) : RepositoryKey :=
  (foldAscii repository.owner.text.toList, foldAscii repository.repo.text.toList)

/-! ## Requests -/

/-- The two run listings of a fetch. -/
inductive RunStatus where
  | queued
  | inProgress
deriving DecidableEq

/-- `MAX_QUEUED_RUNS_PER_REPOSITORY_PER_POLL` and its in-progress counterpart. -/
def RunStatus.cap : RunStatus → Nat
  | queued => 6
  | inProgress => 4

def maxJobPagesPerRun : Nat := 3

/-- What one request asks for. -/
inductive Query where
  | runs (status : RunStatus)
  | jobs (run page : Nat)
deriving DecidableEq

/-- The labels a job asks for. -/
abbrev RunsOn := List String

/-- What a response carries: run ids or jobs with their status, whether a page follows, and
whether the listing is unchanged. -/
structure Page where
  runIds : List Nat
  jobs : List (String × RunsOn)
  hasNext : Bool
  notModified : Bool
deriving DecidableEq

/-- `RepositoryDemand`, with when its requests were sent. -/
structure RepositoryDemand where
  jobs : List RunsOn
  exact : Bool
  busy : Bool
  sentAt : List Nat
deriving DecidableEq

/-! ## Calls -/

/-- What a task of the daemon does to the gateway at once. A request says whether its sender
holds the gate. -/
inductive DemandCall where
  | window
  | lockGate (key : RepositoryKey)
  | unlockGate (key : RepositoryKey)
  | now
  | lookup (key : RepositoryKey)
  | send (key : RepositoryKey) (gated : Bool) (query : Query)
  | receive (query : Query)
  | insert (key : RepositoryKey) (fetchedAt : Timestamp) (reading : RepositoryDemand)
  | forget (key : RepositoryKey)
  | notify (route : Nat)
  | setWindow (milliseconds : Nat)
deriving DecidableEq

abbrev DemandCall.Answer : DemandCall → Type
  | window => Nat
  | lockGate _ => Except InventoryError Unit
  | unlockGate _ => Unit
  | now => Timestamp
  | lookup _ => Option (Timestamp × RepositoryDemand)
  | send .. => Except InventoryError Nat
  | receive _ => Except InventoryError Page
  | insert .. => Unit
  | forget _ => Unit
  | notify _ => Unit
  | setWindow _ => Unit

/-- A task over the gateway. -/
abbrev DemandProgram := Program DemandCall DemandCall.Answer InventoryError

/-- Make a call that cannot fail. -/
def call (c : DemandCall) : DemandProgram c.Answer :=
  .perform c

/-- `RestDemand::get`: when the request was sent, and its response. -/
def get (key : RepositoryKey) (gated : Bool) (query : Query) : DemandProgram (Nat × Page) := do
  let sent ← call (.send key gated query)
  let sentAt ← Program.ofExcept id sent
  let received ← call (.receive query)
  let page ← Program.ofExcept id received
  return (sentAt, page)

/-! ## A fetch -/

/-- What a fetch has assembled so far. -/
structure Fetch where
  jobs : List RunsOn
  exact : Bool
  changed : Bool
  resolved : List Nat
  sentAt : List Nat
deriving DecidableEq

/-- Before the first request. -/
def Fetch.start : Fetch := ⟨[], true, false, [], []⟩

section

variable (key : RepositoryKey) (gated : Bool)

/-- `queued_jobs_of_run`: the pages of one run's jobs, within the page budget. -/
def queuedJobsOfRun (run : Nat) : (left page : Nat) → Fetch → DemandProgram Fetch
  | 0, _, fetch => return { fetch with exact := false }
  | left + 1, page, fetch => do
    let (sentAt, response) ← get key gated (.jobs run page)
    let fetch := { fetch with
      jobs := fetch.jobs ++ (response.jobs.filter (·.1 == "queued")).map (·.2)
      changed := fetch.changed || !response.notModified
      sentAt := fetch.sentAt ++ [sentAt] }
    if response.hasNext then queuedJobsOfRun run left (page + 1) fetch
    else return fetch

/-- The runs of one listing; a run in both listings is resolved once. -/
def resolveRuns : List Nat → Fetch → DemandProgram Fetch
  | [], fetch => return fetch
  | run :: rest, fetch =>
    if fetch.resolved.contains run then resolveRuns rest fetch
    else do
      let fetch ← queuedJobsOfRun key gated run maxJobPagesPerRun 0
        { fetch with resolved := fetch.resolved ++ [run] }
      resolveRuns rest fetch

/-- `active_runs` and the jobs of the runs it lists. -/
def readRuns (status : RunStatus) (fetch : Fetch) : DemandProgram Fetch := do
  let (sentAt, response) ← get key gated (.runs status)
  resolveRuns key gated (response.runIds.take status.cap) { fetch with
    exact := fetch.exact && (response.runIds.length ≤ status.cap && !response.hasNext)
    changed := fetch.changed || !response.notModified
    sentAt := fetch.sentAt ++ [sentAt] }

def repositoryQueued : DemandProgram RepositoryDemand := do
  let fetch ← readRuns key gated .queued .start
  let fetch ← readRuns key gated .inProgress fetch
  return {
    jobs := fetch.jobs
    exact := fetch.exact
    busy := fetch.changed && !fetch.resolved.isEmpty
    sentAt := fetch.sentAt }

end

def milliseconds (n : Nat) : Int := n * 1000000

def holdMemory : Int := milliseconds (60 * 60 * 1000)

/-- A reading fetched at `fetchedAt` is younger than `limit`, and not from the future. -/
def youngerThan (limit : Int) (now fetchedAt : Timestamp) : Bool :=
  0 ≤ now - fetchedAt && now - fetchedAt < limit

/-- Under the gate, with no reading to share: fetch, store what was fetched, and give the gate
back however the fetch ended. -/
def fetchShared (key : RepositoryKey) (now : Timestamp) : DemandProgram RepositoryDemand := do
  let fetched ← (repositoryQueued key true).outcome
  match fetched with
  | .error e => do
    call (.unlockGate key)
    Program.fail e
  | .ok reading => do
    call (.insert key now reading)
    call (.unlockGate key)
    return reading

/-- Under the gate: the stored reading if it is within the window, else a fetch. -/
def sharedReading (key : RepositoryKey) (window : Nat) : DemandProgram RepositoryDemand := do
  let now ← call .now
  let stored ← call (.lookup key)
  match stored.filter fun entry ↦ youngerThan (milliseconds window) now entry.1 with
  | some (_, reading) => do
    call (.unlockGate key)
    return reading
  | none => fetchShared key now

def repositoryReading (repository : OwnerRepo) : DemandProgram RepositoryDemand := do
  let key := repositoryKey repository
  let window ← call .window
  if window = 0 then repositoryQueued key false
  else do
    let gate ← call (.lockGate key)
    Program.ofExcept id gate
    sharedReading key window

end RunnerManager.Github
