import RunnerManager.Github.Client

/-!
# Pages

The loops that follow a `Link` header: `parse_link_next` and the two loops over installations of
`crates/github/src/lib.rs`, `collect_pages` and `repository_in_progress` of `rest.rs`, and
`queued_jobs_of_run` of `demand.rs` over `conditional.rs`. Every request goes through
`Client.send`; the decoders of the bodies are a parameter.
-/

namespace RunnerManager.Github

open RunnerManager.Text RunnerManager.Domain

/-! ## The `Link` header -/

/-- The parameters of a link-value, and the rest from the comma that begins the next one. -/
def cutParams : List Char → List Char × List Char
  | [] => ([], [])
  | c :: rest =>
    if c = ',' && (rest.dropWhile isWhitespace).head? = some '<' then ([], c :: rest)
    else (c :: (cutParams rest).1, (cutParams rest).2)

/-- Whether a link-value is the next page. -/
def isNext (params : List Char) : Bool :=
  (params.splitOn ';').any fun param ↦
    foldAscii ((trim param).filter fun c ↦ !(c.toNat == 34 || c.toNat == 39)) = "rel=next".toList

theorem cutParams_length (tail : List Char) : (cutParams tail).2.length ≤ tail.length := by
  induction tail with
  | nil => exact Nat.le_refl 0
  | cons c rest ih =>
    unfold cutParams
    split
    · exact Nat.le_refl _
    · exact Nat.le_succ_of_le ih

def parseLinkNext (urls : UrlLibrary) (link : List Char) : Option Url :=
  match _hopen : link.dropWhile (· ≠ '<') with
  | [] => none
  | _ :: afterOpen =>
    match _hclose : afterOpen.dropWhile (· ≠ '>') with
    | [] => none
    | _ :: tail =>
      if isNext (cutParams tail).1 then
        urls.parse (String.ofList (trim (afterOpen.takeWhile (· ≠ '>'))))
      else parseLinkNext urls ((cutParams tail).2.drop 1)
termination_by link.length
decreasing_by
  have hlink := (List.dropWhile_suffix (l := link) (· ≠ '<')).length_le
  have hafter := (List.dropWhile_suffix (l := afterOpen) (· ≠ '>')).length_le
  rw [_hopen, List.length_cons] at hlink
  rw [_hclose, List.length_cons] at hafter
  have hcut := cutParams_length tail
  rw [List.length_drop]
  omega

/-- One turn of the loop, at the first link-value. -/
theorem parseLinkNext_open {urls : UrlLibrary} {link target tail : List Char}
    (hopen : link.dropWhile (· ≠ '<') = '<' :: (target ++ '>' :: tail))
    (htarget : ∀ c ∈ target, c ≠ '>') : parseLinkNext urls link =
      if isNext (cutParams tail).1 then urls.parse (String.ofList (trim target))
      else parseLinkNext urls ((cutParams tail).2.drop 1) := by
  have hclosed : ∀ c ∈ target, decide (c ≠ '>') = true := fun c hc ↦ by simpa using htarget c hc
  have hclose : (target ++ '>' :: tail).dropWhile (· ≠ '>') = '>' :: tail := by
    rw [List.dropWhile_append_of_pos hclosed]
    simp
  have htaken : (target ++ '>' :: tail).takeWhile (· ≠ '>') = target := by
    rw [List.takeWhile_append_of_pos hclosed]
    simp
  rw [parseLinkNext]
  split
  · next h => rw [hopen] at h; cases h
  · next _ _ h =>
    rw [hopen] at h
    cases h
    split
    · next h => rw [hclose] at h; cases h
    · next h =>
      rw [hclose] at h
      cases h
      rw [htaken]

def ApiResponse.nextPage (urls : UrlLibrary) (response : ApiResponse) : Option Url :=
  (response.header "link").bind fun link ↦ parseLinkNext urls link.toList

/-! ## Requests of the loops -/

/-- Why a listing was not read. -/
inductive ListingError where
  | cancelled
  | rateLimited
  | github (error : GithubError)
deriving DecidableEq

/-- One call of a listing: a call of the client, whether a request is to be suppressed, or a look
into the cache of conditional responses. -/
inductive PageCall where
  | client (c : ClientCall)
  | suppressed
  | validators (key : ApiRequest)
  | cachedFor (key : ApiRequest)
  | keep (key : ApiRequest) (response : ApiResponse)

abbrev PageCall.Answer : PageCall → Type
  | client c => c.Answer
  | suppressed => Option ListingError
  | validators _ => Bool
  | cachedFor _ => Option ApiResponse
  | keep .. => Unit

abbrev PageProgram := Program PageCall PageCall.Answer ListingError

/-- The decoders of the bodies. -/
structure Decoders (β : Type) where
  runners : List UInt8 → Option (List β × Option Nat)
  installations : List UInt8 → Option (List β × Option Nat)
  repositories : List UInt8 → Option (List String × Option Nat)
  runs : List UInt8 → Option (Nat × Option Nat)
  jobs : List UInt8 → Option (List (String × List String))

namespace Paging

variable (client : Client) {α β : Type}

def ask (c : PageCall) : PageProgram c.Answer :=
  .perform c

/-- `AuthenticatedClient::send`, as a listing uses it. -/
def send (request : ApiRequest) : PageProgram ApiResponse := do
  let sent : Program PageCall PageCall.Answer GithubError ApiResponse :=
    (client.send request).mapCalls .client fun _ answer ↦ answer
  match ← sent.outcome with
  | .ok response => return response
  | .error error => .fail (.github error)

def issue (request : ApiRequest) : PageProgram ApiResponse := do
  match ← ask .suppressed with
  | some error => .fail error
  | none => send client request

/-- `ConditionalCache::send`: the response, and whether it is the cached one. -/
def sendConditional (request : ApiRequest) : PageProgram (ApiResponse × Bool) := do
  let known ← ask (.validators request)
  let response ← send client { request with conditional := known }
  if response.status = 304 then
    match ← ask (.cachedFor request) with
    | some cached => return (cached, true)
    | none =>
      let response ← send client request
      ask (.keep request response)
      return (response, false)
  else
    ask (.keep request response)
    return (response, false)

def get (request : ApiRequest) : PageProgram (ApiResponse × Bool) := do
  match ← ask .suppressed with
  | some error => .fail error
  | none => sendConditional client request

def json (decode : List UInt8 → Option α) (response : ApiResponse) : PageProgram α :=
  match decode response.body with
  | some page => return page
  | none => .fail (.github (.decode "response"))

def nextRequest (response : ApiResponse) : Option ApiRequest :=
  (response.nextPage client.urls).map fun url ↦ .get url.text

/-! ## The loops -/

/-- What a loop has collected. -/
structure Collected (β : Type) where
  items : List β
  reportedTotal : Option Nat
  pages : Nat
  truncated : Bool
deriving DecidableEq

/-- The loops that stop after the last page of their budget; `left` pages may still be read. -/
def collectFrom (fetch : ApiRequest → PageProgram ApiResponse)
    (read : ApiResponse → PageProgram (List β × Option Nat)) :
    (left : Nat) → ApiRequest → Collected β → PageProgram (Collected β)
  | 0, _, collected => return { collected with truncated := true }
  | left + 1, request, collected => do
    let response ← fetch request
    let (items, total) ← read response
    let collected := { collected with
      items := collected.items ++ items
      reportedTotal := total.orElse fun _ ↦ collected.reportedTotal
      pages := collected.pages + 1 }
    if left = 0 then return { collected with truncated := true }
    else
      match nextRequest client response with
      | some request => collectFrom fetch read left request collected
      | none => return collected

def maxPages : Nat := 100

def Collected.empty : Collected β := ⟨[], none, 0, false⟩

def collectPages (decode : List UInt8 → Option (List β × Option Nat)) (first : ApiRequest) :
    PageProgram (Collected β) :=
  collectFrom client (issue client) (json decode) maxPages first .empty

def allInstallations (decoders : Decoders β) : PageProgram (Collected β) :=
  collectFrom client (send client) (json decoders.installations) maxPages
    ⟨"GET", "/user/installations", [("per_page", "100")], false⟩ .empty

/-- Names that are those of repositories, up to the first that is not. -/
def parseNames : List String → Except GithubError (List OwnerRepo)
  | [] => .ok []
  | name :: rest =>
    match OwnerRepo.parse name with
    | .ok repository => (parseNames rest).map (repository :: ·)
    | .error _ => .error (.malformed "a repository full_name" name)

def readRepositories (decoders : Decoders β) (response : ApiResponse) :
    PageProgram (List OwnerRepo × Option Nat) := do
  let (names, total) ← json decoders.repositories response
  let repositories ← .ofExcept .github (parseNames names)
  return (repositories, total)

def installationRepositories (decoders : Decoders β) (id : Nat) :
    PageProgram (Collected OwnerRepo) :=
  collectFrom client (send client) (readRepositories decoders) maxPages
    ⟨"GET", "/user/installations/" ++ toString id ++ "/repositories", [("per_page", "100")], false⟩
    .empty

/-- `RepositoryActivity`. -/
structure Activity where
  count : Nat
  exact : Bool
deriving DecidableEq

def maxActivityFallbackPages : Nat := 4

/-- The pages that are counted where no total was reported. -/
def countFrom (decoders : Decoders β) : (left : Nat) → Option ApiRequest → Nat →
    PageProgram Activity
  | _, none, counted => return ⟨min counted (2 ^ 32 - 1), true⟩
  | 0, some _, counted => return ⟨min counted (2 ^ 32 - 1), false⟩
  | left + 1, some request, counted => do
    let response ← issue client request
    let (listed, _) ← json decoders.runs response
    countFrom decoders left (nextRequest client response) (counted + listed)

def runsPath (repository : OwnerRepo) : String :=
  "/repos/" ++ repository.owner.text ++ "/" ++ repository.repo.text ++ "/actions/runs"

/-- `RestInventory::repository_in_progress`; a total wider than 32 bits is a floor. -/
def repositoryInProgress (decoders : Decoders β) (repository : OwnerRepo) :
    PageProgram Activity := do
  let response ← issue client
    ⟨"GET", runsPath repository, [("status", "in_progress"), ("per_page", "100")], false⟩
  match ← json decoders.runs response with
  | (_, some total) => return ⟨min total (2 ^ 32 - 1), decide (total < 2 ^ 32)⟩
  | (listed, none) =>
    countFrom client decoders (maxActivityFallbackPages - 1) (nextRequest client response) listed

structure RunJobs where
  jobs : List (List String)
  complete : Bool
  changed : Bool
deriving DecidableEq

def maxJobPagesPerRun : Nat := 3

/-- The pages of a run's jobs; `left` of them may still be read. -/
def jobsFrom (decoders : Decoders β) : (left : Nat) → Option ApiRequest → RunJobs →
    PageProgram RunJobs
  | _, none, found => return found
  | 0, some _, found => return { found with complete := false }
  | left + 1, some request, found => do
    let (response, notModified) ← get client request
    let page ← json decoders.jobs response
    jobsFrom decoders left (nextRequest client response) { found with
      jobs := found.jobs ++ (page.filter (·.1 = "queued")).map (·.2)
      changed := found.changed || !notModified }

def queuedJobsOfRun (decoders : Decoders β) (repository : OwnerRepo) (run : Nat) :
    PageProgram RunJobs :=
  jobsFrom client decoders maxJobPagesPerRun
    (some ⟨"GET", runsPath repository ++ "/" ++ toString run ++ "/jobs",
      [("filter", "latest"), ("per_page", "100")], false⟩)
    ⟨[], true, false⟩

/-- `ScaleTarget::Repository` and `ScaleTarget::Organization` have runners of their own. -/
def runnersPath : ScaleTarget → String
  | .repository repository =>
    "/repos/" ++ repository.owner.text ++ "/" ++ repository.repo.text ++ "/actions/runners"
  | .organization org => "/orgs/" ++ org.text ++ "/actions/runners"

/-- `RestInventory::list_runners`, as far as its pages. -/
def listRunners (decoders : Decoders β) (target : ScaleTarget) : PageProgram (Collected β) :=
  collectPages client decoders.runners
    ⟨"GET", runnersPath target, [("per_page", "100")], false⟩

end Paging

end RunnerManager.Github
