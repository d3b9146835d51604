import RunnerManager.Github.Paging

/-!
# The bearer token stays at home

A request whose path is one of the client's own goes to the origin of `api_base`. A page request
goes where a `Link` header says. Read `LinksHome` first: it is what the responses have to say for
every request to go to that origin (`bearer_confined`), and `bearer_leaves` is a run where one does
not.
-/

namespace RunnerManager.Github

open RunnerManager.Text RunnerManager.Domain
open Contract (wp_bind wp_mapCalls wp_mono wp_outcome wp_outcome_seq wp_recorded wp_seq)

/-- The same scheme, host and port. -/
def SameOrigin (a b : Url) : Prop :=
  a.scheme = b.scheme ∧ a.host = b.host ∧ a.port = b.port

/-- A path, less the slashes that begin it, that begins with a segment of letters. -/
def isPlain (path : List Char) : Bool :=
  let segment := (path.dropWhile (· = '/')).takeWhile (· ≠ '/')
  !segment.isEmpty && segment.all fun c ↦ 'a' ≤ c && c ≤ 'z'

/-- What the client relies on of the `url` crate: the text of a URL reads back, begins with its
scheme, and a relative reference keeps the origin. -/
structure UrlLibrary.Lawful (urls : UrlLibrary) (base : Url) : Prop where
  web : base.scheme = "http" ∨ base.scheme = "https"
  reparse : ∀ text url, urls.parse text = some url → urls.parse url.text = some url
  begins : ∀ text url, urls.parse text = some url → url.scheme = "http" ∨ url.scheme = "https" →
    (url.scheme ++ "://").toList.isPrefixOf url.text.toList = true
  join : ∀ path url, isPlain path = true → path.head? ≠ some '/' →
    urls.join base (String.ofList path) = some url → SameOrigin url base

/-- A response that leads on leads to the origin of the client. -/
def LinksHome (client : Client) (response : ApiResponse) : Prop :=
  ∀ url, response.nextPage client.urls = some url → SameOrigin url client.apiBase

/-- A request that goes to the origin of the client, if it goes anywhere. -/
def Confined (client : Client) (request : ApiRequest) : Prop :=
  ∀ url, client.resolve request.path = .ok url → SameOrigin url client.apiBase

/-- What is put on the wire goes to the origin of the client. -/
def StaysHome (client : Client) : PageCall → Prop
  | .client (.start url _ _) => SameOrigin url client.apiBase
  | _ => True

/-- What a response says, now or when it was kept. -/
def AnswersHome (client : Client) : (c : PageCall) → c.Answer → Prop
  | .client .receive, .ok response => LinksHome client response
  | .cachedFor _, some response => LinksHome client response
  | _, _ => True

/-! ## Paths -/

theorem not_absolute_of_plain {path : List Char} (h : isPlain path = true) :
    "http://".toList.isPrefixOf path = false ∧ "https://".toList.isPrefixOf path = false := by
  -- The first segment of an absolute URL ends in a colon.
  constructor
  · by_contra hprefix
    rw [Bool.not_eq_false, List.isPrefixOf_iff_prefix] at hprefix
    obtain ⟨rest, rfl⟩ := hprefix
    simp [isPlain] at h
  · by_contra hprefix
    rw [Bool.not_eq_false, List.isPrefixOf_iff_prefix] at hprefix
    obtain ⟨rest, rfl⟩ := hprefix
    simp [isPlain] at h

theorem isPlain_dropWhile (path : List Char) :
    isPlain (path.dropWhile (· = '/')) = isPlain path := by
  unfold isPlain
  rw [List.dropWhile_idempotent]

theorem confined_of_plain {client : Client} (hlawful : client.urls.Lawful client.apiBase)
    {request : ApiRequest} (h : isPlain request.path.toList = true) : Confined client request := by
  intro url hurl
  unfold Client.resolve at hurl
  rw [(not_absolute_of_plain h).1, (not_absolute_of_plain h).2] at hurl
  split at hurl
  · next hfalse => cases hfalse
  · split at hurl
    · next joined hjoined =>
      cases hurl
      refine hlawful.join _ _ ?_ ?_ hjoined
      · rw [isPlain_dropWhile]
        exact h
      · intro hhead
        have hnot := List.head?_dropWhile_not (fun c ↦ decide (c = '/')) request.path.toList
        rw [hhead] at hnot
        cases hnot
    · cases hurl

theorem parseLinkNext_parsed {urls : UrlLibrary} {link : List Char} {url : Url}
    (h : parseLinkNext urls link = some url) : ∃ text, urls.parse text = some url := by
  fun_induction parseLinkNext urls link with
  | case1 => cases h
  | case2 => cases h
  | case3 => exact ⟨_, h⟩
  | case4 _ _ _ _ _ _ _ _ ih => exact ih h

theorem confined_next {client : Client} (hlawful : client.urls.Lawful client.apiBase)
    {response : ApiResponse} (hhome : LinksHome client response) {request : ApiRequest}
    (hnext : Paging.nextRequest client response = some request) : Confined client request := by
  obtain ⟨next, hpage, rfl⟩ := Option.map_eq_some_iff.mp hnext
  have horigin := hhome next hpage
  obtain ⟨link, -, hlink⟩ := Option.bind_eq_some_iff.mp hpage
  obtain ⟨text, hparsed⟩ := parseLinkNext_parsed hlink
  have hweb : next.scheme = "http" ∨ next.scheme = "https" := by
    rw [horigin.1]
    exact hlawful.web
  have hbegins := hlawful.begins text next hparsed hweb
  have habsolute : ("http://".toList.isPrefixOf next.text.toList ||
      "https://".toList.isPrefixOf next.text.toList) = true := by
    rcases hweb with hhttp | hhttps
    · rw [hhttp] at hbegins
      rw [show "http://".toList = ("http" ++ "://").toList from rfl, hbegins, Bool.true_or]
    · rw [hhttps] at hbegins
      rw [show "https://".toList = ("https" ++ "://").toList from rfl, hbegins, Bool.or_true]
  intro url hurl
  have hpath : (ApiRequest.get next.text).path = next.text := rfl
  unfold Client.resolve at hurl
  rw [hpath, if_pos habsolute, hlawful.reparse text next hparsed] at hurl
  cases hurl
  exact horigin

/-! ## The client -/

/-- The calls of a listing, where what leads on leads home. -/
def homeCalls (client : Client) : Contract PageCall PageCall.Answer Unit :=
  .making (StaysHome client) (AnswersHome client)

abbrev clientHome (client : Client) : Contract ClientCall ClientCall.Answer Unit :=
  (homeCalls client).comap .client fun _ answer ↦ answer

/-- What leads on from a request that was answered leads home. -/
def LeadsHome (client : Client) : Except GithubError ApiResponse → Unit → Prop
  | .ok response, _ => LinksHome client response
  | .error _, _ => True

namespace Client

variable {client : Client} {α : Type}

theorem home_ask {c : ClientCall} {f : c.Answer → ClientProgram α}
    {Q : Except GithubError α → Unit → Prop} (hmakes : StaysHome client (.client c))
    (hnext : ∀ answer, AnswersHome client (.client c) answer →
      (clientHome client).wp (f answer) Q ()) : (clientHome client).wp (ask c >>= f) Q () := by
  refine (wp_bind _ _).mpr ⟨hmakes, ?_⟩
  intro answer _ hstep
  obtain ⟨_, rfl, hgives⟩ := hstep
  exact hnext _ hgives

theorem sendRaw_home {request : ApiRequest} (h : Confined client request) :
    (clientHome client).wp (client.sendRaw request) (LeadsHome client) () := by
  unfold sendRaw
  cases hresolve : client.resolve request.path with
  | error error => trivial
  | ok url =>
    refine home_ask trivial fun token _ ↦ ?_
    refine home_ask (h url hresolve) fun _ _ ↦ ?_
    refine home_ask trivial fun answer hanswer ↦ ?_
    cases answer with
    | ok response => exact hanswer
    | error error => trivial

/-- Nothing is said of how a program ends. -/
def Ended (_ : Except GithubError α) (_ : Unit) : Prop := True

theorem classify_home (request : ApiRequest) (response : ApiResponse) (attempt : Attempt) :
    (clientHome client).wp (client.classify request response attempt) Ended () := by
  unfold classify
  split
  · trivial
  split
  · trivial
  split
  · exact home_ask trivial fun _ _ ↦ trivial
  dsimp only
  split
  · trivial
  · trivial

theorem swapCredentialOnce_home {purpose : Purpose}
    {produce : ClientProgram (Option UserAccessToken)}
    (hproduce : (clientHome client).wp produce Ended ()) :
    (clientHome client).wp (swapCredentialOnce purpose produce) Ended () := by
  refine home_ask trivial fun before _ ↦ home_ask trivial fun _ _ ↦ home_ask trivial fun now _ ↦ ?_
  split
  · exact home_ask trivial fun _ _ ↦ trivial
  · refine wp_seq hproduce (fun found _ _ ↦ ?_) fun _ _ _ ↦ trivial
    cases found with
    | none => exact home_ask trivial fun _ _ ↦ trivial
    | some fresh =>
      refine home_ask trivial fun swapped _ ↦ ?_
      split
      · exact home_ask trivial fun _ _ ↦ home_ask trivial fun _ _ ↦ trivial
      · exact home_ask trivial fun _ _ ↦ trivial

theorem replaceOnce_home : (clientHome client).wp client.replaceOnce Ended () := by
  have hreload : (clientHome client).wp client.reloadOnce Ended () := by
    unfold reloadOnce
    split
    · exact swapCredentialOnce_home ⟨trivial, fun _ _ _ ↦ trivial⟩
    · trivial
  have hrenew : (clientHome client).wp client.renewOnce Ended () := by
    unfold renewOnce
    split
    · refine swapCredentialOnce_home (home_ask trivial fun refresh _ ↦ ?_)
      cases refresh with
      | none => trivial
      | some refresh =>
        refine home_ask trivial fun renewed _ ↦ ?_
        cases renewed with
        | ok fresh => trivial
        | error error => trivial
    · trivial
  refine wp_seq hreload (fun reloaded _ _ ↦ ?_) fun _ _ _ ↦ trivial
  split
  · trivial
  · exact hrenew

theorem probeCredential_home (hlawful : client.urls.Lawful client.apiBase) (attempt : Attempt) :
    (clientHome client).wp (client.probeCredential attempt) Ended () := by
  have hprobe : Confined client probeRequest := confined_of_plain hlawful (by decide)
  unfold probeCredential
  generalize probeRequest = request at hprobe ⊢
  refine wp_outcome_seq (sendRaw_home hprobe) fun result _ _ ↦ ?_
  cases result with
  | error error => trivial
  | ok response =>
    dsimp only
    split
    · trivial
    split
    · trivial
    split
    · exact home_ask trivial fun _ _ ↦ trivial
    · trivial

theorem revalidateFrom_home (hlawful : client.urls.Lawful client.apiBase) (attempt : Attempt) :
    (clientHome client).wp (client.revalidateFrom attempt) Ended () := by
  refine home_ask trivial fun remaining _ ↦ ?_
  cases remaining with
  | some remaining => trivial
  | none =>
    refine home_ask trivial fun sampled _ ↦ home_ask trivial fun _ _ ↦ ?_
    have hshared : (clientHome client).wp (client.sharedOrProbed attempt sampled) Ended () := by
      refine home_ask trivial fun now _ ↦ ?_
      split
      · exact ⟨trivial, fun _ _ _ ↦ trivial⟩
      · refine wp_seq (probeCredential_home hlawful attempt) (fun fresh _ _ ↦ ?_)
          fun _ _ _ ↦ trivial
        exact home_ask trivial fun _ _ ↦ home_ask trivial fun _ _ ↦ trivial
    refine wp_seq hshared (fun outcome _ _ ↦ ?_) fun _ _ _ ↦ trivial
    refine home_ask trivial fun remaining _ ↦ home_ask trivial fun _ _ ↦ ?_
    cases remaining with
    | some remaining => trivial
    | none => trivial

theorem retryOnce_home {request : ApiRequest} (h : Confined client request) :
    (clientHome client).wp (client.retryOnce request) (LeadsHome client) () := by
  refine wp_seq (sendRaw_home h) (fun second _ hsecond ↦ ?_) fun _ _ _ ↦ trivial
  refine wp_seq (classify_home request second .retry) (fun classified _ _ ↦ ?_)
    fun _ _ _ ↦ trivial
  cases classified with
  | ok => exact hsecond
  | unauthorized | error => trivial

/-- A request is sent where it goes, first and again. -/
theorem send_home (hlawful : client.urls.Lawful client.apiBase) {request : ApiRequest}
    (h : Confined client request) :
    (clientHome client).wp (client.send request) (LeadsHome client) () := by
  have hretry : (clientHome client).wp (client.revalidateAndRetryOnce request)
      (LeadsHome client) () := by
    refine home_ask trivial fun _ _ ↦ ?_
    refine wp_seq replaceOnce_home (fun replaced _ _ ↦ ?_) fun _ _ _ ↦ trivial
    split
    · exact retryOnce_home h
    · refine wp_seq (revalidateFrom_home hlawful .retry) (fun outcome _ _ ↦ ?_)
        fun _ _ _ ↦ trivial
      cases outcome with
      | rejected => trivial
      | valid | unavailable =>
        refine home_ask trivial fun remaining _ ↦ ?_
        cases remaining with
        | some remaining => trivial
        | none => exact retryOnce_home h
  refine home_ask trivial fun remaining _ ↦ ?_
  cases remaining with
  | some remaining => trivial
  | none =>
    refine wp_seq (sendRaw_home h) (fun first _ hfirst ↦ ?_) fun _ _ _ ↦ trivial
    refine wp_seq (classify_home request first .first) (fun classified _ _ ↦ ?_)
      fun _ _ _ ↦ trivial
    cases classified with
    | ok => exact hfirst
    | unauthorized => exact hretry
    | error error => trivial

end Client

/-! ## The listings -/

namespace Paging

variable {client : Client} {α β : Type}

/-- Nothing is said of how a part ends. -/
def Ended (_ : Except ListingError α) (_ : Unit) : Prop := True

/-- What leads on from a part leads home. -/
def Leads (client : Client) (response : α → ApiResponse) :
    Except ListingError α → Unit → Prop
  | .ok value, _ => LinksHome client (response value)
  | .error _, _ => True

theorem home_ask {c : PageCall} {f : c.Answer → PageProgram α}
    {Q : Except ListingError α → Unit → Prop} (hmakes : StaysHome client c)
    (hnext : ∀ answer, AnswersHome client c answer → (homeCalls client).wp (f answer) Q ()) :
    (homeCalls client).wp (ask c >>= f) Q () :=
  (wp_bind _ _).mpr ⟨hmakes, fun answer _ hgives ↦ hnext answer hgives⟩

theorem send_home (hlawful : client.urls.Lawful client.apiBase) {request : ApiRequest}
    (h : Confined client request) :
    (homeCalls client).wp (send client request) (Leads client id) () := by
  have hsent := (wp_mapCalls (client.send request)).mpr (Client.send_home hlawful h)
  refine wp_outcome_seq hsent fun result _ hresult ↦ ?_
  cases result with
  | ok response => exact hresult
  | error error => trivial

theorem issue_home (hlawful : client.urls.Lawful client.apiBase) {request : ApiRequest}
    (h : Confined client request) :
    (homeCalls client).wp (issue client request) (Leads client id) () := by
  refine home_ask trivial fun suppressed _ ↦ ?_
  cases suppressed with
  | some error => trivial
  | none => exact send_home hlawful h

theorem sendConditional_home (hlawful : client.urls.Lawful client.apiBase) {request : ApiRequest}
    (h : Confined client request) :
    (homeCalls client).wp (sendConditional client request) (Leads client Prod.fst) () := by
  refine home_ask trivial fun known _ ↦ ?_
  have hknown : Confined client { request with conditional := known } := h
  refine wp_seq (send_home hlawful hknown) (fun response _ hresponse ↦ ?_)
    fun _ _ _ ↦ trivial
  split
  · refine home_ask trivial fun cached hcached ↦ ?_
    cases cached with
    | some cached => exact hcached
    | none =>
      refine wp_seq (send_home hlawful h) (fun again _ hagain ↦ ?_) fun _ _ _ ↦ trivial
      exact home_ask trivial fun _ _ ↦ hagain
  · exact home_ask trivial fun _ _ ↦ hresponse

theorem get_home (hlawful : client.urls.Lawful client.apiBase) {request : ApiRequest}
    (h : Confined client request) :
    (homeCalls client).wp (get client request) (Leads client Prod.fst) () := by
  refine home_ask trivial fun suppressed _ ↦ ?_
  cases suppressed with
  | some error => trivial
  | none => exact sendConditional_home hlawful h

theorem json_home (decode : List UInt8 → Option α) (response : ApiResponse) :
    (homeCalls client).wp (json decode response) Ended () := by
  unfold json
  split
  · trivial
  · trivial

theorem collectFrom_home (hlawful : client.urls.Lawful client.apiBase)
    {fetch : ApiRequest → PageProgram ApiResponse}
    {read : ApiResponse → PageProgram (List β × Option Nat)}
    (hfetch : ∀ request, Confined client request →
      (homeCalls client).wp (fetch request) (Leads client id) ())
    (hread : ∀ response, (homeCalls client).wp (read response) Ended ()) (left : Nat)
    {request : ApiRequest} (h : Confined client request) (collected : Collected β) :
    (homeCalls client).wp (collectFrom client fetch read left request collected) Ended () := by
  induction left generalizing request collected with
  | zero => trivial
  | succ left ih =>
    refine wp_seq (hfetch request h) (fun response _ hresponse ↦ ?_) fun _ _ _ ↦ trivial
    refine wp_seq (hread response) (fun page _ _ ↦ ?_) fun _ _ _ ↦ trivial
    dsimp only
    split
    · trivial
    · split
      · next following hnext => exact ih (confined_next hlawful hresponse hnext) _
      · trivial

theorem countFrom_home (hlawful : client.urls.Lawful client.apiBase) (decoders : Decoders β)
    (left : Nat) {next : Option ApiRequest} (h : ∀ request, next = some request →
      Confined client request) (counted : Nat) :
    (homeCalls client).wp (countFrom client decoders left next counted) Ended () := by
  induction left generalizing next counted with
  | zero =>
    cases next with
    | none => trivial
    | some request => trivial
  | succ left ih =>
    cases next with
    | none => trivial
    | some request =>
      refine wp_seq (issue_home hlawful (h request rfl))
        (fun response _ hresponse ↦ ?_) fun _ _ _ ↦ trivial
      refine wp_seq (json_home decoders.runs response) (fun page _ _ ↦ ?_)
        fun _ _ _ ↦ trivial
      exact ih (fun _ hnext ↦ confined_next hlawful hresponse hnext) _

theorem jobsFrom_home (hlawful : client.urls.Lawful client.apiBase) (decoders : Decoders β)
    (left : Nat) {next : Option ApiRequest} (h : ∀ request, next = some request →
      Confined client request) (found : RunJobs) :
    (homeCalls client).wp (jobsFrom client decoders left next found) Ended () := by
  induction left generalizing next found with
  | zero =>
    cases next with
    | none => trivial
    | some request => trivial
  | succ left ih =>
    cases next with
    | none => trivial
    | some request =>
      refine wp_seq (get_home hlawful (h request rfl))
        (fun fetched _ hfetched ↦ ?_) fun _ _ _ ↦ trivial
      refine wp_seq (json_home decoders.jobs fetched.1) (fun page _ _ ↦ ?_)
        fun _ _ _ ↦ trivial
      exact ih (fun _ hnext ↦ confined_next hlawful hfetched hnext) _

/-- What the client and its gateways ask for: pages, a re-validation, or one request for a path of
the client's own. -/
inductive Listing where
  | request (request : {request : ApiRequest // isPlain request.path.toList = true})
  | revalidate
  | runners (target : ScaleTarget)
  | installations
  | repositories (id : Nat)
  | inProgress (repository : OwnerRepo)
  | jobs (repository : OwnerRepo) (run : Nat)

def Listing.program (client : Client) (decoders : Decoders β) : Listing → PageProgram Unit
  | request plain => do
    let _ ← send client plain.val
    return ()
  | revalidate => do
    let probed : Program PageCall PageCall.Answer GithubError Revalidation :=
      (client.revalidateFrom .first).mapCalls .client fun _ answer ↦ answer
    let _ ← probed.outcome
    return ()
  | runners target => do
    let _ ← listRunners client decoders target
    return ()
  | installations => do
    let _ ← allInstallations client decoders
    return ()
  | repositories id => do
    let _ ← installationRepositories client decoders id
    return ()
  | inProgress repository => do
    let _ ← repositoryInProgress client decoders repository
    return ()
  | jobs repository run => do
    let _ ← queuedJobsOfRun client decoders repository run
    return ()

theorem isPlain_repos (rest : List Char) : isPlain ("/repos/".toList ++ rest) = true := rfl

theorem isPlain_orgs (rest : List Char) : isPlain ("/orgs/".toList ++ rest) = true := rfl

theorem isPlain_user (rest : List Char) : isPlain ("/user/".toList ++ rest) = true := rfl

theorem isPlain_runsPath (repository : OwnerRepo) (rest : String) :
    isPlain (runsPath repository ++ rest).toList = true := by
  unfold runsPath
  simp only [String.toList_append, List.append_assoc]
  exact isPlain_repos _

theorem isPlain_runnersPath (target : ScaleTarget) :
    isPlain (runnersPath target).toList = true := by
  cases target with
  | repository repository =>
    simp only [runnersPath, String.toList_append, List.append_assoc]
    exact isPlain_repos _
  | organization org =>
    simp only [runnersPath, String.toList_append, List.append_assoc]
    exact isPlain_orgs _

theorem readRepositories_home (decoders : Decoders β) (response : ApiResponse) :
    (homeCalls client).wp (readRepositories decoders response) Ended () := by
  refine wp_seq (json_home decoders.repositories response) (fun page _ _ ↦ ?_)
    fun _ _ _ ↦ trivial
  obtain ⟨names, total⟩ := page
  dsimp only
  cases parseNames names with
  | ok repositories => trivial
  | error error => trivial

/-- Every listing begins at a path of the client's own. -/
theorem program_home (hlawful : client.urls.Lawful client.apiBase) (decoders : Decoders β)
    (listing : Listing) : (homeCalls client).wp (listing.program client decoders) Ended () := by
  have hend : ∀ {γ : Type} {p : PageProgram γ}, (homeCalls client).wp p Ended () →
      (homeCalls client).wp (p >>= fun _ ↦ pure ()) Ended () :=
    fun h ↦ wp_seq h (fun _ _ _ ↦ trivial) fun _ _ _ ↦ trivial
  cases listing with
  | request plain =>
    refine hend (wp_mono (send_home hlawful ?_) fun _ _ _ ↦ trivial)
    exact confined_of_plain hlawful plain.property
  | revalidate =>
    refine hend ?_
    refine (wp_outcome _).mpr ((wp_mapCalls _).mpr ?_)
    exact wp_mono (Client.revalidateFrom_home hlawful .first) fun _ _ _ ↦ trivial
  | runners target =>
    refine hend (collectFrom_home hlawful (fun _ h ↦ issue_home hlawful h) (json_home _) _ ?_ _)
    exact confined_of_plain hlawful (isPlain_runnersPath target)
  | installations =>
    refine hend (collectFrom_home hlawful (fun _ h ↦ send_home hlawful h) (json_home _) _ ?_ _)
    exact confined_of_plain hlawful (isPlain_user _)
  | repositories id =>
    refine hend (collectFrom_home hlawful (fun _ h ↦ send_home hlawful h)
      (readRepositories_home decoders) _ ?_ _)
    refine confined_of_plain hlawful ?_
    simp only [String.toList_append, List.append_assoc]
    exact isPlain_user _
  | inProgress repository =>
    have hfirst : Confined client ⟨"GET", runsPath repository,
        [("status", "in_progress"), ("per_page", "100")], false⟩ := by
      refine confined_of_plain hlawful ?_
      have hplain := isPlain_runsPath repository ""
      rw [String.append_empty] at hplain
      exact hplain
    refine hend (wp_seq (issue_home hlawful hfirst) (fun response _ hresponse ↦ ?_)
      fun _ _ _ ↦ trivial)
    refine wp_seq (json_home decoders.runs response) (fun page _ _ ↦ ?_)
      fun _ _ _ ↦ trivial
    obtain ⟨listed, total⟩ := page
    cases total with
    | some total => trivial
    | none =>
      exact countFrom_home hlawful decoders _
        (fun _ hnext ↦ confined_next hlawful hresponse hnext) _
  | jobs repository run =>
    refine hend (jobsFrom_home hlawful decoders _ (fun request hrequest ↦ ?_) _)
    cases hrequest
    refine confined_of_plain hlawful ?_
    have hplain := isPlain_runsPath repository ("/" ++ toString run ++ "/jobs")
    simpa only [String.append_assoc] using hplain

end Paging

/-- Whatever the responses are, as long as what leads on leads to the origin of `api_base`, every
request with the bearer token goes to that origin. -/
theorem bearer_confined {client : Client} {β : Type} {decoders : Decoders β}
    {listing : Paging.Listing} {q : PageProgram Unit}
    {log : List (Contract.Answered PageCall PageCall.Answer)}
    (hlawful : client.urls.Lawful client.apiBase)
    (hruns : Contract.recording.Runs (listing.program client decoders) [] q log)
    (hhome : ∀ entry ∈ log, AnswersHome client entry.1 entry.2) :
    ∀ entry ∈ log, StaysHome client entry.1 := by
  obtain ⟨added, hlog, hadded⟩ :=
    wp_recorded (Paging.program_home hlawful decoders listing) hruns
  rw [List.nil_append] at hlog
  subst hlog
  exact (hadded hhome).1

/-! ## Two servers -/

/-- A library that knows two absolute URLs. -/
def twoUrls : UrlLibrary where
  parse text :=
    if text = "https://evil.example/next" then some ⟨"https", "evil.example", 443, text⟩
    else if text = "https://api.github.com/user/installations?page=2" then
      some ⟨"https", "api.github.com", 443, text⟩
    else none
  join base path := some { base with text := base.text ++ path }

/-- A client of GitHub that can do nothing about its credential. -/
def pagedClient : Client where
  urls := twoUrls
  apiBase := ⟨"https", "api.github.com", 443, "https://api.github.com/"⟩
  hasSource := false
  hasRenewal := false
  readMessage _ := none

def emptyPages : Decoders Unit where
  runners _ := some ([], none)
  installations _ := some ([], none)
  repositories _ := some ([], none)
  runs _ := some (0, none)
  jobs _ := some []

/-- A page with a `Link` header. -/
def linkedPage (link : String) : ApiResponse :=
  ⟨200, [("link", link.toList.map fun c ↦ UInt8.ofNat c.toNat)], []⟩

def homePage : ApiResponse :=
  linkedPage "<https://api.github.com/user/installations?page=2>; rel=\"next\""

def evilPage : ApiResponse :=
  linkedPage "<https://evil.example/next>; rel=\"next\""

/-- A header of one link-value, the next page. -/
theorem nextPage_of_header {urls : UrlLibrary} {page : ApiResponse} {link target : String}
    (hheader : page.header "link" = some link)
    (hlink : link.toList = '<' :: (target.toList ++ ">; rel=\"next\"".toList))
    (htarget : ∀ c ∈ target.toList, c ≠ '>' ∧ isWhitespace c = false) :
    page.nextPage urls = urls.parse target := by
  have hopen : link.toList.dropWhile (· ≠ '<') =
      '<' :: (target.toList ++ '>' :: "; rel=\"next\"".toList) := by
    rw [hlink]
    rfl
  have hnext : isNext (cutParams "; rel=\"next\"".toList).1 = true := by
    rw [String.toList_ofList]
    decide
  unfold ApiResponse.nextPage
  rw [hheader, Option.bind_some, parseLinkNext_open hopen fun c hc ↦ (htarget c hc).1,
    if_pos hnext, trim_eq_self fun c hc ↦ (htarget c hc).2, String.ofList_toList]

set_option maxRecDepth 2000 in
theorem homePage_next : homePage.nextPage twoUrls = some
    ⟨"https", "api.github.com", 443, "https://api.github.com/user/installations?page=2"⟩ := by
  have hheader : homePage.header "link" =
      some "<https://api.github.com/user/installations?page=2>; rel=\"next\"" := by
    rw [homePage, linkedPage, String.toList_ofList]
    rfl
  refine (@nextPage_of_header twoUrls homePage _ "https://api.github.com/user/installations?page=2"
    hheader ?_ ?_).trans rfl
  · rw [String.toList_ofList, String.toList_ofList, String.toList_ofList]
    rfl
  · rw [String.toList_ofList]
    decide

set_option maxRecDepth 2000 in
theorem evilPage_next : evilPage.nextPage twoUrls = some
    ⟨"https", "evil.example", 443, "https://evil.example/next"⟩ := by
  have hheader : evilPage.header "link" = some "<https://evil.example/next>; rel=\"next\"" := by
    rw [evilPage, linkedPage, String.toList_ofList]
    rfl
  refine (@nextPage_of_header twoUrls evilPage _ "https://evil.example/next"
    hheader ?_ ?_).trans rfl
  · rw [String.toList_ofList, String.toList_ofList, String.toList_ofList]
    rfl
  · rw [String.toList_ofList]
    decide

theorem twoUrls_lawful : twoUrls.Lawful pagedClient.apiBase where
  web := .inr rfl
  reparse text url h := by
    unfold twoUrls at h ⊢
    dsimp only at h ⊢
    split at h
    · cases h
      next heq =>
        subst heq
        rfl
    · split at h
      · cases h
        next heq =>
          subst heq
          rfl
      · cases h
  begins text url h _ := by
    unfold twoUrls at h
    dsimp only at h
    split at h
    · next heq =>
      cases h
      subst heq
      dsimp only
      rw [String.toList_append, String.toList_ofList, String.toList_ofList, String.toList_ofList]
      rfl
    · split at h
      · next heq =>
        cases h
        subst heq
        dsimp only
        rw [String.toList_append, String.toList_ofList, String.toList_ofList, String.toList_ofList]
        rfl
      · cases h
  join path url _ _ h := by
    cases h
    exact ⟨rfl, rfl, rfl⟩

/-- What the loop over installations does after its first page. -/
def afterFirst (next : Option Url) : PageProgram Unit :=
  (match next.map fun url ↦ ApiRequest.get url.text with
    | some request => Paging.collectFrom pagedClient (Paging.send pagedClient)
        (Paging.json emptyPages.installations) 99 request ⟨[], none, 1, false⟩
    | none => pure ⟨[], none, 1, false⟩) >>= fun _ ↦ pure ()

/-- The loop over installations comes to what it does after its first page, whatever the headers of
that page are. -/
theorem first_page_runs (headers : List (String × List UInt8)) : ∃ request url,
    Contract.recording.Runs (Paging.Listing.installations.program pagedClient emptyPages) []
      (afterFirst (ApiResponse.nextPage twoUrls ⟨200, headers, []⟩))
      [⟨.client .lockoutRemaining, (none : Option Nat)⟩, ⟨.client .bearer, "t0"⟩,
        ⟨.client (.start request url "t0"), ()⟩, ⟨.client .receive, .ok ⟨200, headers, []⟩⟩] := by
  have h₀ := Contract.Runs.cut (C := Contract.recording)
    (Paging.Listing.installations.program pagedClient emptyPages) []
  have h₁ := h₀.advance (.client .lockoutRemaining) (none : Option Nat) _ rfl rfl
  have h₂ := h₁.advance (.client .bearer) "t0" _ rfl rfl
  have h₃ := h₂.advance (.client (.start _ _ "t0")) () _ rfl rfl
  exact ⟨_, _, h₃.advance (.client .receive) (.ok ⟨200, headers, []⟩) _ rfl rfl⟩

/-- The second page of the installations is asked for at home. -/
theorem second_page_at_home : ∃ q log, Contract.recording.Runs
    (Paging.Listing.installations.program pagedClient emptyPages) [] q log ∧ log.length = 7 ∧
    ∀ entry ∈ log, StaysHome pagedClient entry.1 := by
  obtain ⟨request, url, h₄⟩ := first_page_runs homePage.headers
  rw [show ApiResponse.nextPage twoUrls ⟨200, homePage.headers, []⟩ = _ from homePage_next] at h₄
  have h₅ := h₄.advance (.client .lockoutRemaining) (none : Option Nat) _ rfl rfl
  have h₆ := h₅.advance (.client .bearer) "t0" _ rfl rfl
  have h₇ := h₆.advance (.client (.start _ _ "t0")) () _ rfl rfl
  refine ⟨_, _, h₇, rfl, bearer_confined twoUrls_lawful h₇ ?_⟩
  have hhome : LinksHome pagedClient homePage := by
    intro url hurl
    obtain rfl := Option.some.inj (homePage_next.symm.trans hurl)
    exact ⟨rfl, rfl, rfl⟩
  simp only [List.cons_append, List.nil_append, List.forall_mem_cons, List.not_mem_nil,
    false_implies, implies_true, and_true]
  exact ⟨trivial, trivial, trivial, hhome, trivial, trivial, trivial⟩

/-- A server sends the bearer token elsewhere with a `Link` header. -/
theorem bearer_leaves : ∃ q log, Contract.recording.Runs
    (Paging.Listing.installations.program pagedClient emptyPages) [] q log ∧
    ∃ entry ∈ log, ¬ StaysHome pagedClient entry.1 := by
  obtain ⟨request, url, h₄⟩ := first_page_runs evilPage.headers
  rw [show ApiResponse.nextPage twoUrls ⟨200, evilPage.headers, []⟩ = _ from evilPage_next] at h₄
  have h₅ := h₄.advance (.client .lockoutRemaining) (none : Option Nat) _ rfl rfl
  have h₆ := h₅.advance (.client .bearer) "t0" _ rfl rfl
  have h₇ := h₆.advance (.client (.start _ _ "t0")) () _ rfl rfl
  refine ⟨_, _, h₇, _, List.mem_append_right _ (List.mem_singleton.mpr rfl), fun h ↦ ?_⟩
  have hhost : "evil.example" = "api.github.com" := h.2.1
  revert hhost
  decide

end RunnerManager.Github
