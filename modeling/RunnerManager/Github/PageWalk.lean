import RunnerManager.Github.Confinement

/-!
# Which pages are read, and what is said of the rest

`collect_pages` and `repository_in_progress` of `crates/github/src/rest.rs`, request by request: one
call is one `RestInventory::issue`, and the environment answers it with any response or error, so
that a chain of `Link` headers may be finite, too long, or lead back to where it began. Read
`Follows` first: it is what the requests of every walk are. `collectPages_interpret` and
`repositoryInProgress_interpret` are the way back to the programs over the client.
-/

namespace RunnerManager.Github.PageWalk

open RunnerManager.Domain

/-! ## Walks -/

/-- What a walk does: it issues requests. -/
inductive WalkCall where
  | issue (request : ApiRequest)

abbrev WalkCall.Answer : WalkCall → Type
  | issue _ => Except ListingError ApiResponse

abbrev WalkProgram := Program WalkCall WalkCall.Answer ListingError

/-- `RestInventory::issue`, as one call. -/
def issue (request : ApiRequest) : WalkProgram ApiResponse := do
  let answer ← Program.perform (.issue request)
  .ofExcept id answer

def json {α : Type} (decode : List UInt8 → Option α) (response : ApiResponse) : WalkProgram α :=
  match decode response.body with
  | some page => return page
  | none => .fail (.github (.decode "response"))

section

variable (client : Client) {β : Type} (decode : List UInt8 → Option (List β × Option Nat))

/-- The loop of `collect_pages`; `left` pages may still be read. -/
def collectFrom : (left : Nat) → ApiRequest → Paging.Collected β →
    WalkProgram (Paging.Collected β)
  | 0, _, collected => return { collected with truncated := true }
  | left + 1, request, collected => do
    let response ← issue request
    let (items, total) ← json decode response
    let collected := { collected with
      items := collected.items ++ items
      reportedTotal := total.orElse fun _ ↦ collected.reportedTotal
      pages := collected.pages + 1 }
    if left = 0 then return { collected with truncated := true }
    else
      match Paging.nextRequest client response with
      | some request => collectFrom left request collected
      | none => return collected

def collectPages (first : ApiRequest) : WalkProgram (Paging.Collected β) :=
  collectFrom client decode Paging.maxPages first .empty

end

section

variable (client : Client) (decode : List UInt8 → Option (Nat × Option Nat))

/-- The pages that are counted where no total was reported. -/
def countFrom : (left : Nat) → Option ApiRequest → Nat → WalkProgram Paging.Activity
  | _, none, counted => return ⟨min counted (2 ^ 32 - 1), true⟩
  | 0, some _, counted => return ⟨min counted (2 ^ 32 - 1), false⟩
  | left + 1, some request, counted => do
    let response ← issue request
    let (listed, _) ← json decode response
    countFrom left (Paging.nextRequest client response) (counted + listed)

/-- The first request of `repository_in_progress`. -/
def runsRequest (repository : OwnerRepo) : ApiRequest :=
  ⟨"GET", Paging.runsPath repository, [("status", "in_progress"), ("per_page", "100")], false⟩

def repositoryInProgress (repository : OwnerRepo) : WalkProgram Paging.Activity := do
  let response ← issue (runsRequest repository)
  match ← json decode response with
  | (_, some total) => return ⟨min total (2 ^ 32 - 1), decide (total < 2 ^ 32)⟩
  | (listed, none) =>
    countFrom client decode (Paging.maxActivityFallbackPages - 1)
      (Paging.nextRequest client response) listed

end

/-! ## The programs over the client -/

/-- A request, as the client sends it. -/
def serve (client : Client) : (c : WalkCall) → Program PageCall PageCall.Answer Empty c.Answer
  | .issue request => (Paging.issue client request).outcome

section

variable {client : Client} {α β : Type}

theorem outcome_thenServe (p : PageProgram β) (f : β → PageProgram α) :
    p.outcome.thenServe (fun answer ↦ (Program.ofExcept id answer : PageProgram β) >>= f) =
      p >>= f := by
  induction p with
  | done result =>
    cases result with
    | ok value => rfl
    | error e => rfl
  | ask c next ih => exact congrArg (Program.ask c) (funext fun a ↦ ih a)

theorem interpret_ofExcept (answer : Except ListingError β) (f : β → WalkProgram α) :
    ((Program.ofExcept id answer : WalkProgram β) >>= f).interpret (serve client) =
      (Program.ofExcept id answer : PageProgram β) >>= fun value ↦
        (f value).interpret (serve client) := by
  cases answer with
  | ok value => rfl
  | error e => rfl

theorem issue_interpret (request : ApiRequest) (f : ApiResponse → WalkProgram α) :
    (issue request >>= f).interpret (serve client) =
      Paging.issue client request >>= fun response ↦ (f response).interpret (serve client) := by
  rw [← outcome_thenServe]
  exact congrArg (Program.thenServe (serve client (.issue request))) (funext fun answer ↦
    interpret_ofExcept answer f)

theorem json_interpret (decode : List UInt8 → Option β) (response : ApiResponse)
    (f : β → WalkProgram α) : (json decode response >>= f).interpret (serve client) =
      Paging.json decode response >>= fun page ↦ (f page).interpret (serve client) := by
  unfold json Paging.json
  cases decode response.body with
  | some page => rfl
  | none => rfl

theorem collectFrom_interpret (decode : List UInt8 → Option (List β × Option Nat)) (left : Nat)
    (request : ApiRequest) (collected : Paging.Collected β) :
    (collectFrom client decode left request collected).interpret (serve client) =
      Paging.collectFrom client (Paging.issue client) (Paging.json decode) left request
        collected := by
  induction left generalizing request collected with
  | zero => rfl
  | succ left ih =>
    unfold collectFrom Paging.collectFrom
    rw [issue_interpret]
    refine congrArg (Paging.issue client request >>= ·) (funext fun response ↦ ?_)
    rw [json_interpret]
    refine congrArg (Paging.json decode response >>= ·) (funext fun page ↦ ?_)
    dsimp only
    split_ifs
    · rfl
    · cases Paging.nextRequest client response with
      | none => rfl
      | some request => exact ih request _

/-- The walk is the program over the client, with the client's requests as its calls. -/
theorem collectPages_interpret (decode : List UInt8 → Option (List β × Option Nat))
    (first : ApiRequest) : (collectPages client decode first).interpret (serve client) =
      Paging.collectPages client decode first :=
  collectFrom_interpret decode _ first _

theorem countFrom_interpret (decoders : Decoders β) (left : Nat) (next : Option ApiRequest)
    (counted : Nat) : (countFrom client decoders.runs left next counted).interpret (serve client) =
      Paging.countFrom client decoders left next counted := by
  induction left generalizing next counted with
  | zero => cases next <;> rfl
  | succ left ih =>
    cases next with
    | none => rfl
    | some request =>
      unfold countFrom Paging.countFrom
      rw [issue_interpret]
      refine congrArg (Paging.issue client request >>= ·) (funext fun response ↦ ?_)
      rw [json_interpret]
      exact congrArg (Paging.json decoders.runs response >>= ·) (funext fun page ↦ ih _ _)

theorem repositoryInProgress_interpret (decoders : Decoders β) (repository : OwnerRepo) :
    (repositoryInProgress client decoders.runs repository).interpret (serve client) =
      Paging.repositoryInProgress client decoders repository := by
  unfold repositoryInProgress Paging.repositoryInProgress
  rw [issue_interpret]
  refine congrArg (Paging.issue client (runsRequest repository) >>= ·) (funext fun response ↦ ?_)
  rw [json_interpret]
  refine congrArg (Paging.json decoders.runs response >>= ·) (funext fun page ↦ ?_)
  obtain ⟨listed, total⟩ := page
  cases total with
  | some total => rfl
  | none => exact countFrom_interpret decoders _ _ _

end

/-! ## What a walk reads -/

abbrev WalkLog := List (Contract.Answered WalkCall WalkCall.Answer)

section

variable (client : Client) {γ : Type} (decode : List UInt8 → Option γ)

/-- A log follows the links from a request on: each answer reads as a page, and each request but the
first is the next page of the answer before it. It ends where `last` is the request for the page
after the last one that was read. -/
inductive Follows : Option ApiRequest → WalkLog → List γ → Option ApiRequest → Prop
  | stop (next : Option ApiRequest) : Follows next [] [] next
  | page {request : ApiRequest} {response : ApiResponse} {page : γ} {log : WalkLog}
      {pages : List γ} {last : Option ApiRequest} (hpage : decode response.body = some page)
      (hrest : Follows (Paging.nextRequest client response) log pages last) :
      Follows (some request) (⟨.issue request, .ok response⟩ :: log) (page :: pages) last

variable {client decode}

theorem Follows.length_eq {next last : Option ApiRequest} {log : WalkLog} {pages : List γ}
    (h : Follows client decode next log pages last) : log.length = pages.length := by
  induction h with
  | stop => rfl
  | page _ _ ih => rw [List.length_cons, List.length_cons, ih]

end

section

variable (client : Client) {β : Type} (decode : List UInt8 → Option (List β × Option Nat))

/-- What `collect_pages` returns: the items of the pages it visited in their order, marked as
truncated if a page is left, and not marked if it read to the last page below the ceiling. -/
structure Collects (first : ApiRequest) (log : WalkLog) (collected : Paging.Collected β)
    (pages : List (List β × Option Nat)) (last : Option ApiRequest) : Prop where
  follows : Follows client decode (some first) log pages last
  items : collected.items = pages.flatMap (·.1)
  visited : collected.pages = pages.length
  total : collected.reportedTotal =
    pages.foldl (fun total page ↦ page.2.orElse fun _ ↦ total) none
  complete : pages.length < Paging.maxPages → last = none
  truncated : last ≠ none → collected.truncated = true
  whole : last = none → pages.length < Paging.maxPages → collected.truncated = false

variable (decodeRuns : List UInt8 → Option (Nat × Option Nat))

/-- What `repository_in_progress` returns: the total of the first page, where it has one, and no
other page is read; or the runs of the pages it visited, exact if no page is left. -/
inductive Counts (first : ApiRequest) (log : WalkLog) (activity : Paging.Activity) : Prop
  | reported (listed total : Nat) (last : Option ApiRequest)
      (hfollows : Follows client decodeRuns (some first) log [(listed, some total)] last)
      (hcount : activity.count = min total (2 ^ 32 - 1))
      (hexact : activity.exact = true ↔ total < 2 ^ 32)
  | counted (listed : Nat) (pages : List (Nat × Option Nat)) (last : Option ApiRequest)
      (hfollows : Follows client decodeRuns (some first) log ((listed, none) :: pages) last)
      (hcount : activity.count =
        min (((listed, none) :: pages).map (·.1)).sum (2 ^ 32 - 1))
      (hexact : activity.exact = true ↔ last = none)

end

theorem recorded_of_wp {α : Type} {p q : WalkProgram α} {log : WalkLog}
    {Q : Except ListingError α → WalkLog → Prop} (h : Contract.recording.wp p Q [])
    (hruns : Contract.recording.Runs p [] q log) :
    ∃ result last, Contract.recording.Runs q log (.done result) last ∧ Q result last ∧
      log.length ≤ last.length := by
  have hq := Contract.wp_runs h hruns
  obtain ⟨result, last, hend⟩ := Contract.ends_of_wp (fun log c _ ↦
    (⟨match c with | .issue _ => .error .cancelled, _, rfl⟩ :
      ∃ a next, Contract.recording.steps log c a next)) hq
  obtain ⟨added, rfl⟩ := hend.recorded
  exact ⟨result, _, hend, Contract.wp_runs hq hend, by simp⟩

section

variable {client : Client} {β : Type} {decode : List UInt8 → Option (List β × Option Nat)}

theorem issue_wp {α : Type} {request : ApiRequest} {f : ApiResponse → WalkProgram α}
    {Q : Except ListingError α → WalkLog → Prop} {log : WalkLog}
    (hfailed : ∀ e, Q (.error e) (log ++ [⟨.issue request, .error e⟩]))
    (hf : ∀ response, Contract.recording.wp (f response) Q
      (log ++ [⟨.issue request, .ok response⟩])) :
    Contract.recording.wp (issue request >>= f) Q log := by
  refine ⟨trivial, ?_⟩
  rintro (e | response) next rfl
  · exact hfailed e
  · exact hf response

theorem json_wp {α γ : Type} {read : List UInt8 → Option γ} {response : ApiResponse}
    {f : γ → WalkProgram α} {Q : Except ListingError α → WalkLog → Prop} {log : WalkLog}
    (hfailed : ∀ e, Q (.error e) log)
    (hf : ∀ page, read response.body = some page → Contract.recording.wp (f page) Q log) :
    Contract.recording.wp (json read response >>= f) Q log := by
  unfold json
  cases hread : read response.body with
  | some page => exact hf page hread
  | none => exact hfailed _

/-- What the loop of `collect_pages` adds to what is collected, and to the log. -/
theorem collectFrom_wp {left : Nat} (hleft : 0 < left) (request : ApiRequest)
    (collected : Paging.Collected β) (hwhole : collected.truncated = false) (log : WalkLog) :
    Contract.recording.wp (collectFrom client decode left request collected) (fun result next ↦
      next.length ≤ log.length + left ∧ ∀ final, result = .ok final →
        ∃ added pages last, next = log ++ added ∧
          Follows client decode (some request) added pages last ∧
          final.items = collected.items ++ pages.flatMap (·.1) ∧
          final.pages = collected.pages + pages.length ∧
          final.reportedTotal = pages.foldl (fun total page ↦ page.2.orElse fun _ ↦ total)
            collected.reportedTotal ∧
          (pages.length < left → last = none) ∧
          final.truncated = decide (pages.length = left)) log := by
  induction left generalizing request collected log with
  | zero => cases hleft
  | succ left ih =>
    refine issue_wp (fun e ↦ ⟨by simp, fun _ h ↦ nomatch h⟩) fun response ↦ ?_
    refine json_wp (fun e ↦ ⟨by simp, fun _ h ↦ nomatch h⟩) fun page hpage ↦ ?_
    obtain ⟨items, total⟩ := page
    dsimp only
    split_ifs with hlast
    · subst hlast
      refine ⟨by simp, ?_⟩
      rintro final ⟨⟩
      refine ⟨_, _, _, rfl, .page hpage (.stop _), ?_, rfl, rfl, ?_, rfl⟩
      · simp
      · simp
    · cases hnext : Paging.nextRequest client response with
      | none =>
        refine ⟨by simp, ?_⟩
        rintro final ⟨⟩
        refine ⟨_, _, _, rfl, .page hpage (.stop _), ?_, rfl, rfl, fun _ ↦ hnext, ?_⟩
        · simp
        · show collected.truncated = _
          rw [hwhole, eq_comm, decide_eq_false_iff_not]
          show ¬ 0 + 1 = left + 1
          omega
      | some request =>
        refine Contract.wp_mono (ih (Nat.pos_of_ne_zero hlast) request
          { collected with
            items := collected.items ++ items
            reportedTotal := total.orElse fun _ ↦ collected.reportedTotal
            pages := collected.pages + 1 } hwhole _) fun result next hrest ↦ ?_
        obtain ⟨hlength, hrest⟩ := hrest
        refine ⟨by simp at hlength; omega, fun final hfinal ↦ ?_⟩
        obtain ⟨added, pages, last, rfl, hfollows, hitems, hpages, htotal, hcomplete,
          htruncated⟩ := hrest final hfinal
        refine ⟨_, _, _, List.append_assoc _ _ _, .page hpage (hnext ▸ hfollows), ?_, ?_, ?_,
          ?_, ?_⟩
        · simp [hitems]
        · simp [hpages]
          omega
        · exact htotal
        · simpa using hcomplete
        · simpa using htruncated

theorem collectPages_wp (first : ApiRequest) :
    Contract.recording.wp (collectPages client decode first) (fun result log ↦
      log.length ≤ Paging.maxPages ∧ ∀ collected, result = .ok collected →
        ∃ pages last, Collects client decode first log collected pages last) [] := by
  refine Contract.wp_mono (collectFrom_wp (by decide) first .empty rfl []) fun result log h ↦ ?_
  obtain ⟨hlength, hcollected⟩ := h
  refine ⟨by simpa using hlength, fun collected hresult ↦ ?_⟩
  obtain ⟨added, pages, last, rfl, hfollows, hitems, hpages, htotal, hcomplete, htruncated⟩ :=
    hcollected collected hresult
  refine ⟨pages, last, hfollows, hitems, hpages.trans (Nat.zero_add _), htotal, hcomplete, ?_, ?_⟩
  · intro hleft
    -- a page is left, so the walk did not stop below the ceiling
    have hmost : ¬ pages.length < Paging.maxPages := fun hless ↦ hleft (hcomplete hless)
    have hbound : pages.length ≤ Paging.maxPages := by
      rw [← hfollows.length_eq]
      simpa using hlength
    rw [htruncated, decide_eq_true_iff]
    omega
  · intro _ hless
    rw [htruncated, decide_eq_false_iff_not]
    omega

end

section

variable {client : Client} {decode : List UInt8 → Option (Nat × Option Nat)}

/-- What the loop of `repository_in_progress` adds to what is counted, and to the log. -/
theorem countFrom_wp (left : Nat) (next : Option ApiRequest) (counted : Nat) (log : WalkLog) :
    Contract.recording.wp (countFrom client decode left next counted) (fun result final ↦
      final.length ≤ log.length + left ∧ ∀ activity, result = .ok activity →
        ∃ added pages last, final = log ++ added ∧
          Follows client decode next added pages last ∧
          activity.count = min (counted + (pages.map (·.1)).sum) (2 ^ 32 - 1) ∧
          (activity.exact = true ↔ last = none)) log := by
  induction left generalizing next counted log with
  | zero =>
    cases next with
    | none =>
      refine ⟨Nat.le_refl _, ?_⟩
      rintro activity ⟨⟩
      exact ⟨[], [], none, by simp, .stop _, by simp, by simp⟩
    | some request =>
      refine ⟨Nat.le_refl _, ?_⟩
      rintro activity ⟨⟩
      exact ⟨[], [], some request, by simp, .stop _, by simp, by simp⟩
  | succ left ih =>
    cases next with
    | none =>
      refine ⟨by simp, ?_⟩
      rintro activity ⟨⟩
      exact ⟨[], [], none, by simp, .stop _, by simp, by simp⟩
    | some request =>
      refine issue_wp (fun e ↦ ⟨by simp, fun _ h ↦ nomatch h⟩) fun response ↦ ?_
      refine json_wp (fun e ↦ ⟨by simp, fun _ h ↦ nomatch h⟩) fun page hpage ↦ ?_
      refine Contract.wp_mono (ih (Paging.nextRequest client response) (counted + page.1) _)
        fun result final hrest ↦ ?_
      obtain ⟨hlength, hrest⟩ := hrest
      refine ⟨by simp at hlength; omega, fun activity hactivity ↦ ?_⟩
      obtain ⟨added, pages, last, rfl, hfollows, hcount, hexact⟩ := hrest activity hactivity
      refine ⟨_, _, _, List.append_assoc _ _ _, .page hpage hfollows, ?_, hexact⟩
      rw [hcount, List.map_cons, List.sum_cons, Nat.add_assoc]

theorem repositoryInProgress_wp (repository : OwnerRepo) :
    Contract.recording.wp (repositoryInProgress client decode repository) (fun result log ↦
      log.length ≤ Paging.maxActivityFallbackPages ∧ ∀ activity, result = .ok activity →
        Counts client decode (runsRequest repository) log activity) [] := by
  refine issue_wp (fun e ↦ ⟨by simp [Paging.maxActivityFallbackPages], fun _ h ↦ nomatch h⟩)
    fun response ↦ ?_
  refine json_wp (fun e ↦ ⟨by simp [Paging.maxActivityFallbackPages], fun _ h ↦ nomatch h⟩)
    fun page hpage ↦ ?_
  obtain ⟨listed, total⟩ := page
  cases total with
  | some total =>
    refine ⟨by simp [Paging.maxActivityFallbackPages], ?_⟩
    rintro activity ⟨⟩
    exact .reported listed total _ (.page hpage (.stop _)) rfl (decide_eq_true_iff)
  | none =>
    refine Contract.wp_mono (countFrom_wp _ (Paging.nextRequest client response) listed _)
      fun result final hrest ↦ ?_
    obtain ⟨hlength, hrest⟩ := hrest
    refine ⟨hlength, fun activity hactivity ↦ ?_⟩
    obtain ⟨added, pages, last, rfl, hfollows, hcount, hexact⟩ := hrest activity hactivity
    exact .counted listed pages last (.page hpage hfollows) hcount hexact

end

/-- Every walk ends within its budget of requests, whatever the answers are. What `collect_pages`
returns are the items of the pages it visited, in order, and it is marked as truncated wherever a
page is left, and not where the walk ended below the ceiling. What `repository_in_progress` returns
is the total of the first page, where there is one; a count over the pages is exact if and only if
no page is left. -/
theorem walks_sound (client : Client) {β : Type}
    (decode : List UInt8 → Option (List β × Option Nat))
    (decodeRuns : List UInt8 → Option (Nat × Option Nat)) (first : ApiRequest)
    (repository : OwnerRepo) :
    (∀ p log, Contract.recording.Runs (collectPages client decode first) [] p log →
      log.length ≤ Paging.maxPages ∧
        (∃ result last, Contract.recording.Runs p log (.done result) last) ∧
        ∀ collected, p = .done (.ok collected) →
          ∃ pages last, Collects client decode first log collected pages last) ∧
    ∀ p log, Contract.recording.Runs (repositoryInProgress client decodeRuns repository) [] p log →
      log.length ≤ Paging.maxActivityFallbackPages ∧
        (∃ result last, Contract.recording.Runs p log (.done result) last) ∧
        ∀ activity, p = .done (.ok activity) →
          Counts client decodeRuns (runsRequest repository) log activity := by
  constructor
  · intro p log hruns
    obtain ⟨result, last, hend, ⟨hlength, -⟩, hle⟩ := recorded_of_wp (collectPages_wp first) hruns
    refine ⟨hle.trans hlength, ⟨result, last, hend⟩, ?_⟩
    rintro collected rfl
    exact (Contract.wp_runs (collectPages_wp first) hruns).2 collected rfl
  · intro p log hruns
    obtain ⟨result, last, hend, ⟨hlength, -⟩, hle⟩ :=
      recorded_of_wp (repositoryInProgress_wp repository) hruns
    refine ⟨hle.trans hlength, ⟨result, last, hend⟩, ?_⟩
    rintro activity rfl
    exact (Contract.wp_runs (repositoryInProgress_wp repository) hruns).2 activity rfl

/-! ## Two pages -/

def secondPage : ApiRequest :=
  .get "https://api.github.com/user/installations?page=2"

/-- A page without a `Link` header. -/
def lastPage : ApiResponse :=
  ⟨200, [], []⟩

theorem homePage_nextRequest : Paging.nextRequest pagedClient homePage = some secondPage := by
  unfold Paging.nextRequest
  rw [show homePage.nextPage pagedClient.urls = _ from homePage_next]
  rfl

def twoPages (first : ApiRequest) : WalkLog :=
  [⟨.issue first, .ok homePage⟩, ⟨.issue secondPage, .ok lastPage⟩]

theorem issue_runs {α : Type} {request : ApiRequest} (response : ApiResponse)
    {f : ApiResponse → WalkProgram α} {log last : WalkLog} {q : WalkProgram α}
    (h : Contract.recording.Runs (f response) (log ++ [⟨.issue request, .ok response⟩]) q last) :
    Contract.recording.Runs (issue request >>= f) log q last :=
  .step (.ok response) rfl h

theorem json_bind {α β : Type} {decode : List UInt8 → Option α} {response : ApiResponse} {page : α}
    {f : α → WalkProgram β} (h : decode response.body = some page) :
    json decode response >>= f = f page := by
  unfold json
  rw [h]
  rfl

section

variable {client : Client} {request next : ApiRequest} {response : ApiResponse} {log last : WalkLog}

/-- A walk goes on from a page that leads to another one. -/
theorem collectFrom_runs {β : Type} {decode : List UInt8 → Option (List β × Option Nat)}
    {left : Nat} {collected : Paging.Collected β} {items : List β}
    {q : WalkProgram (Paging.Collected β)} (hpage : decode response.body = some (items, none))
    (hnext : Paging.nextRequest client response = some next)
    (h : Contract.recording.Runs (collectFrom client decode (left + 1) next
      { collected with items := collected.items ++ items, pages := collected.pages + 1 })
      (log ++ [⟨.issue request, .ok response⟩]) q last) :
    Contract.recording.Runs (collectFrom client decode (left + 2) request collected) log q
      last := by
  rw [collectFrom]
  refine issue_runs response ?_
  rw [json_bind hpage]
  dsimp only
  rw [if_neg (Nat.succ_ne_zero left), hnext]
  exact h

theorem repositoryInProgress_runs {decode : List UInt8 → Option (Nat × Option Nat)}
    {repository : OwnerRepo} {listed : Nat} {q : WalkProgram Paging.Activity}
    (hpage : decode response.body = some (listed, none))
    (hnext : Paging.nextRequest client response = some next)
    (h : Contract.recording.Runs
      (countFrom client decode (Paging.maxActivityFallbackPages - 1) (some next) listed)
      (log ++ [⟨.issue (runsRequest repository), .ok response⟩]) q last) :
    Contract.recording.Runs (repositoryInProgress client decode repository) log q last := by
  refine issue_runs response ?_
  rw [json_bind hpage, hnext]
  exact h

end

theorem collects_twoPages (first : ApiRequest) :
    Contract.recording.Runs (collectPages pagedClient (fun _ ↦ some ([()], none)) first) []
      (.done (.ok ⟨[(), ()], none, 2, false⟩)) (twoPages first) :=
  collectFrom_runs rfl homePage_nextRequest (.step (.ok lastPage) rfl (.cut _ _))

def octoWidgets : OwnerRepo := ⟨⟨"octo", by decide⟩, ⟨"widgets", by decide⟩⟩

theorem counts_twoPages :
    Contract.recording.Runs (repositoryInProgress pagedClient (fun _ ↦ some (3, none)) octoWidgets)
      [] (.done (.ok ⟨6, true⟩)) (twoPages (runsRequest octoWidgets)) :=
  repositoryInProgress_runs rfl homePage_nextRequest (.step (.ok lastPage) rfl (.cut _ _))

/-- Both walks over two pages: nothing is left, and nothing is marked as left. -/
theorem two_pages_read :
    (∃ pages last, Collects pagedClient (fun _ ↦ some ([()], none)) (.get "/runners")
      (twoPages (.get "/runners")) ⟨[(), ()], none, 2, false⟩ pages last) ∧
    Counts pagedClient (fun _ ↦ some (3, none)) (runsRequest octoWidgets)
      (twoPages (runsRequest octoWidgets)) ⟨6, true⟩ :=
  ⟨((walks_sound pagedClient _ (fun _ ↦ some (3, none)) (.get "/runners") octoWidgets).1 _ _
      (collects_twoPages _)).2.2 _ rfl,
    ((walks_sound pagedClient (fun _ ↦ some ([()], none)) _ (.get "/runners") octoWidgets).2 _ _
      counts_twoPages).2.2 _ rfl⟩

theorem reports_total :
    Contract.recording.Runs
      (repositoryInProgress pagedClient (fun _ ↦ some (100, some 400)) octoWidgets) []
      (.done (.ok ⟨400, true⟩)) [⟨.issue (runsRequest octoWidgets), .ok homePage⟩] :=
  .step (.ok homePage) rfl (.cut _ _)

/-- A total that is taken from the first page is called exact, whether or not a page is left. -/
theorem exact_with_page_left : ¬ ∀ (client : Client)
    (decode : List UInt8 → Option (Nat × Option Nat)) (repository : OwnerRepo)
    (activity : Paging.Activity) (log : WalkLog) (pages : List (Nat × Option Nat))
    (last : Option ApiRequest),
    Contract.recording.Runs (repositoryInProgress client decode repository) []
      (.done (.ok activity)) log →
    Follows client decode (some (runsRequest repository)) log pages last →
    (activity.exact = true ↔ last = none) := by
  intro h
  have hpage : Follows pagedClient (fun _ ↦ some (100, some 400))
      (some (runsRequest octoWidgets)) [⟨.issue (runsRequest octoWidgets), .ok homePage⟩]
      [(100, some 400)] (Paging.nextRequest pagedClient homePage) :=
    .page rfl (.stop _)
  have hnone := (h _ _ _ _ _ _ _ reports_total hpage).mp rfl
  rw [homePage_nextRequest] at hnone
  cases hnone

end RunnerManager.Github.PageWalk
