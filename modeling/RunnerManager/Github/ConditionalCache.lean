import RunnerManager.Github.Client
import RunnerManager.Lib.Table
import Mathlib.Data.List.MinMax

/-!
# Conditional requests

`ConditionalCache` of `crates/github/src/conditional.rs`: a listing is asked for with the validators
of the answer that is cached for it, and a `304` is answered from the cache. Any number of sends
and evictions share the cache. Read `fetched_current` first: what a send hands on is what GitHub had
when it answered this very send. `cacheKey_inj` is why two requests never share an entry, and
`store_recent` says what a full cache gives up.
-/

namespace RunnerManager.Github

open RunnerManager.Domain RunnerManager.Text

/-! ## Validators and keys -/

structure Validators where
  etag : Option String
  lastModified : Option String
deriving DecidableEq

namespace Validators

def of (response : ApiResponse) : Validators :=
  let read (name : String) : Option String :=
    ((response.header name).map fun value ↦ String.ofList (trim value.toList)).filter (· ≠ "")
  ⟨read "etag", read "last-modified"⟩

def isEmpty (validators : Validators) : Bool :=
  validators.etag.isNone && validators.lastModified.isNone

end Validators

namespace ApiRequest

/-- The query of a cache key; the separator before its first pair is a question mark. -/
def queryKey : Char → List (String × String) → List Char
  | _, [] => []
  | separator, (name, value) :: rest =>
    separator :: (name.toList ++ '=' :: (value.toList ++ queryKey '&' rest))

def cacheKey (request : ApiRequest) : String :=
  String.ofList (request.method.toList ++
    ' ' :: (request.path.toList ++ queryKey '?' request.query))

/-- The request as its resource: less the validators. -/
def resource (request : ApiRequest) : ApiRequest :=
  { request with conditional := false }

/-- `ApiRequest::conditional`: the request, and the validators that go with it. -/
def withValidators (request : ApiRequest) (validators : Validators) :
    ApiRequest × Option Validators :=
  ({ request with conditional := !validators.isEmpty },
    if validators.isEmpty then none else some validators)

/-- What a send asks for: the request, with the validators that are known for it. -/
def sentFor (request : ApiRequest) : Option Validators → ApiRequest × Option Validators
  | some validators => request.withValidators validators
  | none => (request, none)

/-- A request without validators of its own: a path of the host, whose separators stand where a key
puts them, or else the link of a page, without a query. -/
structure Delimited (request : ApiRequest) : Prop where
  unconditional : request.conditional = false
  method : ' ' ∉ request.method.toList
  path : request.path.toList.head? = some '/' → '?' ∉ request.path.toList
  link : request.path.toList.head? ≠ some '/' → request.query = []
  query : ∀ pair ∈ request.query, '=' ∉ pair.1.toList ∧ '&' ∉ pair.2.toList

/-- Two texts are cut where the separator first stands. -/
theorem cut_inj {c : Char} {a b s t : List Char} (ha : c ∉ a) (hb : c ∉ b)
    (hs : ∀ d ∈ s.head?, d = c) (ht : ∀ d ∈ t.head?, d = c) (h : a ++ s = b ++ t) :
    a = b ∧ s = t := by
  induction a generalizing b with
  | nil =>
    cases b with
    | nil => exact ⟨rfl, h⟩
    | cons d b =>
      obtain rfl : s = d :: b ++ t := h
      exact absurd (hs d rfl ▸ List.mem_cons_self) hb
  | cons d a ih =>
    cases b with
    | nil =>
      obtain rfl : d :: a ++ s = t := h
      exact absurd (ht d rfl ▸ List.mem_cons_self) ha
    | cons e b =>
      obtain ⟨rfl, hrest⟩ := List.cons.inj (h : d :: (a ++ s) = e :: (b ++ t))
      obtain ⟨rfl, hst⟩ := ih (fun hmem ↦ ha (.tail _ hmem)) (fun hmem ↦ hb (.tail _ hmem)) hrest
      exact ⟨rfl, hst⟩

theorem queryKey_head (separator : Char) (query : List (String × String)) :
    ∀ d ∈ (queryKey separator query).head?, d = separator := by
  cases query with
  | nil => exact fun d hd ↦ by cases hd
  | cons pair rest => exact fun d hd ↦ (Option.some.inj hd).symm

theorem queryKey_inj {query other : List (String × String)}
    (h : ∀ pair ∈ query, '=' ∉ pair.1.toList ∧ '&' ∉ pair.2.toList)
    (h' : ∀ pair ∈ other, '=' ∉ pair.1.toList ∧ '&' ∉ pair.2.toList) (separator : Char)
    (heq : queryKey separator query = queryKey separator other) : query = other := by
  induction query generalizing other separator with
  | nil =>
    cases other with
    | nil => rfl
    | cons => cases heq
  | cons pair query ih =>
    cases other with
    | nil => cases heq
    | cons pair' other =>
      obtain ⟨⟨hname, hvalue⟩, hrest⟩ := List.forall_mem_cons.mp h
      obtain ⟨⟨hname', hvalue'⟩, hrest'⟩ := List.forall_mem_cons.mp h'
      obtain ⟨hnames, hvalues⟩ := cut_inj hname hname' (by simp) (by simp) (List.cons.inj heq).2
      obtain ⟨hvalues, hrests⟩ := cut_inj hvalue hvalue' (queryKey_head _ _) (queryKey_head _ _)
        (List.cons.inj hvalues).2
      rw [ih hrest hrest' '&' hrests, Prod.ext (String.toList_inj.mp hnames)
        (String.toList_inj.mp hvalues)]

/-- A link is not read as a path of the host. -/
theorem Delimited.link_ne {request other : ApiRequest} (h : other.Delimited)
    (hpath : request.path.toList.head? = some '/') (hlink : other.path.toList.head? ≠ some '/') :
    request.path.toList ++ queryKey '?' request.query ≠
      other.path.toList ++ queryKey '?' other.query := by
  intro heq
  rw [h.link hlink, queryKey, List.append_nil] at heq
  rw [← heq, List.head?_append, hpath] at hlink
  exact hlink rfl

/-- Two requests with one key are one request. -/
theorem cacheKey_inj {request other : ApiRequest} (h : request.Delimited) (h' : other.Delimited)
    (heq : request.cacheKey = other.cacheKey) : request = other := by
  obtain ⟨hmethod, hrest⟩ := cut_inj h.method h'.method (by simp) (by simp)
    (String.ofList_injective heq)
  have hparts : request.path.toList = other.path.toList ∧ request.query = other.query := by
    by_cases hpath : request.path.toList.head? = some '/' <;>
      by_cases hpath' : other.path.toList.head? = some '/'
    · obtain ⟨hpaths, hqueries⟩ := cut_inj (h.path hpath) (h'.path hpath') (queryKey_head _ _)
        (queryKey_head _ _) (List.cons.inj hrest).2
      exact ⟨hpaths, queryKey_inj h.query h'.query '?' hqueries⟩
    · exact absurd (List.cons.inj hrest).2 (h'.link_ne hpath hpath')
    · exact absurd (List.cons.inj hrest).2.symm (h.link_ne hpath' hpath)
    · have hpaths := (List.cons.inj hrest).2
      rw [h.link hpath, h'.link hpath'] at hpaths
      exact ⟨List.append_cancel_right hpaths, (h.link hpath).trans (h'.link hpath').symm⟩
  obtain ⟨method, path, query, conditional⟩ := request
  obtain ⟨method', path', query', conditional'⟩ := other
  obtain rfl := String.toList_inj.mp hmethod
  obtain rfl := String.toList_inj.mp hparts.1
  obtain rfl : query = query' := hparts.2
  obtain rfl : conditional = conditional' := h.unconditional.trans h'.unconditional.symm
  rfl

theorem Delimited.resource {request : ApiRequest} (h : request.Delimited) :
    request.resource = request := by
  obtain ⟨method, path, query, conditional⟩ := request
  rw [ApiRequest.resource, ← h.unconditional]

/-- A send asks for its own resource, and sends no validators but those that are known. -/
theorem Delimited.sentFor {request : ApiRequest} (h : request.Delimited)
    (known : Option Validators) : (request.sentFor known).1.resource = request ∧
      ∀ validators, (request.sentFor known).2 = some validators → known = some validators := by
  cases known with
  | none => exact ⟨h.resource, fun _ hsent ↦ by cases hsent⟩
  | some known =>
    refine ⟨h.resource, fun validators hsent ↦ ?_⟩
    simp only [ApiRequest.sentFor, withValidators] at hsent
    split at hsent
    case isTrue => cases hsent
    case isFalse => exact hsent

end ApiRequest

/-! ## The cache -/

/-- `Entry`, with its key. -/
structure CacheEntry where
  key : String
  validators : Validators
  response : ApiResponse
  lastUsed : Timestamp
deriving DecidableEq

/-- The map of the cache; it lists its entries in some order. -/
abbrev CacheEntries :=
  Table CacheEntry.key

def idleEntryTtl : Int :=
  secondsOf (2 * 60 * 60)

def maxEntries : Nat :=
  1024

structure Fetched where
  response : ApiResponse
  notModified : Bool
deriving DecidableEq

namespace CacheEntries

def retainRecent (entries : CacheEntries) (now : Timestamp) : CacheEntries where
  rows := entries.rows.filter fun entry ↦ now - entry.lastUsed < idleEntryTtl
  nodup := entries.nodup.sublist (List.filter_sublist.map CacheEntry.key)

/-- An order in which the map may list its entries. -/
structure Listing where
  list : CacheEntries → CacheEntries
  perm (entries : CacheEntries) : (list entries).rows.Perm entries.rows

/-- The first of the entries that were used longest ago. -/
def oldest (entries : CacheEntries) : Option CacheEntry :=
  entries.rows.foldl (List.argAux fun entry other ↦ entry.lastUsed < other.lastUsed) none

/-- The loop of `store`: while there are too many entries, the first of the oldest goes. -/
def shedOldest : (turns : Nat) → CacheEntries → CacheEntries
  | 0, entries => entries
  | turns + 1, entries =>
    if entries.rows.length > maxEntries then
      match entries.oldest with
      | none => entries
      | some oldest => shedOldest turns (entries.erase oldest.key)
    else entries

def store (listing : Listing) (entries : CacheEntries) (key : String) (response : ApiResponse)
    (now : Timestamp) : CacheEntries :=
  let validators := Validators.of response
  if validators.isEmpty then entries.erase key
  else
    let inserted := listing.list (entries.put ⟨key, validators, response, now⟩)
    let kept := if inserted.rows.length > maxEntries then retainRecent inserted now else inserted
    shedOldest kept.rows.length kept

/-- `ConditionalCache::cached_for`: the answer, and the entries with the time of its use. -/
def cachedFor (entries : CacheEntries) (key : String) (sent : Option Validators)
    (now : Timestamp) : Option ApiResponse × CacheEntries :=
  match entries.find? key with
  | some entry =>
    if some entry.validators = sent then
      (some entry.response, entries.put { entry with lastUsed := now })
    else (none, entries)
  | none => (none, entries)

end CacheEntries

/-- One call of a task: to the client, to the clock, or to the map under its lock. -/
inductive CacheCall where
  | validators (key : String)
  | send (request : ApiRequest) (sent : Option Validators)
  | now
  | cachedFor (key : String) (sent : Option Validators) (now : Timestamp)
  | store (key : String) (response : ApiResponse) (now : Timestamp)
  | retainRecent (now : Timestamp)

abbrev CacheCall.Answer : CacheCall → Type
  | validators _ => Option Validators
  | send .. => Except GithubError ApiResponse
  | now => Timestamp
  | cachedFor .. => Option ApiResponse
  | store .. => Unit
  | retainRecent _ => Unit

abbrev CacheProgram := Program CacheCall CacheCall.Answer GithubError

namespace ConditionalCache

def ask (c : CacheCall) : CacheProgram c.Answer :=
  .perform c

def send (request : ApiRequest) : CacheProgram Fetched := do
  let key := request.cacheKey
  let validators ← ask (.validators key)
  let sent := request.sentFor validators
  let response ← .ofExcept id (← ask (.send sent.1 sent.2))
  let now ← ask .now
  if response.status = 304 then
    match ← ask (.cachedFor key validators now) with
    | some response => return ⟨response, true⟩
    | none => do
      let response ← .ofExcept id (← ask (.send request none))
      ask (.store key response now)
      return ⟨response, false⟩
  else
    ask (.store key response now)
    return ⟨response, false⟩

def evictIdle : CacheProgram Unit := do
  let now ← ask .now
  ask (.retainRecent now)

end ConditionalCache

/-- What a task does with the cache. -/
inductive CacheTask where
  | send (request : ApiRequest)
  | evictIdle

def CacheTask.run : CacheTask → CacheProgram (Option Fetched)
  | send request => do return some (← ConditionalCache.send request)
  | evictIdle => do
    ConditionalCache.evictIdle
    return none

/-! ## Answers of the client -/

namespace Client

variable (client : Client)

theorem classify_returns (request : ApiRequest) (response : ApiResponse) (attempt : Attempt) :
    Contract.Returns (client.classify request response attempt) (fun classified ↦
      classified = .ok → response.isSuccess = true ∨
        response.status = 304 ∧ request.conditional = true) := by
  unfold classify
  split
  case isTrue hok => exact Contract.returns_pure fun _ ↦ by simpa using hok
  case isFalse =>
    split
    case isTrue => exact Contract.returns_pure fun h ↦ by cases h
    case isFalse =>
      split
      case isTrue =>
        exact Contract.returns_bind (Contract.returns_trivial _) fun _ _ ↦
          Contract.returns_pure fun h ↦ by cases h
      case isFalse =>
        dsimp only
        split <;> exact Contract.returns_pure fun h ↦ by cases h

theorem retryOnce_returns (request : ApiRequest) :
    Contract.Returns (client.retryOnce request) (fun response ↦
      response.isSuccess = true ∨ response.status = 304 ∧ request.conditional = true) := by
  refine Contract.returns_bind (Contract.returns_trivial _) fun response _ ↦
    Contract.returns_bind (client.classify_returns request response .retry) fun classified h ↦ ?_
  cases classified with
  | ok => exact Contract.returns_pure (h rfl)
  | unauthorized => exact Contract.returns_fail _ _
  | error error => exact Contract.returns_fail _ _

/-- A send hands on a success, or a `304` to validators that it sent; whatever else comes back, at
first or on the retry, is an error. -/
theorem send_returns (request : ApiRequest) :
    Contract.Returns (client.send request) (fun response ↦
      response.isSuccess = true ∨ response.status = 304 ∧ request.conditional = true) := by
  refine Contract.returns_bind (Contract.returns_trivial _) fun locked _ ↦ ?_
  cases locked with
  | some remaining => exact Contract.returns_fail _ _
  | none =>
    refine Contract.returns_bind (Contract.returns_trivial _) fun response _ ↦
      Contract.returns_bind (client.classify_returns request response .first) fun classified h ↦ ?_
    cases classified with
    | ok => exact Contract.returns_pure (h rfl)
    | error error => exact Contract.returns_fail _ _
    | unauthorized =>
      refine Contract.returns_bind (Contract.returns_trivial _) fun _ _ ↦
        Contract.returns_bind (Contract.returns_trivial _) fun replaced _ ↦ ?_
      split
      case isTrue => exact client.retryOnce_returns request
      case isFalse =>
        refine Contract.returns_bind (Contract.returns_trivial _) fun revalidation _ ↦ ?_
        cases revalidation with
        | rejected => exact Contract.returns_fail _ _
        | valid | unavailable =>
          refine Contract.returns_bind (Contract.returns_trivial _) fun locked _ ↦ ?_
          cases locked with
          | some remaining => exact Contract.returns_fail _ _
          | none => exact client.retryOnce_returns request

end Client

/-! ## Tasks over one cache -/

/-- What validators stand for: `content` is the part of an answer that they vouch for, its body
say, and `carried` the content of a resource that carried them. -/
structure Origin (ρ : Type) where
  content : ApiResponse → ρ
  carried : ApiRequest → Validators → ρ

variable {ρ ι : Type}

/-- A complete answer of GitHub to a request. -/
structure Complete (origin : Origin ρ) (request : ApiRequest) (response : ApiResponse) :
    Prop where
  status : response.status ≠ 304
  carried : (Validators.of response).isEmpty = false →
    origin.carried request (Validators.of response) = origin.content response

/-- How GitHub answers a request while it has `current`: with all of it, or with a `304` where the
validators that were sent are those that it carried. -/
inductive Serves (origin : Origin ρ) (request : ApiRequest) (sent : Option Validators)
    (current : ρ) (response : ApiResponse) : Prop
  | full (hcomplete : Complete origin request response)
      (hcurrent : current = origin.content response)
  | notModified (validators : Validators) (hsent : sent = some validators)
      (hcurrent : current = origin.carried request validators) (hstatus : response.status = 304)

/-- What the tasks share, with a record of what GitHub had whenever it answered a task, and whether
it answered with a `304`. -/
structure CacheWorld (ρ ι : Type) where
  entries : CacheEntries
  answered : ι → List (ApiRequest × ρ × Bool)

namespace CacheWorld

variable [DecidableEq ι]

/-- GitHub answers a task. -/
def answers (s : CacheWorld ρ ι) (i : ι) (request : ApiRequest) (current : ρ)
    (notModified : Bool) : CacheWorld ρ ι :=
  { s with
    answered := Function.update s.answered i ((request, current, notModified) :: s.answered i) }

/-- What one call does; the map may list its entries in any order. -/
def Steps (origin : Origin ρ) (i : ι) (s : CacheWorld ρ ι)
    (c : CacheCall) (a : c.Answer) (t : CacheWorld ρ ι) : Prop :=
  match c, a with
  | .validators key, a => a = (s.entries.find? key).map (·.validators) ∧ t = s
  | .send _ _, .error _ => t = s
  | .send request sent, .ok response => ∃ current,
      Serves origin request.resource sent current response ∧
        t = s.answers i request.resource current (response.status = 304)
  | .now, _ => t = s
  | .cachedFor key sent now, a => a = (s.entries.cachedFor key sent now).1 ∧
      t = { s with entries := (s.entries.cachedFor key sent now).2 }
  | .store key response now, _ => ∃ listing : CacheEntries.Listing,
      t = { s with entries := s.entries.store listing key response now }
  | .retainRecent now, _ => t = { s with entries := s.entries.retainRecent now }

/-- The calls of one task; it stores complete answers only. -/
def calls (origin : Origin ρ) (i : ι) :
    Contract CacheCall CacheCall.Answer (CacheWorld ρ ι) where
  requires _ c := match c with
    | .store key response _ => ∃ request : ApiRequest, request.Delimited ∧
        key = request.cacheKey ∧ Complete origin request response
    | _ => True
  steps := Steps origin i

end CacheWorld

/-- The entry is what a request was answered with in full. -/
def Vouched (origin : Origin ρ) (entry : CacheEntry) : Prop :=
  ∃ request : ApiRequest, request.Delimited ∧ entry.key = request.cacheKey ∧
    entry.response.status ≠ 304 ∧
    origin.carried request entry.validators = origin.content entry.response

/-- The invariant of the cache. -/
def CacheEntries.Sound (origin : Origin ρ)
    (entries : CacheEntries) : Prop :=
  entries.rows.length ≤ maxEntries ∧ ∀ entry ∈ entries.rows, Vouched origin entry

namespace CacheEntries

variable {entries : CacheEntries} {entry : CacheEntry} {key : String} {response : ApiResponse}
  {now : Timestamp}

theorem oldest_eq_none (h : entries.oldest = none) : entries.rows = [] :=
  List.argmin_eq_none.mp h

theorem oldest_mem (h : entries.oldest = some entry) : entry ∈ entries.rows :=
  List.argmin_mem h

theorem oldest_le (h : entries.oldest = some entry) {other : CacheEntry}
    (hother : other ∈ entries.rows) : entry.lastUsed ≤ other.lastUsed :=
  List.le_of_mem_argmin hother h

theorem length_shedOldest {turns : Nat} (h : entries.rows.length ≤ turns) :
    (shedOldest turns entries).rows.length = min entries.rows.length maxEntries := by
  induction turns generalizing entries with
  | zero => rw [shedOldest, Nat.le_zero.mp h, Nat.zero_min]
  | succ turns ih =>
    rw [shedOldest]
    split
    case isTrue hmany =>
      split
      case h_1 hnone =>
        rw [oldest_eq_none hnone] at hmany
        exact absurd hmany (by decide)
      case h_2 oldest holdest =>
        have hlength := Table.length_erase (oldest_mem holdest)
        rw [ih (by omega), hlength]
        omega
    case isFalse hfew => rw [Nat.min_eq_left (Nat.le_of_not_lt hfew)]

/-- What goes is no younger than what stays. -/
theorem shedOldest_oldest (turns : Nat) (entries : CacheEntries) :
    (shedOldest turns entries).rows ⊆ entries.rows ∧
    ∀ entry ∈ entries.rows, entry ∉ (shedOldest turns entries).rows →
      ∀ kept ∈ (shedOldest turns entries).rows, entry.lastUsed ≤ kept.lastUsed := by
  induction turns generalizing entries with
  | zero => exact ⟨List.Subset.refl _, fun entry hentry hgone ↦ absurd hentry hgone⟩
  | succ turns ih =>
    rw [shedOldest]
    split
    case isFalse => exact ⟨List.Subset.refl _, fun entry hentry hgone ↦ absurd hentry hgone⟩
    case isTrue =>
      split
      case h_1 => exact ⟨List.Subset.refl _, fun entry hentry hgone ↦ absurd hentry hgone⟩
      case h_2 oldest holdest =>
        obtain ⟨hsubset, hrest⟩ := ih (entries.erase oldest.key)
        have hkept : ∀ kept ∈ (shedOldest turns (entries.erase oldest.key)).rows,
            kept ∈ entries.rows := fun kept hmem ↦ (Table.mem_erase.mp (hsubset hmem)).1
        refine ⟨hkept, fun entry hentry hgone kept hmem ↦ ?_⟩
        -- What goes is the oldest itself in this turn, or it goes in a later one.
        by_cases hkey : entry.key = oldest.key
        · rw [entries.eq_of_key hentry (oldest_mem holdest) hkey]
          exact oldest_le holdest (hkept kept hmem)
        · exact hrest entry (Table.mem_erase.mpr ⟨hentry, hkey⟩) hgone kept hmem

theorem store_eq (listing : Listing) (entries : CacheEntries) (key : String) (now : Timestamp)
    (hstored : (Validators.of response).isEmpty = false) : ∃ kept : CacheEntries,
      entries.store listing key response now = shedOldest kept.rows.length kept ∧
      kept.rows ⊆ (entries.put ⟨key, Validators.of response, response, now⟩).rows ∧
      ∀ entry ∈ (entries.put ⟨key, Validators.of response, response, now⟩).rows,
        entry ∉ kept.rows → idleEntryTtl ≤ now - entry.lastUsed := by
  have hlisted := listing.perm (entries.put ⟨key, Validators.of response, response, now⟩)
  rw [store, hstored, if_neg Bool.false_ne_true]
  refine ⟨_, rfl, ?_⟩
  split
  case isTrue =>
    refine ⟨fun entry hentry ↦ hlisted.subset (List.mem_filter.mp hentry).1,
      fun entry hentry hgone ↦ ?_⟩
    by_contra hrecent
    exact hgone (List.mem_filter.mpr
      ⟨hlisted.mem_iff.mpr hentry, decide_eq_true (not_le.mp hrecent)⟩)
  case isFalse =>
    exact ⟨hlisted.subset, fun entry hentry hgone ↦ absurd (hlisted.mem_iff.mpr hentry) hgone⟩

theorem store_parts (listing : Listing) (entries : CacheEntries) (key : String)
    (now : Timestamp) (hstored : (Validators.of response).isEmpty = false) :
    (entries.store listing key response now).rows.length ≤ maxEntries ∧
    ∀ entry ∈ (entries.store listing key response now).rows,
      entry = ⟨key, Validators.of response, response, now⟩ ∨
        entry ∈ entries.rows ∧ entry.key ≠ key := by
  obtain ⟨kept, hstore, hsubset, -⟩ := store_eq listing entries key now hstored
  rw [hstore]
  refine ⟨?_, fun entry hentry ↦ ?_⟩
  · rw [length_shedOldest (Nat.le_refl _)]
    exact Nat.min_le_right _ _
  · exact Table.mem_put.mp (hsubset ((shedOldest_oldest _ kept).1 hentry))

/-- A full cache gives up what was idle for long, or else the oldest: nothing that goes is younger
than what stays, and the answer that is stored stays if everything else is older. -/
theorem store_recent (listing : Listing) (entries : CacheEntries) (key : String)
    (now : Timestamp) (hstored : (Validators.of response).isEmpty = false) :
    (∀ entry ∈ entries.rows, entry.key ≠ key →
      entry ∉ (entries.store listing key response now).rows → idleEntryTtl ≤ now - entry.lastUsed ∨
        ∀ kept ∈ (entries.store listing key response now).rows, entry.lastUsed ≤ kept.lastUsed) ∧
    ((∀ entry ∈ entries.rows, entry.lastUsed < now) →
      (entries.store listing key response now).find? key =
        some ⟨key, Validators.of response, response, now⟩) := by
  obtain ⟨-, hparts⟩ := store_parts listing entries key now hstored
  obtain ⟨kept, hstore, -, hidle⟩ := store_eq listing entries key now hstored
  obtain ⟨-, holdest⟩ := shedOldest_oldest kept.rows.length kept
  have hlength := length_shedOldest (Nat.le_refl kept.rows.length)
  rw [hstore] at hparts ⊢
  refine ⟨fun entry hentry hother hgone ↦ ?_, fun hpast ↦ ?_⟩
  · by_cases hin : entry ∈ kept.rows
    · exact .inr (holdest entry hin hgone)
    · exact .inl (hidle entry (Table.mem_put.mpr (.inr ⟨hentry, hother⟩)) hin)
  · rw [Table.find?_eq_some_iff]
    refine ⟨by_contra fun hgone ↦ ?_, rfl⟩
    have hself : (⟨key, Validators.of response, response, now⟩ : CacheEntry) ∈ kept.rows := by
      by_contra hlost
      have hlong := hidle _ (Table.mem_put.mpr (.inl rfl)) hlost
      rw [Int.sub_self] at hlong
      exact absurd hlong (by decide)
    -- Something stays, and if it is not the answer then it is older than the answer.
    have hpos : 0 < (shedOldest kept.rows.length kept).rows.length := by
      rw [hlength]
      exact lt_min (List.length_pos_of_mem hself) (by decide)
    obtain ⟨other, hother⟩ := List.exists_mem_of_length_pos hpos
    obtain rfl | ⟨hin, -⟩ := hparts other hother
    · exact hgone hother
    · exact absurd (hpast other hin) (not_lt.mpr (holdest _ hself hgone other hother))

namespace Sound

variable {origin : Origin ρ}

theorem empty : Sound origin Table.empty :=
  ⟨Nat.zero_le _, fun _ hentry ↦ by cases hentry⟩

theorem erase (h : entries.Sound origin) (key : String) : Sound origin (entries.erase key) :=
  ⟨(List.length_filter_le _ _).trans h.1,
    fun entry hentry ↦ h.2 entry (Table.mem_erase.mp hentry).1⟩

theorem retainRecent (h : entries.Sound origin) (now : Timestamp) :
    (entries.retainRecent now).Sound origin :=
  ⟨(List.length_filter_le _ _).trans h.1,
    fun entry hentry ↦ h.2 entry (List.mem_filter.mp hentry).1⟩

theorem cachedFor (h : entries.Sound origin) (key : String) (sent : Option Validators)
    (now : Timestamp) : (entries.cachedFor key sent now).2.Sound origin := by
  unfold CacheEntries.cachedFor
  split
  case h_1 entry hfind =>
    split
    case isTrue =>
      have hentry := (Table.find?_eq_some_iff.mp hfind).1
      refine ⟨?_, fun other hother ↦ ?_⟩
      · have hlength := Table.length_erase hentry
        have hpos := List.length_pos_of_mem hentry
        show (entries.erase entry.key).rows.length + 1 ≤ maxEntries
        have hle := h.1
        omega
      · obtain rfl | ⟨hin, -⟩ := Table.mem_put.mp hother
        · exact h.2 entry hentry
        · exact h.2 other hin
    case isFalse => exact h
  case h_2 => exact h

theorem store (h : entries.Sound origin) {request : ApiRequest} (hrequest : request.Delimited)
    (hcomplete : Complete origin request response) (listing : Listing) (now : Timestamp) :
    (entries.store listing request.cacheKey response now).Sound origin := by
  cases hstored : (Validators.of response).isEmpty with
  | true =>
    rw [CacheEntries.store, hstored, if_pos rfl]
    exact h.erase _
  | false =>
    obtain ⟨hlength, hparts⟩ := store_parts listing entries request.cacheKey now hstored
    refine ⟨hlength, fun entry hentry ↦ ?_⟩
    obtain rfl | ⟨hin, -⟩ := hparts entry hentry
    · exact ⟨request, hrequest, rfl, hcomplete.status, hcomplete.carried hstored⟩
    · exact h.2 entry hin

/-- The cached answer to the validators that were sent is what carried them. -/
theorem cached (h : entries.Sound origin) {request : ApiRequest} (hrequest : request.Delimited)
    {sent : Option Validators}
    (hcached : (entries.cachedFor request.cacheKey sent now).1 = some response) :
    ∃ validators, sent = some validators ∧ response.status ≠ 304 ∧
      origin.carried request validators = origin.content response := by
  unfold CacheEntries.cachedFor at hcached
  split at hcached
  case h_1 entry hfind =>
    split at hcached
    case isTrue hsent =>
      obtain ⟨hentry, hkey⟩ := Table.find?_eq_some_iff.mp hfind
      obtain ⟨other, hother, hkey', hstatus, hcarried⟩ := h.2 entry hentry
      obtain rfl := ApiRequest.cacheKey_inj hother hrequest (hkey'.symm.trans hkey)
      obtain rfl := Option.some.inj hcached
      exact ⟨entry.validators, hsent.symm, hstatus, hcarried⟩
    case isFalse => cases hcached
  case h_2 => cases hcached

end Sound

end CacheEntries

namespace CacheWorld

variable {ι : Type} [DecidableEq ι] {origin : Origin ρ}
  {s t : CacheWorld ρ ι} {i j : ι}

theorem sound_step (c : CacheCall) (a : c.Answer) (h : s.entries.Sound origin)
    (hrequires : (calls origin i).requires s c) (hstep : Steps origin i s c a t) :
    t.entries.Sound origin := by
  cases c with
  | validators key =>
    obtain ⟨-, rfl⟩ := hstep
    exact h
  | send request sent =>
    cases a with
    | error e =>
      obtain rfl : t = s := hstep
      exact h
    | ok response =>
      obtain ⟨current, -, rfl⟩ := hstep
      exact h
  | now =>
    obtain rfl : t = s := hstep
    exact h
  | cachedFor key sent now =>
    obtain ⟨-, rfl⟩ := hstep
    exact h.cachedFor key sent now
  | store key response now =>
    obtain ⟨request, hrequest, rfl, hcomplete⟩ := hrequires
    obtain ⟨listing, rfl⟩ := hstep
    exact h.store hrequest hcomplete listing now
  | retainRecent now =>
    obtain rfl : t = _ := hstep
    exact h.retainRecent now

/-- GitHub answered nothing to a task. -/
def Unasked (i : ι) (s t : CacheWorld ρ ι) : Prop :=
  t.answered i = s.answered i

/-- A call of one task leaves the record of the others alone. -/
theorem unasked_step (c : CacheCall) (a : c.Answer) (hij : i ≠ j)
    (hstep : Steps origin j s c a t) : Unasked i s t := by
  cases c with
  | validators | cachedFor =>
    obtain ⟨-, rfl⟩ := hstep
    rfl
  | send request sent =>
    cases a with
    | error e =>
      obtain rfl : t = s := hstep
      rfl
    | ok response =>
      obtain ⟨current, -, rfl⟩ := hstep
      exact Function.update_of_ne hij _ _
  | now | retainRecent =>
    obtain rfl : t = _ := hstep
    rfl
  | store key response now =>
    obtain ⟨listing, rfl⟩ := hstep
    rfl

/-- What a send hands on is complete, and GitHub had it when it answered this send. -/
def Shows (s : CacheWorld ρ ι) (origin : Origin ρ) (i : ι) (request : ApiRequest)
    (fetched : Fetched) : Prop :=
  fetched.response.status ≠ 304 ∧
    (request, origin.content fetched.response, fetched.notModified) ∈ s.answered i

/-- A task as the others leave it. -/
def taskCalls (origin : Origin ρ) (i : ι) :
    Contract CacheCall CacheCall.Answer (CacheWorld ρ ι) :=
  (calls origin i).under (·.entries.Sound origin) (Unasked i)

/-- A complete answer is stored and handed on. -/
theorem store_wp {request : ApiRequest} {response : ApiResponse} (hrequest : request.Delimited)
    (hcomplete : Complete origin request response) (now : Timestamp)
    (hasked : (request, origin.content response, false) ∈ s.answered i) :
    (taskCalls origin i).wp
      (do
        ConditionalCache.ask (.store request.cacheKey response now)
        return (⟨response, false⟩ : Fetched))
      (fun result t ↦ ∀ fetched, result = .ok fetched → t.Shows origin i request fetched) s := by
  refine ⟨fun _ _ _ ↦ ⟨request, hrequest, rfl, hcomplete⟩, ?_⟩
  rintro _ s ⟨s, hrely, -, listing, rfl⟩ fetched hfetched
  obtain rfl := Except.ok.inj hfetched
  exact ⟨hcomplete.status, hrely ▸ hasked⟩

theorem send_wp {request : ApiRequest} (hrequest : request.Delimited) (s : CacheWorld ρ ι) (i : ι) :
    (taskCalls origin i).wp (ConditionalCache.send request)
      (fun result t ↦ ∀ fetched, result = .ok fetched → t.Shows origin i request fetched) s := by
  refine ⟨fun _ _ _ ↦ trivial, ?_⟩
  rintro validators s ⟨s, -, -, -, rfl⟩
  obtain ⟨hresource, hknown⟩ := hrequest.sentFor validators
  refine ⟨fun _ _ _ ↦ trivial, ?_⟩
  rintro (e | response) s ⟨s, -, -, hanswer⟩
  · exact fun fetched h ↦ by cases h
  obtain ⟨current, hserves, rfl⟩ := hanswer
  rw [hresource] at hserves ⊢
  refine ⟨fun _ _ _ ↦ trivial, ?_⟩
  rintro now s ⟨s, hrely, -, rfl⟩
  have hasked : (request, current, decide (response.status = 304)) ∈ s.answered i := by
    rw [hrely]
    simp [answers]
  cases hserves with
  | full hcomplete hcurrent =>
    -- The answer is complete, whatever was sent: it is stored and handed on.
    obtain rfl := hcurrent
    dsimp only [Program.andThen]
    rw [if_neg hcomplete.status]
    exact store_wp hrequest hcomplete now (by simpa [hcomplete.status] using hasked)
  | notModified sent hsent hcurrent hstatus =>
    dsimp only [Program.andThen]
    rw [if_pos hstatus]
    rw [hstatus, hcurrent] at hasked
    refine ⟨fun _ _ _ ↦ trivial, ?_⟩
    rintro (_ | cached) s ⟨s, hrely, hsound, hcached, rfl⟩
    · -- The entry is gone: the request is sent again, without validators.
      refine ⟨fun _ _ _ ↦ trivial, ?_⟩
      rintro (e | response) s ⟨s, -, -, hanswer⟩
      · exact fun fetched h ↦ by cases h
      obtain ⟨current, hserves, rfl⟩ := hanswer
      rw [hrequest.resource] at hserves ⊢
      cases hserves with
      | full hcomplete hcurrent =>
        obtain rfl := hcurrent
        exact store_wp hrequest hcomplete now (by simp [answers, hcomplete.status])
      | notModified sent hsent => cases hsent
    · -- What is cached now carries the validators that were sent, whoever stored it.
      rintro fetched hfetched
      obtain rfl := Except.ok.inj hfetched
      obtain ⟨known, hentry, hcomplete, hcarried⟩ := hsound.cached hrequest hcached.symm
      obtain rfl : known = sent := Option.some.inj (hentry.symm.trans (hknown sent hsent))
      refine ⟨hcomplete, ?_⟩
      show (request, origin.content cached, true) ∈ s.answered i
      rw [hrely, ← hcarried]
      simpa using hasked

/-- The tasks before their first call, over an empty cache. -/
def fresh (ρ : Type) (tasks : ι → CacheTask) :
    Pool CacheCall CacheCall.Answer GithubError (Option Fetched) (CacheWorld ρ ι) ι where
  shared := ⟨Table.empty, fun _ ↦ []⟩
  point i := (tasks i).run

theorem run_wp (task : CacheTask) (htask : ∀ request, task = .send request → request.Delimited)
    (s : CacheWorld ρ ι) (i : ι) : (taskCalls origin i).wp task.run
      (fun result t ↦ ∀ request fetched, task = .send request → result = .ok (some fetched) →
        t.Shows origin i request fetched) s := by
  cases task with
  | send request =>
    refine Contract.wp_seq (send_wp (htask request rfl) s i) (fun fetched t hshows ↦ ?_)
      fun e t _ ↦ ?_
    · rintro _ _ ⟨⟩ ⟨⟩
      exact hshows fetched rfl
    · exact fun _ _ _ h ↦ by cases h
  | evictIdle =>
    refine ⟨fun _ _ _ ↦ trivial, fun now s _ ↦ ⟨fun _ _ _ ↦ trivial, ?_⟩⟩
    rintro _ s - request fetched ⟨⟩

/-- Whatever the sends ask for and however they are interleaved with each other, with evictions and
with the changes at GitHub: a send hands on what GitHub had when it answered this send, complete,
and says of it truly whether that was a `304`. The cache never outgrows its limit, and each of its
entries is the complete answer that its validators vouch for. -/
theorem fetched_current {tasks : ι → CacheTask}
    (htasks : ∀ i request, tasks i = .send request → request.Delimited)
    {log : List (Occurrence (CacheWorld ρ ι) ι)}
    {Q : Pool CacheCall CacheCall.Answer GithubError (Option Fetched) (CacheWorld ρ ι) ι}
    (h : Contract.Interleaves (calls origin) (fresh ρ tasks) log Q) :
    Q.shared.entries.Sound origin ∧ ∀ i request fetched, tasks i = .send request →
      Q.point i = .done (.ok (some fetched)) → Q.shared.Shows origin i request fetched := by
  have hrefl (i : ι) (s : CacheWorld ρ ι) : Unasked i s s := rfl
  have hkept (i : ι) (result : Except GithubError (Option Fetched)) (s t : CacheWorld ρ ι)
      (hrely : Unasked i s t) (hshows : ∀ request fetched, tasks i = .send request →
        result = .ok (some fetched) → s.Shows origin i request fetched) (request : ApiRequest)
      (fetched : Fetched) (htask : tasks i = .send request)
      (hresult : result = .ok (some fetched)) : t.Shows origin i request fetched := by
    obtain ⟨hstatus, hmem⟩ := hshows request fetched htask hresult
    refine ⟨hstatus, ?_⟩
    rw [hrely]
    exact hmem
  have hstart (i : ι) :
      (taskCalls origin i).wp ((fresh ρ tasks).point i) _ (fresh ρ tasks).shared :=
    run_wp (tasks i) (htasks i) _ i
  obtain ⟨hsound, hmeets⟩ := Contract.Interleaves.sound hrefl
    (fun _ _ _ _ hst htu ↦ htu.trans hst)
    (fun _ _ c a _ hs hrequires hstep ↦ sound_step c a hs hrequires hstep)
    (fun _ _ _ c a _ hij _ _ hstep ↦ unasked_step c a hij hstep) hkept
    CacheEntries.Sound.empty hstart h
  refine ⟨hsound, fun i request fetched htask hdone ↦ ?_⟩
  have hend := hmeets i
  rw [hdone] at hend
  exact hend request fetched htask rfl

def quietListing : ApiRequest :=
  .get "/r"

/-- What GitHub answers all the time. -/
def quietAnswer : ApiResponse :=
  ⟨200, [("etag", [97])], []⟩

/-- Validators vouch for the body. -/
def quietOrigin : Origin (List UInt8) :=
  ⟨ApiResponse.body, fun _ _ ↦ []⟩

/-- The map lists its entries from the last one stored on. -/
def latestFirst : CacheEntries.Listing :=
  ⟨id, fun _ ↦ .refl _⟩

/-- A listing that nothing changes is sent for twice, the second time it comes from the cache. -/
theorem quiet_listing_cached : ∃ log Q,
    Contract.Interleaves (calls quietOrigin) (fresh _ fun _ : Bool ↦ .send quietListing) log Q ∧
    Q.point true = .done (.ok (some ⟨quietAnswer, true⟩)) ∧
    Q.shared.Shows quietOrigin true quietListing ⟨quietAnswer, true⟩ := by
  have hlisting : quietListing.Delimited :=
    ⟨rfl, by decide, by decide, by decide, fun _ h ↦ absurd h List.not_mem_nil⟩
  have hcomplete : Complete quietOrigin quietListing quietAnswer :=
    ⟨by decide, fun _ ↦ rfl⟩
  have h0 := Contract.Interleaves.start (C := calls quietOrigin)
    (fresh _ fun _ : Bool ↦ .send quietListing)
  have h1 := h0.advance false (.validators quietListing.cacheKey) none _ rfl ⟨rfl, rfl⟩
  have h2 := h1.advance false (.send quietListing none) (.ok quietAnswer) _ rfl
    ⟨_, .full hcomplete rfl, rfl⟩
  have h3 := h2.advance false .now (0 : Int) _ rfl rfl
  have h4 := h3.advance false (.store quietListing.cacheKey quietAnswer 0) () _ rfl
    ⟨latestFirst, rfl⟩
  have h5 := h4.advance true (.validators quietListing.cacheKey)
    (some (Validators.of quietAnswer)) _ rfl ⟨rfl, rfl⟩
  have h6 := h5.advance true (.send { quietListing with conditional := true }
    (some (Validators.of quietAnswer))) (.ok ⟨304, [], []⟩) _ rfl
    ⟨_, .notModified _ rfl rfl rfl, rfl⟩
  have h7 := h6.advance true .now (0 : Int) _ rfl rfl
  have h8 := h7.advance true (.cachedFor quietListing.cacheKey (some (Validators.of quietAnswer)) 0)
    (some quietAnswer) _ rfl ⟨rfl, rfl⟩
  refine ⟨_, _, h8, rfl, (fetched_current ?_ h8).2 true quietListing _ rfl rfl⟩
  rintro _ _ ⟨⟩
  exact hlisting

end CacheWorld

/-- The answer to a second listing is stored beside the first. -/
theorem CacheEntries.quiet_answer_stored :
    (CacheEntries.store CacheWorld.latestFirst
      (Table.empty.put ⟨"GET /q", ⟨some "q", none⟩, CacheWorld.quietAnswer, 3⟩) "GET /r"
      CacheWorld.quietAnswer 7).find? "GET /r" =
        some ⟨"GET /r", ⟨some "a", none⟩, CacheWorld.quietAnswer, 7⟩ :=
  (CacheEntries.store_recent CacheWorld.latestFirst
    (Table.empty.put ⟨"GET /q", ⟨some "q", none⟩, CacheWorld.quietAnswer, 3⟩) "GET /r" 7
    (by decide)).2 (by decide)

end RunnerManager.Github
