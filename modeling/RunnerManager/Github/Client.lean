import RunnerManager.Lib.Interleaving
import RunnerManager.Lib.Text
import RunnerManager.Domain.Model

/-!
# The authenticated client

`AuthenticatedClient` of `crates/github/src/lib.rs`. Any number of callers share one client: its
credential, its re-validation generation and gate, and its lockout. A `ClientCall` is what a caller
does to the client or asks of the network at once, and `send`, `revalidate` and the replacement of
an expiring credential are programs over these calls. `Client.Steps` says what a call does, and
keeps a record of what the callers did that the results are about.
-/

namespace RunnerManager.Github

open RunnerManager.Text RunnerManager.Domain

/-! ## Requests and responses -/

/-- A parsed URL: what is compared of it, and its text. -/
structure Url where
  scheme : String
  host : String
  port : Nat
  text : String
deriving DecidableEq

/-- `Url::parse` and `Url::join` of the `url` crate. -/
structure UrlLibrary where
  parse : String → Option Url
  join : Url → String → Option Url

/-- `ApiRequest`, less its body. -/
structure ApiRequest where
  method : String
  path : String
  query : List (String × String)
  conditional : Bool
deriving DecidableEq

def ApiRequest.get (path : String) : ApiRequest :=
  ⟨"GET", path, [], false⟩

/-- `ApiResponse`; the names of the headers are in lower case. -/
structure ApiResponse where
  status : Nat
  headers : List (String × List UInt8)
  body : List UInt8
deriving DecidableEq

namespace ApiResponse

def headerValue (response : ApiResponse) (name : String) : Option (List UInt8) :=
  (response.headers.find? fun entry ↦ entry.1 = name).map (·.2)

/-- `HeaderValue::to_str`: visible ASCII and the tab are text. -/
def headerText (value : List UInt8) : Option String :=
  if value.all fun byte ↦ (32 ≤ byte && byte < 127) || byte == 9 then
    some (String.ofList (value.map fun byte ↦ Char.ofNat byte.toNat))
  else none

def header (response : ApiResponse) (name : String) : Option String :=
  (response.headerValue name).bind headerText

def isSuccess (response : ApiResponse) : Bool :=
  200 ≤ response.status && response.status < 300

end ApiResponse

/-- `GithubError`, less the rendered details. -/
inductive GithubError where
  | transport
  | malformed (what value : String)
  | decode (what : String)
  | authenticationLockout (retryAfter : Nat)
  | authenticationFailed
  | forbidden (method path : String) (message : Option String)
  | status (code : Nat) (method path : String) (message : Option String)
deriving DecidableEq

/-- `Attempt`: which of a request's two attempts a response answers. -/
inductive Attempt where
  | first
  | retry
deriving DecidableEq

/-! ## Lockouts -/

def secondsOf (n : Nat) : Nat := n * 1000000000

def defaultLockoutBackoff : Nat := secondsOf 60

def maxLockoutBackoff : Nat := secondsOf (15 * 60)

/-- The digits of a number, most significant first. -/
def readDigits (cs : List Char) : Option Nat :=
  if cs.isEmpty || !cs.all (fun c ↦ '0' ≤ c && c ≤ '9') then none
  else some (cs.foldl (fun n c ↦ n * 10 + (c.toNat - '0'.toNat)) 0)

/-- `str::parse::<u64>`: one plus sign may lead. -/
def readU64 (cs : List Char) : Option Nat :=
  let digits := match cs with
    | '+' :: rest => rest
    | _ => cs
  (readDigits digits).filter fun n ↦ n < 2 ^ 64

def retryAfter (response : ApiResponse) : Option Nat :=
  (response.header "retry-after").bind fun value ↦
    (readU64 (trim value.toList)).map secondsOf

/-- The back-off of `latch_lockout`. It always fits a `TimeDelta`, because it is clamped. -/
def latchBackoff (response : ApiResponse) : Nat :=
  min ((retryAfter response).getD defaultLockoutBackoff) maxLockoutBackoff

/-! ## Credentials -/

/-- `UserAccessToken`, less its type, scope and expiries. -/
structure UserAccessToken where
  secret : String
  refreshToken : Option String
deriving DecidableEq

inductive RenewalError where
  | declined (reason : String)
  | failed (detail : String)
deriving DecidableEq

inductive Revalidation where
  | valid
  | rejected
  | unavailable
deriving DecidableEq

/-- What a caller that samples the generation is about to do. -/
inductive Purpose where
  | reload
  | renew
  | probe
deriving DecidableEq

/-! ## Calls -/

/-- One call. A sample and the check after the gate load the same counter; a swap compares the
tokens and replaces the credential under its lock. -/
inductive ClientCall where
  | lockoutRemaining
  | latch (response : ApiResponse)
  | bearer
  | start (url : Url) (request : ApiRequest) (token : String)
  | receive
  | sleep
  | sample (purpose : Purpose)
  | lockGate
  | recheck
  | unlockGate
  | reload
  | refreshToken
  | renew (refresh : String)
  | swap (fresh : UserAccessToken)
  | lastRevalidation
  | record (outcome : Revalidation)
  | count

abbrev ClientCall.Answer : ClientCall → Type
  | lockoutRemaining => Option Nat
  | latch _ => Unit
  | bearer => String
  | start .. => Unit
  | receive => Except GithubError ApiResponse
  | sleep => Unit
  | sample _ => Nat
  | lockGate => Unit
  | recheck => Nat
  | unlockGate => Unit
  | reload => Option UserAccessToken
  | refreshToken => Option String
  | renew _ => Except RenewalError UserAccessToken
  | swap _ => Bool
  | lastRevalidation => Revalidation
  | record _ => Unit
  | count => Unit

abbrev ClientProgram := Program ClientCall ClientCall.Answer GithubError

/-- How a response is classified. -/
inductive Classified where
  | ok
  | unauthorized
  | error (error : GithubError)
deriving DecidableEq

/-- The parts of a client that do not change. -/
structure Client where
  urls : UrlLibrary
  apiBase : Url
  hasSource : Bool
  hasRenewal : Bool
  /-- The `message` of an error body, where it can be read. -/
  readMessage : List UInt8 → Option String

namespace Client

variable (client : Client)

def ask (c : ClientCall) : ClientProgram c.Answer :=
  .perform c

def errorMessage (body : List UInt8) : Option String :=
  (client.readMessage body).filter fun message ↦ message ≠ ""

def isRateLimited (response : ApiResponse) : Bool :=
  response.status = 429 ||
    (response.header "x-ratelimit-remaining").any (fun value ↦ trim value.toList = ['0']) ||
    (client.errorMessage response.body).any fun message ↦
      contains "rate limit".toList (foldAscii message.toList)

def isLockoutContinuation (response : ApiResponse) : Bool :=
  (response.headerValue "retry-after").isSome && (client.errorMessage response.body).isNone

def isLockout403 (response : ApiResponse) (attempt : Attempt) : Bool :=
  if client.isRateLimited response then false
  else
    match attempt with
    | .retry => true
    | .first => client.isLockoutContinuation response

def resolve (path : String) : Except GithubError Url :=
  if "http://".toList.isPrefixOf path.toList || "https://".toList.isPrefixOf path.toList then
    match client.urls.parse path with
    | some url => .ok url
    | none => .error (.malformed "an absolute request URL" path)
  else
    match client.urls.join client.apiBase (String.ofList (path.toList.dropWhile (· = '/'))) with
    | some url => .ok url
    | none => .error (.malformed "a request path" path)

def sendRaw (request : ApiRequest) : ClientProgram ApiResponse := do
  let url ← .ofExcept id (client.resolve request.path)
  let token ← ask .bearer
  ask (.start url request token)
  .ofExcept id (← ask .receive)

def classify (request : ApiRequest) (response : ApiResponse) (attempt : Attempt) :
    ClientProgram Classified :=
  if response.isSuccess || (response.status = 304 && request.conditional) then return .ok
  else if response.status = 401 then return .unauthorized
  else if response.status = 403 && client.isLockout403 response attempt then do
    ask (.latch response)
    return .error (.authenticationLockout (latchBackoff response))
  else
    let message := client.errorMessage response.body
    if response.status = 403 then return .error (.forbidden request.method request.path message)
    else return .error (.status response.status request.method request.path message)

def swapCredentialOnce (purpose : Purpose) (produce : ClientProgram (Option UserAccessToken)) :
    ClientProgram Bool := do
  let before ← ask (.sample purpose)
  ask .lockGate
  if (← ask .recheck) ≠ before then
    ask .unlockGate
    return true
  else
    match ← produce with
    | none =>
      ask .unlockGate
      return false
    | some fresh =>
      if ← ask (.swap fresh) then
        ask .count
        ask .unlockGate
        return true
      else
        ask .unlockGate
        return false

def reloadOnce : ClientProgram Bool :=
  if client.hasSource then swapCredentialOnce .reload (ask .reload) else return false

/-- What `renew_once` finds to replace the credential with. -/
def produceRenewed : ClientProgram (Option UserAccessToken) := do
  match ← ask .refreshToken with
  | none => return none
  | some refresh =>
    match ← ask (.renew refresh) with
    | .ok fresh => return some fresh
    | .error _ => return none

def renewOnce : ClientProgram Bool :=
  if client.hasRenewal then swapCredentialOnce .renew produceRenewed else return false

/-- A different credential is found or minted, as after a `401` and before an expiry. -/
def replaceOnce : ClientProgram Bool := do
  if ← client.reloadOnce then return true else client.renewOnce

/-- `REVALIDATION_PATH` and the query of the probe. -/
def probeRequest : ApiRequest :=
  ⟨"GET", "/user/installations", [("per_page", "1")], false⟩

def probeCredential (attempt : Attempt) : ClientProgram Revalidation := do
  match ← (client.sendRaw probeRequest).outcome with
  | .error _ => return .unavailable
  | .ok response =>
    if response.isSuccess then return .valid
    else if response.status = 401 then return .rejected
    else if response.status = 403 && client.isLockout403 response attempt then
      ask (.latch response)
      return .unavailable
    else return .unavailable

/-- The outcome of another caller's re-validation, or of a probe of this one's own. -/
def sharedOrProbed (attempt : Attempt) (sampled : Nat) : ClientProgram Revalidation := do
  if (← ask .recheck) ≠ sampled then ask .lastRevalidation
  else
    let fresh ← client.probeCredential attempt
    ask (.record fresh)
    ask .count
    return fresh

/-- `AuthenticatedClient::revalidate_from`; the gate is let go of at its end. -/
def revalidateFrom (attempt : Attempt) : ClientProgram Revalidation := do
  match ← ask .lockoutRemaining with
  | some remaining => .fail (.authenticationLockout remaining)
  | none =>
    let sampled ← ask (.sample .probe)
    ask .lockGate
    let outcome ← client.sharedOrProbed attempt sampled
    let remaining ← ask .lockoutRemaining
    ask .unlockGate
    match remaining with
    | some remaining => .fail (.authenticationLockout remaining)
    | none => return outcome

def retryOnce (request : ApiRequest) : ClientProgram ApiResponse := do
  let second ← client.sendRaw request
  match ← client.classify request second .retry with
  | .ok => return second
  | .unauthorized => .fail .authenticationFailed
  | .error error => .fail error

def revalidateAndRetryOnce (request : ApiRequest) : ClientProgram ApiResponse := do
  ask .sleep
  if ← client.replaceOnce then client.retryOnce request
  else
    match ← client.revalidateFrom .retry with
    | .rejected => .fail .authenticationFailed
    | .valid | .unavailable =>
      match ← ask .lockoutRemaining with
      | some remaining => .fail (.authenticationLockout remaining)
      | none => client.retryOnce request

def send (request : ApiRequest) : ClientProgram ApiResponse := do
  match ← ask .lockoutRemaining with
  | some remaining => .fail (.authenticationLockout remaining)
  | none =>
    let first ← client.sendRaw request
    match ← client.classify request first .first with
    | .ok => return first
    | .unauthorized => client.revalidateAndRetryOnce request
    | .error error => .fail error

/-- What a caller asks of the client. -/
inductive Task where
  | send (request : ApiRequest)
  | revalidate
  | replace
deriving DecidableEq

/-- What a caller is answered. -/
inductive Reply where
  | response (response : ApiResponse)
  | revalidated (outcome : Revalidation)
  | replaced (different : Bool)
deriving DecidableEq

/-- The program of a task. The replacement is that of `renew_if_expiring_within`, once it is
due. -/
def Task.program : Task → ClientProgram Reply
  | send request => do return .response (← client.send request)
  | revalidate => do return .revalidated (← client.revalidateFrom .first)
  | replace => do return .replaced (← client.replaceOnce)

end Client

/-! ## The shared client -/

/-- What a caller sampled before it queued for the gate: the generation, the access token in hand,
and how many probes had been recorded. -/
structure Sample where
  purpose : Purpose
  generation : Nat
  token : String
  recorded : Nat
deriving DecidableEq

/-- Where a caller is between its sample and the end of its turn at the gate. -/
inductive Phase where
  | idle
  | waiting (sample : Sample)
  | holding (sample : Sample)
  | renewed (sample : Sample) (fresh : UserAccessToken)
  | changed (sample : Sample)
  | leaving
deriving DecidableEq

/-- What is recorded of a caller. -/
structure Caller where
  /-- The access token of its last request. -/
  sentWith : Option String
  /-- The access token of its last request that was answered `401`. -/
  own : Option String
  phase : Phase
  /-- A lockout was latched since it last found none. -/
  latchedSince : Bool
deriving DecidableEq

/-- A refresh token that was handed to the renewal, the token of the caller's own `401`, the token
in hand, and whether a pair came back. -/
structure Handed where
  own : Option String
  inHand : String
  refresh : String
  exchanged : Bool
deriving DecidableEq

/-- A latched lockout: when, its end, and the end that was in force before. -/
structure Latched where
  time : Timestamp
  ends : Timestamp
  before : Option Timestamp
deriving DecidableEq

/-- The state of a client, and the record of the run. -/
structure Shared (ι : Type) where
  now : Timestamp
  credential : UserAccessToken
  generation : Nat
  gate : Option ι
  lastRevalidation : Revalidation
  lockedUntil : Option Timestamp
  callers : ι → Caller
  /-- The access tokens that were in hand before. -/
  past : List String
  recorded : Nat
  handed : List Handed
  /-- For each swap that answered `true`, the token when it was called and the token then. -/
  swaps : List (String × String)
  /-- For each outcome that was reused, how many were recorded at the sample and by then. -/
  reuses : List (Nat × Nat)
  /-- For each request, when it was started and the end of the lockout then. -/
  wire : List (Timestamp × Option Timestamp)
  latches : List Latched

namespace Shared

variable {ι : Type} [DecidableEq ι]

def note (s : Shared ι) (i : ι) (change : Caller → Caller) : Shared ι :=
  { s with callers := Function.update s.callers i (change (s.callers i)) }

theorem note_callers (s : Shared ι) (i : ι) (change : Caller → Caller) (j : ι) :
    (s.note i change).callers j = if j = i then change (s.callers i) else s.callers j :=
  Function.update_apply _ _ _ _

def enter (s : Shared ι) (i : ι) (phase : Phase) : Shared ι :=
  s.note i fun caller ↦ { caller with phase }

/-- `AuthenticatedClient::lockout_remaining`. -/
def remaining (s : Shared ι) : Option Nat :=
  s.lockedUntil.bind fun ends ↦ if ends ≤ s.now then none else some (ends - s.now).toNat

/-- The part of `latch_lockout` under the lock. -/
def latch (s : Shared ι) (response : ApiResponse) : Shared ι :=
  let ends := s.now + latchBackoff response
  { s with
    lockedUntil := some ends
    latches := s.latches ++ [⟨s.now, ends, s.lockedUntil⟩]
    callers := fun j ↦ { s.callers j with latchedSince := true } }

/-- A caller has the gate and finds its sample current, or finds that somebody was faster. -/
def turn (s : Shared ι) (i : ι) : Shared ι :=
  match (s.callers i).phase with
  | .waiting sample =>
    if s.generation = sample.generation then s.enter i (.holding sample)
    else if sample.purpose = .probe then
      { s with reuses := s.reuses ++ [(sample.recorded, s.recorded)] }.enter i .leaving
    else
      { s with swaps := s.swaps ++ [(sample.token, s.credential.secret)] }.enter i .leaving
  | _ => s

/-- The sample of a caller at the gate. -/
def sampleOf (s : Shared ι) (i : ι) : Option Sample :=
  match (s.callers i).phase with
  | .holding sample | .renewed sample _ | .changed sample => some sample
  | _ => none

/-- A caller has changed what the generation counts. -/
def change (s : Shared ι) (i : ι) : Shared ι :=
  match s.sampleOf i with
  | some sample => s.enter i (.changed sample)
  | none => s

/-- A caller counts its change. -/
def count (s : Shared ι) (i : ι) : Shared ι :=
  let counted := { s with generation := s.generation + 1 }
  match s.sampleOf i with
  | some sample =>
    if sample.purpose = .probe then counted.enter i .leaving
    else
      { counted with swaps := s.swaps ++ [(sample.token, s.credential.secret)] }.enter i .leaving
  | none => counted

/-- A refresh token is handed to the renewal. -/
def hand (s : Shared ι) (i : ι) (refresh : String)
    (answer : Except RenewalError UserAccessToken) : Shared ι :=
  let exchanged := match answer with
    | .ok _ => true
    | .error _ => false
  let handed := { s with
    handed := s.handed ++ [⟨(s.callers i).own, s.credential.secret, refresh, exchanged⟩] }
  match answer, s.sampleOf i with
  | .ok fresh, some sample => handed.enter i (.renewed sample fresh)
  | _, _ => handed

def Does (i : ι) (s : Shared ι) (c : ClientCall) (answer : c.Answer) (t : Shared ι) : Prop :=
  match c, answer with
  | .lockoutRemaining, remaining => remaining = s.remaining ∧
      t = if remaining = none then s.note i fun caller ↦ { caller with latchedSince := false }
        else s
  | .latch response, _ => t = s.latch response
  | .bearer, token => token = s.credential.secret ∧ t = s
  | .start _ _ token, _ => t = { s with wire := s.wire ++ [(s.now, s.lockedUntil)] }.note i
      fun caller ↦ { caller with sentWith := some token }
  | .receive, .ok response => t = if response.status = 401 then
      s.note i fun caller ↦ { caller with own := caller.sentWith } else s
  | .sample purpose, generation => generation = s.generation ∧
      t = s.enter i (.waiting ⟨purpose, s.generation, s.credential.secret, s.recorded⟩)
  | .lockGate, _ => s.gate = none ∧ t = { s with gate := some i }
  | .recheck, generation => generation = s.generation ∧ t = s.turn i
  | .unlockGate, _ => t = { s with gate := none }.enter i .idle
  | .refreshToken, refresh => refresh = s.credential.refreshToken ∧ t = s
  | .renew refresh, renewed => t = s.hand i refresh renewed
  | .swap fresh, swapped => swapped = decide (fresh.secret ≠ s.credential.secret) ∧
      t = if swapped = true then
        { s with credential := fresh, past := s.past ++ [s.credential.secret] }.change i else s
  | .lastRevalidation, outcome => outcome = s.lastRevalidation ∧ t = s
  | .record outcome, _ =>
    t = { s with lastRevalidation := outcome, recorded := s.recorded + 1 }.change i
  | .count, _ => t = s.count i
  | _, _ => t = s

/-- What a call does, and the time that passes until the next one. -/
def Steps (i : ι) (s : Shared ι) (c : ClientCall) (answer : c.Answer) (t : Shared ι) : Prop :=
  ∃ u now, s.Does i c answer u ∧ u.now ≤ now ∧ t = { u with now }

theorem Does.steps {i : ι} {s t : Shared ι} {c : ClientCall} {answer : c.Answer}
    (h : s.Does i c answer t) : s.Steps i c answer t :=
  ⟨t, t.now, h, Int.le_refl _, rfl⟩

end Shared

/-- What the callers do, whatever they do. -/
def clientCalls {ι : Type} [DecidableEq ι] (i : ι) :
    Contract ClientCall ClientCall.Answer (Shared ι) where
  requires _ _ := True
  steps := Shared.Steps i

abbrev ClientPool (ι : Type) :=
  Pool ClientCall ClientCall.Answer GithubError Client.Reply (Shared ι) ι

/-- A client that nobody has called yet, and what its callers are about to ask. -/
structure ClientPool.Starts {ι : Type} (P : ClientPool ι) (client : Client)
    (tasks : ι → Client.Task) : Prop where
  points : ∀ i, P.point i = (tasks i).program client
  gate : P.shared.gate = none
  lockedUntil : P.shared.lockedUntil = none
  callers : ∀ i, P.shared.callers i = ⟨none, none, .idle, false⟩
  past : P.shared.past = []
  handed : P.shared.handed = []
  swaps : P.shared.swaps = []
  reuses : P.shared.reuses = []
  wire : P.shared.wire = []
  latches : P.shared.latches = []

/-- A client at time zero with a given credential. -/
def ClientPool.fresh {ι : Type} (client : Client) (tasks : ι → Client.Task)
    (credential : UserAccessToken) : ClientPool ι where
  point i := (tasks i).program client
  shared :=
    { now := 0, credential, generation := 0, gate := none, lastRevalidation := .unavailable
      lockedUntil := none, callers := fun _ ↦ ⟨none, none, .idle, false⟩, past := []
      recorded := 0, handed := [], swaps := [], reuses := [], wire := [], latches := [] }

theorem ClientPool.fresh_starts {ι : Type} (client : Client) (tasks : ι → Client.Task)
    (credential : UserAccessToken) :
    (ClientPool.fresh client tasks credential).Starts client tasks :=
  ⟨fun _ ↦ rfl, rfl, rfl, fun _ ↦ rfl, rfl, rfl, rfl, rfl, rfl, rfl⟩

end RunnerManager.Github
