import RunnerManager.Github.Client
import RunnerManager.Lib.Loop

/-!
# The device login

`DeviceFlow::start` and `DeviceFlow::complete` of `crates/github/src/device_flow.rs`. The loop
sleeps, polls once, and adds what it slept to the time that is spent; a `slow_down` lengthens the
interval, and a failure that says nothing about the login is absorbed a few times in a row.
`login_law_iff` says for which authorizations the loop is as patient and as finite as it should be.
-/

namespace RunnerManager.Github

/-! ## Durations -/

/-- `Duration::MAX`. -/
@[irreducible]
def durationMax : Nat := (2 ^ 64 - 1) * 1000000000 + 999999999

/-- `Duration::saturating_add`. -/
def durationAdd (a b : Nat) : Nat := min (a + b) durationMax

def slowDownIncrement : Nat := secondsOf 5

def defaultPollInterval : Nat := secondsOf 5

def maxTransportRetries : Nat := 5

/-! ## Answers -/

/-- `DeviceFlowError`, less the underlying errors and that of the configuration. -/
inductive DeviceFlowError where
  | accessDenied
  | expired
  | incorrectDeviceCode
  | appMisconfigured (code : String)
  | unexpected (code : String)
  | untrustedVerificationUri (origin : Url)
  | transport
  | status (status : Nat) (stage : String)
  | decode (stage : String)
  | malformed (what value : String)
deriving DecidableEq

def DeviceFlowError.isRetryable : DeviceFlowError → Bool
  | transport => true
  | status code _ => 500 ≤ code && code < 600
  | accessDenied | expired | incorrectDeviceCode | appMisconfigured _ | unexpected _
  | untrustedVerificationUri _ | decode _ | malformed .. => false

/-- What comes back for a request: no response, or its status and body. A body that is not the
protocol's JSON reads as nothing. -/
inductive WireAnswer (β : Type) where
  | transport
  | response (status : Nat) (body : Option β)
deriving DecidableEq

structure RawDeviceCode where
  deviceCode : String
  userCode : String
  verificationUri : String
  expiresIn : Option UInt64
  interval : Option UInt64
deriving DecidableEq

structure RawTokenResponse where
  accessToken : Option String
  tokenType : Option String
  scope : Option String
  refreshToken : Option String
  expiresIn : Option UInt64
  refreshTokenExpiresIn : Option UInt64
  error : Option String
  interval : Option UInt64
deriving DecidableEq

/-- What an approval hands out. The clock turns the lifetimes into instants. -/
structure ApprovedToken where
  secret : String
  tokenType : String
  scope : Option String
  refreshToken : Option String
  expiresIn : Option UInt64
  refreshTokenExpiresIn : Option UInt64
deriving DecidableEq

inductive PollOutcome where
  | pending
  | slowDown (interval : Nat)
  | approved (token : ApprovedToken)
deriving DecidableEq

structure DeviceAuthorization where
  deviceCode : String
  userCode : String
  verificationUri : Url
  expiresIn : Nat
  interval : Nat
deriving DecidableEq

namespace DeviceFlow

def isSuccess (status : Nat) : Bool :=
  200 ≤ status && status < 300

/-- `DeviceFlow::start`. The code is typed on the origin of the web host only. -/
def start (urls : UrlLibrary) (webBase : Url) :
    WireAnswer RawDeviceCode → Except DeviceFlowError DeviceAuthorization
  | .transport => .error .transport
  | .response status body =>
    if !isSuccess status then .error (.status status "device code request")
    else match body with
      | none => .error (.decode "device code")
      | some raw =>
        match urls.parse raw.verificationUri with
        | none => .error (.malformed "a verification URL" raw.verificationUri)
        | some url =>
          if url.scheme ≠ webBase.scheme ∨ url.host ≠ webBase.host ∨
              url.port ≠ webBase.port then
            .error (.untrustedVerificationUri url)
          else
            .ok {
              deviceCode := raw.deviceCode
              userCode := raw.userCode
              verificationUri := url
              expiresIn := secondsOf ((raw.expiresIn.map UInt64.toNat).getD 900)
              interval := (raw.interval.map fun secs ↦ secondsOf secs.toNat).getD
                defaultPollInterval }

def slowed (current : Nat) (advertised : Option Nat) : Nat :=
  let floor := durationAdd current slowDownIncrement
  (advertised.map fun advertised ↦ max advertised floor).getD floor

def interpretError (code : String) (advertised : Option UInt64) (current : Nat) :
    Except DeviceFlowError PollOutcome :=
  match code with
  | "authorization_pending" => .ok .pending
  | "slow_down" =>
    .ok (.slowDown (slowed current (advertised.map fun secs ↦ secondsOf secs.toNat)))
  | "expired_token" => .error .expired
  | "access_denied" => .error .accessDenied
  | "incorrect_device_code" => .error .incorrectDeviceCode
  | "unsupported_grant_type" | "incorrect_client_credentials" | "device_flow_disabled" =>
    .error (.appMisconfigured code)
  | other => .error (.unexpected other)

/-- `DeviceFlow::poll_once_from`: what is made of an answer. The error field goes before the
status, the status before the token. -/
def pollOnceFrom (answer : WireAnswer RawTokenResponse) (current : Nat) :
    Except DeviceFlowError PollOutcome :=
  match answer with
  | .transport => .error .transport
  | .response status none =>
    if isSuccess status then .error (.decode "access token")
    else .error (.status status "access token request")
  | .response status (some raw) =>
    match raw.error with
    | some code => interpretError code raw.interval current
    | none =>
      if !isSuccess status then .error (.status status "access token request")
      else match raw.accessToken with
        | none =>
          .error (.malformed "an access token response"
            "neither an access token nor an error")
        | some secret =>
          .ok (.approved {
            secret
            tokenType := raw.tokenType.getD "bearer"
            scope := raw.scope.filter (· ≠ "")
            refreshToken := raw.refreshToken
            expiresIn := raw.expiresIn
            refreshTokenExpiresIn := raw.refreshTokenExpiresIn })

/-! ## The loop -/

/-- The locals of `complete`. -/
structure LoginState where
  interval : Nat
  elapsed : Nat
  consecutiveRetryable : Nat
deriving DecidableEq

variable (authorization : DeviceAuthorization)

/-- The end of a turn: the local backstop, once the lifetime of the code is spent. -/
def goOn (next : LoginState) : LoginState ⊕ Except DeviceFlowError ApprovedToken :=
  if authorization.expiresIn ≤ next.elapsed then .inr (.error .expired) else .inl next

/-- A turn of `DeviceFlow::complete`: it slept the interval, and this is what the poll answered. -/
def turn (state : LoginState) (answer : WireAnswer RawTokenResponse) :
    LoginState ⊕ Except DeviceFlowError ApprovedToken :=
  let elapsed := durationAdd state.elapsed state.interval
  match pollOnceFrom answer state.interval with
  | .ok (.approved token) => .inr (.ok token)
  | .ok (.slowDown next) => goOn authorization ⟨next, elapsed, 0⟩
  | .ok .pending => goOn authorization ⟨state.interval, elapsed, 0⟩
  | .error failure =>
    if failure.isRetryable && state.consecutiveRetryable < maxTransportRetries then
      goOn authorization ⟨state.interval, elapsed, state.consecutiveRetryable + 1⟩
    else .inr (.error failure)

/-- The locals before the first turn. -/
def initial : LoginState := ⟨authorization.interval, 0, 0⟩

/-- The answers of the server, without end. -/
abbrev Answers := Nat → WireAnswer RawTokenResponse

variable (answers : Answers)

/-- The state before a turn, if the loop gets there. -/
def reached (n : Nat) : Option LoginState :=
  Loop.reached (turn authorization) (initial authorization) answers n

/-- What `DeviceFlow::complete` returns in a turn. -/
def returned (n : Nat) : Option (Except DeviceFlowError ApprovedToken) :=
  Loop.ended (turn authorization) (initial authorization) answers n

/-- What is observed of the loop. -/
inductive LoginEvent where
  | slept (interval : Nat)
  | polled (interval : Nat)
deriving DecidableEq

/-- What the loop does in its first turns: each sleeps the interval and polls with it. -/
def events : Nat → List LoginEvent
  | 0 => []
  | n + 1 => events n ++ match reached authorization answers n with
    | some state => [.slept state.interval, .polled state.interval]
    | none => []

/-! ## The law -/

/-- `authorization_pending`. -/
def Pends (answer : WireAnswer RawTokenResponse) : Prop :=
  ∃ status raw, answer = .response status (some raw) ∧ raw.error = some "authorization_pending"

/-- `slow_down`. -/
def SlowsDown (answer : WireAnswer RawTokenResponse) : Prop :=
  ∃ status raw, answer = .response status (some raw) ∧ raw.error = some "slow_down"

/-- No response, or one from a server that failed and said nothing of the login. -/
def Fails (answer : WireAnswer RawTokenResponse) : Prop :=
  answer = .transport ∨ ∃ status body, answer = .response status body ∧
    500 ≤ status ∧ status < 600 ∧ ∀ raw, body = some raw → raw.error = none

def Approves (answer : WireAnswer RawTokenResponse) (token : ApprovedToken) : Prop :=
  ∃ status raw secret, answer = .response status (some raw) ∧ isSuccess status = true ∧
    raw.error = none ∧ raw.accessToken = some secret ∧ token = {
      secret
      tokenType := raw.tokenType.getD "bearer"
      scope := raw.scope.filter (· ≠ "")
      refreshToken := raw.refreshToken
      expiresIn := raw.expiresIn
      refreshTokenExpiresIn := raw.refreshTokenExpiresIn }

/-- The terminal members of the error matrix. -/
def errorMatrix : List (String × DeviceFlowError) :=
  [("expired_token", .expired),
   ("access_denied", .accessDenied),
   ("incorrect_device_code", .incorrectDeviceCode),
   ("unsupported_grant_type", .appMisconfigured "unsupported_grant_type"),
   ("incorrect_client_credentials", .appMisconfigured "incorrect_client_credentials"),
   ("device_flow_disabled", .appMisconfigured "device_flow_disabled")]

/-- The interval in force before each poll, by the answers alone. -/
def inForce : Nat → Nat
  | 0 => authorization.interval
  | n + 1 => match pollOnceFrom (answers n) (inForce n) with
    | .ok (.slowDown next) => next
    | _ => inForce n

/-- How long the first intervals are together. -/
def waited (n : Nat) : Nat := ((List.range n).map (inForce authorization answers)).sum

/-- What a login asks of the loop, for one course of answers. -/
structure LoginLaw : Prop where
  /-- The loop polls finitely often, and returns. -/
  finite : ∃ n, (∀ m, n ≤ m → reached authorization answers m = none) ∧
    ∃ m < n, ∃ result, returned authorization answers m = some result
  /-- Each poll comes right after a sleep of the interval in force. -/
  spaced : ∀ n front interval rest,
    events authorization answers n = front ++ .polled interval :: rest →
      ∃ earlier slept, front = earlier ++ [.slept slept] ∧ interval ≤ slept
  /-- The interval never decreases, and each `slow_down` adds the increment. -/
  lengthens : ∀ n state next, reached authorization answers n = some state →
    reached authorization answers (n + 1) = some next → state.interval ≤ next.interval ∧
      (SlowsDown (answers n) → state.interval + slowDownIncrement ≤ next.interval)
  /-- No more failures in a row are absorbed than there are retries. -/
  absorbed : ∀ n count state, reached authorization answers (n + count) = some state →
    (∀ k < count, Fails (answers (n + k))) → count ≤ maxTransportRetries
  /-- A terminal error ends the loop at once. -/
  terminal : ∀ n state status raw code failure, reached authorization answers n = some state →
    answers n = .response status (some raw) → raw.error = some code →
      (code, failure) ∈ errorMatrix → returned authorization answers n = some (.error failure)
  /-- An approval is returned if only pending, `slow_down` and absorbed failures came before it,
  within the lifetime of the code. -/
  approved : ∀ n token, Approves (answers n) token →
    (∀ k < n, Pends (answers k) ∨ SlowsDown (answers k) ∨ Fails (answers k)) →
    (∀ k count, k + count ≤ n → (∀ j < count, Fails (answers (k + j))) →
      count ≤ maxTransportRetries) →
    (n = 0 ∨ waited authorization answers n < authorization.expiresIn) →
      returned authorization answers n = some (.ok token)

/-- The authorizations the loop is right for: some time passes from poll to poll, or none is left;
and adding the increment stays within the range of a duration for as long as the loop goes on. -/
structure LoginBounded (authorization : DeviceAuthorization) : Prop where
  passes : 0 < authorization.interval ∨ authorization.expiresIn = 0
  first : authorization.expiresIn ≤ authorization.interval ∨
    authorization.interval < secondsOf (2 ^ 64 - 5)
  later : authorization.expiresIn ≤ authorization.interval + secondsOf (2 ^ 64 - 5)

/-! ## Answers read -/

section

variable {answer : WireAnswer RawTokenResponse} (current : Nat)

theorem poll_of_pends (h : Pends answer) : pollOnceFrom answer current = .ok .pending := by
  obtain ⟨status, raw, rfl, herror⟩ := h
  simp only [pollOnceFrom, herror]
  rfl

theorem poll_of_slowsDown (h : SlowsDown answer) : ∃ advertised : Option UInt64, ∀ current,
    pollOnceFrom answer current =
      .ok (.slowDown (slowed current (advertised.map fun secs ↦ secondsOf secs.toNat))) := by
  obtain ⟨status, raw, rfl, herror⟩ := h
  exact ⟨raw.interval, fun current ↦ by
    simp only [pollOnceFrom, herror]
    rfl⟩

theorem poll_of_fails (h : Fails answer) :
    ∃ failure, pollOnceFrom answer current = .error failure ∧ failure.isRetryable = true := by
  rcases h with rfl | ⟨status, body, rfl, hlow, hhigh, hsilent⟩
  · exact ⟨.transport, rfl, rfl⟩
  · have hunsuccessful : isSuccess status = false := by
      simp only [isSuccess, Bool.and_eq_false_iff, decide_eq_false_iff_not]
      omega
    refine ⟨.status status "access token request", ?_, by simp [DeviceFlowError.isRetryable, *]⟩
    cases body with
    | none => simp [pollOnceFrom, hunsuccessful]
    | some raw => simp [pollOnceFrom, hunsuccessful, hsilent raw rfl]

theorem poll_of_approves {token : ApprovedToken} (h : Approves answer token) :
    pollOnceFrom answer current = .ok (.approved token) := by
  obtain ⟨status, raw, secret, rfl, hstatus, herror, htoken, rfl⟩ := h
  simp [pollOnceFrom, hstatus, herror, htoken]

theorem interpretError_of_matrix {code : String} {failure : DeviceFlowError}
    (h : (code, failure) ∈ errorMatrix) (advertised : Option UInt64) :
    interpretError code advertised current = .error failure ∧ failure.isRetryable = false := by
  simp only [errorMatrix, List.mem_cons, Prod.mk.injEq, List.not_mem_nil, or_false] at h
  rcases h with ⟨rfl, rfl⟩ | ⟨rfl, rfl⟩ | ⟨rfl, rfl⟩ | ⟨rfl, rfl⟩ | ⟨rfl, rfl⟩ | ⟨rfl, rfl⟩ <;>
    exact ⟨rfl, rfl⟩

theorem slowed_of_poll {next : Nat} (h : pollOnceFrom answer current = .ok (.slowDown next)) :
    ∃ advertised : Option UInt64,
      next = slowed current (advertised.map fun secs ↦ secondsOf secs.toNat) := by
  have hread (code : String) (advertised : Option UInt64)
      (hcode : interpretError code advertised current = .ok (.slowDown next)) :
      ∃ advertised : Option UInt64,
        next = slowed current (advertised.map fun secs ↦ secondsOf secs.toNat) := by
    unfold interpretError at hcode
    split at hcode <;> cases hcode
    exact ⟨advertised, rfl⟩
  unfold pollOnceFrom at h
  split at h
  · cases h
  · split_ifs at h
  · split at h
    · exact hread _ _ h
    · split_ifs at h
      split at h <;> cases h

end

/-! ## Turns -/

theorem durationMax_eq : durationMax = 18446744073709551615999999999 := by
  unfold durationMax
  rfl

theorem secondsOf_lt (secs : UInt64) : secondsOf secs.toNat ≤ durationMax := by
  have hlt := secs.toNat_lt
  rw [durationMax_eq]
  unfold secondsOf
  omega

theorem slowed_none (current : Nat) :
    slowed current none = min (current + slowDownIncrement) durationMax := by
  unfold slowed
  dsimp only
  rw [Option.map_none, Option.getD_none, durationAdd]

theorem slowed_some (current advertised : Nat) : slowed current (some advertised) =
    max advertised (min (current + slowDownIncrement) durationMax) := by
  unfold slowed
  dsimp only
  rw [Option.map_some, Option.getD_some, durationAdd]

theorem le_slowed {current : Nat} (hcurrent : current ≤ durationMax) (advertised : Option Nat) :
    current ≤ slowed current advertised := by
  cases advertised with
  | none =>
    rw [slowed_none]
    omega
  | some advertised =>
    rw [slowed_some]
    omega

theorem slowed_le_max (current : Nat) (advertised : Option UInt64) :
    slowed current (advertised.map fun secs ↦ secondsOf secs.toNat) ≤ durationMax := by
  cases advertised with
  | none =>
    rw [Option.map_none, slowed_none]
    exact Nat.min_le_right _ _
  | some secs =>
    have hsecs := secondsOf_lt secs
    rw [Option.map_some, slowed_some]
    omega

theorem slowed_advertised {current advertised : Nat}
    (h : current + slowDownIncrement ≤ advertised) :
    slowed current (some advertised) = advertised := by
  rw [slowed_some]
  omega

theorem increment_le_slowed {current : Nat} (hroom : current + slowDownIncrement ≤ durationMax)
    (advertised : Option Nat) : current + slowDownIncrement ≤ slowed current advertised := by
  cases advertised with
  | none =>
    rw [slowed_none]
    omega
  | some advertised =>
    rw [slowed_some]
    omega

variable {authorization} {answers}

theorem goOn_eq_inl {next t : LoginState} :
    goOn authorization next = .inl t ↔ next = t ∧ next.elapsed < authorization.expiresIn := by
  unfold goOn
  split_ifs with h
  · simp only [false_iff, not_and, not_lt]
    exact fun _ ↦ h
  · simp only [Sum.inl.injEq, iff_self_and]
    exact fun _ ↦ Nat.not_le.mp h

/-- What every turn that goes on does to the locals. -/
structure Goes (authorization : DeviceAuthorization) (s t : LoginState) : Prop where
  elapsed : t.elapsed = durationAdd s.elapsed s.interval
  open_ : t.elapsed < authorization.expiresIn
  longer : s.interval ≤ t.interval
  inRange : t.interval ≤ durationMax
  retries : t.consecutiveRetryable ≤ maxTransportRetries

theorem turn_goes {s t : LoginState} {answer : WireAnswer RawTokenResponse}
    (hrange : s.interval ≤ durationMax) (h : turn authorization s answer = .inl t) :
    Goes authorization s t := by
  unfold turn at h
  dsimp only at h
  cases hpoll : pollOnceFrom answer s.interval with
  | error failure =>
    rw [hpoll] at h
    dsimp only at h
    split_ifs at h with habsorbed
    obtain ⟨rfl, hopen⟩ := goOn_eq_inl.mp h
    simp only [Bool.and_eq_true, decide_eq_true_eq] at habsorbed
    exact ⟨rfl, hopen, Nat.le_refl _, hrange, habsorbed.2⟩
  | ok outcome =>
    rw [hpoll] at h
    cases outcome with
    | approved token => cases h
    | pending =>
      obtain ⟨rfl, hopen⟩ := goOn_eq_inl.mp h
      exact ⟨rfl, hopen, Nat.le_refl _, hrange, Nat.zero_le _⟩
    | slowDown next =>
      obtain ⟨rfl, hopen⟩ := goOn_eq_inl.mp h
      obtain ⟨advertised, rfl⟩ := slowed_of_poll s.interval hpoll
      exact ⟨rfl, hopen, le_slowed hrange _, slowed_le_max _ advertised, Nat.zero_le _⟩

theorem turn_fails {s t : LoginState} {answer : WireAnswer RawTokenResponse} (hfails : Fails answer)
    (h : turn authorization s answer = .inl t) :
    t.consecutiveRetryable = s.consecutiveRetryable + 1 := by
  obtain ⟨failure, hpoll, hretryable⟩ := poll_of_fails s.interval hfails
  unfold turn at h
  rw [hpoll] at h
  dsimp only at h
  split_ifs at h
  obtain ⟨rfl, -⟩ := goOn_eq_inl.mp h
  rfl

/-! ## The loop so far -/

theorem reached_succ {n : Nat} {t : LoginState} :
    reached authorization answers (n + 1) = some t ↔ ∃ s,
      reached authorization answers n = some s ∧ turn authorization s (answers n) = .inl t :=
  Loop.reached_succ

theorem inForce_succ (n : Nat) : inForce authorization answers (n + 1) =
    match pollOnceFrom (answers n) (inForce authorization answers n) with
    | .ok (.slowDown next) => next
    | _ => inForce authorization answers n := rfl

theorem waited_succ (n : Nat) : waited authorization answers (n + 1) =
    waited authorization answers n + inForce authorization answers n := by
  simp [waited, List.range_succ]

/-- Where the loop gets, the interval is the one in force and the time spent is what was waited. -/
structure OnSchedule (authorization : DeviceAuthorization) (answers : Answers) (n : Nat)
    (s : LoginState) : Prop where
  interval : s.interval = inForce authorization answers n
  inRange : s.interval ≤ durationMax
  elapsed : s.elapsed = min (waited authorization answers n) durationMax
  open_ : n ≠ 0 → s.elapsed < authorization.expiresIn
  least : authorization.interval ≤ s.interval
  retries : s.consecutiveRetryable ≤ maxTransportRetries

theorem turn_inForce {s t : LoginState} {n : Nat}
    (hs : s.interval = inForce authorization answers n)
    (h : turn authorization s (answers n) = .inl t) :
    t.interval = inForce authorization answers (n + 1) := by
  rw [inForce_succ, ← hs]
  unfold turn at h
  dsimp only at h
  cases hpoll : pollOnceFrom (answers n) s.interval with
  | error failure =>
    rw [hpoll] at h
    dsimp only at h
    split_ifs at h
    obtain ⟨rfl, -⟩ := goOn_eq_inl.mp h
    rfl
  | ok outcome =>
    rw [hpoll] at h
    cases outcome with
    | approved token => cases h
    | pending | slowDown next =>
      obtain ⟨rfl, -⟩ := goOn_eq_inl.mp h
      rfl

section

variable (hinitial : authorization.interval ≤ durationMax)

include hinitial

theorem onSchedule {n : Nat} {s : LoginState} (h : reached authorization answers n = some s) :
    OnSchedule authorization answers n s := by
  refine Loop.invariant (I := OnSchedule authorization answers) ?_ ?_ h
  · exact ⟨rfl, hinitial, (Nat.zero_min durationMax).symm, fun h ↦ absurd rfl h, Nat.le_refl _,
      Nat.zero_le _⟩
  · intro n s t hs hturn
    have hgoes := turn_goes hs.inRange hturn
    refine ⟨turn_inForce hs.interval hturn, hgoes.inRange, ?_, fun _ ↦ hgoes.open_,
      hs.least.trans hgoes.longer, hgoes.retries⟩
    rw [hgoes.elapsed, waited_succ, durationAdd, hs.elapsed, ← hs.interval]
    omega

theorem waited_lt (hexpires : authorization.expiresIn ≤ durationMax) {n : Nat} {s : LoginState}
    (h : reached authorization answers (n + 1) = some s) :
    waited authorization answers (n + 1) < authorization.expiresIn := by
  have hs := onSchedule hinitial h
  have hopen := hs.open_ (Nat.succ_ne_zero n)
  rw [hs.elapsed] at hopen
  omega

end

theorem waited_mono {n m : Nat} (h : n ≤ m) :
    waited authorization answers n ≤ waited authorization answers m := by
  induction h with
  | refl => exact Nat.le_refl _
  | step _ ih =>
    rw [waited_succ]
    exact Nat.le_add_right_of_le ih

/-! ## The parts of the law -/

theorem returned_of_failure {n : Nat} {s : LoginState} {failure : DeviceFlowError}
    (h : reached authorization answers n = some s)
    (hpoll : pollOnceFrom (answers n) s.interval = .error failure)
    (hterminal : failure.isRetryable = false) :
    returned authorization answers n = some (.error failure) := by
  have hturn : turn authorization s (answers n) = .inr (.error failure) := by
    unfold turn
    rw [hpoll]
    simp [hterminal]
  rw [reached] at h
  rw [returned, Loop.ended, h, Option.bind_some, hturn]
  rfl

theorem returned_of_approval {n : Nat} {s : LoginState} {token : ApprovedToken}
    (h : reached authorization answers n = some s) (happroves : Approves (answers n) token) :
    returned authorization answers n = some (.ok token) := by
  have hturn : turn authorization s (answers n) = .inr (.ok token) := by
    unfold turn
    rw [poll_of_approves s.interval happroves]
  rw [reached] at h
  rw [returned, Loop.ended, h, Option.bind_some, hturn]
  rfl

/-- Each poll of the loop comes right after a sleep. -/
theorem events_spaced (n : Nat) : ∀ front interval rest,
    events authorization answers n = front ++ .polled interval :: rest →
      ∃ earlier slept, front = earlier ++ [.slept slept] ∧ interval ≤ slept := by
  induction n with
  | zero =>
    intro front interval rest h
    cases front <;> cases h
  | succ n ih =>
    intro front interval rest h
    cases hstate : reached authorization answers n with
    | none =>
      rw [events, hstate, List.append_nil] at h
      exact ih front interval rest h
    | some state =>
      rw [events, hstate] at h
      have hpair : events authorization answers n ++
          [.slept state.interval, .polled state.interval] =
            (events authorization answers n ++ [.slept state.interval]) ++
              [.polled state.interval] := by simp
      rw [hpair] at h
      -- the poll is the last event, or an event of the turns before
      rcases List.eq_nil_or_concat rest with rfl | ⟨most, last, rfl⟩
      · obtain ⟨hfront, hlast⟩ := List.append_inj' h rfl
        obtain rfl := LoginEvent.polled.inj (List.singleton_inj.mp hlast)
        exact ⟨_, _, hfront.symm, Nat.le_refl _⟩
      · rw [List.concat_eq_append, ← List.cons_append, ← List.append_assoc] at h
        obtain ⟨hfront, -⟩ := List.append_inj' h rfl
        rcases List.eq_nil_or_concat most with rfl | ⟨most, other, rfl⟩
        · obtain ⟨-, hlast⟩ := List.append_inj' hfront rfl
          cases List.singleton_inj.mp hlast
        · rw [List.concat_eq_append, ← List.cons_append, ← List.append_assoc] at hfront
          exact ih front interval most (List.append_inj' hfront rfl).1

theorem le_retries {n count : Nat} {s : LoginState}
    (h : reached authorization answers (n + count) = some s)
    (hfails : ∀ k < count, Fails (answers (n + k))) : count ≤ s.consecutiveRetryable := by
  induction count generalizing s with
  | zero => exact Nat.zero_le _
  | succ count ih =>
    obtain ⟨previous, hprevious, hturn⟩ := reached_succ.mp h
    have hcount := ih hprevious fun k hk ↦ hfails k (Nat.lt_succ_of_lt hk)
    rw [turn_fails (hfails count (Nat.lt_succ_self count)) hturn]
    exact Nat.succ_le_succ hcount

theorem turn_waits {s : LoginState} {answer : WireAnswer RawTokenResponse}
    (hwaits : Pends answer ∨ SlowsDown answer ∨ Fails answer)
    (hretries : Fails answer → s.consecutiveRetryable < maxTransportRetries)
    (hopen : durationAdd s.elapsed s.interval < authorization.expiresIn) :
    ∃ t, turn authorization s answer = .inl t ∧ (t.consecutiveRetryable = 0 ∨
      Fails answer ∧ t.consecutiveRetryable = s.consecutiveRetryable + 1) := by
  rcases hwaits with hpends | hslow | hfails
  · refine ⟨⟨s.interval, durationAdd s.elapsed s.interval, 0⟩, ?_, .inl rfl⟩
    unfold turn
    rw [poll_of_pends s.interval hpends]
    exact goOn_eq_inl.mpr ⟨rfl, hopen⟩
  · obtain ⟨advertised, hpoll⟩ := poll_of_slowsDown hslow
    refine ⟨⟨slowed s.interval (advertised.map fun secs ↦ secondsOf secs.toNat),
      durationAdd s.elapsed s.interval, 0⟩, ?_, .inl rfl⟩
    unfold turn
    rw [hpoll]
    exact goOn_eq_inl.mpr ⟨rfl, hopen⟩
  · obtain ⟨failure, hpoll, hretryable⟩ := poll_of_fails s.interval hfails
    refine ⟨⟨s.interval, durationAdd s.elapsed s.interval, s.consecutiveRetryable + 1⟩, ?_,
      .inr ⟨hfails, rfl⟩⟩
    unfold turn
    rw [hpoll]
    dsimp only
    rw [hretryable, Bool.true_and, if_pos (decide_eq_true (hretries hfails))]
    exact goOn_eq_inl.mpr ⟨rfl, hopen⟩

/-- The loop gets to every turn before which it is only told to wait, within the lifetime and the
retries. -/
theorem reached_of_waits (hinitial : authorization.interval ≤ durationMax) {n : Nat}
    (hwaits : ∀ k < n, Pends (answers k) ∨ SlowsDown (answers k) ∨ Fails (answers k))
    (hbursts : ∀ k count, k + count ≤ n → (∀ j < count, Fails (answers (k + j))) →
      count ≤ maxTransportRetries)
    (hopen : n = 0 ∨ waited authorization answers n < authorization.expiresIn) :
    ∃ s, reached authorization answers n = some s := by
  have hall : ∀ m ≤ n, ∃ s, reached authorization answers m = some s ∧
      ∃ k, k + s.consecutiveRetryable = m ∧
        ∀ j < s.consecutiveRetryable, Fails (answers (k + j)) := by
    intro m
    induction m with
    | zero => exact fun _ ↦ ⟨initial authorization, rfl, 0, rfl, fun _ hj ↦ nomatch hj⟩
    | succ m ih =>
      intro hm
      obtain ⟨s, hs, k, hk, hburst⟩ := ih (Nat.le_of_succ_le hm)
      have hschedule := onSchedule hinitial hs
      have hspent : waited authorization answers n < authorization.expiresIn :=
        hopen.resolve_left (by omega)
      have hmost : durationAdd s.elapsed s.interval ≤ waited authorization answers n := by
        have hnext : waited authorization answers (m + 1) ≤ waited authorization answers n :=
          waited_mono hm
        rw [waited_succ, ← hschedule.interval] at hnext
        have hsum : durationAdd s.elapsed s.interval ≤ s.elapsed + s.interval :=
          Nat.min_le_left _ _
        have helapsed := hschedule.elapsed
        omega
      have hextended : Fails (answers m) →
          ∀ j < s.consecutiveRetryable + 1, Fails (answers (k + j)) := by
        intro hfails j hj
        rcases Nat.lt_or_eq_of_le (Nat.le_of_lt_succ hj) with hj | rfl
        · exact hburst j hj
        · exact hk ▸ hfails
      obtain ⟨t, hturn, hcount⟩ := turn_waits (hwaits m hm)
        (fun hfails ↦ hbursts k _ (by omega) (hextended hfails))
        (Nat.lt_of_le_of_lt hmost hspent)
      refine ⟨t, reached_succ.mpr ⟨s, hs, hturn⟩, ?_⟩
      rcases hcount with hzero | ⟨hfails, hcount⟩
      · exact ⟨m + 1, by rw [hzero, Nat.add_zero], fun j hj ↦ absurd hj (by omega)⟩
      · refine ⟨k, by omega, ?_⟩
        rw [hcount]
        exact hextended hfails
  obtain ⟨s, hs, -⟩ := hall n (Nat.le_refl n)
  exact ⟨s, hs⟩

/-! ## The law -/

/-- What `start` returns is within the range of its fields. -/
theorem start_ok {urls : UrlLibrary} {webBase : Url} {answer : WireAnswer RawDeviceCode}
    (h : start urls webBase answer = .ok authorization) :
    authorization.expiresIn ≤ durationMax ∧ authorization.interval ≤ durationMax ∧
      authorization.expiresIn ≤ secondsOf (2 ^ 64 - 1) := by
  have hexpires (raw : Option UInt64) :
      secondsOf ((raw.map UInt64.toNat).getD 900) ≤ durationMax ∧
        secondsOf ((raw.map UInt64.toNat).getD 900) ≤ secondsOf (2 ^ 64 - 1) := by
    cases raw with
    | none =>
      rw [durationMax_eq]
      decide
    | some secs =>
      have hsecs := secs.toNat_lt
      refine ⟨secondsOf_lt secs, ?_⟩
      rw [Option.map_some, Option.getD_some]
      unfold secondsOf
      omega
  have hinterval (raw : Option UInt64) :
      (raw.map fun secs ↦ secondsOf secs.toNat).getD defaultPollInterval ≤ durationMax := by
    cases raw with
    | none =>
      rw [durationMax_eq]
      decide
    | some secs => exact secondsOf_lt secs
  unfold start at h
  split at h
  · cases h
  · split_ifs at h
    split at h
    · cases h
    · split at h
      · cases h
      · split_ifs at h
        obtain rfl := Except.ok.inj h
        exact ⟨(hexpires _).1, hinterval _, (hexpires _).2⟩

def errorAnswer (code : String) (interval : Option UInt64) : WireAnswer RawTokenResponse :=
  .response 200 (some ⟨none, none, none, none, none, none, some code, interval⟩)

theorem slowDownIncrement_eq : slowDownIncrement = 5000000000 := rfl

theorem reached_zero : reached authorization answers 0 = some (initial authorization) := rfl

theorem reached_slow (advertised : Option UInt64) {n : Nat} {s : LoginState}
    (h : reached authorization (fun _ ↦ errorAnswer "slow_down" advertised) n = some s)
    (hopen : durationAdd s.elapsed s.interval < authorization.expiresIn) :
    reached authorization (fun _ ↦ errorAnswer "slow_down" advertised) (n + 1) =
      some ⟨slowed s.interval (advertised.map fun secs ↦ secondsOf secs.toNat),
        durationAdd s.elapsed s.interval, 0⟩ :=
  reached_succ.mpr ⟨s, h, goOn_eq_inl.mpr ⟨rfl, hopen⟩⟩

theorem slowsDown_errorAnswer (advertised : Option UInt64) :
    SlowsDown (errorAnswer "slow_down" advertised) := ⟨_, _, rfl, rfl⟩

theorem bounded_of_law (hexpires : authorization.expiresIn ≤ secondsOf (2 ^ 64 - 1))
    (hlaw : ∀ answers, LoginLaw authorization answers) : LoginBounded authorization := by
  have hmax := durationMax_eq
  have hincrement := slowDownIncrement_eq
  have hroom : secondsOf (2 ^ 64 - 5) = 18446744073709551611000000000 := rfl
  have hmost : secondsOf (2 ^ 64 - 1) = 18446744073709551615000000000 := rfl
  refine ⟨?_, ?_, ?_⟩
  · by_contra hstuck
    rw [not_or, Nat.not_lt, Nat.le_zero] at hstuck
    obtain ⟨hzero, hopen⟩ := hstuck
    -- without an interval no time passes, however often the server answers
    have hall : ∀ n, reached authorization
        (fun _ ↦ errorAnswer "authorization_pending" none) n = some ⟨0, 0, 0⟩ := by
      intro n
      induction n with
      | zero => rw [reached_zero, initial, hzero]
      | succ n ih =>
        refine reached_succ.mpr ⟨_, ih, goOn_eq_inl.mpr ⟨?_, ?_⟩⟩
        · rw [durationAdd, Nat.add_zero, Nat.zero_min]
        · rw [durationAdd, Nat.add_zero, Nat.zero_min]
          exact Nat.pos_of_ne_zero hopen
    obtain ⟨n, hends, -⟩ := (hlaw fun _ ↦ errorAnswer "authorization_pending" none).finite
    have hnever := hends n (Nat.le_refl n)
    rw [hall n] at hnever
    cases hnever
  · by_contra hover
    rw [not_or, Nat.not_le, Nat.not_lt] at hover
    obtain ⟨hopen, hlong⟩ := hover
    have hspent : durationAdd 0 authorization.interval < authorization.expiresIn := by
      rw [durationAdd]
      omega
    have hnext := reached_slow none reached_zero hspent
    have hgrows := ((hlaw _).lengthens 0 _ _ reached_zero hnext).2 (slowsDown_errorAnswer none)
    rw [Option.map_none, slowed_none] at hgrows
    rw [initial] at hgrows
    dsimp only at hgrows
    omega
  · by_contra hover
    rw [Nat.not_le] at hover
    have hspent : durationAdd 0 authorization.interval < authorization.expiresIn := by
      rw [durationAdd]
      omega
    -- the server advertises an interval to which the increment can no longer be added
    have hfirst := reached_slow (some 18446744073709551611) reached_zero hspent
    have hadvertised : secondsOf (18446744073709551611 : UInt64).toNat =
        18446744073709551611000000000 := rfl
    rw [Option.map_some, hadvertised] at hfirst
    have hinterval : (initial authorization).interval = authorization.interval := rfl
    have hshort : authorization.interval + slowDownIncrement ≤ 18446744073709551611000000000 := by
      omega
    rw [hinterval, slowed_advertised hshort] at hfirst
    have hopen : durationAdd (durationAdd 0 authorization.interval) 18446744073709551611000000000 <
        authorization.expiresIn := by
      unfold durationAdd
      omega
    have hsecond := reached_slow _ hfirst hopen
    have hgrows := ((hlaw _).lengthens 1 _ _ hfirst hsecond).2 (slowsDown_errorAnswer _)
    rw [Option.map_some, hadvertised] at hgrows
    dsimp only at hgrows
    rw [slowed_some] at hgrows
    omega

theorem room_of_bounded (hbounded : LoginBounded authorization)
    (hexpires : authorization.expiresIn ≤ durationMax)
    (hinitial : authorization.interval ≤ durationMax) {n : Nat} {s t : LoginState}
    (hs : reached authorization answers n = some s)
    (ht : reached authorization answers (n + 1) = some t) :
    s.interval + slowDownIncrement ≤ durationMax := by
  have hmax := durationMax_eq
  have hincrement := slowDownIncrement_eq
  have hroom : secondsOf (2 ^ 64 - 5) = 18446744073709551611000000000 := rfl
  have hspent := waited_lt hinitial hexpires ht
  have hinterval := (onSchedule hinitial hs).interval
  have hfirst := hbounded.first
  have hlater := hbounded.later
  rw [waited_succ, ← hinterval] at hspent
  cases n with
  | zero =>
    obtain rfl := Option.some.inj hs
    have hinterval : (initial authorization).interval = authorization.interval := rfl
    omega
  | succ n =>
    have hone : waited authorization answers 1 = authorization.interval := by
      rw [waited_succ]
      exact Nat.zero_add _
    have hle : waited authorization answers 1 ≤ waited authorization answers (n + 1) :=
      waited_mono (Nat.succ_le_succ (Nat.zero_le n))
    omega

theorem law_of_bounded (hbounded : LoginBounded authorization)
    (hexpires : authorization.expiresIn ≤ durationMax)
    (hinitial : authorization.interval ≤ durationMax) (answers : Answers) :
    LoginLaw authorization answers where
  finite := by
    have hends : reached authorization answers (authorization.expiresIn + 2) = none := by
      refine Loop.ends_of_grows LoginState.elapsed fun n s t hs hturn ↦ ?_
      have hschedule := onSchedule hinitial hs
      have hgoes := turn_goes hschedule.inRange hturn
      have hleast := hschedule.least
      have hopen := hgoes.open_
      have helapsed := hgoes.elapsed
      rw [durationAdd] at helapsed
      rcases hbounded.passes with hpasses | hspent
      · omega
      · omega
    exact ⟨_, fun m hm ↦ Loop.not_reached_of_le hm hends, Loop.ended_of_not_reached hends⟩
  spaced := events_spaced
  lengthens n s t hs ht := by
    obtain ⟨previous, hprevious, hturn⟩ := reached_succ.mp ht
    obtain rfl := Option.some.inj (hs.symm.trans hprevious)
    have hschedule := onSchedule hinitial hs
    refine ⟨(turn_goes hschedule.inRange hturn).longer, fun hslow ↦ ?_⟩
    obtain ⟨advertised, hpoll⟩ := poll_of_slowsDown hslow
    unfold turn at hturn
    rw [hpoll] at hturn
    obtain ⟨rfl, -⟩ := goOn_eq_inl.mp hturn
    exact increment_le_slowed (room_of_bounded hbounded hexpires hinitial hs ht) _
  absorbed n count s hs hfails :=
    (le_retries hs hfails).trans (onSchedule hinitial hs).retries
  terminal n s status raw code failure hs hanswer herror hmatrix := by
    obtain ⟨hread, hterminal⟩ := interpretError_of_matrix s.interval hmatrix raw.interval
    refine returned_of_failure hs ?_ hterminal
    rw [hanswer]
    simpa [pollOnceFrom, herror] using hread
  approved n token happroves hwaits hbursts hopen := by
    obtain ⟨s, hs⟩ := reached_of_waits hinitial hwaits hbursts hopen
    exact returned_of_approval hs happroves

/-- For an authorization that `start` returns, the loop keeps the law for every course of answers
exactly if the authorization is within bounds. -/
theorem login_law_iff {urls : UrlLibrary} {webBase : Url} {answer : WireAnswer RawDeviceCode}
    (h : start urls webBase answer = .ok authorization) :
    (∀ answers, LoginLaw authorization answers) ↔ LoginBounded authorization := by
  obtain ⟨hexpires, hinitial, hmost⟩ := start_ok h
  exact ⟨bounded_of_law hmost, fun hbounded ↦ law_of_bounded hbounded hexpires hinitial⟩

def devicePage : Url := ⟨"https", "github.com", 443, "https://github.com/login/device"⟩

/-- A library that reads that page and no other. -/
def devicePageUrls : UrlLibrary where
  parse text := if text = devicePage.text then some devicePage else none
  join _ _ := none

/-- What the server answers `start` with. -/
def deviceAnswer (interval : Option UInt64) : WireAnswer RawDeviceCode :=
  .response 200 (some ⟨"device", "ABCD-1234", devicePage.text, some 900, interval⟩)

/-- An authorization of fifteen minutes, to be polled for every five seconds, is within bounds. -/
theorem usual_login_bounded : ∃ authorization,
    start devicePageUrls devicePage (deviceAnswer (some 5)) = .ok authorization ∧
      ∀ answers, LoginLaw authorization answers := by
  refine ⟨_, rfl, (@login_law_iff _ devicePageUrls devicePage
    (deviceAnswer (some 5)) rfl).mpr ⟨.inl ?_, .inr ?_, ?_⟩⟩
  · decide
  · decide
  · decide

/-- A server that names an interval of zero and never says anything else is polled forever. -/
theorem polled_forever : ∃ authorization,
    start devicePageUrls devicePage (deviceAnswer (some 0)) = .ok authorization ∧
      ¬ ∀ answers, LoginLaw authorization answers := by
  refine ⟨_, rfl, fun hlaw ↦ ?_⟩
  have hbounded := bounded_of_law (by decide) hlaw
  rcases hbounded.passes with hpasses | hspent
  · exact absurd hpasses (by decide)
  · exact absurd hspent (by decide)

end DeviceFlow

end RunnerManager.Github
