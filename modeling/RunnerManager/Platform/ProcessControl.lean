import RunnerManager.Lib.Program
import RunnerManager.Platform.Fence

/-!
# Stopping a recorded process

`ProcessIdentity::recheck` and `ProcessIdentity::terminate` of `crates/platform/src/process.rs`. A
process exits and its PID is taken by another at any moment between two calls, so the system may
answer every query as it likes. Read `terminate_checked` first.
-/

namespace RunnerManager.Platform

/-! ## Calls -/

inductive ProcessCall where
  | startToken (pid : Nat)
  | requestStop (pid : Nat)
  | forceStop (pid : Nat)
  | now
  | sleep

/-- What each call answers: of a PID that nobody holds there is no token, and a polite stop may not
exist. -/
abbrev ProcessCall.Answer : ProcessCall → Type
  | startToken _ => Except String (Option String)
  | requestStop _ => Except String Bool
  | forceStop _ => Except String Unit
  | now => Nat
  | sleep => Unit

inductive ProcessError where
  | identity (pid : Nat) (source : String)
  | control (pid : Nat) (source : String)
deriving DecidableEq

inductive Termination where
  | terminated
  | alreadyGone
  | refusedPidRecycled (current : ProcessIdentity)
deriving DecidableEq

abbrev ProcessProgram := Program ProcessCall ProcessCall.Answer ProcessError

namespace ProcessIdentity

def ask (c : ProcessCall) : ProcessProgram c.Answer :=
  .perform c

def pollInterval : Nat :=
  20

def classify (identity : ProcessIdentity) : Option String → Adoption
  | none => .gone
  | some token =>
    if token = identity.startToken then .live else .pidRecycled ⟨identity.pid, token⟩

def recheck (identity : ProcessIdentity) : ProcessProgram Adoption := do
  let observed ← .ofExcept (.identity identity.pid) (← ask (.startToken identity.pid))
  return identity.classify observed

/-- The loop of `terminate` that waits for the exit, and whether there was one. A sleep lasts no
less than its interval, so that the deadline is over after so many turns. -/
def awaitExit (identity : ProcessIdentity) (deadline : Nat) : (turns : Nat) → ProcessProgram Bool
  | 0 => return false
  | turns + 1 => do
    let now ← ask .now
    if now < deadline then
      match ← identity.recheck with
      | .gone | .pidRecycled _ => return true
      | .live => do
        ask .sleep
        awaitExit identity deadline turns
    else return false

/-- What follows the request to stop. -/
def forced (identity : ProcessIdentity) : ProcessProgram Termination := do
  match ← identity.recheck with
  | .gone => return .alreadyGone
  | .pidRecycled current => return .refusedPidRecycled current
  | .live => do
    .ofExcept (.control identity.pid) (← ask (.forceStop identity.pid))
    return .terminated

def terminate (identity : ProcessIdentity) (grace : Nat) : ProcessProgram Termination := do
  match ← identity.recheck with
  | .gone => return .alreadyGone
  | .pidRecycled current => return .refusedPidRecycled current
  | .live => do
    let requested ← .ofExcept (.control identity.pid) (← ask (.requestStop identity.pid))
    if requested then
      let now ← ask .now
      if ← identity.awaitExit (now + grace) (grace / pollInterval + 1) then return .terminated
      else identity.forced
    else identity.forced

end ProcessIdentity

/-! ## What is signalled -/

abbrev ProcessLog := List (Contract.Answered ProcessCall ProcessCall.Answer)

namespace ProcessIdentity

variable (identity : ProcessIdentity) {log : ProcessLog}

/-- The last call read the start token of the PID, and this is the answer. -/
def Read (answer : Except String (Option String)) (log : ProcessLog) : Prop :=
  log.getLast? = some ⟨.startToken identity.pid, answer⟩

/-- The system answers anything, and calls are recorded; a signal goes to the recorded PID, and only
where the call right before it read the recorded start token. -/
def checked : Contract ProcessCall ProcessCall.Answer ProcessLog where
  requires log c := match c with
    | .requestStop pid | .forceStop pid =>
      pid = identity.pid ∧ identity.Read (.ok (some identity.startToken)) log
    | _ => True
  steps log c a next := next = log ++ [⟨c, a⟩]

/-- What each way to end says of the calls that were made. -/
def Ended (log : ProcessLog) : Except ProcessError Termination → Prop
  | .ok .alreadyGone => identity.Read (.ok none) log
  | .ok (.refusedPidRecycled current) => identity.Read (.ok (some current.startToken)) log ∧
      current.pid = identity.pid ∧ current.startToken ≠ identity.startToken
  | .ok .terminated => log.getLast? = some ⟨.forceStop identity.pid, .ok ()⟩ ∨
      ⟨.requestStop identity.pid, .ok true⟩ ∈ log ∧
        ∃ observed ≠ some identity.startToken, identity.Read (.ok observed) log
  | .error (.identity pid source) => pid = identity.pid ∧ identity.Read (.error source) log
  | .error (.control pid source) => pid = identity.pid ∧
      (log.getLast? = some ⟨.requestStop pid, .error source⟩ ∨
        log.getLast? = some ⟨.forceStop pid, .error source⟩)

theorem classify_live {observed : Option String} :
    identity.classify observed = .live ↔ observed = some identity.startToken := by
  cases observed with
  | none => simp [classify]
  | some token => simp [classify]

theorem classify_gone {observed : Option String} :
    identity.classify observed = .gone ↔ observed = none := by
  cases observed with
  | none => simp [classify]
  | some token =>
    rw [classify]
    split_ifs <;> simp

theorem classify_recycled {observed : Option String} {current : ProcessIdentity}
    (h : identity.classify observed = .pidRecycled current) : observed = some current.startToken ∧
      current.pid = identity.pid ∧ current.startToken ≠ identity.startToken := by
  cases observed with
  | none => cases h
  | some token =>
    rw [classify] at h
    split_ifs at h with htoken
    obtain rfl := Adoption.pidRecycled.inj h
    exact ⟨rfl, rfl, htoken⟩

/-- A recheck reads the token, and goes on with what it makes of it. -/
theorem recheck_wp {α : Type} {f : Adoption → ProcessProgram α}
    {Q : Except ProcessError α → ProcessLog → Prop}
    (hread : ∀ observed next, identity.Read (.ok observed) next → log <+: next →
      identity.checked.wp (f (identity.classify observed)) Q next)
    (hfailed : ∀ source next, identity.Read (.error source) next → log <+: next →
      Q (.error (.identity identity.pid source)) next) :
    identity.checked.wp (identity.recheck >>= f) Q log := by
  refine ⟨trivial, fun answer next hnext ↦ ?_⟩
  obtain rfl := hnext
  cases answer with
  | ok observed => exact hread observed _ List.getLast?_concat (List.prefix_append log _)
  | error source => exact hfailed source _ List.getLast?_concat (List.prefix_append log _)

/-- The wait makes no signal, and it ends early only for a process that it read to be another. -/
theorem awaitExit_wp (deadline turns : Nat) (log : ProcessLog) :
    identity.checked.wp (identity.awaitExit deadline turns) (fun result next ↦
      log <+: next ∧ (result = .ok true →
        ∃ observed ≠ some identity.startToken, identity.Read (.ok observed) next) ∧
      ∀ e, result = .error e → identity.Ended next (.error e)) log := by
  induction turns generalizing log with
  | zero => exact (Contract.wp_pure _).mpr ⟨List.prefix_rfl, by simp, by simp⟩
  | succ turns ih =>
    refine (Contract.wp_bind _ _).mpr ⟨trivial, fun now next hnext ↦ ?_⟩
    obtain rfl := hnext
    show identity.checked.wp (if now < deadline then _ else _) _ _
    split_ifs
    · -- One turn: a read, and only a live process is waited for again.
      refine identity.recheck_wp (fun observed next hread hlog ↦ ?_) fun source next hread hlog ↦ ?_
      · have hkept : log <+: next := (List.prefix_append log _).trans hlog
        cases hobserved : identity.classify observed with
        | gone =>
          have hgone := identity.classify_gone.mp hobserved
          exact ⟨hkept, fun _ ↦ ⟨observed, by simp [hgone], hread⟩, by simp⟩
        | pidRecycled current =>
          obtain ⟨htoken, -, hother⟩ := identity.classify_recycled hobserved
          exact ⟨hkept, fun _ ↦ ⟨observed, by simp [htoken, hother], hread⟩, by simp⟩
        | live =>
          refine ⟨trivial, fun _ slept hslept ↦ ?_⟩
          obtain rfl := hslept
          exact Contract.wp_mono (ih _) fun result last h ↦
            ⟨(hkept.trans (List.prefix_append next _)).trans h.1, h.2⟩
      · refine ⟨(List.prefix_append log _).trans hlog, by simp, fun e he ↦ ?_⟩
        obtain rfl := Except.error.inj he
        exact ⟨rfl, hread⟩
    · exact ⟨List.prefix_append log _, by simp, by simp⟩

theorem forced_wp (log : ProcessLog) :
    identity.checked.wp identity.forced (fun result next ↦ identity.Ended next result) log := by
  refine identity.recheck_wp (fun observed next hread _ ↦ ?_) fun source next hread _ ↦ ⟨rfl, hread⟩
  cases hobserved : identity.classify observed with
  | gone =>
    rw [identity.classify_gone.mp hobserved] at hread
    exact hread
  | pidRecycled current =>
    obtain ⟨htoken, hother⟩ := identity.classify_recycled hobserved
    exact ⟨htoken ▸ hread, hother⟩
  | live =>
    rw [identity.classify_live.mp hobserved] at hread
    refine ⟨⟨rfl, hread⟩, fun answer last hlast ↦ ?_⟩
    obtain rfl := hlast
    cases answer with
    | ok => exact .inl List.getLast?_concat
    | error source => exact ⟨rfl, .inr List.getLast?_concat⟩

/-- Whatever the system answers and however PIDs are taken over meanwhile: every signal goes to the
recorded PID right after its start token was read to be the recorded one, and each result says what
was read or done last. -/
theorem terminate_checked (grace : Nat) :
    identity.checked.wp (identity.terminate grace)
      (fun result log ↦ identity.Ended log result) [] := by
  refine identity.recheck_wp (fun observed log hread _ ↦ ?_) fun source log hread _ ↦ ⟨rfl, hread⟩
  cases hobserved : identity.classify observed with
  | gone =>
    rw [identity.classify_gone.mp hobserved] at hread
    exact hread
  | pidRecycled current =>
    obtain ⟨htoken, hother⟩ := identity.classify_recycled hobserved
    exact ⟨htoken ▸ hread, hother⟩
  | live =>
    rw [identity.classify_live.mp hobserved] at hread
    refine ⟨⟨rfl, hread⟩, fun answer next hnext ↦ ?_⟩
    obtain rfl := hnext
    cases answer with
    | error source => exact ⟨rfl, .inl List.getLast?_concat⟩
    | ok requested =>
      cases requested with
      | false => exact identity.forced_wp _
      | true =>
        refine ⟨trivial, fun now next hnext ↦ ?_⟩
        obtain rfl := hnext
        show identity.checked.wp (identity.awaitExit (now + grace) (grace / pollInterval + 1) >>=
          fun left ↦ if left then pure .terminated else identity.forced) _ _
        refine Contract.wp_seq (identity.awaitExit_wp _ _ _) (fun left last h ↦ ?_)
          fun e last h ↦ h.2.2 e rfl
        obtain ⟨hlog, hleft, -⟩ := h
        cases left with
        | false => exact identity.forced_wp last
        | true =>
          -- The log only grew since the request to stop was answered.
          refine .inr ⟨hlog.subset ?_, hleft rfl⟩
          simp

end ProcessIdentity

end RunnerManager.Platform
