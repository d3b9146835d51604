import RunnerManager.Github.Client
import RunnerManager.Lib.Json

/-!
# The stored credential

`StoringRenewal::renew`, `login`, `receive` and `logout` of `crates/app/src/cli/auth.rs`. Any
number of processes share one secret store and the credential-renewal lock, and a process may stop
anywhere. A renewal reads, exchanges and writes under the lock; a sign-in and a sign-out write
without it. `Vault.Steps` says what a call does, and keeps a record of the run.
-/

namespace RunnerManager.App

open Github (UserAccessToken RenewalError)

/-! ## Documents -/

/-- What a secret store holds: JSON, or anything else. -/
inductive StoredDocument where
  | json (value : Json)
  | text (bare : String)

/-- `UserAccessToken::to_stored_document`, less the expiries. -/
def toStoredDocument (token : UserAccessToken) : StoredDocument :=
  .json (.object (("access_token", .string token.secret) ::
    (token.refreshToken.map fun refresh ↦ ("refresh_token", Json.string refresh)).toList))

/-- The two halves of a document. -/
def readDocument (fields : List (String × Json)) : Option UserAccessToken := do
  let secret ← Json.readField "access_token" Json.readString none fields
  let refreshToken ← Json.readField "refresh_token" (Json.readOption Json.readString) (some none)
    fields
  return ⟨secret, refreshToken⟩

/-- `UserAccessToken::from_stored_document`: what is not a document is an access token. -/
def fromStoredDocument : StoredDocument → UserAccessToken
  | .json value => (Json.readObject readDocument value).getD ⟨String.ofList value.render, none⟩
  | .text bare => ⟨bare, none⟩

theorem fromStoredDocument_toStoredDocument (token : UserAccessToken) :
    fromStoredDocument (toStoredDocument token) = token := by
  obtain ⟨secret, refreshToken⟩ := token
  cases refreshToken with
  | none => rfl
  | some refresh => rfl

/-! ## Calls -/

/-- One call of a process. A request is sent and answered separately. -/
inductive AuthCall where
  | acquire
  | release
  | load
  | ensureWritable
  | send (refresh : String)
  | receive
  | store (document : StoredDocument)
  | delete
  | authenticated (document : StoredDocument)
  | signIn

/-- What each call answers; an error says why. -/
abbrev AuthCall.Answer : AuthCall → Type
  | acquire => Except String Unit
  | release => Unit
  | load => Except String (Option StoredDocument)
  | ensureWritable => Except String Unit
  | send _ => Unit
  | receive => Except String UserAccessToken
  | store _ => Except String Unit
  | delete => Except String Unit
  | authenticated _ => Except String Bool
  | signIn => Except String UserAccessToken

/-- Why a command ended without its result. -/
inductive AuthError where
  | renewal (error : RenewalError)
  | secretStore (source : String)
  | github (source : String)
deriving DecidableEq

abbrev AuthProgram := Program AuthCall AuthCall.Answer AuthError

namespace Auth

def ask (c : AuthCall) : AuthProgram c.Answer :=
  .perform c

/-- The lock is let go of, and the renewal has failed. -/
def failRenewal {α : Type} (error : RenewalError) : AuthProgram α := do
  ask .release
  .fail (.renewal error)

/-- The exchange, and the write that makes its result durable. -/
def exchange (refreshToken : String) : AuthProgram UserAccessToken := do
  ask (.send refreshToken)
  match ← ask .receive with
  | .error source => failRenewal (.failed ("the refresh exchange failed: " ++ source))
  | .ok fresh =>
    match ← ask (.store (toStoredDocument fresh)) with
    | .error source => failRenewal (.failed
        ("the renewed credential could not be stored, so it was not used: " ++ source))
    | .ok () =>
      ask .release
      return fresh

/-- `StoringRenewal::renew`; the lock is let go of at its end. -/
def renew (refreshToken : String) : AuthProgram UserAccessToken := do
  match ← ask .acquire with
  | .error source => .fail (.renewal (.failed
      ("the credential-renewal lock could not be acquired: " ++ source)))
  | .ok () =>
    match ← ask .load with
    | .error source => failRenewal (.failed
        ("the credential store could not be re-read before renewal: " ++ source))
    | .ok none => failRenewal (.failed
        "the credential was removed while renewal was waiting; it was not recreated")
    | .ok (some document) =>
      let stored := fromStoredDocument document
      if stored.refreshToken ≠ some refreshToken then
        ask .release
        return stored
      else
        match ← ask .ensureWritable with
        | .error source => failRenewal (.declined
            ("this process cannot write the credential store, so it left renewal to one " ++
              "that can: " ++ source))
        | .ok () => exchange refreshToken

/-- The device flow, and the write that ends a sign-in. -/
def signInAndStore : AuthProgram Unit := do
  match ← ask .signIn with
  | .error source => .fail (.github source)
  | .ok token =>
    match ← ask (.store (toStoredDocument token)) with
    | .error source => .fail (.secretStore source)
    | .ok () => return ()

/-- `login`, as far as it concerns the store: a credential that still works is kept. -/
def login : AuthProgram Unit := do
  match ← ask .load with
  | .ok (some document) =>
    match ← ask (.authenticated document) with
    | .error source => .fail (.github source)
    | .ok true => return ()
    | .ok false => signInAndStore
  | .ok none | .error _ => signInAndStore

/-- `receive`, once its document was read and accepted. -/
def receive (document : StoredDocument) : AuthProgram Unit := do
  match ← ask (.store (toStoredDocument (fromStoredDocument document))) with
  | .error source => .fail (.secretStore source)
  | .ok () => return ()

def logout : AuthProgram Unit := do
  match ← ask .delete with
  | .error source => .fail (.secretStore source)
  | .ok () => return ()

/-- What a process is started for. -/
inductive Command where
  | renew (refreshToken : String)
  | login
  | receive (document : StoredDocument)
  | logout

def Command.renews : Command → Option String
  | renew refreshToken => some refreshToken
  | _ => none

/-- The program of a command; a renewal returns a credential. -/
def Command.program : Command → AuthProgram (Option UserAccessToken)
  | renew refreshToken => do return some (← Auth.renew refreshToken)
  | login => do
    Auth.login
    return none
  | receive document => do
    Auth.receive document
    return none
  | logout => do
    Auth.logout
    return none

end Auth

/-! ## The store, the lock and the server -/

/-- How far a renewal is, once it read the token that it is for. -/
inductive Renewing where
  | away
  | read (token : String)
  | sent (token : String) (answer : Option UserAccessToken)
  | minted (token : String) (fresh : UserAccessToken)

def Renewing.token : Renewing → Option String
  | away => none
  | read token | sent token _ | minted token _ => some token

/-- What is recorded of a process. -/
structure AuthProcess where
  renews : Option String
  renewing : Renewing
  /-- What the store held at each moment since the process was started. -/
  during : List (Option StoredDocument)

/-- A refresh token that was sent, by whom, who had the lock, and what the store held. -/
structure Sent (ι : Type) where
  token : String
  sender : ι
  lock : Option ι
  stored : Option StoredDocument
  /-- The tokens whose successor had been stored, and that no sign-in had brought back. -/
  retired : List String

/-- A renewal's write: the token that it exchanged, and what it wrote over. -/
structure Overwrite where
  token : String
  before : Option StoredDocument

/-- The state of the host and of the server, and the record of the run. -/
structure Vault (ι : Type) where
  stored : Option StoredDocument
  lock : Option ι
  /-- The refresh tokens that the server has exchanged. -/
  spent : List String
  processes : ι → AuthProcess
  retired : List String
  sends : List (Sent ι)
  overwrites : List Overwrite

namespace Vault

variable {ι : Type} [DecidableEq ι]

def refreshOf (stored : Option StoredDocument) : Option String :=
  stored.bind fun document ↦ (fromStoredDocument document).refreshToken

def goes (s : Vault ι) (i : ι) (renewing : Renewing) : Vault ι :=
  { s with processes := Function.update s.processes i { s.processes i with renewing } }

/-- The store changes, for every process that runs. -/
def puts (s : Vault ι) (stored : Option StoredDocument) : Vault ι :=
  { s with
    stored
    processes := fun j ↦ { s.processes j with during := stored :: (s.processes j).during } }

/-- A process starts a command. A process that stops lets go of the lock. -/
def starts (s : Vault ι) (i : ι) (command : Auth.Command) : Vault ι :=
  { s with
    lock := if s.lock = some i then none else s.lock
    processes := Function.update s.processes i ⟨command.renews, .away, [s.stored]⟩ }

/-- A write that succeeded: that of a renewal, or of a sign-in. -/
def wrote (s : Vault ι) (i : ι) (document : StoredDocument) : Vault ι :=
  match (s.processes i).renewing with
  | .minted token _ =>
    { (s.goes i .away).puts (some document) with
      retired := s.retired ++ [token]
      overwrites := s.overwrites ++ [⟨token, s.stored⟩] }
  | _ =>
    { s.puts (some document) with
      retired := s.retired.filter fun token ↦ refreshOf (some document) ≠ some token }

/-- A refresh token is sent to the server, which may mint a pair for it. -/
def posts (s : Vault ι) (i : ι) (token : String) (minted : Option UserAccessToken) : Vault ι :=
  { s with
    spent := if minted.isSome then s.spent ++ [token] else s.spent
    sends := s.sends ++ [⟨token, i, s.lock, s.stored, s.retired⟩] }

/-- What an answered call of a process does. The server exchanges a refresh token once, and hands
out none that it has exchanged. -/
def Steps (writable : ι → Bool) (i : ι) (s : Vault ι) (c : AuthCall) (answer : c.Answer)
    (t : Vault ι) : Prop :=
  match c, answer with
  | .acquire, .ok _ => s.lock = none ∧ t = { s with lock := some i }
  | .release, _ => t = { s with lock := none }.goes i .away
  | .load, .ok document => document = s.stored ∧ t =
      match (s.processes i).renews with
      | some token => if refreshOf s.stored = some token then s.goes i (.read token) else s
      | none => s
  | .ensureWritable, .ok _ => writable i = true ∧ t = s
  | .send token, _ => ∃ minted : Option UserAccessToken,
      (∀ fresh, minted = some fresh → token ∉ s.spent ∧
        ∀ refresh, fresh.refreshToken = some refresh → refresh ∉ s.spent ++ [token]) ∧
      t = (s.posts i token minted).goes i (.sent token minted)
  | .receive, .ok fresh => ∃ token, (s.processes i).renewing = .sent token (some fresh) ∧
      t = s.goes i (.minted token fresh)
  | .store document, .ok _ => t = s.wrote i document
  | .delete, .ok _ => t = s.puts none
  | _, _ => t = s

end Vault

/-- What the processes do, whatever they do. -/
def authCalls {ι : Type} [DecidableEq ι] (writable : ι → Bool) (i : ι) :
    Contract AuthCall AuthCall.Answer (Vault ι) where
  requires _ _ := True
  steps := Vault.Steps writable i

/-- Processes that share a secret store. -/
abbrev AuthPool (ι : Type) :=
  Pool AuthCall AuthCall.Answer AuthError (Option UserAccessToken) (Vault ι) ι

/-- A host with any stored credential where nothing runs yet. -/
structure AuthPool.Starts {ι : Type} (P : AuthPool ι) : Prop where
  points : ∀ i, P.point i = .done (.ok none)
  processes : ∀ i, P.shared.processes i = ⟨none, .away, [P.shared.stored]⟩
  lock : P.shared.lock = none
  spent : P.shared.spent = []
  retired : P.shared.retired = []
  sends : P.shared.sends = []
  overwrites : P.shared.overwrites = []

/-- A process ends or stops anywhere, and another one is started in its place. -/
def AuthPool.Opens {ι : Type} [DecidableEq ι] (i : ι) (s : Vault ι)
    (_ : AuthProgram (Option UserAccessToken)) (t : Vault ι)
    (q : AuthProgram (Option UserAccessToken)) : Prop :=
  ∃ command : Auth.Command, t = s.starts i command ∧ q = command.program

end RunnerManager.App
