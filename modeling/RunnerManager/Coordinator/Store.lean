import RunnerManager.Domain.Model
import RunnerManager.Lib.Interleaving
import RunnerManager.Lib.Table

/-!
# The coordinator's database

`crates/coordinator/src/store.rs`: enrolled hosts and one-time invites. Each SQL statement, and
the immediate transaction of `enroll` as a whole, is one call; an operation is a program of
them, so operations of several processes interleave between any two. Read `enrollTransaction`
and `Database.execute` first. The digest of a code is a parameter.
-/

namespace RunnerManager.Coordinator

open RunnerManager.Domain RunnerManager.Text

inductive StoreError where
  | sqlite (detail : String)
  | noSuchHost (host : String)
  | ambiguous (host : String)
  | nameInUse (name : String)
  | invalidName
  | invalidTtl
deriving DecidableEq

/-- Why an enrollment was refused. -/
inductive EnrollError where
  | invalidCode
  | store (error : StoreError)
deriving DecidableEq

/-- One enrolled host. -/
structure HostRecord where
  id : String
  name : String
  hostname : String
  publicKey : String
  enrolledAt : Timestamp
  revokedAt : Option Timestamp
  lastSeenAt : Option Timestamp
deriving DecidableEq

def HostRecord.isActive (record : HostRecord) : Bool :=
  record.revokedAt.isNone

/-- A row of `invites`. -/
structure InviteRow where
  codeHash : String
  name : String
  createdAt : Timestamp
  expiresAt : Timestamp
  usedAt : Option Timestamp
deriving DecidableEq

/-- A freshly issued invite. -/
structure Invite where
  code : String
  name : String
  expiresAt : Timestamp
deriving DecidableEq

/-- The two tables with their primary keys. -/
structure Database where
  hosts : Table HostRecord.id
  invites : Table InviteRow.codeHash

namespace Database

/-- The database `prepare` creates. -/
def empty : Database where
  hosts := .empty
  invites := .empty

/-- Whether an active host already holds `name`. -/
def nameTaken (db : Database) (name : String) : Bool :=
  db.hosts.rows.any fun record ↦ record.name = name && record.isActive

/-- `INSERT INTO hosts`: the id is the primary key. -/
def insertHost (db : Database) (record : HostRecord) : Except StoreError Database :=
  match db.hosts.find? record.id with
  | some _ => .error (.sqlite "UNIQUE constraint failed: hosts.id")
  | none => .ok { db with hosts := db.hosts.put record }

/-- `INSERT INTO invites`: the digest is the primary key. -/
def insertInvite (db : Database) (row : InviteRow) : Except StoreError Database :=
  match db.invites.find? row.codeHash with
  | some _ => .error (.sqlite "UNIQUE constraint failed: invites.code_hash")
  | none => .ok { db with invites := db.invites.put row }

/-- `UPDATE hosts SET ... WHERE id = ?`. -/
def updateHost (db : Database) (id : String) (f : HostRecord → HostRecord) : Database :=
  match db.hosts.find? id with
  | some record => { db with hosts := db.hosts.put (f record) }
  | none => db

/-- `UPDATE invites SET used_at = ?2 WHERE code_hash = ?1`. -/
def spend (db : Database) (hash : String) (now : Timestamp) : Database :=
  match db.invites.find? hash with
  | some row => { db with invites := db.invites.put { row with usedAt := some now } }
  | none => db

/-- `SELECT name, expires_at FROM invites WHERE code_hash = ?1 AND used_at IS NULL`. -/
def unusedInvite (db : Database) (hash : String) : Option InviteRow :=
  (db.invites.find? hash).filter fun row ↦ row.usedAt.isNone

end Database

/-- A host's self-reported name, reduced to something safe to print. -/
def sanitizeHostname (raw : String) : String :=
  let cleaned := (raw.toList.filter fun c ↦
    isAsciiAlphanumeric c || c == '.' || c == '_' || c == '-').take 64
  if cleaned = [] then "unknown" else String.ofList cleaned

/-- The body of `enroll`'s immediate transaction: the host it returns and the database it
commits. An error rolls the transaction back. -/
def enrollTransaction (db : Database) (hash hostname publicKey : String) (now : Timestamp)
    (id : String) : Except EnrollError (HostRecord × Database) := do
  match (db.unusedInvite hash).filter fun row ↦ now < row.expiresAt with
  | none => throw .invalidCode
  | some invite =>
    if db.nameTaken invite.name then throw (.store (.nameInUse invite.name))
    let record : HostRecord :=
      ⟨id, invite.name, sanitizeHostname hostname, publicKey, now, none, none⟩
    let next ← ((db.spend hash now).insertHost record).mapError .store
    return (record, next)

/-! ## Statements -/

/-- What a process asks the database to do at once. -/
inductive Statement where
  | nameTaken (name : String)
  | insertInvite (row : InviteRow)
  | enroll (hash hostname publicKey : String) (now : Timestamp) (id : String)
  | activeHost (id : String)
  | hosts
  | revoke (id : String) (now : Timestamp)
  | touch (id : String) (now : Timestamp)
deriving DecidableEq

abbrev Statement.Returned : Statement → Type
  | nameTaken _ => Bool
  | insertInvite _ => Unit
  | enroll .. => HostRecord
  | activeHost _ => Option HostRecord
  | hosts => List HostRecord
  | revoke .. => Unit
  | touch .. => Unit

/-- A statement answers what it returns or why it failed. -/
abbrev Statement.Answer (statement : Statement) : Type :=
  Except EnrollError statement.Returned

/-- `ORDER BY enrolled_at, id`. -/
def enrolledFirst (a b : HostRecord) : Prop :=
  a.enrolledAt < b.enrolledAt ∨ a.enrolledAt = b.enrolledAt ∧ a.id ≤ b.id

instance : DecidableRel enrolledFirst :=
  fun _ _ ↦ inferInstanceAs (Decidable (_ ∨ _))

/-- What a statement returns and the database it leaves. -/
def Database.execute (db : Database) :
    (statement : Statement) → Except EnrollError (statement.Returned × Database)
  | .nameTaken name => .ok (db.nameTaken name, db)
  | .insertInvite row => ((db.insertInvite row).mapError .store).map fun next ↦ ((), next)
  | .enroll hash hostname publicKey now id =>
    enrollTransaction db hash hostname publicKey now id
  | .activeHost id => .ok ((db.hosts.find? id).filter HostRecord.isActive, db)
  | .hosts => .ok (db.hosts.orderBy enrolledFirst, db)
  | .revoke id now => .ok ((), db.updateHost id fun record ↦ { record with revokedAt := some now })
  | .touch id now => .ok ((), db.updateHost id fun record ↦ { record with lastSeenAt := some now })

/-- A statement runs as a whole, or it fails and changes nothing. SQLite may refuse any
statement: the file is locked, the disk is full. -/
def statements : Contract Statement Statement.Answer Database where
  requires _ _ := True
  steps db statement answer next :=
    (∃ value, answer = .ok value ∧ db.execute statement = .ok (value, next)) ∨
      (∃ e, answer = .error e ∧ db.execute statement = .error e ∧ next = db) ∨
      ∃ detail, answer = .error (.store (.sqlite detail)) ∧ next = db

/-! ## Operations -/

abbrev StoreProgram := Program Statement Statement.Answer EnrollError

/-- Run a statement; its error ends the operation. -/
def query (statement : Statement) : StoreProgram statement.Returned := do
  let answer ← Program.perform statement
  Program.ofExcept id answer

def seconds (n : Nat) : Nat := n * 1000000000

def minInviteTtl : Nat := seconds 60

def maxInviteTtl : Nat := seconds (7 * 24 * 60 * 60)

def validateName (name : String) : Except StoreError Unit :=
  if 1 ≤ byteLen name.toList ∧ byteLen name.toList ≤ 64 ∧
      name.toList.all (fun c ↦ isAsciiAlphanumeric c || c == '.' || c == '_' || c == '-')
  then .ok ()
  else .error .invalidName

/-- `hex::encode`. -/
def hexEncode (bytes : List UInt8) : List Char :=
  bytes.flatMap fun byte ↦ [Nat.digitChar (byte.toNat / 16), Nat.digitChar (byte.toNat % 16)]

/-- A new code from its random bytes. -/
def inviteCode (random : Vector UInt8 16) : String :=
  String.ofList ("rmc_".toList ++ hexEncode random.toList)

section

variable (codeHash : String → String)

def createInvite (name : String) (ttl : Nat) (now : Timestamp) (random : Vector UInt8 16) :
    StoreProgram Invite := do
  Program.ofExcept .store (validateName name)
  if ¬ (minInviteTtl ≤ ttl ∧ ttl ≤ maxInviteTtl) then Program.fail (.store .invalidTtl)
  let taken ← query (.nameTaken name)
  if taken then Program.fail (.store (.nameInUse name))
  let code := inviteCode random
  query (.insertInvite ⟨codeHash code, name, now, now + ttl, none⟩)
  return ⟨code, name, now + ttl⟩

def enroll (code hostname publicKey : String) (now : Timestamp) (uuid : String) :
    StoreProgram HostRecord :=
  query (.enroll (codeHash (String.ofList (trim code.toList))) hostname publicKey now uuid)

end

def activeHost (id : String) : StoreProgram (Option HostRecord) :=
  query (.activeHost id)

def hosts : StoreProgram (List HostRecord) :=
  query .hosts

def revoke (host : String) (now : Timestamp) : StoreProgram HostRecord := do
  let listed ← hosts
  match listed.filter fun record ↦
    record.isActive && (record.id == host || record.name == host) with
  | [] => Program.fail (.store (.noSuchHost host))
  | [record] =>
    query (.revoke record.id now)
    return { record with revokedAt := some now }
  | _ => Program.fail (.store (.ambiguous host))

def touch (id : String) (now : Timestamp) : StoreProgram Unit :=
  query (.touch id now)

/-- One call of the store, with the values it draws at random. -/
inductive Operation where
  | createInvite (name : String) (ttl : Nat) (now : Timestamp) (random : Vector UInt8 16)
  | enroll (code hostname publicKey : String) (now : Timestamp) (uuid : String)
  | activeHost (id : String)
  | revoke (host : String) (now : Timestamp)
  | touch (id : String) (now : Timestamp)

/-- What an operation returns. -/
inductive Reply where
  | invite (issued : Invite)
  | enrolled (record : HostRecord)
  | host (found : Option HostRecord)
  | revoked (record : HostRecord)
  | touched

/-- The operation as a program of statements. -/
def Operation.program (codeHash : String → String) : Operation → StoreProgram Reply
  | createInvite name ttl now random => do
    let issued ← Coordinator.createInvite codeHash name ttl now random
    return .invite issued
  | enroll code hostname publicKey now uuid => do
    let record ← Coordinator.enroll codeHash code hostname publicKey now uuid
    return .enrolled record
  | activeHost id => do
    let found ← Coordinator.activeHost id
    return .host found
  | revoke host now => do
    let record ← Coordinator.revoke host now
    return .revoked record
  | touch id now => do
    Coordinator.touch id now
    return .touched

end RunnerManager.Coordinator
