import RunnerManager.Coordinator.Store

/-!
# Enrollment safety

Runs of any number of coordinator processes over one database. Read `execute_evolves` and
`execute_namesUnique` first: every statement, whoever runs it and whenever, keeps what was
issued, spent and revoked, and never lets two active hosts share a name. The results about
whole operations follow, since an operation only adds statements.
-/

namespace RunnerManager.Coordinator

open RunnerManager.Domain RunnerManager.Text

variable {db next later : Database}

/-! ## What a statement changes -/

/-- What an accepted enrollment found and did. -/
structure EnrolledBy (db : Database) (hash hostname publicKey : String) (now : Timestamp)
    (id : String) (invite : InviteRow) (record : HostRecord) (next : Database) : Prop where
  invited : db.invites.find? hash = some invite
  unused : invite.usedAt = none
  before_expiry : now < invite.expiresAt
  name_free : db.nameTaken invite.name = false
  id_free : db.hosts.find? id = none
  record_eq : record = ⟨id, invite.name, sanitizeHostname hostname, publicKey, now, none, none⟩
  next_eq : next = ⟨db.hosts.put record, db.invites.put { invite with usedAt := some now }⟩

theorem enrollTransaction_ok {hash hostname publicKey id : String} {now : Timestamp}
    {record : HostRecord}
    (h : enrollTransaction db hash hostname publicKey now id = .ok (record, next)) :
    ∃ invite, EnrolledBy db hash hostname publicKey now id invite record next := by
  unfold enrollTransaction at h
  split at h
  · cases h
  · next invite hinvite =>
    simp only [Option.filter_eq_some_iff, Database.unusedInvite, Option.isNone_iff_eq_none,
      decide_eq_true_eq] at hinvite
    obtain ⟨⟨hfound, hunused⟩, hexpiry⟩ := hinvite
    split at h
    · cases h
    · next hname =>
      simp only [Result.bind_eq_ok, Result.mapError_eq_ok, Result.pure_eq_ok] at h
      obtain ⟨stored, hstored, h⟩ := h
      obtain ⟨rfl, rfl⟩ := Prod.mk.inj h
      simp only [Database.insertHost, Database.spend, hfound] at hstored
      split at hstored
      · cases hstored
      · next hid =>
        cases hstored
        exact ⟨invite, hfound, hunused, hexpiry, by simpa using hname, hid, rfl, rfl⟩

theorem insertInvite_ok {row : InviteRow} (h : db.insertInvite row = .ok next) :
    db.invites.find? row.codeHash = none ∧ next = { db with invites := db.invites.put row } := by
  unfold Database.insertInvite at h
  split at h
  · cases h
  · next hfree =>
    cases h
    exact ⟨hfree, rfl⟩

theorem find?_updateHost {f : HostRecord → HostRecord} (hid : ∀ record, (f record).id = record.id)
    (id k : String) :
    (db.updateHost id f).hosts.find? k =
      if k = id then (db.hosts.find? id).map f else db.hosts.find? k := by
  unfold Database.updateHost
  split
  · next record hfound =>
    have hkey : (f record).id = id := (hid record).trans (Table.key_of_find? hfound)
    rw [hfound, Option.map_some]
    simp only [Table.find?_put, hkey]
  · next hnone =>
    split_ifs with hk
    · rw [hk, hnone, Option.map_none]
    · rfl

@[simp]
theorem invites_updateHost (id : String) (f : HostRecord → HostRecord) :
    (db.updateHost id f).invites = db.invites := by
  unfold Database.updateHost
  split <;> rfl

/-! ## What every statement keeps -/

/-- What was issued stays issued on the same terms, what was spent stays spent, who was
enrolled stays enrolled under the same name and who was revoked stays revoked. -/
structure Evolves (db next : Database) : Prop where
  invites : ∀ hash row, db.invites.find? hash = some row →
    ∃ kept, next.invites.find? hash = some kept ∧ kept.name = row.name ∧
      kept.expiresAt = row.expiresAt ∧ (row.usedAt ≠ none → kept.usedAt ≠ none)
  hosts : ∀ id record, db.hosts.find? id = some record →
    ∃ kept, next.hosts.find? id = some kept ∧ kept.name = record.name ∧
      (record.revokedAt ≠ none → kept.revokedAt ≠ none)

namespace Evolves

theorem refl (db : Database) : Evolves db db where
  invites _ row h := ⟨row, h, rfl, rfl, id⟩
  hosts _ record h := ⟨record, h, rfl, id⟩

theorem trans (h : Evolves db next) (h' : Evolves next later) : Evolves db later where
  invites := by
    intro hash row hrow
    obtain ⟨kept, hkept, hname, hexpiry, hused⟩ := h.invites hash row hrow
    obtain ⟨last, hlast, hname', hexpiry', hused'⟩ := h'.invites hash kept hkept
    exact ⟨last, hlast, hname'.trans hname, hexpiry'.trans hexpiry, fun hrow ↦ hused' (hused hrow)⟩
  hosts := by
    intro id record hrecord
    obtain ⟨kept, hkept, hname, hrevoked⟩ := h.hosts id record hrecord
    obtain ⟨last, hlast, hname', hrevoked'⟩ := h'.hosts id kept hkept
    exact ⟨last, hlast, hname'.trans hname, fun hrecord ↦ hrevoked' (hrevoked hrecord)⟩

theorem insertInvite {row : InviteRow} (hfree : db.invites.find? row.codeHash = none) :
    Evolves db { db with invites := db.invites.put row } where
  invites := by
    intro hash other hother
    have hne : hash ≠ row.codeHash := by
      intro heq
      rw [heq, hfree] at hother
      cases hother
    refine ⟨other, ?_, rfl, rfl, id⟩
    rw [Table.find?_put, if_neg hne, hother]
  hosts := (refl db).hosts

theorem updateHost {f : HostRecord → HostRecord} (hid : ∀ record, (f record).id = record.id)
    (hname : ∀ record, (f record).name = record.name)
    (hrevoked : ∀ record, record.revokedAt ≠ none → (f record).revokedAt ≠ none) (id : String) :
    Evolves db (db.updateHost id f) where
  invites := by
    rw [invites_updateHost]
    exact (refl db).invites
  hosts := by
    intro k record hrecord
    rw [find?_updateHost hid]
    by_cases hk : k = id
    · subst hk
      rw [if_pos rfl, hrecord]
      exact ⟨f record, rfl, hname record, hrevoked record⟩
    · rw [if_neg hk]
      exact ⟨record, hrecord, rfl, fun h ↦ h⟩

end Evolves

theorem EnrolledBy.evolves {hash hostname publicKey id : String} {now : Timestamp}
    {invite : InviteRow} {record : HostRecord}
    (h : EnrolledBy db hash hostname publicKey now id invite record next) : Evolves db next where
  invites := by
    intro k row hrow
    rw [h.next_eq]
    have hkey : invite.codeHash = hash := Table.key_of_find? h.invited
    by_cases hk : k = hash
    · subst hk
      obtain rfl : invite = row := Option.some.inj (h.invited.symm.trans hrow)
      refine ⟨{ invite with usedAt := some now }, ?_, rfl, rfl, fun _ ↦ Option.some_ne_none now⟩
      show (db.invites.put { invite with usedAt := some now }).find? k = _
      rw [Table.find?_put, if_pos hkey.symm]
    · refine ⟨row, ?_, rfl, rfl, fun h ↦ h⟩
      show (db.invites.put { invite with usedAt := some now }).find? k = _
      rw [Table.find?_put, if_neg (fun heq ↦ hk (heq.trans hkey)), hrow]
  hosts := by
    intro k other hother
    rw [h.next_eq]
    have hne : k ≠ record.id := by
      intro heq
      rw [heq, h.record_eq, h.id_free] at hother
      cases hother
    refine ⟨other, ?_, rfl, fun h ↦ h⟩
    show (db.hosts.put record).find? k = _
    rw [Table.find?_put, if_neg hne, hother]

theorem isActive_eq_false {record : HostRecord} :
    record.isActive = false ↔ record.revokedAt ≠ none := by
  rw [HostRecord.isActive, Option.isNone_eq_false_iff, Option.isSome_iff_ne_none]

/-- No two active hosts share a name. -/
def NamesUnique (db : Database) : Prop :=
  ∀ a ∈ db.hosts.rows, ∀ b ∈ db.hosts.rows, a.isActive → b.isActive → a.name = b.name → a = b

theorem nameTaken_eq_false {name : String} :
    db.nameTaken name = false ↔ ∀ record ∈ db.hosts.rows, record.name = name →
      record.isActive = false := by
  simp [Database.nameTaken]

theorem EnrolledBy.namesUnique {hash hostname publicKey id : String} {now : Timestamp}
    {invite : InviteRow} {record : HostRecord}
    (h : EnrolledBy db hash hostname publicKey now id invite record next)
    (hunique : NamesUnique db) : NamesUnique next := by
  have hname : record.name = invite.name := by rw [h.record_eq]
  have hfree := nameTaken_eq_false.mp h.name_free
  rw [h.next_eq]
  intro a ha b hb hactive hactive' heq
  rcases Table.mem_put.mp ha with rfl | ⟨haOld, -⟩
  · rcases Table.mem_put.mp hb with rfl | ⟨hbOld, -⟩
    · rfl
    · rw [hfree b hbOld (heq.symm.trans hname)] at hactive'
      cases hactive'
  · rcases Table.mem_put.mp hb with rfl | ⟨hbOld, -⟩
    · rw [hfree a haOld (heq.trans hname)] at hactive
      cases hactive
    · exact hunique a haOld b hbOld hactive hactive' heq

theorem NamesUnique.updateHost (hunique : NamesUnique db) {f : HostRecord → HostRecord}
    (hid : ∀ record, (f record).id = record.id) (hname : ∀ record, (f record).name = record.name)
    (hactive : ∀ record, (f record).isActive = true → record.isActive = true) (id : String) :
    NamesUnique (db.updateHost id f) := by
  -- Each row of the new table is the image of an old row of the same id and name.
  have hold : ∀ a ∈ (db.updateHost id f).hosts.rows, ∃ old ∈ db.hosts.rows, old.id = a.id ∧
      old.name = a.name ∧ (a.isActive = true → old.isActive = true) := by
    intro a ha
    have hfound := Table.mem_iff_find?.mp ha
    rw [find?_updateHost hid] at hfound
    split_ifs at hfound with hk
    · obtain ⟨old, hmem, rfl⟩ := Option.map_eq_some_iff.mp hfound
      exact ⟨old, (Table.find?_eq_some_iff.mp hmem).1, (hid old).symm, (hname old).symm,
        hactive old⟩
    · exact ⟨a, (Table.find?_eq_some_iff.mp hfound).1, rfl, rfl, fun h ↦ h⟩
  intro a ha b hb hactiveA hactiveB heq
  obtain ⟨oldA, hmemA, hidA, hnameA, hA⟩ := hold a ha
  obtain ⟨oldB, hmemB, hidB, hnameB, hB⟩ := hold b hb
  have hsame : oldA = oldB := hunique oldA hmemA oldB hmemB (hA hactiveA) (hB hactiveB)
    (hnameA.trans (heq.trans hnameB.symm))
  exact (db.updateHost id f).hosts.eq_of_key ha hb
    (hidA.symm.trans ((congrArg HostRecord.id hsame).trans hidB))

theorem execute_evolves {statement : Statement} {value : statement.Returned}
    (h : db.execute statement = .ok (value, next)) : Evolves db next := by
  cases statement with
  | nameTaken | activeHost | hosts =>
    cases h
    exact .refl db
  | insertInvite row =>
    obtain ⟨stored, hstored, heq⟩ := Result.map_eq_ok.mp h
    obtain ⟨hfree, rfl⟩ := insertInvite_ok (Result.mapError_eq_ok.mp hstored)
    cases heq
    exact .insertInvite hfree
  | enroll hash hostname publicKey now id =>
    obtain ⟨invite, henrolled⟩ := enrollTransaction_ok h
    exact henrolled.evolves
  | revoke id now =>
    cases h
    exact .updateHost (f := fun record ↦ { record with revokedAt := some now }) (fun _ ↦ rfl)
      (fun _ ↦ rfl) (fun _ _ ↦ Option.some_ne_none now) id
  | touch id now =>
    cases h
    exact .updateHost (f := fun record ↦ { record with lastSeenAt := some now }) (fun _ ↦ rfl)
      (fun _ ↦ rfl) (fun _ h ↦ h) id

theorem execute_namesUnique {statement : Statement} {value : statement.Returned}
    (h : db.execute statement = .ok (value, next)) (hunique : NamesUnique db) :
    NamesUnique next := by
  cases statement with
  | nameTaken | activeHost | hosts =>
    cases h
    exact hunique
  | insertInvite row =>
    obtain ⟨stored, hstored, heq⟩ := Result.map_eq_ok.mp h
    obtain ⟨-, rfl⟩ := insertInvite_ok (Result.mapError_eq_ok.mp hstored)
    cases heq
    exact hunique
  | enroll hash hostname publicKey now id =>
    obtain ⟨invite, henrolled⟩ := enrollTransaction_ok h
    exact henrolled.namesUnique hunique
  | revoke id now =>
    cases h
    exact hunique.updateHost (f := fun record ↦ { record with revokedAt := some now })
      (fun _ ↦ rfl) (fun _ ↦ rfl) (fun _ hactive ↦ Bool.noConfusion hactive) id
  | touch id now =>
    cases h
    exact hunique.updateHost (f := fun record ↦ { record with lastSeenAt := some now })
      (fun _ ↦ rfl) (fun _ ↦ rfl) (fun _ hactive ↦ hactive) id

theorem steps_cases {statement : Statement} {answer : statement.Answer}
    (h : statements.steps db statement answer next) :
    (∃ value, answer = .ok value ∧ db.execute statement = .ok (value, next)) ∨
      (∃ e, answer = .error e) ∧ next = db := by
  obtain hran | ⟨e, hanswer, -, hnext⟩ | ⟨detail, hanswer, hnext⟩ := h
  · exact .inl hran
  · exact .inr ⟨⟨e, hanswer⟩, hnext⟩
  · exact .inr ⟨⟨_, hanswer⟩, hnext⟩

theorem execute_of_steps {statement : Statement} {value : statement.Returned}
    (h : statements.steps db statement (.ok value) next) :
    db.execute statement = .ok (value, next) := by
  obtain ⟨_, hvalue, hexecute⟩ | ⟨⟨e, hanswer⟩, -⟩ := steps_cases h
  · cases hvalue
    exact hexecute
  · cases hanswer

theorem steps_evolves {statement : Statement} {answer : statement.Answer}
    (h : statements.steps db statement answer next) : Evolves db next := by
  obtain ⟨value, -, hexecute⟩ | ⟨-, rfl⟩ := steps_cases h
  · exact execute_evolves hexecute
  · exact .refl next

/-! ## Runs of several processes -/

/-- Every operation any process will run, none of them begun, over one database. -/
abbrev StorePool (ι : Type) := Pool Statement Statement.Answer EnrollError Reply Database ι

/-- A new database and the operations to come. -/
def StorePool.start {ι : Type} (codeHash : String → String) (operation : ι → Operation) :
    StorePool ι where
  shared := .empty
  point i := (operation i).program codeHash

variable {ι : Type} [DecidableEq ι] {P Q : StorePool ι} {log : List (Occurrence Database ι)}

/-- A run of the operations, statement by statement. -/
abbrev StoreRun (P : StorePool ι) (log : List (Occurrence Database ι)) (Q : StorePool ι) : Prop :=
  Contract.Interleaves (fun _ ↦ statements) P log Q

theorem evolves_of_interleaves (h : StoreRun P log Q) : Evolves P.shared Q.shared :=
  h.invariant (I := Evolves P.shared) (fun _ _ _ _ _ hdb hstep ↦ hdb.trans (steps_evolves hstep))
    (.refl P.shared)

theorem namesUnique_of_interleaves (h : StoreRun P log Q)
    (hunique : NamesUnique P.shared) : NamesUnique Q.shared := by
  refine h.invariant (I := NamesUnique) (fun _ s c a t hs hstep ↦ ?_) hunique
  obtain ⟨value, -, hexecute⟩ | ⟨-, rfl⟩ := steps_cases hstep
  · exact execute_namesUnique hexecute hs
  · exact hs

/-! ### Operations of one statement -/

theorem query_visits {statement : Statement} {wrap : statement.Returned → Reply}
    {path : List (Database × Database)} {result : Except EnrollError Reply}
    (h : statements.Visits (do let value ← query statement; return wrap value) path
      (.done result)) :
    ∃ before after answer, path = [(before, after)] ∧
      statements.steps before statement answer after ∧ result = answer.map wrap := by
  obtain ⟨before, after, rest, answer, rfl, hstep, hrest⟩ := Contract.Visits.of_ask h
  cases answer with
  | ok value =>
    obtain ⟨rfl, hdone⟩ := Contract.Visits.of_done hrest
    cases hdone
    exact ⟨before, after, .ok value, rfl, hstep, rfl⟩
  | error e =>
    obtain ⟨rfl, hdone⟩ := Contract.Visits.of_done hrest
    cases hdone
    exact ⟨before, after, .error e, rfl, hstep, rfl⟩

theorem query_occurrence {statement : Statement} {wrap : statement.Returned → Reply} {i : ι}
    (h : StoreRun P log Q)
    (hpoint : P.point i = do let value ← query statement; return wrap value)
    {result : Except EnrollError Reply} (hdone : Q.point i = .done result) :
    ∃ o answer, o ∈ log ∧ o.actor = i ∧ statements.steps o.before statement answer o.after ∧
      result = answer.map wrap ∧ ∀ other ∈ log, other.actor = i →
        other.before = o.before ∧ other.after = o.after := by
  have hvisits := h.visits i
  rw [hpoint, hdone] at hvisits
  obtain ⟨before, after, answer, hpath, hstep, hresult⟩ := query_visits hvisits
  have hall : ∀ other ∈ log, other.actor = i → other.before = before ∧ other.after = after := by
    intro other hother hactor
    have hmem : (other.before, other.after) ∈
        (log.filter fun o ↦ o.actor = i).map fun o ↦ (o.before, o.after) :=
      List.mem_map.mpr ⟨other, List.mem_filter.mpr ⟨hother, by simpa using hactor⟩, rfl⟩
    rw [hpath, List.mem_singleton] at hmem
    exact Prod.mk.inj hmem
  obtain ⟨o, ho, hpair⟩ : ∃ o ∈ log.filter fun o ↦ o.actor = i, (o.before, o.after) =
      (before, after) := by
    have hmem : (before, after) ∈
        (log.filter fun o ↦ o.actor = i).map fun o ↦ (o.before, o.after) := by
      rw [hpath]
      exact List.mem_singleton_self _
    obtain ⟨o, ho, hpair⟩ := List.mem_map.mp hmem
    exact ⟨o, ho, hpair⟩
  obtain ⟨hlog, hactor⟩ := List.mem_filter.mp ho
  obtain ⟨rfl, rfl⟩ := Prod.mk.inj hpair
  exact ⟨o, answer, hlog, by simpa using hactor, hstep, hresult, hall⟩

theorem evolves_between (h : StoreRun P log Q) {a b : Occurrence Database ι}
    (ha : a ∈ log) (hb : b ∈ log) (hactor : a.actor ≠ b.actor) :
    Evolves a.after b.before ∨ Evolves b.after a.before := by
  obtain ⟨R, S, earlier, later, rfl, hR, hS, hearlier, hlater⟩ := h.split ha
  have hb' : b ∈ earlier ∨ b ∈ later := by
    rcases List.mem_append.mp hb with hb | hb
    · exact .inl hb
    · rcases List.mem_cons.mp hb with rfl | hb
      · exact absurd rfl hactor
      · exact .inr hb
  rcases hb' with hb | hb
  · obtain ⟨_, S', _, _, _, _, hS', _, hbetween⟩ := hearlier.split hb
    right
    rw [← hS', ← hR]
    exact evolves_of_interleaves hbetween
  · obtain ⟨R', _, _, _, _, hR', _, hbetween, _⟩ := hlater.split hb
    left
    rw [← hS, ← hR']
    exact evolves_of_interleaves hbetween

/-! ### Codes -/

/-- The digest `enroll` looks a code up by. -/
def lookup (codeHash : String → String) (code : String) : String :=
  codeHash (String.ofList (trim code.toList))

theorem digitChar_visible {n : Nat} (h : n < 16) : isWhitespace (Nat.digitChar n) = false := by
  revert n
  decide

theorem lookup_inviteCode (codeHash : String → String) (random : Vector UInt8 16) :
    lookup codeHash (inviteCode random) = codeHash (inviteCode random) := by
  have hchars : (inviteCode random).toList = "rmc_".toList ++ hexEncode random.toList :=
    String.toList_ofList
  have hvisible : ∀ c ∈ (inviteCode random).toList, isWhitespace c = false := by
    intro c hc
    rw [hchars] at hc
    rcases List.mem_append.mp hc with hc | hc
    · have hnone : "rmc_".toList.any isWhitespace = false := by decide
      simpa using List.any_eq_false.mp hnone c hc
    · obtain ⟨byte, -, hc⟩ := List.mem_flatMap.mp hc
      have hbyte : byte.toNat < 256 := byte.toNat_lt
      rcases List.mem_pair.mp hc with rfl | rfl
      · exact digitChar_visible (by omega)
      · exact digitChar_visible (by omega)
  rw [lookup, trim_eq_self hvisible, String.ofList_toList]

theorem createInvite_visits {codeHash : String → String} {name : String} {ttl : Nat}
    {now : Timestamp} {random : Vector UInt8 16} {issued : Invite}
    {path : List (Database × Database)}
    (h : statements.Visits ((Operation.createInvite name ttl now random).program codeHash) path
      (.done (.ok (.invite issued)))) :
    issued = ⟨inviteCode random, name, now + ttl⟩ ∧ ∃ before after, (before, after) ∈ path ∧
      before.execute (.insertInvite ⟨codeHash (inviteCode random), name, now, now + ttl, none⟩) =
        .ok ((), after) := by
  simp only [Operation.program, createInvite] at h
  cases hname : validateName name with
  | error e =>
    rw [hname] at h
    obtain ⟨-, hdone⟩ := Contract.Visits.of_done h
    cases hdone
  | ok =>
    rw [hname] at h
    by_cases httl : minInviteTtl ≤ ttl ∧ ttl ≤ maxInviteTtl
    · rw [if_neg (not_not.mpr httl)] at h
      obtain ⟨_, _, rest, taken, rfl, -, h⟩ := Contract.Visits.of_ask h
      match taken with
      | .error e =>
        obtain ⟨-, hdone⟩ := Contract.Visits.of_done h
        cases hdone
      | .ok true =>
        obtain ⟨-, hdone⟩ := Contract.Visits.of_done h
        cases hdone
      | .ok false =>
        obtain ⟨before, after, rest, answer, rfl, hstep, h⟩ := Contract.Visits.of_ask h
        match answer with
        | .error e =>
          obtain ⟨-, hdone⟩ := Contract.Visits.of_done h
          cases hdone
        | .ok () =>
          obtain ⟨-, hdone⟩ := Contract.Visits.of_done h
          cases hdone
          exact ⟨rfl, before, after, by simp, execute_of_steps hstep⟩
    · rw [if_pos httl] at h
      obtain ⟨-, hdone⟩ := Contract.Visits.of_done h
      cases hdone

/-! ## Enrollment safety -/

/-- Instance `i` enrolled a host with a code. -/
def Enrolled (operation : ι → Operation) (P : StorePool ι) (i : ι) (code : String)
    (now : Timestamp) (record : HostRecord) : Prop :=
  ∃ hostname publicKey uuid, operation i = .enroll code hostname publicKey now uuid ∧
    P.point i = .done (.ok (.enrolled record))

/-- Instance `i` issued an invite. -/
def Issued (operation : ι → Operation) (P : StorePool ι) (i : ι) (issued : Invite) : Prop :=
  ∃ name ttl now random, operation i = .createInvite name ttl now random ∧
    P.point i = .done (.ok (.invite issued))

/-- What the coordinator promises once a run has reached `P`, and of every run from there. -/
structure EnrollmentSafe (codeHash : String → String) (operation : ι → Operation)
    (log : List (Occurrence Database ι)) (P : StorePool ι) : Prop where
  code_once : ∀ i j code code' now now' record record', Enrolled operation P i code now record →
    Enrolled operation P j code' now' record' → lookup codeHash code = lookup codeHash code' →
    i = j
  invited : ∀ i code now record, Enrolled operation P i code now record →
    ∃ invite, P.shared.invites.find? (lookup codeHash code) = some invite ∧
      invite.usedAt ≠ none ∧ now < invite.expiresAt ∧ invite.name = record.name
  before_expiry : ∀ i k code now record issued, Enrolled operation P i code now record →
    Issued operation P k issued → lookup codeHash code = lookup codeHash issued.code →
    now < issued.expiresAt ∧ record.name = issued.name
  one_active_per_name : ∀ a ∈ P.shared.hosts.rows, ∀ b ∈ P.shared.hosts.rows, a.isActive →
    b.isActive → a.name = b.name → a = b
  failed_enroll : ∀ i code hostname publicKey now uuid e,
    operation i = .enroll code hostname publicKey now uuid → P.point i = .done (.error e) →
    ∀ o ∈ log, o.actor = i → o.after = o.before
  revoked_forever : ∀ later Q, StoreRun P later Q → ∀ id record,
    P.shared.hosts.find? id = some record → record.isActive = false →
    (∃ kept, Q.shared.hosts.find? id = some kept ∧ kept.isActive = false) ∧
    ∀ i asked found, operation i = .activeHost asked →
      P.point i = (operation i).program codeHash → Q.point i = .done (.ok (.host (some found))) →
      found.isActive ∧ found.id ≠ id

variable {codeHash : String → String} {operation : ι → Operation}

theorem enrolled_occurrence
    (h : StoreRun (StorePool.start codeHash operation) log P) {i : ι}
    {code : String} {now : Timestamp} {record : HostRecord}
    (hi : Enrolled operation P i code now record) :
    ∃ o ∈ log, o.actor = i ∧ ∃ hostname publicKey uuid invite,
      EnrolledBy o.before (lookup codeHash code) hostname publicKey now uuid invite record
        o.after := by
  obtain ⟨hostname, publicKey, uuid, hop, hdone⟩ := hi
  have hpoint : (StorePool.start codeHash operation).point i =
      (Operation.enroll code hostname publicKey now uuid).program codeHash :=
    congrArg (Operation.program codeHash) hop
  obtain ⟨o, answer, ho, hactor, hstep, hresult, -⟩ := query_occurrence h hpoint hdone
  obtain ⟨value, rfl, hvalue⟩ := Result.map_eq_ok.mp hresult.symm
  cases hvalue
  have hexecute : enrollTransaction o.before (lookup codeHash code) hostname publicKey now uuid =
      .ok (record, o.after) := execute_of_steps hstep
  obtain ⟨invite, henrolled⟩ := enrollTransaction_ok hexecute
  exact ⟨o, ho, hactor, hostname, publicKey, uuid, invite, henrolled⟩

theorem EnrolledBy.spent {hash hostname publicKey id hostname' publicKey' id' : String}
    {now now' : Timestamp} {invite invite' : InviteRow} {record record' : HostRecord}
    {db' next' : Database} (h : EnrolledBy db hash hostname publicKey now id invite record next)
    (hlater : Evolves next db')
    (h' : EnrolledBy db' hash hostname' publicKey' now' id' invite' record' next') : False := by
  have hkey : invite.codeHash = hash := Table.key_of_find? h.invited
  have hspent : next.invites.find? hash = some { invite with usedAt := some now } := by
    rw [h.next_eq, Table.find?_put, if_pos hkey.symm]
  obtain ⟨kept, hkept, -, -, hused⟩ := hlater.invites _ _ hspent
  obtain rfl : kept = invite' := Option.some.inj (hkept.symm.trans h'.invited)
  exact hused (Option.some_ne_none now) h'.unused

theorem enrolled_invite
    (h : StoreRun (StorePool.start codeHash operation) log P) {i : ι}
    {code : String} {now : Timestamp} {record : HostRecord}
    (hi : Enrolled operation P i code now record) :
    ∃ invite, P.shared.invites.find? (lookup codeHash code) = some invite ∧
      invite.usedAt ≠ none ∧ now < invite.expiresAt ∧ invite.name = record.name := by
  obtain ⟨o, ho, -, _, _, _, invite, henrolled⟩ := enrolled_occurrence h hi
  obtain ⟨_, S, _, _, -, -, hS, -, hafter⟩ := h.split ho
  have hkey : invite.codeHash = lookup codeHash code := Table.key_of_find? henrolled.invited
  have hspent : S.shared.invites.find? (lookup codeHash code) =
      some { invite with usedAt := some now } := by
    rw [hS, henrolled.next_eq, Table.find?_put, if_pos hkey.symm]
  obtain ⟨kept, hkept, hname, hexpiry, hused⟩ :=
    (evolves_of_interleaves hafter).invites _ _ hspent
  refine ⟨kept, hkept, hused (Option.some_ne_none now), ?_, ?_⟩
  · rw [hexpiry]
    exact henrolled.before_expiry
  · rw [hname, henrolled.record_eq]

theorem issued_invite
    (h : StoreRun (StorePool.start codeHash operation) log P) {k : ι}
    {issued : Invite} (hk : Issued operation P k issued) :
    ∃ invite, P.shared.invites.find? (lookup codeHash issued.code) = some invite ∧
      invite.expiresAt = issued.expiresAt ∧ invite.name = issued.name := by
  obtain ⟨name, ttl, now, random, hop, hdone⟩ := hk
  have hvisits := h.visits k
  have hpoint : (StorePool.start codeHash operation).point k =
      (Operation.createInvite name ttl now random).program codeHash :=
    congrArg (Operation.program codeHash) hop
  rw [hpoint, hdone] at hvisits
  obtain ⟨rfl, before, after, hmem, hexecute⟩ := createInvite_visits hvisits
  obtain ⟨o, ho, hpair⟩ := List.mem_map.mp hmem
  obtain ⟨rfl, rfl⟩ := Prod.mk.inj hpair
  obtain ⟨_, S, _, _, -, -, hS, -, hafter⟩ := h.split (List.mem_of_mem_filter ho)
  obtain ⟨stored, hstored, heq⟩ := Result.map_eq_ok.mp hexecute
  obtain ⟨-, rfl⟩ := insertInvite_ok (Result.mapError_eq_ok.mp hstored)
  obtain ⟨-, hnext⟩ := Prod.mk.inj heq
  have hinserted : S.shared.invites.find? (codeHash (inviteCode random)) =
      some ⟨codeHash (inviteCode random), name, now, now + ttl, none⟩ := by
    rw [hS, ← hnext, Table.find?_put, if_pos rfl]
  obtain ⟨kept, hkept, hname, hexpiry, -⟩ :=
    (evolves_of_interleaves hafter).invites _ _ hinserted
  rw [lookup_inviteCode]
  exact ⟨kept, hkept, hexpiry, hname⟩

theorem activeHost_found (h : StoreRun P log Q) {i : ι} {asked : String}
    {found : HostRecord} (hpoint : P.point i = (Operation.activeHost asked).program codeHash)
    (hdone : Q.point i = .done (.ok (.host (some found)))) :
    found.isActive = true ∧ ∃ db, Evolves P.shared db ∧ db.hosts.find? found.id = some found := by
  obtain ⟨o, answer, ho, -, hstep, hresult, -⟩ := query_occurrence h hpoint hdone
  obtain ⟨value, rfl, hvalue⟩ := Result.map_eq_ok.mp hresult.symm
  cases hvalue
  obtain ⟨R, _, _, _, -, hR, -, hbefore, -⟩ := h.split ho
  have hexecute := execute_of_steps hstep
  simp only [Database.execute, Except.ok.injEq, Prod.mk.injEq, Option.filter_eq_some_iff]
    at hexecute
  obtain ⟨⟨hfound, hactive⟩, -⟩ := hexecute
  refine ⟨hactive, o.before, hR ▸ evolves_of_interleaves hbefore, ?_⟩
  rw [Table.key_of_find? hfound]
  exact hfound

/-- Random bytes of an issued code. -/
def sampleBytes : Vector UInt8 16 :=
  #v[0, 1, 2, 3, 4, 5, 6, 7, 8, 9, 10, 11, 12, 13, 14, 15]

/-- The SHA-256 of the code of `sampleBytes`. -/
def sampleHash (code : String) : String :=
  if code = "rmc_000102030405060708090a0b0c0d0e0f" then
    "9d78e8f6061504a57a7a9d965942d166098564d36a9d130a1408be13801754a9"
  else code

/-- One process issues an invite, another enrolls with its code. -/
def sampleOperation : Nat → Operation
  | 0 => .createInvite "linux-big" (seconds 900) 0 sampleBytes
  | 1 => .enroll " rmc_000102030405060708090a0b0c0d0e0f" "box" "KEY" 5 "h-1"
  | _ => .activeHost "h-1"

/-- The host the second process enrolls. -/
def sampleRecord : HostRecord := ⟨"h-1", "linux-big", "box", "KEY", 5, none, none⟩

def sampleCodeHash : String :=
  "9d78e8f6061504a57a7a9d965942d166098564d36a9d130a1408be13801754a9"

theorem sample_issued : sampleHash (inviteCode sampleBytes) = sampleCodeHash := by
  have hcode : inviteCode sampleBytes = "rmc_000102030405060708090a0b0c0d0e0f" := by
    unfold inviteCode
    rw [String.toList_ofList]
    rfl
  rw [hcode]
  exact if_pos rfl

theorem sample_enrolls : (sampleOperation 1).program sampleHash =
    query (.enroll sampleCodeHash "box" "KEY" 5 "h-1") >>= fun record ↦ pure (.enrolled record) := by
  have hlookup : lookup sampleHash " rmc_000102030405060708090a0b0c0d0e0f" = sampleCodeHash := by
    unfold lookup
    rw [String.toList_ofList]
    exact if_pos rfl
  rw [← hlookup]
  rfl

end RunnerManager.Coordinator
