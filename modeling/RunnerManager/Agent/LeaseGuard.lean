import RunnerManager.Agent.PackageLeases

/-!
# What leases guard

The cache under the allocation lock: what stands at a version's path, what the lease files hold and
which attempts there are. Operations run one after another and each may be cut off before any call.
Read `prune_reads` first: a prune that removes a version has read every lease file. `Guarded` is
what every operation keeps.
-/

namespace RunnerManager.Agent.Package

open RunnerManager.Domain
open Contract (wp_along wp_mono wp_of_map wp_outcome_seq wp_runs wp_seq)

/-! ## The cache -/

/-- What stands at a version's path. -/
inductive Slot where
  | vacant
  | file
  | directory (manifest : Option Manifest)

/-- What a lease file holds. -/
inductive LeaseContent where
  | text (content : List Char)
  | unreadable

/-- The cache and the attempts of the host. `displaced` is history: the version an attempt leased
was set aside by a reinstall since. -/
structure LeaseWorld where
  slot : Version → Slot
  leases : LeaseFile → Option LeaseContent
  attempts : AttemptId → Option RunnerAttempt
  displaced : AttemptId → Prop

def LeaseWorld.Present (s : LeaseWorld) (version : Version) : Prop :=
  ∃ manifest, s.slot version = .directory (some manifest)

namespace PackageCache

variable (cache : PackageCache)

/-- What is documented of `uuid` and `serde_json`: an identifier reads back, and a lease, whole or
cut off, reads as what was written or not at all. -/
structure Documented : Prop where
  parseUuid_spell : ∀ id, cache.parseUuid (cache.spell id) = some id
  decode_front : ∀ raw front read, front <+: leaseText raw →
    cache.decodeLease front = some read → read = raw

def Reads (s : LeaseWorld) (file : LeaseFile) (version : Version) : Prop :=
  ∃ content, s.leases file = some (.text content) ∧
    (cache.decodeLease content).bind Version.parse = some version

/-- What goes on outside the lock: attempts move on, and new ones have names no lease has. -/
structure Evolves (s t : LeaseWorld) : Prop where
  slot : t.slot = s.slot
  leases : t.leases = s.leases
  displaced : t.displaced = s.displaced
  moved : ∀ id a, s.attempts id = some a →
    ∃ ops : List AttemptOp, t.attempts id = some (ops.foldl (fun a op ↦ op.exec a) a)
  fresh : ∀ id, s.attempts id = none → t.attempts id ≠ none →
    s.leases (cache.leaseFile id) = none

def After (s : LeaseWorld) : (c : LeaseCall) → c.Answer → LeaseWorld → Prop
  | .isDir version, found, t =>
    t = s ∧ (found = true → ∃ manifest, s.slot version = .directory manifest)
  | .readManifest version, answer, t =>
    t = s ∧ ∀ read manifest, answer = .ok read → s.slot version = .directory manifest →
      read = manifest
  | .listLeases, answer, t =>
    t = s ∧ match answer with
      | .notFound => ∀ file, s.leases file = none
      | .failed _ => True
      | .entries list => ∀ file, s.leases file ≠ none →
          .ok file ∈ list ∨ ∃ source, .error source ∈ list
  | .readLease file, answer, t =>
    t = s ∧ match answer with
      | .gone => s.leases file = none
      | .failed _ => True
      | .text content => s.leases file = some (.text content)
  | .writeLease file content, answer, t =>
    t = s ∧ answer ≠ .ok () ∨ ∃ front, front <+: content ∧ (answer = .ok () → front = content) ∧
      t = { s with
        leases := Function.update s.leases file (some (.text front))
        displaced := fun id ↦ s.displaced id ∧ cache.leaseFile id ≠ file }
  | .removeLease file, answer, t =>
    match answer with
    | .removed => t = { s with leases := Function.update s.leases file none }
    | .gone => t = s ∧ s.leases file = none
    | .failed _ => t = s
  | .removeVersion version, answer, t =>
    ∃ left, (answer = .ok () → left = .vacant) ∧
      t = { s with slot := Function.update s.slot version left }
  | .setAside version, answer, t =>
    match answer with
    | .ok _ => t = { s with
        slot := Function.update s.slot version .vacant
        displaced := fun id ↦ s.displaced id ∨ cache.Reads s (cache.leaseFile id) version }
    | .error _ => t = s
  | .install force, _, t =>
    t.leases = s.leases ∧ t.attempts = s.attempts ∧ ∃ aside : Option Version,
      (force = false → aside = none) ∧
      (∀ version, aside ≠ some version → s.Present version → t.Present version) ∧
      t.displaced = fun id ↦ s.displaced id ∨
        ∃ version, aside = some version ∧ cache.Reads s (cache.leaseFile id) version
  | .attempts, answer, t =>
    t = s ∧ ∀ list, answer = .ok list → ∀ a ∈ list, s.attempts a.id = some a
  | .listVersions, _, t | .createLeases, _, t | .createStaging, _, t | .treeHolds _, _, t
  | .recordTree _, _, t | .copyTree .., _, t | .removeMaterialized _, _, t
  | .demandPersists _, _, t => t = s

/-- The environment under the lock, with a requirement on every call. -/
def world (may : LeaseWorld → LeaseCall → Prop) :
    Contract LeaseCall LeaseCall.Answer LeaseWorld where
  requires := may
  steps s c a t := ∃ mid, cache.After s c a mid ∧ cache.Evolves mid t

def looks : LeaseCall → Bool
  | .isDir _ | .readManifest _ | .listLeases | .readLease _ => true
  | _ => false

/-! ## Attempts that move on -/

section

variable {cache}

theorem Evolves.refl (s : LeaseWorld) : cache.Evolves s s where
  slot := rfl
  leases := rfl
  displaced := rfl
  moved _ _ h := ⟨[], h⟩
  fresh _ hnone hsome := absurd hnone hsome

theorem Evolves.trans {s t u : LeaseWorld} (h : cache.Evolves s t) (h' : cache.Evolves t u) :
    cache.Evolves s u where
  slot := h'.slot.trans h.slot
  leases := h'.leases.trans h.leases
  displaced := h'.displaced.trans h.displaced
  moved id a ha := by
    obtain ⟨ops, hops⟩ := h.moved id a ha
    obtain ⟨more, hmore⟩ := h'.moved id _ hops
    refine ⟨ops ++ more, ?_⟩
    rw [List.foldl_append]
    exact hmore
  fresh id hnone hsome := by
    cases ht : t.attempts id with
    | none =>
      rw [← h.leases]
      exact h'.fresh id ht hsome
    | some a =>
      refine h.fresh id hnone ?_
      rw [ht]
      exact Option.some_ne_none a

theorem counts_of_ops {a : RunnerAttempt} {ops : List AttemptOp}
    (h : (ops.foldl (fun a op ↦ op.exec a) a).countsAgainstCapacity = true) :
    a.countsAgainstCapacity = true := by
  induction ops generalizing a with
  | nil => exact h
  | cons op ops ih => exact counts_of_exec (ih h)

/-- The attempts of the list that do not count are there, and still do not count. -/
def Quiet (attempts : List RunnerAttempt) (s : LeaseWorld) : Prop :=
  ∀ a ∈ attempts, a.countsAgainstCapacity = false →
    ∃ b, s.attempts a.id = some b ∧ b.countsAgainstCapacity = false

theorem Quiet.of_listed {attempts : List RunnerAttempt} {s : LeaseWorld}
    (h : ∀ a ∈ attempts, s.attempts a.id = some a) : Quiet attempts s :=
  fun a ha hcounts ↦ ⟨a, h a ha, hcounts⟩

theorem Quiet.evolves {attempts : List RunnerAttempt} {s t : LeaseWorld}
    (h : Quiet attempts s) (ht : cache.Evolves s t) : Quiet attempts t := by
  intro a ha hcounts
  obtain ⟨b, hb, hquiet⟩ := h a ha hcounts
  obtain ⟨ops, hops⟩ := ht.moved a.id b hb
  refine ⟨_, hops, ?_⟩
  rw [← Bool.not_eq_true]
  intro hcounts
  rw [counts_of_ops hcounts] at hquiet
  cases hquiet

theorem After.attempts {s t : LeaseWorld} {c : LeaseCall} {a : c.Answer}
    (h : cache.After s c a t) : t.attempts = s.attempts := by
  cases c with
  | isDir _ | readManifest _ | listLeases | readLease _ | attempts => rw [h.1]
  | listVersions | createLeases | createStaging | treeHolds _ | recordTree _ | copyTree _ _
  | removeMaterialized _ | demandPersists _ => rw [show t = s from h]
  | writeLease file content =>
    rcases h with ⟨rfl, _⟩ | ⟨front, _, _, rfl⟩
    · rfl
    · rfl
  | removeLease file =>
    cases a with
    | removed =>
      rw [show t = _ from h]
    | gone => rw [h.1]
    | failed => rw [show t = s from h]
  | removeVersion version =>
    obtain ⟨left, _, rfl⟩ := h
    rfl
  | setAside version =>
    cases a with
    | ok => rw [show t = _ from h]
    | error => rw [show t = s from h]
  | install force => exact h.2.1

theorem Quiet.step {attempts : List RunnerAttempt} {s t : LeaseWorld}
    {may : LeaseWorld → LeaseCall → Prop} {c : LeaseCall} {a : c.Answer}
    (h : Quiet attempts s) (hstep : (cache.world may).steps s c a t) : Quiet attempts t := by
  obtain ⟨mid, hafter, hevolves⟩ := hstep
  refine Quiet.evolves (fun a ha hcounts ↦ ?_) hevolves
  rw [hafter.attempts]
  exact h a ha hcounts

theorem wp_quiet {ε α : Type} {may : LeaseWorld → LeaseCall → Prop} {s : LeaseWorld}
    {p : Program LeaseCall LeaseCall.Answer ε α} {Q : Except ε α → LeaseWorld → Prop}
    {attempts : List RunnerAttempt} (h : (cache.world may).wp p Q s) (hquiet : Quiet attempts s) :
    (cache.world may).wp p (fun result t ↦ Quiet attempts t ∧ Q result t) s := by
  refine wp_mono (wp_along (R := fun s t ↦ Quiet attempts s → Quiet attempts t)
    (fun _ h ↦ h) (fun _ _ _ h h' hs ↦ h' (h hs)) (fun s c a t hstep hs ↦ hs.step hstep) h) ?_
  exact fun result t ht ↦ ⟨ht.1 hquiet, ht.2⟩

end

/-! ## What a lease file says -/

theorem Reads.unique {cache : PackageCache} {s : LeaseWorld} {file : LeaseFile} {v w : Version}
    (h : cache.Reads s file v) (h' : cache.Reads s file w) : v = w := by
  obtain ⟨content, hcontent, hread⟩ := h
  obtain ⟨content', hcontent', hread'⟩ := h'
  rw [hcontent] at hcontent'
  cases hcontent'
  rw [hread] at hread'
  exact Option.some.inj hread'

/-- What is known of a lease file that did not stop a reader: its name is an identifier, it reads
as a version, and where that is the one looked for the identifier was reported. -/
def Understood (s : LeaseWorld) (version : Version) (file : LeaseFile)
    (reported : AttemptId → Prop) : Prop :=
  ∃ id read, file.stem.bind cache.parseUuid = some id ∧ cache.Reads s file read ∧
    (read = version → reported id)

theorem Understood.mono {cache : PackageCache} {s : LeaseWorld} {version : Version}
    {file : LeaseFile} {reported more : AttemptId → Prop}
    (h : cache.Understood s version file reported) (hmore : ∀ id, reported id → more id) :
    cache.Understood s version file more := by
  obtain ⟨id, read, hid, hread, hreported⟩ := h
  exact ⟨id, read, hid, hread, fun hversion ↦ hmore id (hreported hversion)⟩

theorem Understood.evolves {cache : PackageCache} {s t : LeaseWorld} {version : Version}
    {file : LeaseFile} {reported : AttemptId → Prop} (h : cache.Understood t version file reported)
    (ht : cache.Evolves s t) : cache.Understood s version file reported := by
  obtain ⟨id, read, hid, ⟨content, hcontent, hread⟩, hreported⟩ := h
  exact ⟨id, read, hid, ⟨content, ht.leases ▸ hcontent, hread⟩, hreported⟩

/-! ## What the reading steps say -/

section

variable {cache} {may : LeaseWorld → LeaseCall → Prop} {s : LeaseWorld}
  (hmay : ∀ s c, looks c = true → may s c)

include hmay

theorem wp_entry (version : Version) : (cache.world may).wp (cache.entry version)
    (fun result t ↦ cache.Evolves s t ∧ ∀ found, result = .ok (some found) → s.Present version)
    s := by
  refine ⟨hmay _ _ rfl, ?_⟩
  rintro found t ⟨mid, ⟨rfl, hdirectory⟩, ht⟩
  cases found with
  | false => exact ⟨ht, fun _ h ↦ nomatch h⟩
  | true =>
    obtain ⟨manifest, hslot⟩ := hdirectory rfl
    refine ⟨hmay _ _ rfl, ?_⟩
    rintro answer u ⟨mid, ⟨rfl, hread⟩, hu⟩
    have hevolves := ht.trans hu
    cases answer with
    | error source => exact ⟨hevolves, fun _ h ↦ nomatch h⟩
    | ok read =>
      refine ⟨hevolves, fun package hpackage ↦ ?_⟩
      rw [← ht.slot] at hslot
      rw [hread read manifest rfl hslot] at hpackage
      cases manifest with
      | none => cases hpackage
      | some manifest => exact ⟨manifest, by rw [← ht.slot, hslot]⟩

theorem wp_holderOf (file : LeaseFile) (version : Version) :
    (cache.world may).wp (cache.holderOf file version)
      (fun result t ↦ cache.Evolves s t ∧ ∀ holder, result = .ok holder → s.leases file ≠ none →
        cache.Understood s version file (holder = some ·)) s := by
  unfold holderOf
  cases hid : file.stem.bind cache.parseUuid with
  | none => exact ⟨.refl s, fun _ h ↦ nomatch h⟩
  | some id =>
    refine ⟨hmay _ _ rfl, ?_⟩
    rintro answer t ⟨mid, ⟨rfl, hanswer⟩, ht⟩
    cases answer with
    | gone => exact ⟨ht, fun _ _ hthere ↦ absurd hanswer hthere⟩
    | failed source => exact ⟨ht, fun _ h ↦ nomatch h⟩
    | text content =>
      dsimp only [Program.andThen]
      cases hread : (cache.decodeLease content).bind Version.parse with
      | none => exact ⟨ht, fun _ h ↦ nomatch h⟩
      | some held =>
        refine ⟨ht, fun holder hholder _ ↦ ?_⟩
        refine ⟨id, held, hid, ⟨content, hanswer, hread⟩, fun hversion ↦ ?_⟩
        rw [← Except.ok.inj hholder]
        exact if_pos hversion

theorem wp_holdersAmong (version : Version) (list : List (Except String LeaseFile)) :
    (cache.world may).wp (cache.holdersAmong version list)
      (fun result t ↦ cache.Evolves s t ∧ ∀ found, result = .ok found →
        (∀ source, .error source ∉ list) ∧ ∀ file, .ok file ∈ list →
          file.extension = some "lease" → s.leases file ≠ none →
            cache.Understood s version file (· ∈ found)) s := by
  induction list generalizing s with
  | nil => exact ⟨.refl s, fun _ _ ↦ ⟨fun _ h ↦ (nomatch h), fun _ h ↦ nomatch h⟩⟩
  | cons first rest ih =>
    cases first with
    | error source => exact ⟨.refl s, fun _ h ↦ nomatch h⟩
    | ok file =>
      unfold holdersAmong
      by_cases hlease : file.extension ≠ some "lease"
      · rw [if_pos hlease]
        refine wp_mono ih fun result t ⟨ht, hrest⟩ ↦ ⟨ht, fun found hfound ↦ ?_⟩
        obtain ⟨herrors, hfiles⟩ := hrest found hfound
        refine ⟨fun source h ↦ ?_, fun other hother hextension ↦ ?_⟩
        · rcases List.mem_cons.mp h with h | h
          · cases h
          · exact herrors source h
        · rcases List.mem_cons.mp hother with h | h
          · cases h
            exact absurd hextension hlease
          · exact hfiles other h hextension
      · rw [if_neg hlease]
        refine wp_seq (wp_holderOf hmay file version) ?_ ?_
        · rintro holder t ⟨ht, hholder⟩
          refine wp_seq ih ?_ ?_
          · rintro others u ⟨hu, hothers⟩
            obtain ⟨herrors, hfiles⟩ := hothers others rfl
            refine ⟨ht.trans hu, fun found hfound ↦ ?_⟩
            cases hfound
            refine ⟨fun source h ↦ ?_, fun other hother hextension hthere ↦ ?_⟩
            · rcases List.mem_cons.mp h with h | h
              · cases h
              · exact herrors source h
            · rcases List.mem_cons.mp hother with h | h
              · cases h
                refine (hholder holder rfl hthere).mono fun id hid ↦ ?_
                exact List.mem_append_left _ (hid ▸ List.mem_singleton_self id)
              · rw [← ht.leases] at hthere
                refine ((hfiles other h hextension hthere).mono fun id hid ↦ ?_).evolves ht
                exact List.mem_append_right _ hid
          · rintro e u ⟨hu, _⟩
            exact ⟨ht.trans hu, fun _ h ↦ nomatch h⟩
        · rintro e t ⟨ht, _⟩
          exact ⟨ht, fun _ h ↦ nomatch h⟩

theorem wp_holders (version : Version) : (cache.world may).wp (cache.holders version)
    (fun result t ↦ cache.Evolves s t ∧ ∀ found, result = .ok found →
      ∀ file, file.extension = some "lease" → s.leases file ≠ none →
        cache.Understood s version file (· ∈ found)) s := by
  refine ⟨hmay _ _ rfl, ?_⟩
  rintro answer t ⟨mid, ⟨rfl, hanswer⟩, ht⟩
  cases answer with
  | notFound => exact ⟨ht, fun _ _ file _ hthere ↦ absurd (hanswer file) hthere⟩
  | failed source => exact ⟨ht, fun _ h ↦ nomatch h⟩
  | entries list =>
    show (cache.world may).wp (cache.holdersAmong version list >>= _) _ t
    refine wp_seq (wp_holdersAmong hmay version list) ?_ ?_
    · rintro found u ⟨hu, hfound⟩
      obtain ⟨herrors, hfiles⟩ := hfound found rfl
      refine ⟨ht.trans hu, fun result hresult file hextension hthere ↦ ?_⟩
      cases hresult
      rcases hanswer file hthere with hmem | ⟨source, hsource⟩
      · rw [← ht.leases] at hthere
        refine ((hfiles file hmem hextension hthere).mono fun id hid ↦ ?_).evolves ht
        exact (List.mem_insertionSort _).mpr hid
      · exact absurd hsource (herrors source)
    · rintro e u ⟨hu, _⟩
      exact ⟨ht.trans hu, fun _ h ↦ nomatch h⟩

end

/-! ## Pruning -/

/-- Listed, and no longer counted. -/
def Spent (attempts : List RunnerAttempt) (id : AttemptId) : Prop :=
  ∃ a, attempts.find? (·.id = id) = some a ∧ a.countsAgainstCapacity = false

/-- A lease file that must stop a prune: nobody can say whose it is or what it holds, or it holds
the version for an attempt that is not listed or still counts. -/
def Stops (s : LeaseWorld) (version : Version) (attempts : List RunnerAttempt)
    (file : LeaseFile) : Prop :=
  file.extension = some "lease" ∧ s.leases file ≠ none ∧
    (file.stem.bind cache.parseUuid = none ∨ (∀ read, ¬ cache.Reads s file read) ∨
      cache.Reads s file version ∧
        ∀ id, file.stem.bind cache.parseUuid = some id → ¬ Spent attempts id)

theorem heldBy_eq_none {version : Version} {attempts : List RunnerAttempt}
    {holders : List AttemptId} (h : heldBy version attempts holders = none) :
    ∀ id ∈ holders, Spent attempts id := by
  induction holders with
  | nil => exact fun _ h ↦ nomatch h
  | cons holder rest ih =>
    unfold heldBy at h
    cases hfind : attempts.find? (·.id = holder) with
    | none =>
      rw [hfind] at h
      cases h
    | some a =>
      by_cases hcounts : a.countsAgainstCapacity = true
      · simp only [hfind, if_pos hcounts] at h
        cases h
      · simp only [hfind, if_neg hcounts] at h
        exact List.forall_mem_cons.mpr ⟨⟨a, hfind, by simpa using hcounts⟩, ih h⟩

/-- What a prune may do, from a state: look, and once nothing stops it remove its version and
release leases. -/
def mayPrune (s : LeaseWorld) (version : Version) (attempts : List RunnerAttempt)
    (t : LeaseWorld) (c : LeaseCall) : Prop :=
  match c with
  | .removeVersion removed => removed = version ∧ cache.Evolves s t ∧
      ∀ file, ¬ cache.Stops s version attempts file
  | .removeLease _ => ∀ file, ¬ cache.Stops s version attempts file
  | c => looks c = true

section

variable {cache} {s : LeaseWorld} {version : Version} {attempts : List RunnerAttempt}

theorem wp_releaseAll (hfree : ∀ file, ¬ cache.Stops s version attempts file)
    (holders : List AttemptId) {t : LeaseWorld} :
    (cache.world (cache.mayPrune s version attempts)).wp (cache.releaseAll holders)
      (fun _ _ ↦ ∀ file, ¬ cache.Stops s version attempts file) t := by
  induction holders generalizing t with
  | nil => exact hfree
  | cons holder rest ih =>
    refine ⟨hfree, fun answer u _ ↦ ?_⟩
    cases answer with
    | removed => exact ih
    | gone => exact ih
    | failed source => exact hfree

/-- A prune looks at every lease before it removes anything, and ends well only where none stops
it. -/
theorem wp_prune (version : Version) (attempts : List RunnerAttempt) :
    (cache.world (cache.mayPrune s version attempts)).wp (cache.prune version attempts)
      (fun result _ ↦ result = .ok () → ∀ file, ¬ cache.Stops s version attempts file) s := by
  have hlooks : ∀ t c, looks c = true → cache.mayPrune s version attempts t c := by
    intro t c hc
    cases c <;> first | exact hc | cases hc
  refine wp_seq (wp_entry hlooks version) ?_ fun _ _ _ h ↦ nomatch h
  rintro found t ⟨ht, _⟩
  cases found with
  | none => exact fun h ↦ nomatch h
  | some package =>
    refine wp_seq (wp_holders hlooks version) ?_ fun _ _ _ h ↦ nomatch h
    rintro holders u ⟨hu, hholders⟩
    cases hheld : heldBy version attempts holders with
    | some refusal => exact fun h ↦ nomatch h
    | none =>
      have hspent := heldBy_eq_none hheld
      have hfree : ∀ file, ¬ cache.Stops s version attempts file := by
        rintro file ⟨hextension, hthere, hstops⟩
        rw [← ht.leases] at hthere
        obtain ⟨id, read, hid, hread, hreported⟩ :=
          (hholders holders rfl file hextension hthere).evolves ht
        rcases hstops with hname | hcontent | ⟨hnamed, hunspent⟩
        · rw [hid] at hname
          cases hname
        · exact hcontent read hread
        · exact hunspent id hid (hspent id (hreported (hread.unique hnamed)))
      refine ⟨⟨rfl, ht.trans hu, hfree⟩, fun answer v _ ↦ ?_⟩
      cases answer with
      | error source => exact fun h ↦ nomatch h
      | ok =>
        exact wp_mono (wp_releaseAll hfree holders) fun _ _ h _ ↦ h

theorem runs_under {ε α : Type} {may may' : LeaseWorld → LeaseCall → Prop} {t : LeaseWorld}
    {p rest : Program LeaseCall LeaseCall.Answer ε α} (h : (cache.world may).Runs p s rest t) :
    (cache.world may').Runs p s rest t :=
  Contract.Runs.of_steps (C := cache.world may) (fun _ _ _ _ h ↦ h) h

theorem prune_reads {t : LeaseWorld} {removed : Version} {may : LeaseWorld → LeaseCall → Prop}
    {next : (LeaseCall.removeVersion removed).Answer → LeaseProgram Unit}
    (hruns : (cache.world may).Runs (cache.prune version attempts) s
      (.ask (.removeVersion removed) next) t) :
    removed = version ∧ cache.Evolves s t ∧ ∀ file, ¬ cache.Stops s version attempts file :=
  Contract.requires_of_runs (wp_prune version attempts) (runs_under hruns)

theorem looks_step {t u : LeaseWorld} {c : LeaseCall} {a : c.Answer} (hc : looks c = true)
    (hafter : cache.After t c a u) : u = t := by
  cases c with
  | isDir _ | readManifest _ | listLeases | readLease _ => exact hafter.1
  | _ => cases hc

theorem prune_stopped {t : LeaseWorld} {file : LeaseFile} {may : LeaseWorld → LeaseCall → Prop}
    {rest : LeaseProgram Unit} (hstops : cache.Stops s version attempts file)
    (hruns : (cache.world may).Runs (cache.prune version attempts) s rest t) :
    cache.Evolves s t ∧ rest ≠ .done (.ok ()) := by
  have hruns' : (cache.world (cache.mayPrune s version attempts)).Runs
      (cache.prune version attempts) s rest t := runs_under hruns
  have hwp := @wp_prune cache s version attempts
  refine ⟨?_, ?_⟩
  · refine Contract.invariant_of_runs ?_ hwp (.refl s) hruns'
    rintro u c a v hu hmay ⟨mid, hafter, hv⟩
    have hlooks : looks c = true := by
      cases c with
      | removeVersion => exact absurd hstops (hmay.2.2 file)
      | removeLease => exact absurd hstops (hmay file)
      | _ => exact hmay
    exact hu.trans (looks_step hlooks hafter ▸ hv)
  · rintro rfl
    exact absurd hstops (wp_runs hwp hruns' rfl file)

end

/-! ## What is guarded -/

/-- An attempt that holds a lease and counts finds its version's entry, unless a reinstall set it
aside since. -/
def Guarded (s : LeaseWorld) : Prop :=
  ∀ id a version, s.attempts id = some a → a.countsAgainstCapacity = true →
    cache.Reads s (cache.leaseFile id) version → s.Present version ∨ s.displaced id

/-- No attempt that counts holds a version. -/
def Free (s : LeaseWorld) (version : Version) : Prop :=
  ∀ id a, s.attempts id = some a → a.countsAgainstCapacity = true →
    ¬ cache.Reads s (cache.leaseFile id) version

/-- What keeps the cache guarded: only free versions are removed, and only versions that are there
are leased. -/
def mayGuard (s : LeaseWorld) : LeaseCall → Prop
  | .removeVersion version => cache.Free s version
  | .writeLease file content => ∃ id version, file = cache.leaseFile id ∧
      content = leaseText version.val.raw ∧ s.Present version
  | _ => True

section

variable {cache} {s t : LeaseWorld}

theorem Guarded.evolves (h : cache.Guarded s) (ht : cache.Evolves s t) : cache.Guarded t := by
  rintro id a version ha hcounts ⟨content, hcontent, hread⟩
  rw [ht.leases] at hcontent
  cases hs : s.attempts id with
  | none =>
    rw [ht.fresh id hs (ha ▸ Option.some_ne_none a)] at hcontent
    cases hcontent
  | some b =>
    obtain ⟨ops, hops⟩ := ht.moved id b hs
    rw [ha] at hops
    cases hops
    rw [LeaseWorld.Present, ht.slot, ht.displaced]
    exact h id b version hs (counts_of_ops hcounts) ⟨content, hcontent, hread⟩

theorem Documented.leaseFile_inj (h : cache.Documented) {id other : AttemptId}
    (heq : cache.leaseFile id = cache.leaseFile other) : id = other := by
  have hspell : cache.spell id = cache.spell other :=
    Option.some.inj (congrArg LeaseFile.stem heq)
  have hparse := h.parseUuid_spell id
  rw [hspell, h.parseUuid_spell other] at hparse
  exact (Option.some.inj hparse).symm

theorem present_of_ne {version other : Version} {left : Slot}
    {displaced : AttemptId → Prop} (hne : other ≠ version) (h : s.Present other) :
    LeaseWorld.Present { s with
      slot := Function.update s.slot version left, displaced := displaced } other := by
  obtain ⟨manifest, hslot⟩ := h
  exact ⟨manifest, (Function.update_of_ne hne _ _).trans hslot⟩

theorem Guarded.after (hdoc : cache.Documented) (h : cache.Guarded s) {c : LeaseCall}
    {answer : c.Answer} (hmay : cache.mayGuard s c) (hafter : cache.After s c answer t) :
    cache.Guarded t := by
  cases c with
  | isDir _ | readManifest _ | listLeases | readLease _ | attempts =>
    rw [hafter.1]
    exact h
  | listVersions | createLeases | createStaging | treeHolds _ | recordTree _ | copyTree _ _
  | removeMaterialized _ | demandPersists _ =>
    rw [show t = s from hafter]
    exact h
  | writeLease file content =>
    obtain ⟨own, written, rfl, rfl, hpresent⟩ := hmay
    rcases hafter with ⟨rfl, _⟩ | ⟨front, hfront, _, rfl⟩
    · exact h
    · rintro id a version ha hcounts ⟨content, hcontent, hread⟩
      by_cases hid : id = own
      · -- What the file reads as now is what was written, and that is there.
        subst hid
        obtain rfl : front = content := by simpa using hcontent
        obtain ⟨raw, hdecode, hparse⟩ := Option.bind_eq_some_iff.mp hread
        have hraw := hdoc.decode_front written.val.raw front raw hfront hdecode
        have hversion : version = written :=
          Version.ext_raw ((Version.raw_of_parse hparse).trans hraw)
        subst hversion
        exact .inl hpresent
      · have hfile : cache.leaseFile id ≠ cache.leaseFile own :=
          fun heq ↦ hid (hdoc.leaseFile_inj heq)
        have hkept : s.leases (cache.leaseFile id) = some (.text content) :=
          (Function.update_of_ne hfile _ _).symm.trans hcontent
        rcases h id a version ha hcounts ⟨content, hkept, hread⟩ with hthere | haside
        · exact .inl hthere
        · exact .inr ⟨haside, hfile⟩
  | removeLease file =>
    cases answer with
    | gone =>
      rw [hafter.1]
      exact h
    | failed source =>
      rw [show t = s from hafter]
      exact h
    | removed =>
      obtain rfl : t = _ := hafter
      rintro id a version ha hcounts ⟨content, hcontent, hread⟩
      by_cases hfile : cache.leaseFile id = file
      · subst hfile
        simp at hcontent
      · have hkept : s.leases (cache.leaseFile id) = some (.text content) :=
          (Function.update_of_ne hfile _ _).symm.trans hcontent
        exact h id a version ha hcounts ⟨content, hkept, hread⟩
  | removeVersion removed =>
    obtain ⟨left, _, rfl⟩ := hafter
    intro id a version ha hcounts hreads
    have hne : version ≠ removed := by
      rintro rfl
      exact hmay id a ha hcounts hreads
    rcases h id a version ha hcounts hreads with hthere | haside
    · exact .inl (present_of_ne hne hthere)
    · exact .inr haside
  | setAside aside =>
    cases answer with
    | error source =>
      rw [show t = s from hafter]
      exact h
    | ok =>
      obtain rfl : t = _ := hafter
      intro id a version ha hcounts hreads
      by_cases hne : version = aside
      · subst hne
        exact .inr (.inr hreads)
      · rcases h id a version ha hcounts hreads with hthere | haside
        · exact .inl (present_of_ne hne hthere)
        · exact .inr (.inl haside)
  | install force =>
    obtain ⟨hleases, hattempts, aside, _, hkept, hdisplaced⟩ := hafter
    rintro id a version ha hcounts ⟨content, hcontent, hread⟩
    rw [hattempts] at ha
    rw [hleases] at hcontent
    rw [hdisplaced]
    have hreads : cache.Reads s (cache.leaseFile id) version := ⟨content, hcontent, hread⟩
    rcases h id a version ha hcounts hreads with hthere | hset
    · by_cases hne : aside = some version
      · exact .inr (.inr ⟨version, hne, hreads⟩)
      · exact .inl (hkept version hne hthere)
    · exact .inr (.inl hset)

/-! ## Operations -/

theorem looks_mayGuard (s : LeaseWorld) (c : LeaseCall) (hc : looks c = true) :
    cache.mayGuard s c := by
  cases c with
  | removeVersion | writeLease => cases hc
  | _ => trivial

theorem wp_under {ε α : Type} {may may' : LeaseWorld → LeaseCall → Prop}
    {p : Program LeaseCall LeaseCall.Answer ε α} {Q : Except ε α → LeaseWorld → Prop}
    (hweaker : ∀ t c, may t c → may' t c) (h : (cache.world may).wp p Q s) :
    (cache.world may').wp p Q s :=
  wp_of_map (C := cache.world may) (D := cache.world may') id hweaker
    (fun _ _ _ _ h ↦ h) h

theorem guard_prune (hdoc : cache.Documented) (version : Version) {attempts : List RunnerAttempt}
    (hquiet : Quiet attempts s) :
    (cache.world cache.mayGuard).wp (cache.prune version attempts) (fun _ _ ↦ True) s := by
  have hprune := @wp_prune cache s version attempts
  refine wp_mono (wp_under (fun t c hmay ↦ ?_) hprune) fun _ _ _ ↦ trivial
  cases c with
  | removeVersion removed =>
    obtain ⟨rfl, ht, hfree⟩ := hmay
    rintro id a ha hcounts ⟨content, hcontent, hread⟩
    -- The holder was understood, so it is listed as spent, and it is still spent.
    refine hfree (cache.leaseFile id) ⟨rfl, ?_, .inr (.inr ⟨?_, ?_⟩)⟩
    · rw [← ht.leases, show t.leases _ = _ from hcontent]
      exact Option.some_ne_none _
    · exact ⟨content, ht.leases ▸ hcontent, hread⟩
    · rintro found hfound ⟨b, hfind, hspent⟩
      obtain rfl : found = id := by
        rw [show (cache.leaseFile id).stem = some (cache.spell id) from rfl, Option.bind_some,
          hdoc.parseUuid_spell] at hfound
        exact (Option.some.inj hfound).symm
      obtain ⟨b', hb', hquiet'⟩ := hquiet.evolves ht b (List.mem_of_find?_eq_some hfind) hspent
      have hid : b.id = found := by simpa using List.find?_some hfind
      rw [hid] at hb'
      rw [show t.attempts found = _ from ha] at hb'
      cases hb'
      rw [hcounts] at hquiet'
      cases hquiet'
  | removeLease _ => trivial
  | _ => exact looks_mayGuard _ _ hmay

theorem guard_lease (attempt : RunnerAttempt) (version : Version) :
    (cache.world cache.mayGuard).wp (cache.lease attempt version) (fun _ _ ↦ True) s := by
  refine wp_seq (wp_entry looks_mayGuard version) ?_ fun _ _ _ ↦ trivial
  rintro found t ⟨ht, hfound⟩
  cases found with
  | none => trivial
  | some package =>
    have hpresent : t.Present version := by
      obtain ⟨manifest, hslot⟩ := hfound package rfl
      exact ⟨manifest, ht.slot ▸ hslot⟩
    show (cache.world _).wp (if isInside cache.root (cache.components attempt.runtimePath) then
      Program.fail _ else _ : LeaseProgram Unit) _ t
    by_cases hinside : isInside cache.root (cache.components attempt.runtimePath) = true
    · rw [if_pos hinside]
      trivial
    · rw [if_neg hinside]
      refine ⟨trivial, ?_⟩
      rintro answer u ⟨mid, rfl, hu⟩
      cases answer with
      | error source => trivial
      | ok =>
        refine ⟨⟨attempt.id, version, rfl, rfl, ?_⟩, fun answer _ _ ↦ ?_⟩
        · obtain ⟨manifest, hslot⟩ := hpresent
          exact ⟨manifest, hu.slot ▸ hslot⟩
        · cases answer <;> trivial

theorem guard_release (id : AttemptId) :
    (cache.world cache.mayGuard).wp (cache.release id) (fun _ _ ↦ True) s := by
  refine ⟨trivial, fun answer _ _ ↦ ?_⟩
  cases answer <;> trivial

theorem guard_installed :
    (cache.world cache.mayGuard).wp cache.installed (fun _ _ ↦ True) s := by
  have hentries : ∀ (versions : List Version) (t : LeaseWorld),
      (cache.world cache.mayGuard).wp (cache.entries versions) (fun _ _ ↦ True) t := by
    intro versions
    induction versions with
    | nil => exact fun _ ↦ trivial
    | cons version rest ih =>
      intro t
      refine wp_seq (wp_entry looks_mayGuard version) (fun _ u _ ↦ ?_)
        fun _ _ _ ↦ trivial
      exact wp_seq (ih u) (fun _ _ _ ↦ trivial) fun _ _ _ ↦ trivial
  refine ⟨trivial, fun answer t _ ↦ ?_⟩
  cases answer with
  | error source => trivial
  | ok versions =>
    show (cache.world _).wp (cache.entries versions >>= _) _ t
    exact wp_seq (hentries versions t) (fun _ _ _ ↦ trivial) fun _ _ _ ↦ trivial

theorem guard_reinstall :
    (cache.world cache.mayGuard).wp cache.reinstall (fun _ _ ↦ True) s := by
  have haside : ∀ (packages : List InstalledPackage) (t : LeaseWorld),
      (cache.world cache.mayGuard).wp (cache.setAsideAll packages) (fun _ _ ↦ True) t := by
    intro packages
    induction packages with
    | nil => exact fun _ ↦ trivial
    | cons package rest ih =>
      refine fun t ↦ ⟨trivial, fun answer u _ ↦ ?_⟩
      cases answer with
      | error source => trivial
      | ok => exact ih u
  refine ⟨trivial, fun answer t _ ↦ ?_⟩
  cases answer with
  | error source => trivial
  | ok =>
    show (cache.world _).wp (cache.installed >>= _) _ t
    refine wp_seq guard_installed (fun packages u _ ↦ ?_) fun _ _ _ ↦ trivial
    refine wp_seq (haside packages u) (fun _ v _ ↦ ?_) fun _ _ _ ↦ trivial
    refine ⟨trivial, fun answer _ _ ↦ ?_⟩
    cases answer <;> trivial

theorem guard_inLaunch {α : Type} {part : LeaseProgram α}
    (h : (cache.world cache.mayGuard).wp part (fun _ _ ↦ True) s) :
    (cache.world cache.mayGuard).wp (inLaunch part) (fun _ _ ↦ True) s := by
  refine wp_outcome_seq h fun result t _ ↦ ?_
  cases result <;> trivial

theorem guard_trusted :
    (cache.world cache.mayGuard).wp cache.trusted (fun _ _ ↦ True) s := by
  refine ⟨trivial, fun answer t _ ↦ ?_⟩
  cases answer with
  | error e => trivial
  | ok found =>
    obtain ⟨package, downloaded⟩ := found
    cases downloaded with
    | true => trivial
    | false =>
      refine ⟨trivial, fun answer u _ ↦ ?_⟩
      cases answer with
      | error reason => trivial
      | ok holds =>
        cases holds with
        | true => trivial
        | false =>
          show (cache.world _).wp (inLaunch cache.reinstall >>= _) _ u
          exact wp_seq (guard_inLaunch guard_reinstall) (fun _ _ _ ↦ trivial)
            fun _ _ _ ↦ trivial

theorem guard_materialize (attempt : RunnerAttempt) :
    (cache.world cache.mayGuard).wp (cache.materialize attempt) (fun _ _ ↦ True) s := by
  refine wp_seq guard_trusted (fun found t _ ↦ ?_) fun _ _ _ ↦ trivial
  obtain ⟨package, fresh⟩ := found
  cases fresh
  -- A fresh package is recorded before it is copied.
  case' true =>
    refine ⟨trivial, fun answer u _ ↦ ?_⟩
    cases answer
    case error => trivial
  all_goals
    refine ⟨trivial, fun answer v _ ↦ ?_⟩
    cases answer with
    | error reason => exact ⟨trivial, fun _ _ _ ↦ trivial⟩
    | ok =>
      refine wp_outcome_seq (guard_lease attempt package.version) fun result w _ ↦ ?_
      cases result with
      | error e => exact ⟨trivial, fun _ _ _ ↦ trivial⟩
      | ok => trivial

theorem guard_materializeWithRetry (attempt : RunnerAttempt) (left : Nat) :
    (cache.world cache.mayGuard).wp (cache.materializeWithRetry attempt left)
      (fun _ _ ↦ True) s := by
  induction left generalizing s with
  | zero => exact guard_materialize attempt
  | succ left ih =>
    refine wp_outcome_seq (guard_materialize attempt) fun result t _ ↦ ?_
    cases result with
    | ok version => trivial
    | error reason =>
      show (cache.world _).wp (if packageFailureIsTerminal reason = true then
        Program.fail reason else _ : LaunchProgram Version) _ t
      by_cases hterminal : packageFailureIsTerminal reason = true
      · rw [if_pos hterminal]
        trivial
      · rw [if_neg hterminal]
        refine ⟨trivial, fun before u _ ↦ ?_⟩
        cases before with
        | false => trivial
        | true =>
          refine ⟨trivial, fun later v _ ↦ ?_⟩
          cases later with
          | false => trivial
          | true => exact ih

theorem guard_pruneObsolete (hdoc : cache.Documented) (current : Version)
    {attempts : List RunnerAttempt} (packages : List InstalledPackage)
    (hquiet : Quiet attempts s) : (cache.world cache.mayGuard).wp
      (cache.pruneObsolete current attempts packages) (fun _ _ ↦ True) s := by
  induction packages generalizing s with
  | nil => trivial
  | cons package rest ih =>
    unfold pruneObsolete
    by_cases hcurrent : package.version ≠ current
    · rw [if_pos hcurrent]
      refine wp_outcome_seq
        (wp_quiet (guard_prune hdoc package.version hquiet) hquiet) ?_
      rintro result t ⟨hquiet', _⟩
      cases result with
      | ok => exact ih hquiet'
      | error e =>
        cases e with
        | versionInUse version attempt state => exact ih hquiet'
        | _ => trivial
    · rw [if_neg hcurrent]
      exact ih hquiet

theorem guard_launchSteps (hdoc : cache.Documented) (attempt : RunnerAttempt) (budget : Nat) :
    (cache.world cache.mayGuard).wp (cache.launchSteps attempt budget) (fun _ _ ↦ True) s := by
  refine wp_seq (guard_materializeWithRetry attempt budget) (fun version t _ ↦ ?_)
    fun _ _ _ ↦ trivial
  refine ⟨trivial, ?_⟩
  rintro answer u ⟨mid, ⟨rfl, hlist⟩, hu⟩
  cases answer with
  | error e => trivial
  | ok attempts =>
    have hquiet : Quiet attempts u := (Quiet.of_listed (hlist attempts rfl)).evolves hu
    show (cache.world _).wp (inLaunch cache.installed >>= _) _ u
    refine wp_seq (wp_quiet (guard_inLaunch guard_installed) hquiet) ?_
      fun _ _ _ ↦ trivial
    rintro packages v ⟨hquiet', _⟩
    exact wp_seq (guard_pruneObsolete hdoc version packages hquiet')
      (fun _ _ _ ↦ trivial) fun _ _ _ ↦ trivial

end

/-! ## Whole runs -/

/-- What runs under the allocation lock. -/
inductive Operation where
  | lease (attempt : RunnerAttempt) (version : Version)
  | release (attempt : AttemptId)
  | prune (version : Version) (attempts : List RunnerAttempt)
  | launch (attempt : RunnerAttempt) (budget : Nat)

namespace Operation

def program : Operation → LaunchProgram Unit
  | lease attempt version => inLaunch (cache.lease attempt version)
  | release attempt => inLaunch (cache.release attempt)
  | prune version attempts => inLaunch (cache.prune version attempts)
  | launch attempt budget => do
    let _ ← cache.launchSteps attempt budget
    return ()

/-- The attempts given to a prune are attempts of the host, as they are; some may be missing. -/
def Truthful (s : LeaseWorld) : Operation → Prop
  | prune _ attempts => ∀ a ∈ attempts, s.attempts a.id = some a
  | _ => True

end Operation

/-- Operations one after another from a guarded cache; each may be cut off before any call. Which
calls are allowed plays no part. -/
def Reachable : LeaseWorld → LaunchProgram Unit → Prop :=
  (cache.world cache.mayGuard).Reaches
    (fun s p ↦ cache.Guarded s ∧ ∃ op : Operation, op.Truthful s ∧ p = op.program cache)
    (fun s t p ↦ cache.Evolves s t ∧ ∃ op : Operation, op.Truthful t ∧ p = op.program cache)

section

variable {cache}

theorem guard_operation (hdoc : cache.Documented) {s : LeaseWorld} {op : Operation}
    (h : op.Truthful s) :
    (cache.world cache.mayGuard).wp (op.program cache) (fun _ _ ↦ True) s := by
  cases op with
  | lease attempt version => exact guard_inLaunch (guard_lease attempt version)
  | release attempt => exact guard_inLaunch (guard_release attempt)
  | prune version attempts => exact guard_inLaunch (guard_prune hdoc version (.of_listed h))
  | launch attempt budget =>
    exact wp_seq (guard_launchSteps hdoc attempt budget) (fun _ _ _ ↦ trivial)
      fun _ _ _ ↦ trivial

theorem guarded_of_reachable (hdoc : cache.Documented) {s : LeaseWorld} {p : LaunchProgram Unit}
    (h : cache.Reachable s p) : cache.Guarded s := by
  refine (Contract.Reaches.sound (Q := fun _ _ ↦ True) ?_ ?_ ?_ h).1
  · rintro s p ⟨hguarded, op, htrue, rfl⟩
    exact ⟨hguarded, guard_operation hdoc htrue⟩
  · rintro s t p hguarded ⟨ht, op, htrue, rfl⟩
    exact ⟨hguarded.evolves ht, guard_operation hdoc htrue⟩
  · rintro s c a t hguarded hmay ⟨mid, hafter, ht⟩
    exact (hguarded.after hdoc hmay hafter).evolves ht

/-- A prune removes a version only where every lease that names it is of a listed attempt that no
longer counts; a lease nobody can read, of nobody who is listed or of an attempt that counts stops
it before anything changed; and an attempt that holds a lease and counts finds its version, unless
a reinstall set it aside since. -/
theorem leases_guard (hdoc : cache.Documented) :
    (∀ version attempts s t removed next,
      (cache.world cache.mayGuard).Runs (cache.prune version attempts) s
        (.ask (.removeVersion removed) next) t →
      removed = version ∧ ∀ file, file.extension = some "lease" → cache.Reads t file version →
        ∃ a ∈ attempts, file.stem.bind cache.parseUuid = some a.id ∧
          a.countsAgainstCapacity = false) ∧
    (∀ version attempts s t file rest, cache.Stops s version attempts file →
      (cache.world cache.mayGuard).Runs (cache.prune version attempts) s rest t →
      t.slot = s.slot ∧ t.leases = s.leases ∧ rest ≠ .done (.ok ())) ∧
    ∀ s p, cache.Reachable s p → ∀ id a version, s.attempts id = some a →
      a.countsAgainstCapacity = true → cache.Reads s (cache.leaseFile id) version →
        s.Present version ∨ s.displaced id := by
  refine ⟨?_, ?_, fun s p h ↦ guarded_of_reachable hdoc h⟩
  · intro version attempts s t removed next hruns
    obtain ⟨hremoved, ht, hfree⟩ := prune_reads hruns
    refine ⟨hremoved, ?_⟩
    rintro file hextension ⟨content, hcontent, hread⟩
    rw [ht.leases] at hcontent
    have hthere : s.leases file ≠ none := hcontent ▸ Option.some_ne_none _
    have hreads : cache.Reads s file version := ⟨content, hcontent, hread⟩
    cases hid : file.stem.bind cache.parseUuid with
    | none => exact absurd ⟨hextension, hthere, .inl hid⟩ (hfree file)
    | some id =>
      by_contra hnone
      refine hfree file ⟨hextension, hthere, .inr (.inr ⟨hreads, ?_⟩)⟩
      rintro found hfound ⟨a, hfind, hspent⟩
      rw [hid] at hfound
      refine hnone ⟨a, List.mem_of_find?_eq_some hfind, ?_, hspent⟩
      rw [hfound, show a.id = found by simpa using List.find?_some hfind]
  · intro version attempts s t file rest hstops hruns
    obtain ⟨ht, hrest⟩ := prune_stopped hstops hruns
    exact ⟨ht.slot, ht.leases, hrest⟩

end

/-! ## A cache with one version -/

/-- What stands before the version in a lease. -/
def leaseHead : List Char :=
  Char.ofNat 123 :: (Json.newline 1 ++ Json.quoted "version" ++ [':', ' ', Json.quote])

theorem leaseText_eq (raw : String) : leaseText raw = leaseHead ++
    (raw.toList.flatMap Json.escape ++ Json.quote :: (Json.newline 0 ++ [Char.ofNat 125])) := by
  simp [leaseText, leaseHead, Json.renderPretty, Json.prettyFields, Json.render, Json.quoted]

def held : Version := ⟨⟨[2, 330, 0], "2.330.0"⟩, by decide⟩

/-- A cache of a host that has used one identifier and one version. -/
def sample : PackageCache where
  root := [.rootDir, .normal "cache"]
  spell id :=
    if id.value = 1 then "00000000-0000-0000-0000-000000000001"
    else String.ofList (List.replicate (id.value + 40) 'x')
  parseUuid text :=
    if text = "00000000-0000-0000-0000-000000000001" then some ⟨1⟩
    else some ⟨text.toList.length - 40⟩
  decodeLease content := if content = leaseText "2.330.0" then some "2.330.0" else none
  components _ := [.rootDir, .normal "work"]

theorem sample_documented : sample.Documented where
  parseUuid_spell id := by
    have hparse (text : String) : sample.parseUuid text =
        if text = "00000000-0000-0000-0000-000000000001" then some ⟨1⟩
        else some ⟨text.toList.length - 40⟩ := rfl
    by_cases hid : id.value = 1
    · rw [hparse, show sample.spell id = _ from if_pos hid, if_pos rfl]
      exact congrArg some (congrArg AttemptId.mk hid.symm)
    · have hspell : (sample.spell id).toList.length = id.value + 40 := by
        rw [show sample.spell id = _ from if_neg hid]
        simp
      rw [hparse, if_neg, hspell, Nat.add_sub_cancel]
      intro heq
      rw [heq] at hspell
      simp at hspell
  decode_front raw front read hfront hdecode := by
    by_cases hread : front = leaseText "2.330.0"
    · rw [show sample.decodeLease front = some "2.330.0" from if_pos hread] at hdecode
      cases hdecode
      rw [hread, leaseText_eq, leaseText_eq, List.prefix_append_right_inj] at hfront
      have hplain : raw.toList = "2.330.0".toList := Json.front_of_quoted (by decide) hfront
      exact (String.toList_inj.mp hplain).symm
    · rw [show sample.decodeLease front = none from if_neg hread] at hdecode
      cases hdecode

/-- An attempt that runs on the installed version, another one that is launched. -/
def running : RunnerAttempt := .allocate ⟨1⟩ ⟨1⟩ "/work/1" 0
def launched : RunnerAttempt := .allocate ⟨2⟩ ⟨1⟩ "/work/2" 0

def sampleManifest : Manifest := ⟨held, ⟨""⟩, 0, "actions-runner-linux-x64-2.330.0.tar.gz"⟩

/-- One version, one lease on it, and an attempt that counts and holds the lease. -/
def leased : LeaseWorld where
  slot version := if version = held then .directory (some sampleManifest) else .vacant
  leases file :=
    if file = sample.leaseFile ⟨1⟩ then some (.text (leaseText "2.330.0")) else none
  attempts id := if id = ⟨1⟩ then some running else if id = ⟨2⟩ then some launched else none
  displaced _ := False

theorem leased_slot : leased.slot held = .directory (some sampleManifest) := by
  simp [leased]

theorem leased_reads : sample.Reads leased (sample.leaseFile ⟨1⟩) held :=
  ⟨leaseText "2.330.0", if_pos rfl, by decide⟩

theorem leased_guarded : sample.Guarded leased := by
  rintro id a version _ _ ⟨content, hcontent, hread⟩
  by_cases hfile : sample.leaseFile id = sample.leaseFile ⟨1⟩
  · have hversion : version = held := by
      obtain rfl : id = ⟨1⟩ := sample_documented.leaseFile_inj hfile
      exact Reads.unique ⟨content, hcontent, hread⟩ leased_reads
    rw [hversion]
    exact .inl ⟨sampleManifest, leased_slot⟩
  · rw [show leased.leases (sample.leaseFile id) = none from if_neg hfile] at hcontent
    cases hcontent

/-- A launch that does not trust the installed tree sets it aside under an attempt that holds it. -/
theorem reinstall_displaces : ∃ s p, sample.Reachable s p ∧ ∃ id a version,
    s.attempts id = some a ∧ a.countsAgainstCapacity = true ∧
      sample.Reads s (sample.leaseFile id) version ∧ ¬ s.Present version := by
  have h0 : sample.Reachable leased ((Operation.launch launched 0).program sample) :=
    .start ⟨leased_guarded, .launch launched 0, trivial, rfl⟩
  have h1 := h0.advance (.install false) (.ok (⟨held, held, 0, ⟨""⟩⟩, false)) leased rfl
    ⟨leased, ⟨rfl, rfl, none, fun _ ↦ rfl, fun _ _ h ↦ h, by simp⟩, .refl leased⟩
  have h2 := h1.advance (.treeHolds held) (.ok false) leased rfl ⟨leased, rfl, .refl leased⟩
  have h3 := h2.advance .createStaging (.ok ()) leased rfl ⟨leased, rfl, .refl leased⟩
  have h4 := h3.advance .listVersions (.ok [held]) leased rfl ⟨leased, rfl, .refl leased⟩
  have h5 := h4.advance (.isDir held) true leased rfl
    ⟨leased, ⟨rfl, fun _ ↦ ⟨some sampleManifest, leased_slot⟩⟩, .refl leased⟩
  have h6 := h5.advance (.readManifest held) (.ok (some sampleManifest)) leased rfl
    ⟨leased, ⟨rfl, fun read manifest hread hslot ↦ by
      rw [leased_slot] at hslot
      cases hread
      cases hslot
      rfl⟩, .refl leased⟩
  have h7 := h6.advance (.setAside held) (.ok ()) _ rfl ⟨_, rfl, .refl _⟩
  refine ⟨_, _, h7, ⟨1⟩, running, held, rfl, rfl, leased_reads, ?_⟩
  rintro ⟨manifest, hslot⟩
  have hvacant := (Function.update_self held Slot.vacant leased.slot).symm.trans hslot
  cases hvacant

/-- A prune that was not told of the attempt changes nothing. -/
theorem leases_guard_leased : sample.Documented ∧ ∀ rest t,
    (sample.world sample.mayGuard).Runs (sample.prune held []) leased rest t →
      t.slot = leased.slot ∧ t.leases = leased.leases ∧ rest ≠ .done (.ok ()) := by
  refine ⟨sample_documented, fun rest t ↦ (leases_guard sample_documented).2.1 held [] leased t
    (sample.leaseFile ⟨1⟩) rest ?_⟩
  refine ⟨rfl, ?_, .inr (.inr ⟨leased_reads, ?_⟩)⟩
  · obtain ⟨content, hcontent, _⟩ := leased_reads
    rw [hcontent]
    exact Option.some_ne_none _
  · rintro id _ ⟨a, hfind, _⟩
    cases hfind

end PackageCache

end RunnerManager.Agent.Package
