import RunnerManager.Agent.DockerProxy

/-!
# When a Docker journal is retired

The sweep once the attempt is cleaned, its proxy is gone and the engine holds nothing of its
journal. Read `retired_iff` first: the sweep removes the journal exactly when the proxy left no
unsettled intent. `refused_creation_kept` is a creation that the engine refused.
-/

namespace RunnerManager.Agent.DockerCleanup

open RunnerManager.Domain RunnerManager.Platform RunnerManager.Result
open Contract (wp_bind wp_mapCalls wp_mono wp_of_making wp_of_map wp_outcome_seq wp_runs wp_seq)

variable {digest : String → String}

/-! ## A sweep that finds none of the resources -/

def inspectPath (kind : Kind) (id : String) : String :=
  "/" ++ kind.collection ++ "/" ++ id ++ if kind = .container then "/json" else ""

/-- What the journal's engine answers when everything the journal owns is gone. -/
structure AbsentAnswer (journal : Journal) (c : Request) (a : Except DockerError Reply) : Prop where
  info : c = ⟨"GET", "/info"⟩ → ∃ body, a = .ok ⟨200, body⟩ ∧
    (fieldOf "ID" body).bind asStr = some journal.engine ∧
    (fieldOf "OSType" body).bind asStr = some "linux"
  inventory : ∀ intent ∈ journal.intents, c = ⟨"GET", inventoryPath journal intent⟩ →
    ∃ body, a = .ok ⟨200, body⟩ ∧ inventoryEntries intent.kind body = some []
  inspection : ∀ resource ∈ journal.resources,
    c = ⟨"GET", inspectPath resource.kind resource.id⟩ → ∃ body, a = .ok ⟨404, body⟩

/-- The engine, whatever else it answers. The state is whether the directory was removed. -/
def Absent (journal : Journal) : Contract Request Request.answer Bool where
  requires _ _ := True
  steps removed c a next := AbsentAnswer journal c a ∧ next = removed

/-- What the sweep is answered about one directory: its journal is whole, the attempt is cleaned
and native, the proxy is gone, nothing of the journal is left on the engine, and every file
operation succeeds. About other directories it may be answered anything. -/
def Answered (journal : Journal) (entries : List String) (name : String) :
    (c : SweepCall) → c.answer → Prop
  | .readJournal n, a => n = name → a = Except.ok journal
  | .lookup attempt, a => attempt = journal.attempt → a = Except.ok (some ⟨true, true⟩)
  | .writeStop n, a => n = name → a = Except.ok ()
  | .recheck identity, a => journal.proxy = some identity →
      ∃ adoption, a = Except.ok adoption ∧ adoption ≠ Adoption.live
  | .now, a => ∃ now, a = Except.ok now
  | .engine upstream request, a => upstream = journal.upstream → AbsentAnswer journal request a
  | .writeJournal n _, a => n = name → a = Except.ok ()
  | .readDirectory n, a => n = name → a = Except.ok entries
  | .removeFile n _, a => n = name → a = Except.ok ()
  | .removeDirectory n, a => n = name → a = Except.ok ()

def removes (name : String) : SweepCall → Bool
  | .removeDirectory n => n = name
  | _ => false

/-- The surroundings of a sweep once the attempt is cleaned. -/
def Cleaned (journal : Journal) (entries : List String) (name : String) :
    Contract SweepCall SweepCall.answer Bool where
  requires _ _ := True
  steps removed c a next := Answered journal entries name c a ∧ next = (removed || removes name c)

/-- One sweep in the mode to apply removes the journal's directory, with whatever other
directories are there. -/
def Retires (digest : String → String) (host : HostId) (journal : Journal)
    (entries names : List String) : Prop :=
  (Cleaned journal entries (uuidText journal.attempt.value)).wp
    (sweepEntries digest host .apply false names .empty) (fun _ removed ↦ removed = true) false

section Engine

variable {journal : Journal} {removed : Bool}

theorem wp_request {other : Journal} {method path : String} {α : Type} {f : Reply → Docker α}
    {Q : Except (DockerError × Journal) α → Bool → Prop}
    (h : ∀ a, AbsentAnswer journal ⟨method, path⟩ a → ∃ reply, a = .ok reply ∧
      (Absent journal).wp (f reply) Q removed) :
    (Absent journal).wp (request other method path >>= f) Q removed := by
  refine ⟨trivial, ?_⟩
  rintro a next ⟨hanswer, rfl⟩
  obtain ⟨reply, rfl, hf⟩ := h a hanswer
  exact hf

theorem wp_recoverIntents (intents : List Intent)
    (h : ∀ intent ∈ intents, intent ∈ journal.intents) :
    (Absent journal).wp (recoverIntents digest intents journal)
      (fun result next ↦ (∃ value, result = .ok value ∧ value = journal) ∧ next = removed)
      removed := by
  induction intents with
  | nil => exact ⟨⟨journal, rfl, rfl⟩, rfl⟩
  | cons intent intents ih =>
    rw [List.forall_mem_cons] at h
    rw [recoverIntents]
    refine wp_request fun a ha ↦ ?_
    obtain ⟨body, rfl, hentries⟩ := ha.inventory intent h.1 rfl
    refine ⟨_, rfl, ?_⟩
    rw [if_neg (by simp)]
    simp only [hentries]
    exact ih h.2

theorem wp_cleanEach {other : Journal} {mode : Mode} (resources : List Resource)
    (h : ∀ resource ∈ resources, resource ∈ journal.resources)
    (hvalid : ∀ resource ∈ resources, validId resource.id = true) (kept : List Resource)
    (report : SweepReport) :
    (Absent journal).wp (cleanEach other mode resources kept report)
      (fun result next ↦ result = .ok (kept, report) ∧ next = removed) removed := by
  induction resources with
  | nil => exact ⟨rfl, rfl⟩
  | cons resource resources ih =>
    rw [List.forall_mem_cons] at h hvalid
    rw [cleanEach, inspected, if_neg (by simp [hvalid.1])]
    refine (wp_bind _ _).mpr (wp_request fun a ha ↦ ?_)
    obtain ⟨body, rfl⟩ := ha.inspection resource h.1 rfl
    refine ⟨_, rfl, ?_⟩
    rw [if_pos rfl]
    exact ih h.2 hvalid.2

theorem wp_cleanResources (hvalid : ∀ resource ∈ journal.resources, validId resource.id = true) :
    (Absent journal).wp (cleanResources journal .apply) (fun result next ↦
      (∃ value, result = .ok value ∧ value = ({ journal with resources := [] }, .empty)) ∧
        next = removed) removed := by
  rw [cleanResources, if_neg (by decide)]
  refine wp_request fun a ha ↦ ?_
  obtain ⟨body, rfl, hid, -⟩ := ha.info rfl
  refine ⟨_, rfl, ?_⟩
  rw [if_neg (by simp [hid])]
  have hmem : ∀ resource ∈ dependencyOrder journal.resources, resource ∈ journal.resources := by
    intro resource hresource
    simp only [dependencyOrder, List.mem_append, List.mem_filter] at hresource
    rcases hresource with (h | h) | h <;> exact h.1
  refine (wp_bind _ _).mpr (wp_mono (wp_cleanEach _ hmem
    (fun resource hresource ↦ hvalid resource (hmem resource hresource)) [] .empty) ?_)
  rintro _ _ ⟨rfl, rfl⟩
  exact ⟨⟨_, rfl, rfl⟩, rfl⟩

theorem wp_info : (Absent journal).wp (request journal "GET" "/info") (fun result next ↦
    (∃ reply, result = .ok reply ∧ reply.status = 200 ∧
      (fieldOf "ID" reply.body).bind asStr = some journal.engine ∧
      (fieldOf "OSType" reply.body).bind asStr = some "linux") ∧ next = removed) removed := by
  refine ⟨trivial, ?_⟩
  rintro a next ⟨ha, rfl⟩
  obtain ⟨body, rfl, hid, hos⟩ := ha.info rfl
  exact ⟨⟨_, rfl, rfl, hid, hos⟩, rfl⟩

end Engine

theorem isLowerHex_toDigits {value : Nat} {c : Char} (h : c ∈ Nat.toDigits 16 value) :
    isLowerHex c = true := by
  have hdigit : ∀ digit < 16, isLowerHex (Nat.digitChar digit) = true := by decide
  induction value using Nat.strong_induction_on with
  | _ value ih =>
    by_cases hlow : value < 16
    · rw [Nat.toDigits_of_lt_base hlow, List.mem_singleton] at h
      exact h ▸ hdigit value hlow
    · have hsplit := Nat.toDigits_append_toDigits (b := 16) (n := value / 16) (d := value % 16)
        (by decide) (by omega) (by omega)
      rw [Nat.div_add_mod] at hsplit
      rw [← hsplit, Nat.toDigits_of_lt_base (Nat.mod_lt value (by decide)), List.mem_append,
        List.mem_singleton] at h
      rcases h with h | rfl
      · exact ih _ (by omega) h
      · exact hdigit _ (by omega)

/-- An attempt's directory is one the sweep looks at. -/
theorem validOperation_uuidText (value : Nat) : validOperation (uuidText value) = true := by
  have hlower : ∀ c ∈ (Nat.toDigits 16 value).leftpad 32 '0', isLowerHex c = true := by
    intro c hc
    rw [List.leftpad, List.mem_append, List.mem_replicate] at hc
    rcases hc with ⟨-, rfl⟩ | hc
    · decide
    · exact isLowerHex_toDigits hc
  have hlength : 32 ≤ ((Nat.toDigits 16 value).leftpad 32 '0').length := by
    rw [List.leftpad, List.length_append, List.length_replicate]
    omega
  have htext : (uuidText value).toList = ['-'].intercalate
      ([(0, 8), (8, 4), (12, 4), (16, 4), (20, 12)].map fun part ↦
        (((Nat.toDigits 16 value).leftpad 32 '0').drop part.1).take part.2) := by
    rw [uuidText, String.toList_intercalate, List.map_map]
    simp
  generalize (Nat.toDigits 16 value).leftpad 32 '0' = digits at hlower hlength htext
  have hpart : ∀ start length, ∀ c ∈ (digits.drop start).take length, isLowerHex c = true :=
    fun start length c hc ↦ hlower c (List.mem_of_mem_drop (List.mem_of_mem_take hc))
  rw [validOperation, htext, List.splitOn_intercalate, Bool.and_eq_true]
  · constructor
    · simp only [List.map_cons, List.map_nil, List.length_take, List.length_drop, beq_iff_eq]
      simp only [List.cons.injEq, and_true]
      omega
    · rw [List.all_eq_true]
      intro c hc
      simp only [List.map_cons, List.map_nil, List.intercalate_cons_cons,
        List.intercalate_singleton, List.mem_append, List.mem_singleton] at hc
      grind
  · simp only [List.forall_mem_map]
    rintro ⟨start, length⟩ - hdash
    exact absurd (hpart start length '-' hdash) (by decide)
  · simp

section Sweep

variable {journal : Journal} {entries : List String} {name : String} {removed : Bool} {α : Type}
  {Q : Except SweepReport α → Bool → Prop} {total : SweepReport}

theorem wp_attempt {c : SweepCall} {hc : c.answer = Except DockerError α} {value : α}
    (hanswer : ∀ a, Answered journal entries name c a → cast hc a = .ok value)
    (h : Q (.ok value) (removed || removes name c)) :
    (Cleaned journal entries name).wp (attempt c hc total) Q removed := by
  refine ⟨trivial, ?_⟩
  rintro a next ⟨ha, rfl⟩
  dsimp only [Program.andThen]
  rw [hanswer a ha]
  exact h

theorem wp_attempt_then {β : Type} {c : SweepCall} {hc : c.answer = Except DockerError β}
    {value : β} {f : β → Sweep α} (hc' : removes name c = false)
    (hanswer : ∀ a, Answered journal entries name c a → cast hc a = .ok value)
    (h : (Cleaned journal entries name).wp (f value) Q removed) :
    (Cleaned journal entries name).wp (attempt c hc total >>= f) Q removed := by
  refine (wp_bind _ _).mpr (wp_attempt hanswer ?_)
  rw [hc', Bool.or_false]
  exact h

theorem wp_attempt_some {β : Type} {c : SweepCall} {hc : c.answer = Except DockerError β}
    {f : β → Sweep α} (hc' : removes name c = false)
    (h : ∀ a, Answered journal entries name c a → ∃ value, cast hc a = .ok value ∧
      (Cleaned journal entries name).wp (f value) Q removed) :
    (Cleaned journal entries name).wp (attempt c hc total >>= f) Q removed := by
  refine (wp_bind _ _).mpr ⟨trivial, ?_⟩
  rintro a next ⟨ha, rfl⟩
  obtain ⟨value, hvalue, hf⟩ := h a ha
  dsimp only [Program.andThen]
  rw [hvalue, hc', Bool.or_false]
  exact hf

theorem wp_onEngine {β : Type} {P : β → Prop} {p : Docker β} {f : β → Sweep α}
    (hp : (Absent journal).wp p (fun result next ↦
      (∃ value, result = .ok value ∧ P value) ∧ next = removed) removed)
    (h : ∀ value, P value → (Cleaned journal entries name).wp (f value) Q removed) :
    (Cleaned journal entries name).wp (onEngine journal.upstream total p >>= f) Q removed := by
  have hengine : ((Cleaned journal entries name).comap (SweepCall.engine journal.upstream)
      (fun _ answer ↦ answer)).wp p (fun result next ↦
        (∃ value, result = .ok value ∧ P value) ∧ next = removed) removed := by
    refine wp_of_map id (fun _ _ _ ↦ trivial) ?_ hp
    rintro s c a u ⟨_, rfl, ha, rfl⟩
    exact ⟨ha rfl, by simp [removes]⟩
  refine (wp_bind _ _).mpr ?_
  refine wp_outcome_seq ((wp_mapCalls p).mpr hengine) ?_
  rintro _ _ ⟨⟨value, rfl, hvalue⟩, rfl⟩
  exact h value hvalue

theorem wp_removeFiles (files : List String) {f : Unit → Sweep α}
    (h : (Cleaned journal entries name).wp (f ()) Q removed) :
    (Cleaned journal entries name).wp (removeFiles name total files >>= f) Q removed := by
  induction files with
  | nil => exact h
  | cons file files ih =>
    refine (wp_bind _ _).mpr (wp_attempt_then rfl (fun a ha ↦ ha rfl) ?_)
    exact (wp_bind _ _).mp ih

theorem wp_removeJournalFiles {Q : Except SweepReport Unit → Bool → Prop}
    (hremoved : entries.all journalFiles.contains = true → Q (.ok ()) true)
    (hkept : entries.all journalFiles.contains = false → Q (.error total) removed) :
    (Cleaned journal entries name).wp (removeJournalFiles name total) Q removed := by
  rw [removeJournalFiles]
  refine wp_attempt_then rfl (fun a ha ↦ ha rfl) ?_
  cases hall : entries.all journalFiles.contains with
  | false => exact hkept hall
  | true =>
    rw [if_pos rfl]
    refine wp_removeFiles _ (wp_attempt (fun a ha ↦ ha rfl) ?_)
    simpa [removes] using hremoved hall

/-- The sweep of a served journal whose attempt is cleaned removes the directory exactly when
every intent is settled and the journal's own files are all the directory holds. -/
theorem sweepEntry_cleaned {host : HostId} (h : Served journal) (hhost : journal.host = host)
    (hname : name = uuidText journal.attempt.value) (removed : Bool) :
    (Cleaned journal entries name).wp (sweepEntry digest host .apply false name)
      (fun _ next ↦ next = (removed || (journal.intents.all (·.settled) &&
        entries.all journalFiles.contains))) removed := by
  rw [sweepEntry]
  simp only [Bool.false_eq_true, if_false]
  refine wp_attempt_then rfl (fun a ha ↦ ha rfl) ?_
  rw [h.load]
  show Contract.wp _ (ite _ _ _) _ _
  rw [if_neg (by simp [hhost, hname])]
  refine wp_attempt_then rfl (fun a ha ↦ ha rfl) ?_
  dsimp only
  rw [if_neg (by decide)]
  refine wp_attempt_then rfl (fun a ha ↦ ha rfl) ?_
  -- the proxy is known, and gone
  obtain ⟨identity, hidentity⟩ := Option.isSome_iff_exists.mp h.proxy
  rw [hidentity]
  refine wp_attempt_some rfl fun a ha ↦ ?_
  obtain ⟨adoption, rfl, hgone⟩ := ha hidentity
  refine ⟨adoption, rfl, ?_⟩
  show Contract.wp _ (ite _ _ _) _ _
  rw [if_neg (by simpa using hgone), if_neg (by decide)]
  have hremove : ∀ total, journal.intents.all (·.settled) = true →
      (Cleaned journal entries name).wp (removeJournalFiles name total >>= fun _ ↦ pure total)
        (fun _ next ↦ next = (removed || (journal.intents.all (·.settled) &&
          entries.all journalFiles.contains))) removed := by
    intro total hall
    rw [hall]
    refine (wp_bind _ _).mpr (wp_removeJournalFiles ?_ ?_)
    · intro hentries
      rw [hentries]
      simp
    · intro hentries
      rw [hentries]
      simp
  by_cases hempty : journal.intents = [] ∧ journal.resources = []
  · rw [if_pos hempty]
    exact hremove _ (by simp [hempty.1])
  · rw [if_neg hempty]
    refine wp_attempt_some rfl fun a ha ↦ ?_
    obtain ⟨now, rfl⟩ := ha
    refine ⟨now, rfl, ?_⟩
    rw [if_neg (by simp)]
    refine wp_onEngine wp_info fun info hinfo ↦ ?_
    rw [if_neg (by simp [hinfo])]
    refine wp_onEngine (wp_recoverIntents journal.intents fun _ hintent ↦ hintent) ?_
    intro recovered hrecovered
    rw [hrecovered]
    refine wp_attempt_then rfl (fun a ha ↦ ha rfl) ?_
    refine wp_onEngine (wp_cleanResources fun resource hresource ↦
      (h.associations.identified resource hresource).1) ?_
    intro cleaned hcleaned
    rw [hcleaned]
    refine wp_attempt_then rfl (fun a ha ↦ ha rfl) ?_
    simp only [reduceCtorEq, if_false]
    split_ifs with hsettled
    · refine hremove _ ?_
      rw [List.all_eq_true]
      intro intent hintent
      have hcount := List.countP_eq_zero.mp hsettled.2 intent hintent
      simpa using hcount
    · have hunsettled : journal.intents.all (·.settled) = false := by
        by_contra hall
        rw [Bool.not_eq_false, List.all_eq_true] at hall
        refine hsettled ⟨trivial, List.countP_eq_zero.mpr fun intent hintent ↦ ?_⟩
        simp [hall intent hintent]
      rw [hunsettled]
      simp

/-- A program that does not remove the directory. -/
def Spares (name : String) {ε : Type} (p : Program SweepCall SweepCall.answer ε α) : Prop :=
  (Contract.making (fun c ↦ removes name c = false) fun _ _ ↦ True).wp p (fun _ _ ↦ True) ()

theorem Spares.bind {β : Type} {p : Sweep β} {f : β → Sweep α} (hp : Spares name p)
    (hf : ∀ value, Spares name (f value)) : Spares name (p >>= f) :=
  wp_seq hp (fun value _ _ ↦ hf value) fun _ _ _ ↦ trivial

theorem Spares.pure (value : α) : Spares name (Pure.pure value : Sweep α) :=
  trivial

theorem Spares.ite {c : Prop} [Decidable c] {p q : Sweep α} (hp : Spares name p)
    (hq : Spares name q) : Spares name (if c then p else q) := by
  split_ifs
  · exact hp
  · exact hq

theorem Spares.attempt {c : SweepCall} {hc : c.answer = Except DockerError α}
    (h : removes name c = false) : Spares name (attempt c hc total) := by
  refine ⟨h, fun a _ _ ↦ ?_⟩
  dsimp only [Program.andThen]
  cases cast hc a <;> trivial

theorem Spares.ofExcept {δ : Type} (wrap : δ → SweepReport) (result : Except δ α) :
    Spares name (.ofExcept wrap result : Sweep α) := by
  cases result <;> trivial

theorem Spares.onEngine (upstream : String) (p : Docker α) :
    Spares name (onEngine upstream total p) := by
  refine wp_outcome_seq (R := fun _ _ ↦ True) ?_ fun result _ _ ↦ ?_
  · refine (wp_mapCalls p).mpr ?_
    induction p with
    | done result => trivial
    | ask c next ih => exact ⟨rfl, fun a _ _ ↦ ih a⟩
  · cases result <;> trivial

theorem Spares.removeFiles (other : String) (files : List String) :
    Spares name (removeFiles other total files) := by
  induction files with
  | nil => trivial
  | cons file files ih => exact Spares.bind (Spares.attempt rfl) fun _ ↦ ih

theorem Spares.removeJournalFiles {other : String} (h : other ≠ name) :
    Spares name (removeJournalFiles other total) := by
  refine Spares.bind (Spares.attempt rfl) fun entries ↦ ?_
  split_ifs
  · exact Spares.bind (Spares.removeFiles other _) fun _ ↦ Spares.attempt (by simp [removes, h])
  · trivial

theorem Spares.sweepEntry {other : String} (h : other ≠ name) (host : HostId) :
    Spares name (sweepEntry digest host .apply false other) := by
  have hremove : ∀ {β : Type} (total : SweepReport) (value : β),
      Spares name (DockerCleanup.removeJournalFiles other total >>= fun _ ↦ Pure.pure value) :=
    fun total value ↦ Spares.bind (Spares.removeJournalFiles h) fun _ ↦ Spares.pure value
  rw [DockerCleanup.sweepEntry]
  refine Spares.bind (Spares.attempt rfl) fun value ↦ ?_
  refine Spares.bind (Spares.ofExcept _ _) fun journal ↦ Spares.ite trivial ?_
  refine Spares.bind (Spares.attempt rfl) fun found ↦ ?_
  cases found with
  | none => trivial
  | some found =>
    refine Spares.ite trivial (Spares.bind (Spares.attempt rfl) fun _ ↦ ?_)
    cases journal.proxy
    case' none => refine Spares.bind (Spares.pure true) fun gone ↦ Spares.ite trivial ?_
    case' some identity =>
      refine Spares.bind (Spares.attempt rfl) fun adoption ↦ ?_
      refine Spares.bind (Spares.pure _) fun gone ↦ Spares.ite trivial ?_
    -- the rest is the same whether a proxy was recorded or not
    all_goals
      refine Spares.ite trivial (Spares.ite (hremove _ _) ?_)
      refine Spares.bind (Spares.attempt rfl) fun now ↦ Spares.ite trivial ?_
      refine Spares.bind (Spares.onEngine _ _) fun info ↦ Spares.ite trivial ?_
      refine Spares.bind (Spares.onEngine _ _) fun recovered ↦ ?_
      refine Spares.bind (Spares.attempt rfl) fun _ ↦ ?_
      refine Spares.bind (Spares.onEngine _ _) fun cleaned ↦ ?_
      refine Spares.bind (Spares.attempt rfl) fun _ ↦ ?_
      exact Spares.ite (hremove _ _) trivial

theorem Spares.wp {ε : Type} {p : Program SweepCall SweepCall.answer ε α} (h : Spares name p) :
    (Cleaned journal entries name).wp p (fun _ next ↦ next = removed) removed := by
  refine wp_mono (wp_of_making (I := fun next ↦ next = removed) h
    (fun _ _ _ _ ↦ trivial) (fun _ _ _ _ _ _ ↦ trivial) ?_ rfl) fun _ _ hlast ↦ hlast.2
  rintro _ c _ _ rfl hspares ⟨-, rfl⟩
  rw [hspares, Bool.or_false]

theorem sweepEntries_cleaned {host : HostId} (h : Served journal) (hhost : journal.host = host)
    (hname : name = uuidText journal.attempt.value) (names : List String) (total : SweepReport)
    (removed : Bool) :
    (Cleaned journal entries name).wp (sweepEntries digest host .apply false names total)
      (fun _ next ↦ next = (removed || (names.contains name &&
        (journal.intents.all (·.settled) && entries.all journalFiles.contains)))) removed := by
  induction names generalizing total removed with
  | nil => exact (Bool.or_false removed).symm
  | cons other names ih =>
    rw [sweepEntries]
    by_cases hvalid : validOperation other = true
    · rw [if_neg (not_not.mpr hvalid)]
      by_cases hother : other = name
      · subst hother
        refine wp_outcome_seq (sweepEntry_cleaned h hhost hname removed) ?_
        rintro result _ rfl
        have hrest := fun total ↦ ih total (removed || (journal.intents.all (·.settled) &&
          entries.all journalFiles.contains))
        cases result <;>
        · refine wp_mono (hrest _) fun _ _ hlast ↦ hlast.trans ?_
          cases names.contains other <;> simp
      · refine wp_outcome_seq (Spares.sweepEntry hother host).wp ?_
        rintro result _ rfl
        cases result <;>
        · refine wp_mono (ih _ _) fun _ _ hlast ↦ hlast.trans ?_
          simp [Ne.symm hother]
    · rw [if_pos hvalid]
      have hother : other ≠ name := by
        rintro rfl
        exact hvalid (hname ▸ validOperation_uuidText _)
      refine wp_mono (ih total removed) fun _ _ hlast ↦ hlast.trans ?_
      simp [Ne.symm hother]

end Sweep

/-! ## An engine with nothing of the journal -/

/-- An engine on which nothing of the journal is left. -/
def absentReply (journal : Journal) (c : Request) : Reply :=
  if c.path = "/info" then
    ⟨200, .object [("ID", .string journal.engine), ("OSType", .string "linux")]⟩
  else if ¬ c.path.toList.contains '?' then ⟨404, .null⟩
  else if "/volumes".toList.isPrefixOf c.path.toList then ⟨200, .object [("Volumes", .array [])]⟩
  else ⟨200, .array []⟩

theorem inspectPath_plain (kind : Kind) {id : String} (h : validId id = true) :
    inspectPath kind id ≠ "/info" ∧ (inspectPath kind id).toList.contains '?' = false := by
  rw [validId, Bool.and_eq_true, List.all_eq_true] at h
  have hid : '?' ∉ id.toList := fun hmem ↦ absurd (h.2 '?' hmem) (by decide)
  constructor
  · intro heq
    have htext := congrArg String.toList heq
    cases kind <;> simp [inspectPath, Kind.collection, String.toList_append] at htext
  · rw [List.contains_eq_mem, decide_eq_false_iff_not]
    cases kind <;> simp [inspectPath, Kind.collection, String.toList_append, hid]

theorem inventoryPath_query (journal : Journal) (intent : Intent) :
    inventoryPath journal intent ≠ "/info" ∧
      (inventoryPath journal intent).toList.contains '?' = true ∧
      ("/volumes".toList.isPrefixOf (inventoryPath journal intent).toList = true ↔
        intent.kind = .volume) := by
  rw [inventoryPath]
  cases intent.kind <;> dsimp only
  · refine ⟨fun heq ↦ ?_, by simp [String.toList_append], by simp [String.toList_append]⟩
    have htext := congrArg String.toList heq
    simp [String.toList_append] at htext
  · refine ⟨fun heq ↦ ?_, by simp [String.toList_append], by simp [String.toList_append]⟩
    have htext := congrArg String.toList heq
    simp [String.toList_append] at htext
  · refine ⟨fun heq ↦ ?_, by simp [String.toList_append], by simp [String.toList_append]⟩
    have htext := congrArg String.toList heq
    simp [String.toList_append] at htext

theorem absentReply_answers {journal : Journal}
    (hvalid : ∀ resource ∈ journal.resources, validId resource.id = true) (c : Request) :
    AbsentAnswer journal c (.ok (absentReply journal c)) := by
  refine ⟨?_, ?_, ?_⟩
  · rintro rfl
    exact ⟨_, rfl, rfl, rfl⟩
  · rintro intent - rfl
    obtain ⟨hinfo, hquery, hvolumes⟩ := inventoryPath_query journal intent
    rw [absentReply, if_neg hinfo, if_neg (not_not.mpr hquery)]
    by_cases hvolume : intent.kind = .volume
    · rw [if_pos (hvolumes.mpr hvolume), hvolume]
      exact ⟨_, rfl, rfl⟩
    · rw [if_neg (fun h ↦ hvolume (hvolumes.mp h))]
      refine ⟨_, rfl, ?_⟩
      simp [inventoryEntries, hvolume]
  · rintro resource hresource rfl
    obtain ⟨hinfo, hquery⟩ := inspectPath_plain resource.kind (hvalid resource hresource)
    rw [absentReply, if_neg hinfo, hquery, if_pos Bool.false_ne_true]
    exact ⟨_, rfl⟩

theorem cleaned_answers {journal : Journal} (h : Served journal) (entries : List String)
    (name : String) (removed : Bool) (c : SweepCall) :
    ∃ a next, (Cleaned journal entries name).steps removed c a next := by
  suffices hanswer : ∃ a, Answered journal entries name c a by
    obtain ⟨a, ha⟩ := hanswer
    exact ⟨a, _, ha, rfl⟩
  cases c with
  | readJournal n => exact ⟨.ok journal, fun _ ↦ rfl⟩
  | lookup attempt => exact ⟨.ok (some ⟨true, true⟩), fun _ ↦ rfl⟩
  | recheck identity => exact ⟨.ok .gone, fun _ ↦ ⟨.gone, rfl, by decide⟩⟩
  | now => exact ⟨.ok 0, 0, rfl⟩
  | engine upstream request =>
    exact ⟨.ok (absentReply journal request), fun _ ↦ absentReply_answers
      (fun resource hresource ↦ (h.associations.identified resource hresource).1) request⟩
  | readDirectory n => exact ⟨.ok entries, fun _ ↦ rfl⟩
  | writeStop _ | writeJournal _ _ | removeFile _ _ | removeDirectory _ =>
    exact ⟨.ok (), fun _ ↦ rfl⟩

/-! ## Retirement -/

theorem retires_iff {digest : String → String} {journal : Journal} {entries names : List String}
    (h : Served journal) (hname : uuidText journal.attempt.value ∈ names) :
    Retires digest journal.host journal entries names ↔
      (∀ intent ∈ journal.intents, intent.settled = true) ∧
        ∀ entry ∈ entries, entry ∈ journalFiles := by
  have hsweep := @sweepEntries_cleaned digest journal entries _ _ h rfl rfl names .empty false
  have hnames : names.contains (uuidText journal.attempt.value) = true := by simpa using hname
  rw [hnames, Bool.false_or, Bool.true_and] at hsweep
  have hcond : (journal.intents.all (·.settled) && entries.all journalFiles.contains) = true ↔
      (∀ intent ∈ journal.intents, intent.settled = true) ∧
        ∀ entry ∈ entries, entry ∈ journalFiles := by
    simp
  rw [← hcond]
  constructor
  · intro hretires
    -- the sweep ends, and what it ends with is what the journal says
    obtain ⟨result, last, hruns⟩ := Contract.ends_of_wp
      (fun removed c _ ↦ cleaned_answers h entries _ removed c) hsweep
    have hlast : last = _ := wp_runs hsweep hruns
    have hremoved : last = true := wp_runs hretires hruns
    exact hlast.symm.trans hremoved
  · intro hall
    refine wp_mono hsweep fun _ last hlast ↦ ?_
    rw [hlast]
    exact hall

theorem consistent_start {journal : Journal} (h : Served journal) (hnew : journal.intents = []) :
    Consistent journal (.start journal) ∧ ¬ Abandoned (.start journal) := by
  refine ⟨⟨h, h, rfl, ⟨rfl, rfl, rfl, rfl⟩, fun intent hintent ↦ nomatch hintent⟩, ?_⟩
  rintro ⟨intent, hintent, -⟩
  have hintent : intent ∈ journal.intents := hintent
  rw [hnew] at hintent
  cases hintent

/-- As long as its journal keeps up, a proxy leaves a journal that one sweep retires exactly when
the engine acknowledged every journalled creation with an identity, what it made was captured, no
answer is missing, and the journal's own files are all its directory holds. -/
theorem retired_iff {digest : String → String} {journal : Journal} {events : List Event}
    {last : Proxy} {entries names : List String} (hdigest : ∀ text, validId (digest text) = true)
    (hserved : Served journal) (hnew : journal.intents = [])
    (hvalid : ∀ id ∈ operations events, validOperation id = true)
    (hdistinct : (operations events).Nodup)
    (hkeeps : Proxy.Along digest (Keeps digest) (.start journal) events)
    (hrun : (Proxy.start journal).run digest events = some last)
    (hname : uuidText journal.attempt.value ∈ names) :
    Retires digest journal.host last.file entries names ↔
      (Proxy.Along digest (Acknowledged digest) (.start journal) events ∧ last.waiting = []) ∧
        ∀ entry ∈ entries, entry ∈ journalFiles := by
  obtain ⟨hstart, hnone⟩ := consistent_start hserved hnew
  have hfresh : ∀ id ∈ operations events, id ∉ (Proxy.start journal).memory.intents.map (·.id) := by
    intro id _ hmem
    have hmem : id ∈ journal.intents.map (·.id) := hmem
    rw [hnew] at hmem
    cases hmem
  obtain ⟨hlast, hsettled⟩ := hstart.run hdigest hkeeps hvalid hdistinct hfresh hrun
  obtain ⟨-, -, hhost, hattempt⟩ := hlast.owner
  rw [← hhost, retires_iff hlast.file (hattempt ▸ hname), hlast.written, hsettled]
  simp only [hnone, not_false_eq_true, true_and]

section Runs

/-- The journal of a proxy that starts to serve. -/
def served : Journal :=
  { Journal.new ⟨1⟩ ⟨2⟩ "acme/tools" "/var/run/docker.sock" "engine" with
    proxy := some ⟨7, "100"⟩ }

/-- A digest of no text; none is asked for here. -/
def zeros (_ : String) : String :=
  String.ofList (List.replicate 64 '0')

def firstOperation : String := "00000000-0000-4000-8000-000000000001"

/-- A network is created, acknowledged and captured. -/
def acknowledgedRun : List Event :=
  [.record "/v1.43/networks/create".toList (.object [("Name", .string "build")]) firstOperation
      true,
    .answered firstOperation (.ok ⟨201, .object [("Id", .string (zeros ""))]⟩)
      [.ok ⟨200, .object [("Created", .string "2024-01-01T00:00:00Z"),
        ("Labels", .object ((served.labels firstOperation).map fun label ↦
          (label.1, .string label.2)))]⟩] true]

/-- A container is created of an image that is not there yet. -/
def refusedRun : List Event :=
  [.record "/v1.43/containers/create".toList (.object [("Image", .string "alpine")])
      firstOperation true,
    .answered firstOperation (.ok ⟨404, .object [("message", .string "No such image: alpine")]⟩)
      [] true]

theorem served_served : Served served := by
  refine ⟨rfl, rfl, by decide, rfl, ⟨?_, ?_, ?_, ?_, ?_⟩⟩ <;> simp [served, Journal.new]

theorem zeros_valid (text : String) : validId (zeros text) = true := by
  unfold validId zeros
  rw [String.toList_ofList]
  decide

theorem firstOperation_valid : validOperation firstOperation = true := by
  unfold validOperation firstOperation
  rw [String.toList_ofList]
  decide

theorem acknowledgedRun_retired : ∃ last,
    (Proxy.start served).run zeros acknowledgedRun = some last ∧
      Retires zeros served.host last.file ["journal.json", "stop"] [uuidText 2] := by
  have hvalid : ∀ id ∈ operations acknowledgedRun, validOperation id = true := by
    rintro _ hid
    rw [List.mem_singleton.mp hid]
    exact firstOperation_valid
  refine ⟨_, rfl, ?_⟩
  refine (retired_iff zeros_valid served_served rfl hvalid (by decide) ?_
    (rfl : (Proxy.start served).run zeros acknowledgedRun = _) (List.mem_singleton.mpr rfl)).mpr
    ⟨⟨?_, rfl⟩, by decide⟩
  · refine ⟨?_, fun next _ ↦ ⟨rfl, fun _ _ ↦ trivial⟩⟩
    rintro _ _ ⟨⟩
    exact ⟨rfl, .inr ⟨rfl, rfl⟩⟩
  · refine ⟨trivial, ?_⟩
    rintro _ ⟨⟩
    have hcaptured : Captured zeros served ⟨firstOperation, .network, [], false, false⟩ (zeros "")
        [.ok ⟨200, .object [("Created", .string "2024-01-01T00:00:00Z"),
          ("Labels", .object ((served.labels firstOperation).map fun label ↦
            (label.1, .string label.2)))]⟩] :=
      ⟨zeros_valid "", _, _, rfl, .inr ⟨rfl, by decide, ⟨_, rfl⟩, .inl (by decide)⟩⟩
    exact ⟨⟨_, _, _, rfl, rfl, by decide, by decide, rfl, hcaptured⟩, fun _ _ ↦ trivial⟩

/-- The intent of a refused creation stays unsettled: the journal is kept. -/
theorem refused_creation_kept : ∃ last,
    (Proxy.start served).run zeros refusedRun = some last ∧ last.waiting = [] ∧
      ¬ Retires zeros served.host last.file journalFiles [uuidText 2] := by
  refine ⟨_, rfl, rfl, fun hretires ↦ ?_⟩
  have hfile : Served { served with
      intents := [⟨firstOperation, .container, [], false, false⟩] } :=
    ⟨rfl, rfl, by decide, rfl, ⟨by decide, by decide, by decide, by simp [served, Journal.new],
      by decide⟩⟩
  have hsettled := ((retires_iff hfile (by decide)).mp hretires).1 _ List.mem_cons_self
  cases hsettled

end Runs

end RunnerManager.Agent.DockerCleanup
